import V2G.Text.Quoted
import V2G.Text.UpperCase

/-!
# Levels

The names of record levels, in any letter case.
-/

namespace V2G

namespace Level

def names : List (String × Int) :=
  [ ("CRITICAL", 50), ("FATAL", 50), ("ERROR", 40), ("WARN", 30), ("WARNING", 30),
    ("INFO", 20), ("DEBUG", 10), ("TRACE", 5), ("NOTSET", 0) ]

def ofName? (name : String) : Option Int := names.lookup (Text.upper name)

/-- The level that counts where none is set. -/
def fallback : Int := 30

/-- A level of zero is no level. -/
def effective (level : Int) : Int := if level = 0 then fallback else level

end Level

end V2G
