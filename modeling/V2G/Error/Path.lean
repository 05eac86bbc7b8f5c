/-!
# Paths

The way from the root of a document or of the arguments to a place in it: keys and
indexes. Written out, keys are joined by points and indexes stand in brackets.
-/

namespace V2G

inductive Step where
  | key (name : String)
  | index (n : Nat)
  deriving DecidableEq

abbrev Path := List Step

namespace Path

def join (path : String) : Step → String
  | .key k => if path = "" then k else path ++ "." ++ k
  | .index n => path ++ "[" ++ toString n ++ "]"

def render (path : Path) : String := path.foldl join ""

theorem render_append_singleton (path : Path) (s : Step) :
    render (path ++ [s]) = join (render path) s := by
  simp [render]

end Path

end V2G
