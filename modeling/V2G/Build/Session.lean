import V2G.Text.Quoted

/-!
# New sessions

A session goes by an identifier of up to eight bytes in hexadecimal digits.
-/

namespace V2G.Session

/-- The identifier of a new session from random bytes. -/
def newId (bytes : List UInt8) : String :=
  String.ofList ((bytes.flatMap fun b => Text.hex 2 b.toNat).map Char.toUpper)

end V2G.Session
