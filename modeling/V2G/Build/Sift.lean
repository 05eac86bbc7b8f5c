import V2G.Build.Element
import V2G.Value.Hashing

/-!
# Sifting

The distinct ones of some values, found by way of a table of hashes: a value is passed over if one
that stands in the table under the same hash is equal to it. Main definition: `sift`.
-/

namespace V2G.Build

variable {H : Type} [DecidableEq H]

/-- The table of what was seen so far, and what was kept of it, in order. -/
structure Sieve (H : Type) where
  seen : List (H × Value)
  kept : List Value

namespace Sieve

def empty : Sieve H := ⟨[], []⟩

/-- Entries of the table under another hash are not compared. -/
def holds (s : Sieve H) (h : H) (v : Value) : Bool :=
  s.seen.any fun (h', w) => h' == h && w.equal .plain v

def add (d : Digest H) (s : Sieve H) (v : Value) : Except Refusal (Sieve H) :=
  match v.unhashable? with
  | some type => .error (.unhashable type)
  | none => do
    let h ← (v.hash d false).mapError .unhashable
    return if s.holds h v then s else ⟨(h, v) :: s.seen, s.kept ++ [v]⟩

end Sieve

/-- The distinct ones of some values, unless there are too many of them. -/
def sift (d : Digest H) (most : Nat) (vs : List Value) : Except Refusal (List Value) := do
  let s ← vs.foldlM (Sieve.add d) .empty
  if most < s.kept.length then .error (.fault (.tooManyDistinct most s.kept.length))
  else return s.kept

end V2G.Build
