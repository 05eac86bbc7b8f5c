import V2G.Url.Escape

/-!
# Punycode

The ASCII form of a label with other characters: its ASCII characters, a hyphen, and the
others as variable-length numbers to base 36, each the distance from the one before. Only
reading is needed here, to tell whether a label that claims to be such a form is one.
-/

namespace V2G.Url.Punycode

def digit? (c : Char) : Option Nat :=
  if 'a' ≤ c && c ≤ 'z' then some (c.toNat - 97)
  else if '0' ≤ c && c ≤ '9' then some (c.toNat - 22)
  else none

def threshold (k bias : Nat) : Nat :=
  if k ≤ bias then 1 else if bias + 26 ≤ k then 26 else k - bias

def scaleDown (delta k : Nat) : Nat × Nat :=
  if 455 < delta then scaleDown (delta / 35) (k + 36) else (delta, k)
termination_by delta
decreasing_by omega

def adapt (delta count : Nat) (first : Bool) : Nat :=
  let delta := if first then delta / 700 else delta / 2
  let (delta, k) := scaleDown (delta + delta / count) 0
  k + 36 * delta / (delta + 38)

/-- One number off the front: its value added to `i`, and the rest. -/
def number? (bias : Nat) : List Char → Nat → Nat → Nat → Option (Nat × List Char)
  | [], _, _, _ => none
  | c :: rest, k, weight, i => do
    let d ← digit? c
    let t := threshold k bias
    if d < t then some (i + d * weight, rest)
    else number? bias rest (k + 36) (weight * (36 - t)) (i + d * weight)

theorem number?_length {bias k w i : Nat} {cs : List Char} {r : Nat × List Char}
    (h : number? bias cs k w i = some r) : r.2.length < cs.length := by
  induction cs generalizing k w i with
  | nil => simp [number?] at h
  | cons c rest ih =>
    simp only [number?, Option.bind_eq_bind, Option.bind_eq_some_iff] at h
    obtain ⟨d, -, h⟩ := h
    split at h
    · cases h; simp
    · have := ih h; simp; omega

/-- The code points that the numbers insert into `out`. -/
def insertions? (bias n i : Nat) (out : List Nat) (cs : List Char) : Option (List Nat) :=
  match _hcs : cs with
  | [] => some out
  | _ :: _ =>
    match _h : number? bias cs 36 1 i with
    | none => none
    | some (j, rest) =>
      let count := out.length + 1
      let point := n + j / count
      if point.isValidChar then
        insertions? (adapt (j - i) count (i == 0)) point (j % count + 1)
          (out.take (j % count) ++ point :: out.drop (j % count)) rest
      else none
termination_by cs.length
decreasing_by
  have := number?_length _h
  simp_all

/-- The ASCII characters before the last hyphen, and what follows it. -/
def basic (cs : List Char) : List Char × List Char :=
  let tail := (cs.reverse.takeWhile (· != '-')).reverse
  if tail.length = cs.length then ([], cs)
  else (cs.take (cs.length - tail.length - 1), tail)

/-- The code points of a text in its ASCII form. -/
def decode? (cs : List Char) : Option (List Nat) :=
  let (start, rest) := basic cs
  insertions? 72 128 0 (start.map (·.toNat)) rest

end V2G.Url.Punycode
