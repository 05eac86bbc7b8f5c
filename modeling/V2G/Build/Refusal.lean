import V2G.Error.MessageError

/-!
# Refusals

Why arguments make no element. Faults of single values are gathered, so that a report
lists all of them; a message error, or a value that cannot be looked up because it has no
hash, ends the building of an element at once.
-/

namespace V2G

inductive Refusal where
  | issues (issues : List Issue)
  | message (error : MessageError)
  | unhashable (type : String)

/-- Why a choice group does not resolve. -/
inductive Objection where
  | fault (fault : Fault)
  | message (error : MessageError)
  | unhashable (type : String)

def Issue.under (step : Step) (i : Issue) : Issue := ⟨step :: i.place, i.fault⟩

namespace Refusal

def fault (f : Fault) : Refusal := .issues [⟨[], f⟩]

/-- The refusal of a part, as seen from the whole. -/
def under (step : Step) : Refusal → Refusal
  | .issues is => .issues (is.map (·.under step))
  | r => r

variable {α : Type}

/-- Outcomes of parts from first to last: the values of those that have one, and the
issues of all others, unless one of them ends it all. -/
def survey : List (Except Refusal α) → Except Refusal (List α × List Issue)
  | [] => .ok ([], [])
  | .ok v :: rest => (survey rest).map fun (vs, is) => (v :: vs, is)
  | .error (.issues is) :: rest => (survey rest).map fun (vs, js) => (vs, is ++ js)
  | .error r :: _ => .error r

/-- The outcomes before the value that is one more than `most`. -/
def takeValues (most : Nat) : List (Except Refusal α) → List (Except Refusal α)
  | [] => []
  | .error r :: rest => .error r :: takeValues most rest
  | .ok v :: rest =>
    match most with
    | 0 => []
    | most + 1 => .ok v :: takeValues most rest

/-- The values of all parts, if none is refused. -/
def gather (outcomes : List (Except Refusal α)) : Except Refusal (List α) :=
  match survey outcomes with
  | .ok (vs, []) => .ok vs
  | .ok (_, is) => .error (.issues is)
  | .error r => .error r

theorem survey_map_ok (vs : List α) : survey (vs.map .ok) = .ok (vs, []) := by
  induction vs with
  | nil => rfl
  | cons v vs ih => simp [survey, ih, Except.map]

theorem takeValues_map_ok (most : Nat) (vs : List α) :
    takeValues most (vs.map .ok) = (vs.take most).map .ok := by
  induction vs generalizing most with
  | nil => simp [takeValues]
  | cons v vs ih => cases most <;> simp [takeValues, ih]

end Refusal

def Objection.refusal : Objection → Refusal
  | .fault f => .fault f
  | .message e => .message e
  | .unhashable t => .unhashable t

end V2G
