import V2G.Schema.Declaration
import V2G.Value.Basic

/-!
# Equality

Three ways to compare values. `plain` compares what values stand for: numbers by size,
tokens and identifiers by their text, a selection as the pair it is. `structural` keeps
tokens apart from their text, and does not ask whether a sequence is a tuple or a list.
`unordered` compares collections as sets of structurally equal entries. Elements compare
field by field under each, the fields that are sets as sets.
-/

namespace V2G

/-- The fields of an element with whether each is a set, its choice last. -/
def Element.slots (e : Element) : List (String × Bool) :=
  e.fields.map (fun f => (f.name, f.shape.isUnordered)) ++
    (e.choice.map fun c => (c.name, false)).toList

inductive Comparison where
  | plain
  | structural
  | unordered
  deriving DecidableEq

namespace Value

/-- The integer that a number is equal to. -/
def integer? : Value → Option Int
  | .bool b => some (if b then 1 else 0)
  | .int n => some n
  | .float x => x.toInt?
  | _ => Option.none

def sameNumber (v w : Value) : Bool :=
  match v.integer?, w.integer? with
  | some m, some n => m == n
  | Option.none, Option.none =>
    match v, w with
    | .float x, .float y => x == y && !x.isNaN
    | _, _ => false
  | _, _ => false

def isToken : Value → Bool
  | .token _ _ => true
  | _ => false

def isList : Value → Bool
  | .list _ => true
  | _ => false

/-- What a value has in sequence: the items of a collection, the two parts of a selection. -/
def sequence? : Value → Option (List Value)
  | .tuple xs | .list xs => some xs
  | .choice m v => some [.text m, v]
  | _ => Option.none

/-- Comparison of a text that is no token. -/
def sameText (s : String) (mode : Comparison) (w : Value) : Bool :=
  match mode with
  | .plain => w.text? == some s
  | _ => !w.isToken && w.text? == some s

/-- A value as the left side of a comparison. -/
abbrev Matcher := Comparison → Value → Bool

def pairwise (mode : Comparison) : List Matcher → List Value → Bool
  | [], [] => true
  | m :: ms, w :: ws => m mode w && pairwise mode ms ws
  | _, _ => false

/-- As many entries on both sides, and each with an equal one on the other side. -/
def sameSet (ms : List Matcher) (ws : List Value) : Bool :=
  ms.length == ws.length && ms.all (fun m => ws.any (m .structural)) &&
    ws.all (fun w => ms.any (· .structural w))

def sameSequence (isList : Bool) (ms : List Matcher) (mode : Comparison) (w : Value) : Bool :=
  match w.sequence? with
  | Option.none => false
  | some ws =>
    match mode with
    | .plain => w.isList == isList && pairwise .plain ms ws
    | .structural => pairwise .structural ms ws
    | .unordered => sameSet ms ws

/-- The field of an element as the left side: what is not listed is absent. -/
def fieldMatcher (ms : Keyed Matcher) (name : String) : Matcher :=
  (Keyed.get? ms name).getD fun _ w => w.isNone

mutual

def equal : Value → Comparison → Value → Bool
  | .none, _, w => w.isNone
  | .bool b, _, w => sameNumber (.bool b) w
  | .int n, _, w => sameNumber (.int n) w
  | .float x, _, w => sameNumber (.float x) w
  | .text s, mode, w => sameText s mode w
  | .identifier _ s, mode, w => sameText s mode w
  | .token t s, mode, w =>
    match mode, w with
    | .plain, w => w.text? == some s
    | _, .token t' s' => t == t' && s == s'
    | _, _ => false
  | .bytes data, _, w => match w with | .bytes data' => data == data' | _ => false
  | .url s, _, w => match w with | .url s' => s == s' | _ => false
  | .tuple xs, mode, w => sameSequence false (matchers xs) mode w
  | .list xs, mode, w => sameSequence true (matchers xs) mode w
  | .choice m v, mode, w => sameSequence false [sameText m, equal v] mode w
  | .dict es, _, w =>
    match w with
    | .dict es' =>
      es.length == es'.length && (fieldMatchers es).all fun (k, m) =>
        ((Keyed.get? es' k).map (m .plain)).getD false
    | _ => false
  | .element e fs, _, w =>
    match w with
    | .element e' fs' =>
      e == e' && e.slots.all fun (name, isSet) =>
        fieldMatcher (fieldMatchers fs) name (if isSet then .unordered else .structural)
          ((Value.element e' fs').field name)
    | _ => false
termination_by structural v => v

def matchers : List Value → List Matcher
  | [] => []
  | v :: vs => equal v :: matchers vs
termination_by structural vs => vs

def fieldMatchers : List (String × Value) → Keyed Matcher
  | [] => []
  | (k, v) :: fs => (k, equal v) :: fieldMatchers fs
termination_by structural fs => fs

end

theorem matchers_eq (vs : List Value) : matchers vs = vs.map equal := by
  induction vs with
  | nil => rfl
  | cons v vs ih => simp [matchers, ih]

theorem fieldMatchers_eq (fs : List (String × Value)) :
    fieldMatchers fs = fs.map fun (k, v) => (k, equal v) := by
  induction fs with
  | nil => rfl
  | cons f fs ih => simp [fieldMatchers, ih]

/-- Structural equality, the equality of elements. -/
def same (v w : Value) : Bool := v.equal .structural w

/-- The first entry of each class of equal entries, in order. -/
def distinct (mode : Comparison) (vs : List Value) : List Value :=
  vs.foldl (fun kept v => if kept.any (fun w => v.equal mode w) then kept else kept ++ [v]) []

end Value

end V2G
