import V2G.Build.Refusal
import V2G.Value.Hashing

/-!
# Selections

How arguments select a member of a choice group. A member may be given by itself, under its
name or its key, or together with its name under the field of the group. What is given
twice, or for two members, conflicts; an absent value selects nothing. The arguments that
speak of the group are used up.
-/

namespace V2G

/-- A value, and what it becomes as a value of a kind. -/
structure Given where
  value : Value
  read : Kind → Except Refusal Value

/-- A member together with its value, as one argument. -/
structure Tagged where
  member : Value
  given : Given

/-- An argument, what it becomes as a value of a field, and the selection that it spells. -/
structure Arg where
  value : Value
  read : Shape → Except Refusal Value
  tagged? : Option Tagged

def Arg.given (a : Arg) : Given := ⟨a.value, fun k => a.read (.one k)⟩

/-- Whether a kind is a type without limits, which an element value of another class is
never converted to. -/
def Kind.isBare : Kind → Bool
  | .int none none | .text 0 none | .bytes 0 none => true
  | .int _ _ | .text _ _ | .bytes _ _ => false
  | _ => true

/-- Of some options at most one may be set (if `exclusive`) and at least one (if `required`).
The result lists those that are. -/
def oneSet (group : String) (options : List String) (isSet : String → Bool)
    (exclusive required : Bool) : Except MessageError (List String) :=
  let chosen := options.filter isSet
  if exclusive && 1 < chosen.length then .error (.conflictingChoice group chosen)
  else if required && chosen.isEmpty then .error (.missingChoice group options)
  else .ok chosen

namespace Group

/-- The member that a value names. Names are looked up by hash. -/
def find (g : Group) (name : Value) : Except Objection Member :=
  match name.unhashable? with
  | some type => .error (.unhashable type)
  | none =>
    match name.text?.bind g.member? with
    | some m => .ok m
    | none => .error (.fault (.notAMember name.shown g))

/-- The class of an element that is no value of the kind, without any conversion. -/
def misfit? (k : Kind) (v : Value) : Option Element :=
  match v with
  | .element e _ => if k.isBare && k != .element e then some e else none
  | _ => none

/-- The selection of a member with a value. -/
def choose (m : Member) (x : Given) : Except Objection Value :=
  match misfit? m.kind x.value with
  | some e => .error (.fault (.otherElement m.key m.kind e))
  | none =>
    match x.read m.kind with
    | .ok v => .ok (.choice m.name v)
    | .error (.issues is) => .error (.fault (.badMember m.key (is.map fun i => (i.place, i.fault))))
    | .error (.message e) => .error (.message e)
    | .error (.unhashable t) => .error (.unhashable t)

def select (g : Group) (member : Value) (x : Given) : Except Objection Value := do
  choose (← g.find member) x

/-- The argument of a name, if it is not absent, and the arguments without it. -/
def draw (args : Keyed Arg) (name : String) : Option Arg × Keyed Arg :=
  ((Keyed.get? args name).filter (!·.value.isNone), args.erase name)

/-- The members that are given by themselves, and the arguments left. -/
def candidates (g : Group) : List Member → Keyed Arg →
    Except MessageError (List (Member × Given)) × Keyed Arg
  | [], args => (.ok [], args)
  | m :: ms, args =>
    let (byName, args) := draw args m.name
    let (byKey, args) := draw args m.key
    if byName.isSome && byKey.isSome then
      (.error (.conflictingChoice g.name [m.key, m.key]), args)
    else
      let (rest, args) := candidates g ms args
      (rest.map (((byName.or byKey).map fun a => (m, a.given)).toList ++ ·), args)

/-- The selection that is given under the field of the group. -/
def resolveTagged (g : Group) (found : List (Member × Given)) (a : Arg) :
    Except Objection Value :=
  match a.tagged? with
  | none => .error (.fault (.notAChoice g a.value.typeName))
  | some t => do
    if !found.isEmpty then
      let m ← g.find t.member
      .error (.message (.conflictingChoice g.name (m.key :: found.map (·.1.key))))
    g.select t.member t.given

/-- The selection among the members that are given by themselves. -/
def resolveFound (g : Group) (found : List (Member × Given)) : Except Objection (Option Value) := do
  let _ ← (oneSet g.name g.keys (fun k => found.any (·.1.key == k)) true g.required).mapError
    Objection.message
  match found with
  | [] => return none
  | (m, x) :: _ => return some (← choose m x)

/-- The selection that arguments make, and the arguments left. -/
def resolve (g : Group) (field : String) (args : Keyed Arg) :
    Except Objection (Option Value) × Keyed Arg :=
  match g.candidates g.members args with
  | (.error e, args) => (.error (.message e), args)
  | (.ok found, args) =>
    match draw args field with
    | (some a, args) => ((g.resolveTagged found a).map some, args)
    | (none, args) => (g.resolveFound found, args)

end Group

end V2G
