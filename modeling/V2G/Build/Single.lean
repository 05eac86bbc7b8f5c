import V2G.Build.Element

/-!
# Single fields, identifiers and tokens

What an argument becomes for one field by itself, or as an identifier or token outside of any
element, and whether an attribute of a finished element can be assigned.
-/

namespace V2G

variable [Url.Reader]

/-- The value of a field from an argument. -/
def Field.read (f : Field) (v : Value) : Except Refusal Value :=
  if !f.required && v.isNone then .ok .none else Build.read v f.shape

namespace ChoiceField

/-- The two parts of a selection. -/
def parts : List String := ["member", "value"]

/-- The name of a member, at its place in a selection. -/
def readName (place : Step) (v : Value) : Except Refusal Value :=
  (Build.readText 0 none v).mapError fun f => .issues [⟨[place], f⟩]

def partsIssues (here : List (Except Refusal Value)) (rest : List Issue) :
    Except Refusal (List Value) := do
  let (vs, issues) ← Refusal.survey here
  if issues.isEmpty && rest.isEmpty then return vs else .error (.issues (issues ++ rest))

def selectionOf : List Value → Value
  | [.text m, v] => .choice m v
  | _ => .none

/-- A selection from its parts in order. -/
def readSequence (xs : List Value) : Except Refusal Value :=
  let missing (name : String) : Except Refusal Value :=
    .error (.issues [⟨[.key name], .missingArgument⟩])
  let here := match xs with
    | [] => parts.map missing
    | [m] => [readName (.index 0) m, missing "value"]
    | m :: v :: _ => [readName (.index 0) m, .ok v]
  let extra := (List.range (xs.length - 2)).map fun i =>
    (⟨[.index (i + 2)], .unexpectedArgument⟩ : Issue)
  (partsIssues here extra).map selectionOf

/-- A selection from its parts by name. -/
def readNamed (es : List (String × Value)) : Except Refusal Value :=
  let part (name : String) (read : Value → Except Refusal Value) : Except Refusal Value :=
    match Keyed.get? es name with
    | some v => read v
    | none => .error (.issues [⟨[.key name], .missingArgument⟩])
  let here := [part "member" (readName (.key "member")), part "value" .ok]
  let extra := (es.filter fun (k, _) => !parts.contains k).map fun (k, _) =>
    (⟨[.key k], .unexpectedKeyword⟩ : Issue)
  (partsIssues here extra).map selectionOf

/-- The value of the field of a choice group from an argument by itself. The members of the
group are not looked at. -/
def read (c : ChoiceField) (v : Value) : Except Refusal Value :=
  match v with
  | .none => if c.group.required then .error (.fault .notArguments) else .ok .none
  | .choice m v => .ok (.choice m v)
  | .tuple xs | .list xs => readSequence xs
  | .dict es => readNamed es
  | _ => .error (.fault .notArguments)

end ChoiceField

/-- The text of a choice group in diagnostics. -/
def Group.text (g : Group) : String :=
  let required := if g.required then "True" else "False"
  s!"ChoiceGroup({Text.quoted g.name}, members={Text.quotedList g.names}, required={required})"

/-- The identifier that an argument stands for, or the error that names the type. -/
def IdentifierType.tryRead (t : IdentifierType) (v : Value) : Except MessageError Value :=
  (t.read v).mapError fun f => .malformed [.key t.name] (.identifier f)

namespace TokenType

/-- The token that a value spells. -/
def read? (t : TokenType) (v : Value) : Option String := v.text?.filter t.tokens.contains

/-- Why a value spells no token. -/
def refusal (t : TokenType) (v : Value) : String :=
  s!"'{v.shown}' is not a valid {t.name} token. Valid tokens are {Text.quotedList t.tokens}"

end TokenType

/-- What comes of assigning an attribute of a finished element. Its fields are frozen, and
so is any name it does not have; only hidden attributes can be set. One of those is the
request that a response is bound to. -/
inductive Assignment where
  | done
  | bound
  | frozen
  | constant (element : Element)
  deriving DecidableEq

/-- The attributes that belong to a class of elements and not to its values. -/
def Element.constants (e : Element) : List String :=
  (if e.isMessage then ["xsd_name"] else []) ++ if e.isResponse then ["request_type"] else []

def Element.assign (e : Element) (name : String) : Assignment :=
  if e.constants.contains name then .constant e
  else if e.isResponse && name = "_request" then .bound
  else if name.startsWith "_" then .done
  else .frozen

end V2G
