import V2G.Build.Single

/-!
# Mappings that are no dictionaries

Where an element is wanted, it may be given as a dictionary, and any other mapping is taken as well.
But only in a dictionary is the choice group resolved, and are empty collections dropped: from a
mapping, each field takes by itself what stands under its key, or else under its name, and so does
the choice group under its own name, whatever member is named there. Values have no form for such a
mapping. Wherever it is accepted, it is as good as the element that it makes.
-/

namespace V2G

variable [Url.Reader]

namespace Build

/-- The value of a field, or of a choice group, that takes its argument by itself. -/
def readAlone (key name : String) (required : Bool) (read : Value → Except Refusal Value)
    (found : Option (String × Arg)) : Except Refusal (String × Value) :=
  match found with
  | none => if required then .error (.issues [⟨[.key key], .missing⟩]) else .ok (name, .none)
  | some (k, a) => ((read a.value).map fun v => (name, v)).mapError (·.under (.key k))

def fieldAlone (args : Keyed Arg) (f : Field) : Except Refusal (String × Value) :=
  readAlone f.key f.name f.required f.read (argument? args f)

def choiceAlone (args : Keyed Arg) (c : ChoiceField) : Except Refusal (String × Value) :=
  readAlone c.name c.name c.group.required c.read
    ((Keyed.get? args c.name).map fun a => (c.name, a))

/-- The arguments that are not the one of the choice group. -/
def besides (args : Keyed Arg) : Option ChoiceField → Keyed Arg
  | none => args
  | some c => args.filter fun (k, _) => k != c.name

end Build

/-- The element of a class that a mapping makes. -/
def Element.ofMapping (e : Element) (es : List (String × Value)) : Except Refusal Value := do
  let args := Build.arguments es
  let fs ← Refusal.gather (e.fields.map (Build.fieldAlone args) ++
    e.choice.toList.map (Build.choiceAlone args) ++
    Build.leftOver (Build.besides args e.choice) e.fields)
  Build.checkRules e (.element e fs)

end V2G
