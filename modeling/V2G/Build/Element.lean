import V2G.Build.Rule
import V2G.Build.Scalar
import V2G.Build.Selection

/-!
# Elements from arguments

An element is built from named arguments. Each field takes the argument under its key, or
else under its name; the choice group takes its selection. Arguments that are left are not
wanted. Dictionaries among the arguments become elements in turn, with the places of their
faults below their own. Main statement: `Element.build` by the arguments' own readings.
-/

namespace V2G

variable [Url.Reader]

namespace Build

/-! ### Collections -/

abbrev Reading := Kind → Except Refusal Value

/-- What becomes of each item of a collection. -/
def readItems (k : Kind) (items : List Reading) : List (Except Refusal Value) :=
  items.mapIdx fun i read => (read k).mapError (·.under (.index i))

/-- The values of all items. The minimum counts the items that have a value. -/
def gatherAtLeast (least : Nat) (items : List (Except Refusal Value)) :
    Except Refusal (List Value) := do
  let (vs, issues) ← Refusal.survey items
  let few := if vs.length < least then [⟨[], .tooFew least vs.length⟩] else []
  match issues ++ few with
  | [] => return vs
  | issues => .error (.issues issues)

/-- An ordered collection. The maximum too counts the items that have a value; at the first
one beyond it the collection is too long, whatever its other items are. -/
def readList (k : Kind) (least most : Nat) (items : List Reading) : Except Refusal Value :=
  let all := readItems k items
  let within := Refusal.takeValues most all
  if within.length < all.length then do
    let _ ← Refusal.survey within
    .error (.fault (.tooMany most all.length))
  else (gatherAtLeast least all).map .tuple

/-- The distinct ones of some values, unless there are too many of them. -/
def dedupe (most : Nat) (vs : List Value) : Except Fault (List Value) :=
  let distinct := Value.distinct .structural vs
  if most < distinct.length then .error (.tooManyDistinct most distinct.length)
  else .ok distinct

/-- A set: its entries are distinct, and the limit counts the distinct ones. -/
def readSet (k : Kind) (least most : Nat) (items : List Reading) : Except Refusal Value := do
  let vs ← gatherAtLeast least (readItems k items)
  return .tuple (← (dedupe most vs).mapError Refusal.fault)

/-- The value that a sequence of arguments, or `v` as a whole, becomes for a field. -/
def readShape (v : Value) (items : Option (List Reading)) : Shape → Except Refusal Value
  | .one k => (readScalar k v).mapError Refusal.fault
  | .list k least most =>
    match items with
    | some items => readList k least most items
    | none => .error (.fault .notCollection)
  | .set k least most =>
    match items with
    | some items => readSet k least most items
    | none => .error (.fault .notCollection)

/-! ### Elements -/

/-- The key that an argument for a field is found under, and the argument. -/
def argument? (args : Keyed Arg) (f : Field) : Option (String × Arg) :=
  match Keyed.get? args f.key with
  | some a => some (f.key, a)
  | none => (Keyed.get? args f.name).map fun a => (f.name, a)

/-- Whether an argument leaves an optional field absent. -/
def leavesAbsent (f : Field) (v : Value) : Bool :=
  !f.required && (v.isNone || f.shape.isCollection && v.isEmptyCollection)

def readField (args : Keyed Arg) (f : Field) : Except Refusal (String × Value) :=
  match argument? args f with
  | none =>
    if f.required then .error (.issues [⟨[.key f.key], .missing⟩]) else .ok (f.name, .none)
  | some (key, a) =>
    if leavesAbsent f a.value then .ok (f.name, .none)
    else ((a.read f.shape).map fun v => (f.name, v)).mapError (·.under (.key key))

/-- The faults of arguments that no field takes. -/
def leftOver (args : Keyed Arg) (fs : List Field) : List (Except Refusal (String × Value)) :=
  let taken := fs.filterMap fun f => (argument? args f).map (·.1)
  ((args.keys.filter fun k => !taken.contains k).map fun k =>
    .error (.issues [⟨[.key k], .unexpected⟩]))

def readFields (e : Element) (args : Keyed Arg) : Except Refusal (List (String × Value)) :=
  Refusal.gather (e.fields.map (readField args) ++ leftOver args e.fields)

/-- The selection for the choice group of an element, and the arguments left for its
fields. -/
def readChoice (e : Element) (args : Keyed Arg) :
    Except Refusal (List (String × Value)) × Keyed Arg :=
  match e.choice with
  | none => (.ok [], args)
  | some c =>
    let (selection, args) := c.group.resolve c.name args
    ((selection.map fun v => [(c.name, v.getD .none)]).mapError Objection.refusal, args)

def checkRules (e : Element) (v : Value) : Except Refusal Value :=
  match Rule.broken? e v with
  | some error => .error (.message error)
  | none => .ok v

/-- The element that arguments, each with its reading, make. -/
def assemble (e : Element) (args : Keyed Arg) : Except Refusal Value := do
  let (choice, args) := readChoice e args
  let choice ← choice
  let fields ← readFields e args
  checkRules e (.element e (fields ++ choice))

/-! ### Readings -/

/-- The reading of a value of which no part becomes an element. -/
def scalarReading (v : Value) : Reading := fun k => (readScalar k v).mapError Refusal.fault

/-- The items of an element that is given as a collection: its fields in order, each a pair
of name and value. -/
def fieldReadings (fs : List (String × Value)) : List Reading :=
  fs.map fun (name, v) => scalarReading (.tuple [.text name, v])

mutual

/-- What an argument becomes as the value of a field. -/
def read : Value → Shape → Except Refusal Value
  | .dict es, s =>
    match s with
    | .one (.element e) => assemble e (arguments es)
    | s => readShape (.dict es) none s
  | .tuple xs, s => readShape (.tuple xs) (some (readings xs)) s
  | .list xs, s => readShape (.list xs) (some (readings xs)) s
  | .choice m v, s =>
    readShape (.choice m v) (some [scalarReading (.text m), fun k => read v (.one k)]) s
  | .none, s => readShape .none none s
  | .bool b, s => readShape (.bool b) none s
  | .int n, s => readShape (.int n) none s
  | .float x, s => readShape (.float x) none s
  | .text t, s => readShape (.text t) none s
  | .bytes data, s => readShape (.bytes data) none s
  | .token t token, s => readShape (.token t token) none s
  | .identifier t text, s => readShape (.identifier t text) none s
  | .url t, s => readShape (.url t) none s
  | .element e fs, s => readShape (.element e fs) (some (fieldReadings fs)) s
termination_by structural v => v

def readings : List Value → List Reading
  | [] => []
  | v :: vs => (fun k => read v (.one k)) :: readings vs
termination_by structural vs => vs

/-- The selection that an argument spells: a tagged value, or a pair of name and value. -/
def tagged? : Value → Option Tagged
  | .choice m v => some ⟨.text m, v, fun k => read v (.one k)⟩
  | .tuple [m, v] => some ⟨m, v, fun k => read v (.one k)⟩
  | .list [m, v] => some ⟨m, v, fun k => read v (.one k)⟩
  | _ => none
termination_by structural v => v

def arguments : List (String × Value) → Keyed Arg
  | [] => []
  | (k, v) :: es => (k, ⟨v, read v, tagged? v⟩) :: arguments es
termination_by structural es => es

end

theorem readings_eq (vs : List Value) :
    readings vs = vs.map fun v k => read v (.one k) := by
  induction vs with
  | nil => rfl
  | cons v vs ih => simp [readings, ih]

theorem arguments_eq (es : List (String × Value)) :
    arguments es = es.map fun (k, v) => (k, ⟨v, read v, tagged? v⟩) := by
  induction es with
  | nil => rfl
  | cons e es ih => simp [arguments, ih]

end Build

/-- The element of a class that named arguments make. -/
def Element.build (e : Element) (args : Keyed Value) : Except Refusal Value :=
  Build.assemble e (Build.arguments args)

end V2G
