import V2G.Base64
import V2G.Build.Element
import V2G.Trace.Basic

/-!
# Reading the wire form

An object of a document is read as an element: its mandatory keys in declaration order, then
its optional keys, then the members of its choice group, each value to the end before the
next; after that its unknown keys, and at last the element is built from what was read. The
first thing wrong is reported at its path. Scalars must have the JSON type of their kind;
limits are those of building. Absent and null are the same.
-/

namespace V2G.Wire

variable [Url.Reader]

/-- The place of an issue of an element in the document: the first step of its place may be
the name of a field. -/
def documentPlace (e : Element) : Path → Path
  | .key k :: rest =>
    .key (((e.fields.find? (·.name == k)).map (·.key)).getD k) :: rest
  | place => place

/-- A path, or the class of the element where there is none. -/
def orClass (e : Element) (path : Path) : Path :=
  if path.render = "" then [.key e.name] else path

/-- What refused arguments say about the document they were read from. -/
def ofRefusal (e : Element) (path : Path) : Refusal → Failure
  | .issues (i :: _) =>
    .error (.malformed (orClass e (path ++ documentPlace e i.place)) (.refused i.fault))
  | .issues [] => .error (.malformed (orClass e path) .none)
  | .message error => .error error
  | .unhashable type => .misuse (.unhashable type)

def malformed {α : Type} (path : Path) (detail : Detail) : Traced α :=
  .error (.malformed path detail)

/-- Bytes from Base64 text. -/
def decodeBytes (path : Path) (s : String) : Traced Value :=
  if s.toList.any (0x80 ≤ ·.toNat) then .misuse .foreignCharacters
  else
    match Base64.decode s.toList with
    | .ok data => pure (.bytes data)
    | .error f => malformed path (.base64 f)

/-- A value that is no object or array of what is asked for. -/
def decodeKind (k : Kind) (j : Json) (path : Path) : Traced Value :=
  match k, j with
  | .int _ _, .int n => pure (.int n)
  | .int _ _, j => malformed path (.notA "integer" j.typeName)
  | .bool, .bool b => pure (.bool b)
  | .bool, j => malformed path (.notA "boolean" j.typeName)
  | .bytes _ _, .str s => decodeBytes path s
  | .bytes _ _, j => malformed path (.notBase64Text j.typeName)
  | .element e, j => malformed (orClass e path) (.notAnObject j.typeName)
  | _, .str s => pure (.text s)
  | _, j => malformed path (.notA "string" j.typeName)

def decodeShape (s : Shape) (j : Json) (path : Path) : Traced Value :=
  match s with
  | .one k => decodeKind k j path
  | _ => malformed path (.notAnArray j.typeName)

/-- A value of a document, to be read for a field. -/
structure Entry where
  isNull : Bool
  decode : Shape → Path → Traced Value

abbrev Object := Keyed Entry

/-- The entry under a key, if it is not null. -/
def Object.entry? (o : Object) (key : String) : Option Entry :=
  (Keyed.get? o key).filter (!·.isNull)

def decodeItems (k : Kind) (path : Path) (items : List (Kind → Path → Traced Value)) :
    Traced Value := do
  let vs ← (items.mapIdx fun i read => read k (path ++ [.index i])).mapM id
  return .tuple vs

def decodeField (o : Object) (path : Path) (f : Field) : Traced (Keyed Value) :=
  let place := path ++ [.key f.key]
  match o.entry? f.key with
  | some entry => do
    Traced.emit (.decoding place)
    return [(f.key, ← entry.decode f.shape place)]
  | none => if f.required then .error (.missingMandatory place) else pure []

def decodeMember (o : Object) (path : Path) (m : Member) : Traced (Keyed Value) :=
  let place := path ++ [.key m.key]
  match o.entry? m.key with
  | some entry => do
    Traced.emit (.decodingMember place)
    return [(m.key, ← entry.decode (.one m.kind) place)]
  | none => pure []

/-- Keys that the element does not declare are refused, or else passed over. -/
def checkKeys (strict : Bool) (e : Element) (o : Object) (path : Path) : Traced Unit :=
  match o.keys.filter fun k => !e.keys.contains k with
  | [] => pure ()
  | k :: ks =>
    if strict then malformed (path ++ [.key k]) (.unknownKey e)
    else Traced.emit (.ignoredKeys (k :: ks) e)

def decodeObject (strict : Bool) (e : Element) (o : Object) (path : Path) : Traced Value := do
  let mandatory ← e.mandatoryFields.mapM (decodeField o path)
  let optional ← e.optionalFields.mapM (decodeField o path)
  let members ← e.members.mapM (decodeMember o path)
  checkKeys strict e o path
  let args := (mandatory ++ optional ++ members).flatten
  Traced.ofExcept ((e.build args).mapError (ofRefusal e path))

mutual

/-- The value of a field that a document holds. -/
def decode (strict : Bool) : Json → Shape → Path → Traced Value
  | .obj ms, s, path =>
    match s with
    | .one (.element e) => decodeObject strict e (object strict ms) path
    | s => decodeShape s (.obj ms) path
  | .arr xs, s, path =>
    match s with
    | .one k => decodeKind k (.arr xs) path
    | .list k _ _ => decodeItems k path (items strict xs)
    | .set k _ _ => decodeItems k path (items strict xs)
  | .null, s, path => decodeShape s .null path
  | .bool b, s, path => decodeShape s (.bool b) path
  | .int n, s, path => decodeShape s (.int n) path
  | .float x, s, path => decodeShape s (.float x) path
  | .str t, s, path => decodeShape s (.str t) path
termination_by structural j => j

def items (strict : Bool) : List Json → List (Kind → Path → Traced Value)
  | [] => []
  | j :: js => (fun k path => decode strict j (.one k) path) :: items strict js
termination_by structural js => js

def object (strict : Bool) : List (String × Json) → Object
  | [] => []
  | (k, j) :: ms => (k, ⟨j.isNull, decode strict j⟩) :: object strict ms
termination_by structural ms => ms

end

theorem items_eq (strict : Bool) (js : List Json) :
    items strict js = js.map fun j k path => decode strict j (.one k) path := by
  induction js with
  | nil => rfl
  | cons j js ih => simp [items, ih]

theorem object_eq (strict : Bool) (ms : List (String × Json)) :
    object strict ms = ms.map fun (k, j) => (k, ⟨j.isNull, decode strict j⟩) := by
  induction ms with
  | nil => rfl
  | cons m ms ih => simp [object, ih]

end V2G.Wire
