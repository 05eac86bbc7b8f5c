import V2G.Keyed
import V2G.Text.Blank

/-!
# Environment files

A file of variables, one binding a line: a name, perhaps after the word `export` or in
single quotes, an equals sign and a value. A value in quotes may run over several lines and
hold escapes, a bare one ends before a comment. A line that is no binding is passed over. A
value may refer to other variables.
-/

namespace V2G.EnvFile

/-- Line ends of all kinds as line feeds. -/
def unifyLines : List Char → List Char
  | '\r' :: '\n' :: rest => '\n' :: unifyLines rest
  | '\r' :: rest => '\n' :: unifyLines rest
  | c :: rest => c :: unifyLines rest
  | [] => []

def isLineBlank (c : Char) : Bool := Text.isBlank c && c != '\n'

/-! ### Values -/

/-- Text up to a closing quote, and what follows. A quote after a backslash closes only
where no other quote does. -/
def cutQuoted? (quote : Char) : List Char → Option (List Char × List Char)
  | [] => none
  | '\\' :: c :: rest =>
    if c = quote then
      match cutQuoted? quote rest with
      | some (value, rest') => some ('\\' :: c :: value, rest')
      | none => some (['\\'], rest)
    else (cutQuoted? quote (c :: rest)).map fun (value, rest') => ('\\' :: value, rest')
  | c :: rest =>
    if c = quote then some ([], rest)
    else (cutQuoted? quote rest).map fun (value, rest') => (c :: value, rest')

def singleEscape? (c : Char) : Option Char :=
  if c = '\\' || c = '\'' then some c else none

def doubleEscape? : Char → Option Char
  | '\\' => some '\\'
  | '\'' => some '\''
  | '"' => some '"'
  | 'a' => some '\x07'
  | 'b' => some '\x08'
  | 'f' => some '\x0c'
  | 'n' => some '\n'
  | 'r' => some '\r'
  | 't' => some '\t'
  | 'v' => some '\x0b'
  | _ => none

/-- A text with the escapes of a kind resolved. -/
def resolveEscapes (escape? : Char → Option Char) : List Char → List Char
  | '\\' :: c :: rest =>
    match escape? c with
    | some d => d :: resolveEscapes escape? rest
    | none => '\\' :: resolveEscapes escape? (c :: rest)
  | c :: rest => c :: resolveEscapes escape? rest
  | [] => []

/-- A bare value: without a comment, which starts at blanks before a hash sign, and without
blanks at its end. -/
def bareValue (cs : List Char) : List Char :=
  (cutComment cs).reverse.dropWhile Text.isBlank |>.reverse
where
  cutComment : List Char → List Char
    | [] => []
    | c :: rest =>
      if Text.isBlank c && (rest.dropWhile Text.isBlank).head? = some '#' then []
      else c :: cutComment rest

/-- A value and what follows it. -/
def cutValue? (cs : List Char) : Option (List Char × List Char) :=
  match cs with
  | '\'' :: rest =>
    (cutQuoted? '\'' rest).map fun (value, rest) => (resolveEscapes singleEscape? value, rest)
  | '"' :: rest =>
    (cutQuoted? '"' rest).map fun (value, rest) => (resolveEscapes doubleEscape? value, rest)
  | cs => some (bareValue (cs.takeWhile (· != '\n')), cs.dropWhile (· != '\n'))

/-! ### Bindings -/

structure Binding where
  name : String
  value : Option (List Char)

def dropExport (cs : List Char) : List Char :=
  match cs with
  | 'e' :: 'x' :: 'p' :: 'o' :: 'r' :: 't' :: c :: rest =>
    if isLineBlank c then rest.dropWhile isLineBlank else cs
  | cs => cs

/-- A name and what follows it. -/
def cutName? (cs : List Char) : Option (List Char × List Char) :=
  let (name, rest) := match cs with
    | '\'' :: rest =>
      let name := rest.takeWhile (· != '\'')
      match rest.drop name.length with
      | _ :: rest => (name, rest)
      | [] => ([], [])
    | cs =>
      let isNameChar (c : Char) : Bool := c != '=' && c != '#' && !Text.isBlank c
      (cs.takeWhile isNameChar, cs.dropWhile isNameChar)
  if name.isEmpty then none else some (name, rest)

/-- Where a line has failed, and nothing else where it has not: the rest of the text. -/
abbrev Outcome := Except (List Char) (Option Binding × List Char)

/-- The end of a line after blanks and a comment. -/
def finish (binding : Option Binding) (cs : List Char) : Outcome :=
  let afterBlanks := cs.dropWhile isLineBlank
  let rest := match afterBlanks with
    | '#' :: _ => afterBlanks.dropWhile (· != '\n')
    | _ => afterBlanks
  match rest with
  | [] => .ok (binding, [])
  | '\n' :: rest => .ok (binding, rest)
  | rest => .error rest

def cutBinding (cs : List Char) : Outcome :=
  match cs with
  | '#' :: _ => finish none cs
  | cs =>
    match cutName? cs with
    | none => .error cs
    | some (name, rest) =>
      match rest.dropWhile isLineBlank with
      | '=' :: rest =>
        let rest := rest.dropWhile isLineBlank
        match cutValue? rest with
        | none => .error rest
        | some (value, rest) => finish (some ⟨String.ofList name, some value⟩) rest
      | rest => finish (some ⟨String.ofList name, none⟩) rest

/-- All bindings of a text, with one step of fuel a line. -/
def bindingsFrom : Nat → List Char → List Binding
  | 0, _ => []
  | fuel + 1, cs =>
    match cs.dropWhile Text.isBlank with
    | [] => []
    | cs =>
      match cutBinding (dropExport cs) with
      | .ok (binding, rest) => binding.toList ++ bindingsFrom fuel rest
      | .error rest => bindingsFrom fuel ((rest.dropWhile (· != '\n')).drop 1)

def bindings (text : String) : List Binding :=
  let cs := unifyLines text.toList
  bindingsFrom (cs.length + 1) cs

/-! ### References -/

/-- A reference behind its opening brace: a name, perhaps a default after a colon and a
hyphen, and the text after the closing brace. -/
def cutReference? (cs : List Char) :
    Option (List Char × Option (List Char) × List Char) :=
  let name := cs.takeWhile fun c => c != '\x7d' && c != ':'
  match cs.drop name.length with
  | '\x7d' :: rest => some (name, none, rest)
  | ':' :: '-' :: rest =>
    let fallback := rest.takeWhile (· != '\x7d')
    match rest.drop fallback.length with
    | _ :: rest => some (name, some fallback, rest)
    | [] => none
  | _ => none

/-- A value with its references replaced, with one step of fuel a character. -/
def expandFrom (look : String → Option (Option (List Char))) : Nat → List Char → List Char
  | 0, cs => cs
  | fuel + 1, cs =>
    match cs with
    | [] => []
    | '$' :: '\x7b' :: rest =>
      match cutReference? rest with
      | some (name, fallback, rest) =>
        let value := match look (String.ofList name) with
          | some value => value.getD []
          | none => fallback.getD []
        value ++ expandFrom look fuel rest
      | none => '$' :: expandFrom look fuel ('\x7b' :: rest)
    | c :: rest => c :: expandFrom look fuel rest

/-- The variables of a text. A reference looks first in the environment, then among the
variables above it. -/
def readBindings (environment : Keyed String) (text : String) : Keyed (Option (List Char)) :=
  (bindings text).foldl (fun found b =>
    let look (name : String) : Option (Option (List Char)) :=
      match Keyed.get? environment name with
      | some value => some (some value.toList)
      | none => Keyed.get? found name
    Keyed.put found b.name (b.value.map fun v => expandFrom look (v.length + 1) v)) []

/-- The environment with the variables of a text that it does not hold yet. -/
def extend (environment : Keyed String) (text : String) : Keyed String :=
  (readBindings environment text).foldl (fun env (name, value) =>
    match value with
    | some v => if Keyed.has env name then env else env ++ [(name, String.ofList v)]
    | none => env) environment

end V2G.EnvFile
