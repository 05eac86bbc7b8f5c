import V2G.Url.Host

/-!
# URLs

A URL of a network scheme by its parts, and its text. Texts of URLs are read leniently:
blanks around them, control characters in them, backslashes for slashes and any number of
slashes before the host are accepted, and what a part may not hold is escaped. The text of
what was read is the normal form.
-/

namespace V2G

structure Url where
  scheme : List Char
  username : List Char
  password : List Char
  host : Url.Host
  /-- Absent where it is the port of the scheme. -/
  portNumber : Option Nat
  path : List (List Char)
  query : Option (List Char)
  fragment : Option (List Char)
  deriving DecidableEq

namespace Url

/-- The network schemes and their ports. -/
def defaultPort? (scheme : List Char) : Option Nat :=
  [ ("http".toList, 80), ("https".toList, 443), ("ws".toList, 80), ("wss".toList, 443),
    ("ftp".toList, 21) ].lookup scheme

def userInfo (u : Url) : List Char :=
  let password := if u.password.isEmpty then [] else ':' :: u.password
  if u.username.isEmpty && u.password.isEmpty then [] else u.username ++ password ++ ['@']

def text (u : Url) : String :=
  let port := (u.portNumber.map fun n => ':' :: Nat.toDigits 10 n).getD []
  let query := (u.query.map ('?' :: ·)).getD []
  let fragment := (u.fragment.map ('#' :: ·)).getD []
  String.ofList <| u.scheme ++ "://".toList ++ u.userInfo ++ u.host.text ++ port ++
    u.path.flatMap ('/' :: ·) ++ query ++ fragment

/-! ### Parts -/

def isSlash (c : Char) : Bool := c = '/' || c = '\\'

/-- The scheme and what follows its colon. -/
def cutScheme? (cs : List Char) : Option (List Char × List Char) :=
  let isSchemeChar (c : Char) : Bool := c.isAlphanum || c = '+' || c = '-' || c = '.'
  let scheme := cs.takeWhile isSchemeChar
  match scheme, cs.drop scheme.length with
  | c :: _, ':' :: rest => if c.isAlpha then some (scheme.map Char.toLower, rest) else none
  | _, _ => none

/-- The text before the last at sign, and the text after it. -/
def cutUserInfo? (cs : List Char) : Option (List Char × List Char) :=
  let host := (cs.reverse.takeWhile (· != '@')).reverse
  if host.length = cs.length then none
  else some (cs.take (cs.length - host.length - 1), host)

/-- The host, and the port where a colon follows. Colons in brackets belong to the host. -/
def cutPort (inBrackets : Bool) : List Char → List Char × Option (List Char)
  | [] => ([], none)
  | c :: rest =>
    if c = ':' && !inBrackets then ([], some rest)
    else
      let (host, port) := cutPort ((inBrackets || c = '[') && c != ']') rest
      (c :: host, port)

/-- A port of at most 16 bits. An empty one counts as absent. -/
def readPort (cs : List Char) : Except Fault (Option Nat) :=
  let step (n : Option Nat) (c : Char) : Except Fault (Option Nat) :=
    match hexDigit? c with
    | some d =>
      let value := 10 * n.getD 0 + d
      if d < 10 && value < 65536 then .ok (some value) else .error .badPort
    | none => .error .badPort
  cs.foldlM step none

/-! ### Paths -/

def isDot (cs : List Char) : Bool := [".", "%2e"].contains (String.ofList (cs.map Char.toLower))

def isDoubleDot (cs : List Char) : Bool :=
  ["..", ".%2e", "%2e.", "%2e%2e"].contains (String.ofList (cs.map Char.toLower))

def isDriveLetter : List Char → Bool
  | [c, d] => c.isAlpha && (d = ':' || d = '|')
  | _ => false

/-- A path without its last segment. Drive letters stay. -/
def leave (path : List (List Char)) : List (List Char) :=
  match path.getLast? with
  | some s => if isDriveLetter s then path else path.dropLast
  | none => []

/-- The segments of a path, dots resolved against the segments before them. A path that
ends in dots ends in a slash. -/
def resolve (path : List (List Char)) : List (List Char) → List (List Char)
  | [] => path
  | s :: rest =>
    let path' := if isDoubleDot s then leave path else if isDot s then path else path ++ [s]
    if rest.isEmpty && (isDoubleDot s || isDot s) then path' ++ [[]] else resolve path' rest

def readPath (cs : List Char) : List (List Char) :=
  let cs := match cs with
    | c :: rest => if isSlash c then rest else cs
    | [] => []
  resolve [] ((splitAt isSlash cs).map (escape inPath))

/-! ### Whole texts -/

/-- What follows the host: path, query and fragment. -/
def cutTail (cs : List Char) : List Char × Option (List Char) × Option (List Char) :=
  let beforeFragment := cs.takeWhile (· != '#')
  let fragment := (cs.drop beforeFragment.length).tail?
  let path := beforeFragment.takeWhile (· != '?')
  let query := (beforeFragment.drop path.length).tail?
  (path, query, fragment)

/-- The URL of a network scheme after its slashes. -/
def readNetwork (scheme : List Char) (port : Nat) (cs : List Char) : Except Fault Url := do
  let authority := cs.takeWhile fun c => !isSlash c && c != '?' && c != '#'
  let tail := cs.drop authority.length
  let (userInfo, hostText) := (cutUserInfo? authority).getD ([], authority)
  let (hostText, portText) := cutPort false hostText
  if hostText.isEmpty then .error .emptyHost
  let host ← Host.read hostText
  let portNumber ← readPort (portText.getD [])
  let username := userInfo.takeWhile (· != ':')
  let (path, query, fragment) := cutTail tail
  return {
    scheme, host
    username := escape inUserInfo username
    password := escape inUserInfo (userInfo.drop (username.length + 1))
    portNumber := portNumber.filter (· != port)
    path := readPath path
    query := query.map (escape inQuery)
    fragment := fragment.map (escape inFragment) }

/-- A host may be missing from a file URL, and a drive letter is no host. -/
def checkFile (cs : List Char) : Except Fault Unit :=
  match cs with
  | a :: b :: rest =>
    if isSlash a && isSlash b then
      let host := rest.takeWhile fun c => !isSlash c && c != '?' && c != '#'
      if host.isEmpty || isDriveLetter host then .ok () else (Host.read host).map fun _ => ()
    else .ok ()
  | _ => .ok ()

/-- The host of a foreign scheme may be missing, but only together with user and port. -/
def checkForeign (cs : List Char) : Except Fault Unit :=
  match cs with
  | '/' :: '/' :: rest => do
    let authority := rest.takeWhile fun c => c != '/' && c != '?' && c != '#'
    let tail := rest.drop authority.length
    let (userInfo, hostText) := (cutUserInfo? authority).getD ([], authority)
    if (cutUserInfo? authority).isSome && userInfo.isEmpty && hostText.isEmpty && !tail.isEmpty
    then .error .emptyHost
    let (hostText, portText) := cutPort false hostText
    Host.readOpaque hostText
    if hostText.isEmpty && portText.isSome then .error .emptyHost
    let _ ← readPort ((portText.getD []).takeWhile (· != '\\'))
    if hostText.isEmpty && !(userInfo.isEmpty || userInfo = [':']) then .error .emptyHost
  | _ => .ok ()

/-- A text without the blanks around it and the line breaks and tabs in it. -/
def clean (s : String) : List Char :=
  let isOuter (c : Char) : Bool := c.toNat ≤ 0x20
  let cs := ((s.toList.dropWhile isOuter).reverse.dropWhile isOuter).reverse
  cs.filter fun c => c != '\t' && c != '\n' && c != '\r'

/-- The URL that a text stands for, `none` where it is a URL of another kind of scheme. -/
def readAscii (s : String) : Except Fault (Option Url) :=
  if s.isEmpty then .error .emptyInput
  else
    match cutScheme? (clean s) with
    | none => .error .noBase
    | some (scheme, rest) =>
      match defaultPort? scheme with
      | some port => (readNetwork scheme port (rest.dropWhile isSlash)).map some
      | none =>
        (if scheme = "file".toList then checkFile rest else checkForeign rest).map fun _ => none

/-- Whether a scheme is one of the web. -/
def isWeb (u : Url) : Bool := u.scheme = "http".toList || u.scheme = "https".toList

end Url

end V2G
