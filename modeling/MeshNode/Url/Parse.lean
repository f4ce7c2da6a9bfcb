/-
# Reading URLs

A text is read part by part: scheme, authority, path, query, fragment.  White space and
control characters around it are dropped, and so are tabs and line ends inside it.  What is
read is normalized on the way: scheme and host in lower case, the port only where the scheme
does not imply it, dot segments resolved, and each part escaped as far as it needs.

* `Url.parse?` reads a text that must be a URL of its own;
* `addSegments` is the resolution of dot segments, `normalizeSegment` the escape of the others.
-/
import MeshNode.Url.Host

namespace MeshNode.Url

/-! ## 1. The text and its parts -/

/-- A text without control characters and spaces at its ends, and without tabs and line ends. -/
def tidy (cs : List Char) : List Char :=
  let edge (c : Char) : Bool := c.toNat ≤ 0x20
  let trimmed := ((cs.dropWhile edge).reverse.dropWhile edge).reverse
  trimmed.filter fun c => c != '\t' && c != '\n' && c != '\r'

/-- Whether a character may stand in a scheme behind the first letter. -/
def isSchemeChar (c : Char) : Bool := c.isAlphanum || c == '+' || c == '-' || c == '.'

/-- The scheme in lower case, and the text behind its colon. -/
def takeScheme? (cs : List Char) : Option (String × List Char) :=
  match cs with
  | [] => none
  | c :: _ =>
    if c.isAlpha then
      match cs.dropWhile isSchemeChar with
      | ':' :: rest => some (String.ofList ((cs.takeWhile isSchemeChar).map Char.toLower), rest)
      | _ => none
    else none

/-- Whether a character separates the segments of a path. -/
def isSlash (special : Bool) (c : Char) : Bool := c == '/' || (special && c == '\\')

/-- Whether a character ends an authority. -/
def endsAuthority (special : Bool) (c : Char) : Bool := isSlash special c || c == '?' || c == '#'

/-- The text in front of the query and the fragment, the query, and the fragment. -/
def splitMarks (cs : List Char) : List Char × Option (List Char) × Option (List Char) :=
  let front := cs.takeWhile (· != '#')
  let fragment := match cs.dropWhile (· != '#') with
    | [] => none
    | _ :: rest => some rest
  let path := front.takeWhile (· != '?')
  let query := match front.dropWhile (· != '?') with
    | [] => none
    | _ :: rest => some rest
  (path, query, fragment)

/-- An escaped query. -/
def encodeQuery (special : Bool) (cs : List Char) : String :=
  String.ofList (Percent.encode (if special then Percent.webQuery else Percent.query) cs)

/-- An escaped fragment. -/
def encodeFragment (cs : List Char) : String := String.ofList (Percent.encode Percent.fragment cs)

/-! ## 2. Paths -/

/-- Whether a segment is a dot, plain or escaped. -/
def isDot (s : List Char) : Bool := s.map Char.toLower ∈ [['.'], ['%', '2', 'e']]

/-- Whether a segment is two dots, plain or escaped. -/
def isDoubleDot (s : List Char) : Bool :=
  s.map Char.toLower ∈ [['.', '.'], ['.', '%', '2', 'e'], ['%', '2', 'e', '.'],
    ['%', '2', 'e', '%', '2', 'e']]

/-- An escaped segment. -/
def normalizeSegment (s : List Char) : String := String.ofList (Percent.encode Percent.path s)

/-- Whether a text is the letter of a drive. -/
def isDriveLetter (s : List Char) : Bool :=
  match s with
  | [c, d] => c.isAlpha && (d == ':' || d == '|')
  | _ => false

/-- The path with its last segment taken off; the drive of a file stays. -/
def shorten (file : Bool) (path : List String) : List String :=
  match path with
  | [drive] => if file && isDriveLetter drive.toList then [drive] else []
  | path => path.dropLast

/-- The path with segments put at its end.  A dot adds nothing and two dots take a segment off;
at the end of the list both leave an open end. -/
def addSegments (file : Bool) (path : List String) : List (List Char) → List String
  | [] => path
  | s :: rest =>
    let path :=
      if isDoubleDot s then
        shorten file path ++ (if rest.isEmpty then [""] else [])
      else if isDot s then path ++ (if rest.isEmpty then [""] else [])
      else if file && path.isEmpty && isDriveLetter s then
        path ++ [String.ofList (s.take 1 ++ [':'])]
      else path ++ [normalizeSegment s]
    addSegments file path rest

/-- The segments of a text, which begin behind its first slash. -/
def segmentsOf (special : Bool) (cs : List Char) : List (List Char) :=
  let cs := match cs with
    | c :: rest => if isSlash special c then rest else c :: rest
    | [] => []
  Text.splitOn '/' (cs.map fun c => if isSlash special c then '/' else c)

/-- Empty segments in front of a file's path do not count. -/
def trimFile (file : Bool) (path : List String) : List String :=
  if file then
    match path.dropWhile (· == "") with
    | [] => [""]
    | path => path
  else path

/-- The path that a text spells behind a base path. -/
def pathFrom (scheme : String) (base : List String) (cs : List Char) : Path :=
  let file := scheme == "file"
  .segments (trimFile file (addSegments file base (segmentsOf (isSpecial scheme) cs)))

/-- The path behind an authority.  In a special scheme there always is one. -/
def pathAfterHost (scheme : String) (cs : List Char) : Path :=
  if cs.isEmpty && !isSpecial scheme then .segments [] else pathFrom scheme [] cs

/-! ## 3. Authorities -/

/-- The user name and password of an authority, and the text behind their sign.  The last sign
counts; the first colon divides. -/
def takeUserInfo (cs : List Char) : Option (List Char × List Char) × List Char :=
  if '@' ∈ cs then
    let back := (cs.reverse.takeWhile (· != '@')).reverse
    let front := cs.take (cs.length - back.length - 1)
    (some (front.takeWhile (· != ':'), (front.dropWhile (· != ':')).drop 1), back)
  else (none, cs)

/-- The host and the text behind it; a colon in brackets does not end it. -/
def takeHost (inside : Bool) : List Char → List Char × List Char
  | [] => ([], [])
  | c :: rest =>
    if c = ':' ∧ !inside then ([], c :: rest)
    else
      let inside := if c = '[' then true else if c = ']' then false else inside
      let (host, rest) := takeHost inside rest
      (c :: host, rest)

/-- The port of an authority, from behind its colon to its end; it may be left out. -/
def readPort (scheme : String) (cs : List Char) : Except Error (Option Nat) :=
  if cs.isEmpty then .ok none
  else
    match cs.all (fun c => '0' ≤ c && c ≤ '9'), numberIn? 10 cs with
    | true, some n =>
      if 65535 < n then .error .invalidPort
      else .ok (if defaultPort? scheme = some n then none else some n)
    | _, _ => .error .invalidPort

/-- The part of a URL between its scheme and its path. -/
structure Authority where
  username : String := ""
  password : String := ""
  host : Host
  port : Option Nat := none

/-- The authority that a text spells. -/
def readAuthority (scheme : String) (cs : List Char) : Except Error Authority := do
  let special := isSpecial scheme
  let (userInfo, rest) := takeUserInfo cs
  let encoded (part : List Char) : String := String.ofList (Percent.encode Percent.userInfo part)
  let (name, word) := match userInfo with
    | some (name, word) => (encoded name, encoded word)
    | none => ("", "")
  let (hostText, rest) := takeHost false rest
  if special ∧ hostText.isEmpty then .error .emptyHost
  else
    let host ← if special then webHost hostText else plainHost hostText
    if hostText.isEmpty ∧ (userInfo.isSome ∨ !rest.isEmpty) then .error .emptyHost
    else .ok ⟨name, word, host, ← readPort scheme (rest.drop 1)⟩

/-- The host of a file.  The machine itself needs no name. -/
def readFileHost (cs : List Char) : Except Error Host :=
  if cs.isEmpty then .ok (.name "")
  else
    match webHost cs with
    | .ok (.name "localhost") => .ok (.name "")
    | other => other

/-! ## 4. Whole URLs -/

/-- A URL with the query and the fragment that stand behind its path. -/
def withMarks (u : Url) (query fragment : Option (List Char)) : Url :=
  { u with
    query := query.map (encodeQuery (isSpecial u.scheme))
    fragment := fragment.map encodeFragment }

/-- The text without its leading slashes. -/
def dropSlashes (special : Bool) (cs : List Char) : List Char := cs.dropWhile (isSlash special)

/-- The URL behind the double slash that opens an authority. -/
def afterDoubleSlash (scheme : String) (cs : List Char) : Except Error Url := do
  let ends := endsAuthority (isSpecial scheme)
  let a ← readAuthority scheme (cs.takeWhile (!ends ·))
  let (path, query, fragment) := splitMarks (cs.dropWhile (!ends ·))
  let url : Url :=
    { scheme, username := a.username, password := a.password, host := some a.host, port := a.port,
      path := pathAfterHost scheme path }
  .ok (url.withMarks query fragment)

/-- The URL of a file, behind the colon of its scheme. -/
def afterFileScheme (cs : List Char) : Except Error Url := do
  let finish (host : Host) (cs : List Char) : Url :=
    let (path, query, fragment) := splitMarks cs
    let url : Url := { scheme := "file", host := some host, path := pathFrom "file" [] path }
    url.withMarks query fragment
  match cs with
  | a :: b :: rest =>
    if isSlash true a ∧ isSlash true b then
      let host := rest.takeWhile (!endsAuthority true ·)
      if isDriveLetter host then .ok (finish (.name "") rest)
      else .ok (finish (← readFileHost host) (rest.dropWhile (!endsAuthority true ·)))
    else .ok (finish (.name "") cs)
  | _ => .ok (finish (.name "") cs)

/-- The URL behind the colon of its scheme. -/
def afterScheme (scheme : String) (cs : List Char) : Except Error Url :=
  if scheme = "file" then afterFileScheme cs
  else if isSpecial scheme then afterDoubleSlash scheme (dropSlashes true cs)
  else
    match cs with
    | '/' :: '/' :: rest => afterDoubleSlash scheme rest
    | _ =>
      let (text, query, fragment) := splitMarks cs
      let path := match text with
        | '/' :: _ => pathFrom scheme [] text
        | _ => .plain (String.ofList (Percent.encode Percent.controls text))
      let url : Url := { scheme, path }
      .ok (url.withMarks query fragment)

/-- The URL that a text spells. -/
def parse? (s : String) : Except Error Url :=
  match takeScheme? (tidy s.toList) with
  | some (scheme, rest) => afterScheme scheme rest
  | none => .error .relativeWithoutBase

end MeshNode.Url
