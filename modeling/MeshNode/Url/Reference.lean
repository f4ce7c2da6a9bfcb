/-
# References

Where a response sends its request on to is written as a reference, which stands for a URI behind
the URI of the request.  It is read by the letter: a text with a character that no URI has is no
reference, and neither is one with an escape that breaks off.  Escapes stay as they are, so an
escaped dot is no dot.

* `Reference.ofText` cuts a text into its parts, and `Reference.isValid` judges them;
* `removeDots` takes the dot segments out of a path;
* `Reference.resolve?` is the URI that a reference stands for, if it can be asked for;
* `Reference.url?` reads that URI as a URL, and `Reference.asked` is the URL with the path and the
  query as the reference has them, which is what the request names.
-/
import MeshNode.Http.Uri
import MeshNode.Url.Parse

namespace MeshNode

/-- The parts of a reference, each as it is written. -/
structure Reference where
  scheme : Option (List Char) := none
  authority : Option (List Char) := none
  path : List Char := []
  query : Option (List Char) := none
  fragment : Option (List Char) := none
  deriving DecidableEq, Repr

namespace Reference

/-! ## 1. The parts of a text -/

/-- The text in front of a mark, and the text behind it if the mark is there. -/
def cut (mark : Char) (cs : List Char) : List Char × Option (List Char) :=
  match cs.dropWhile (· != mark) with
  | [] => (cs, none)
  | _ :: back => (cs.takeWhile (· != mark), some back)

/-- The scheme in front of a text, and the text behind it.  A colon behind a slash ends no scheme. -/
def takeScheme (cs : List Char) : Option (List Char) × List Char :=
  match cut ':' cs with
  | (scheme, some back) => if '/' ∈ scheme then (none, cs) else (some scheme, back)
  | (_, none) => (none, cs)

/-- The reference of a text, whose parts may be anything. -/
def ofText (cs : List Char) : Reference :=
  let (front, query, fragment) := Url.splitMarks cs
  let (scheme, rest) := takeScheme front
  match rest with
  | '/' :: '/' :: rest =>
    { scheme, authority := some (rest.takeWhile (· != '/')), path := rest.dropWhile (· != '/'),
      query, fragment }
  | path => { scheme, path, query, fragment }

/-- Text behind a mark, if there is any. -/
def marked (mark : List Char) : Option (List Char) → List Char
  | some text => mark ++ text
  | none => []

/-- The text of a reference.  A path without an authority must not look like one, so a dot is put in
front of it where it would. -/
def text (r : Reference) : List Char :=
  let dot := if r.authority.isNone ∧ r.path.take 2 = ['/', '/'] then ['/', '.'] else []
  (match r.scheme with
    | some scheme => scheme ++ [':']
    | none => []) ++
    marked ['/', '/'] r.authority ++ dot ++ r.path ++ marked ['?'] r.query ++
    marked ['#'] r.fragment

/-! ## 2. Which texts are references -/

/-- The characters with no meaning of their own in any part. -/
def isPlain (c : Char) : Bool := c.isAlphanum || "-._~!$&'()*+,;=".toList.contains c

/-- Whether a text holds these characters alone, and escapes that are complete. -/
def isWritten (allowed : Char → Bool) : List Char → Bool
  | [] => true
  | '%' :: a :: b :: rest =>
    (digitValue? 16 a).isSome && (digitValue? 16 b).isSome && isWritten allowed rest
  | c :: rest => allowed c && isWritten allowed rest

/-- Whether a character may stand in a path. -/
def isPathChar (c : Char) : Bool := isPlain c || c == ':' || c == '@' || c == '/'

/-- Whether a character may stand in a query or a fragment. -/
def isMarkedChar (c : Char) : Bool := isPathChar c || c == '?'

/-- Whether a text may be a scheme. -/
def isScheme (cs : List Char) : Bool := cs.head?.any Char.isAlpha && cs.all Url.isSchemeChar

/-- Whether a text may be a host in brackets: an address of version 6, or one of a version to come. -/
def isBracketed (cs : List Char) : Bool :=
  match cs with
  | c :: rest =>
    if c == 'v' || c == 'V' then
      match cut '.' rest with
      | (version, some address) =>
        !version.isEmpty && version.all (fun d => (digitValue? 16 d).isSome) &&
          !address.isEmpty && address.all (fun d => isPlain d || d == ':')
      | (_, none) => false
    else (IPv6.parse? cs).isSome
  | [] => false

/-- Whether a text may stand behind a host: nothing, or a port. -/
def isPort (cs : List Char) : Bool :=
  match cs with
  | ':' :: digits => digits.all Char.isDigit
  | rest => rest.isEmpty

/-- Whether a text may be a host with a port. -/
def isHostPort (cs : List Char) : Bool :=
  match cs with
  | '[' :: rest =>
    match cut ']' rest with
    | (address, some port) => isBracketed address && isPort port
    | (_, none) => false
  | _ => isWritten isPlain (cs.takeWhile (· != ':')) && isPort (cs.dropWhile (· != ':'))

/-- Whether a text may be an authority. -/
def isAuthority (cs : List Char) : Bool :=
  match cut '@' cs with
  | (user, some host) => isWritten (fun c => isPlain c || c == ':') user && isHostPort host
  | (host, none) => isHostPort host

/-- Whether every part of a reference may be what it is. -/
def isValid (r : Reference) : Bool :=
  r.scheme.all isScheme && r.authority.all isAuthority && isWritten isPathChar r.path &&
    r.query.all (isWritten isMarkedChar) && r.fragment.all (isWritten isMarkedChar)

/-! ## 3. What a reference stands for -/

/-- Whether a segment is one of the two that are not kept. -/
def isDots (s : List Char) : Bool := s == ['.'] || s == ['.', '.']

/-- The segments of a path behind those that were kept, each behind its slash.  Two dots take the
last one off, and dots at the end leave an open end. -/
def keepSegments (kept : List (List Char)) : List (List Char) → List (List Char)
  | [] => kept
  | s :: rest =>
    let kept := if s == ['.', '.'] then kept.dropLast else kept
    if isDots s then keepSegments (if rest.isEmpty then kept ++ [['/']] else kept) rest
    else keepSegments (kept ++ ['/' :: s]) rest

/-- A path without its dot segments.  In front of the first slash they have nothing to act on. -/
def removeDots (path : List Char) : List Char :=
  match (Text.splitOn '/' path).dropWhile isDots with
  | [] => []
  | first :: rest => (keepSegments [first] rest).flatten

/-- The path of a base up to its last slash. -/
def directory (path : List Char) : List Char := (path.reverse.dropWhile (· != '/')).reverse

/-- The path of a reference with neither a scheme nor an authority, behind a base path. -/
def pathBehind (base : List Char) : List Char → List Char
  | [] => base
  | '/' :: rest => removeDots ('/' :: rest)
  | path => removeDots (directory base ++ path)

/-- What a reference stands for behind a base. -/
def behind (base r : Reference) : Reference :=
  if r.scheme.isSome then { r with path := removeDots r.path }
  else if r.authority.isSome then { r with scheme := base.scheme, path := removeDots r.path }
  else
    { scheme := base.scheme
      authority := base.authority
      path := pathBehind base.path r.path
      query := if r.path.isEmpty then r.query.or base.query else r.query
      fragment := r.fragment }

/-- The URI that a reference stands for behind a base.  Both must be what they are by the letter, and
the URI must be one that a request can be sent to. -/
def resolve? (base location : String) : Option Reference :=
  let base := ofText base.toList
  let r := ofText location.toList
  let target := behind base r
  if base.isValid && r.isValid && Http.isUri (String.ofList target.text) then some target else none

/-! ## 4. The URL of a reference -/

/-- The URL that the text of a reference spells.  A request has no fragment. -/
def url? (r : Reference) : Except Url.Error Url :=
  Url.parse? (String.ofList { r with fragment := none }.text)

/-- A URL with the path and the query of a reference, as they are written. -/
def asked (r : Reference) (url : Url) : Url :=
  { url with
    path := .segments (if r.path.isEmpty then [""]
      else ((Text.splitOn '/' r.path).drop 1).map String.ofList)
    query := r.query.map String.ofList }

end Reference
end MeshNode
