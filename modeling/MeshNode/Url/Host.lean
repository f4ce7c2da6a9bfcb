/-
# Hosts

The host of a URL from its text.  In brackets stands an address of version 6.  In the schemes
of the web any other host is a domain name, with escapes taken back, and a name whose last
label is a number is an address of version 4 in one of its loose spellings: one to four
numbers, decimal, octal or hexadecimal, the last of which fills the octets that are left.
Elsewhere a host is kept as it is, escaped.
-/
import MeshNode.Url.Basic
import MeshNode.Url.Domain
import MeshNode.Url.Error
import MeshNode.Url.Percent

namespace MeshNode.Url

/-- The number of a loose spelling: hexadecimal behind `0x`, octal behind a zero. -/
def looseNumber? (cs : List Char) : Option Nat :=
  match cs with
  | [] => none
  | '0' :: x :: rest =>
    if x = 'x' ∨ x = 'X' then (if rest.isEmpty then some 0 else numberIn? 16 rest)
    else numberIn? 8 (x :: rest)
  | _ => numberIn? 10 cs

/-- The labels of a name, without an empty one at its end. -/
def labels (name : List Char) : List (List Char) :=
  let all := Text.splitOn '.' name
  if 1 < all.length ∧ all.getLast? = some [] then all.dropLast else all

/-- Whether the last label of a name is a number. -/
def endsInNumber (name : List Char) : Bool :=
  match (labels name).getLast? with
  | none => false
  | some last =>
    (!last.isEmpty && last.all fun c => '0' ≤ c && c ≤ '9') || (looseNumber? last).isSome

/-- The address that numbers spell, the last one filling the octets that are left. -/
def looseAddress? (numbers : List Nat) : Option IPv4 :=
  match numbers.getLast? with
  | none => none
  | some last =>
    let front := numbers.dropLast
    if 3 < front.length ∨ front.any (255 < ·) ∨ Nat.pow 256 (4 - front.length) ≤ last then none
    else some (.ofNat
      (front.foldl (fun n x => n * 256 + x) 0 * Nat.pow 256 (4 - front.length) + last))

/-- The address of version 6 in brackets. -/
def bracketedHost (cs : List Char) : Except Error Host :=
  if cs.getLast? = some ']' then
    match IPv6.parse? ((cs.drop 1).dropLast) with
    | some address => .ok (.ipv6 address)
    | none => .error .invalidIPv6
  else .error .invalidIPv6

/-- The host of a URL in a scheme of the web. -/
def webHost (cs : List Char) : Except Error Host :=
  if cs.head? = some '[' then bracketedHost cs
  else
    match (decodeChars cs).bind Domain.ofText? with
    | none => .error .invalidDomain
    | some name =>
      if name.isEmpty then .error .emptyHost
      else if endsInNumber name then
        match ((labels name).mapM looseNumber?).bind looseAddress? with
        | some address => .ok (.ipv4 address)
        | none => .error .invalidIPv4
      else .ok (.name (String.ofList name))
where
  /-- The characters behind the escapes of a host. -/
  decodeChars (cs : List Char) : Option (List Char) :=
    Utf8.decodeChars? (Percent.decode (Utf8.encodeChars cs))

/-- The host of a URL in any other scheme. -/
def plainHost (cs : List Char) : Except Error Host :=
  if cs.head? = some '[' then bracketedHost cs
  else if cs.any Domain.isForbiddenInHost then .error .invalidDomainCharacter
  else .ok (.name (String.ofList (Percent.encode Percent.controls cs)))

end MeshNode.Url
