/-
# Domain names

A domain name as it goes into a URL: ASCII letters in lower case, and a label with other
characters in its transfer form, the prefix `xn--` with the characters coded in letters and
digits.

* `transferForm` codes the characters of one label, `ofTransferForm?` reads them back;
* `mapChar` is the folding of characters before that: case within the Latin, Greek and
  Cyrillic alphabets, the wide forms of ASCII, the ideographic full stops, and the characters
  that leave no trace;
* `Domain.ofText?` normalizes a whole name, `isForbidden` are the characters it cannot have.

The folding is a part of what the standard for such names asks for.  Upper case becomes lower case in
these three alphabets and nowhere else, characters that are composed of others are not brought into
one form, and no label is refused for the script or the direction of its letters.  A name in ASCII is
not affected by any of this.
-/
import MeshNode.Address.IP
import MeshNode.Text.Printable

namespace MeshNode.Url.Domain

/-! ## 1. The transfer form of a label -/

/-- The sign of a digit below 36: letters first. -/
def digitChar (d : Nat) : Char := Char.ofNat (if d < 26 then 0x61 + d else 0x30 + (d - 26))

/-- The threshold of a digit's place. -/
def threshold (place bias : Nat) : Nat :=
  if place ≤ bias then 1 else if bias + 26 ≤ place then 26 else place - bias

/-- A number in digits whose base depends on their place, least significant first.  The first
argument bounds how many there are. -/
def writeNumber : Nat → Nat → Nat → Nat → List Char
  | 0, _, _, _ => []
  | fuel + 1, bias, place, n =>
    let t := threshold place bias
    if n < t then [digitChar n]
    else
      digitChar (t + (n - t) % (36 - t)) :: writeNumber fuel bias (place + 36) ((n - t) / (36 - t))

/-- Divides by 35 while the number is large, and counts 36 for each time. -/
def shrink : Nat → Nat → Nat → Nat × Nat
  | 0, n, k => (n, k)
  | fuel + 1, n, k => if 455 < n then shrink fuel (n / 35) (k + 36) else (n, k)

/-- The bias after a gap was written, `count` characters being placed now. -/
def adapt (gap count : Nat) (first : Bool) : Nat :=
  let n := if first then gap / 700 else gap / 2
  let (n, k) := shrink 8 (n + n / count) 0
  k + 36 * n / (n + 38)

/-- The state of coding: the gap so far, the bias, and how many characters are placed. -/
structure Coding where
  gap : Nat
  bias : Nat
  placed : Nat
  first : Bool
  written : List Char

/-- Places every character equal to `point`, one after the other through the label. -/
def place (label : List Char) (point : Nat) (c : Coding) : Coding :=
  label.foldl (fun c x =>
    if x.toNat < point then { c with gap := c.gap + 1 }
    else if x.toNat = point then
      { gap := 0, bias := adapt c.gap (c.placed + 1) c.first, placed := c.placed + 1,
        first := false, written := c.written ++ writeNumber (c.gap + 1) c.bias 36 c.gap }
    else c) c

/-- Places the characters of a label from `point` on, in increasing order. -/
def placeFrom (label : List Char) : Nat → Nat → Coding → Coding
  | 0, _, c => c
  | fuel + 1, point, c =>
    match (label.filterMap fun x => if point ≤ x.toNat then some x.toNat else none).min? with
    | none => c
    | some next =>
      let c := place label next { c with gap := c.gap + (next - point) * (c.placed + 1) }
      placeFrom label fuel (next + 1) { c with gap := c.gap + 1 }

/-- The prefix of a label in transfer form. -/
def transferMark : List Char := ['x', 'n', '-', '-']

/-- The transfer form of a label with characters outside ASCII. -/
def transferForm (label : List Char) : List Char :=
  let basic := label.filter (·.toNat < 0x80)
  let start := if basic.isEmpty then [] else basic ++ ['-']
  let coded := placeFrom label label.length 0x80 ⟨0, 72, basic.length, true, start⟩
  transferMark ++ coded.written

/-- The digit below 36 of a sign. -/
def digit? (c : Char) : Option Nat :=
  if 'a' ≤ c ∧ c ≤ 'z' then some (c.toNat - 0x61)
  else if '0' ≤ c ∧ c ≤ '9' then some (c.toNat - 0x30 + 26)
  else none

/-- The number at the start of a text, and what follows it; `sum` is what its digits so far amount
to, and `weight` what the next one counts. -/
def readNumber? (bias : Nat) : Nat → Nat → Nat → List Char → Option (Nat × List Char)
  | _, _, _, [] => none
  | place, weight, sum, c :: rest =>
    match digit? c with
    | none => none
    | some d =>
      let t := threshold place bias
      if d < t then some (sum + d * weight, rest)
      else readNumber? bias (place + 36) (weight * (36 - t)) (sum + d * weight) rest

/-- The state of reading: the point of the last character, its place, the bias, and the
characters so far. -/
structure Reading where
  point : Nat
  index : Nat
  bias : Nat
  first : Bool
  label : List Char

/-- Reads the characters that a text codes. -/
def readFrom? : Nat → Reading → List Char → Option (List Char)
  | _, r, [] => some r.label
  | 0, _, _ :: _ => none
  | fuel + 1, r, cs =>
    match readNumber? r.bias 36 1 0 cs with
    | none => none
    | some (gap, rest) =>
      let count := r.label.length + 1
      let point := r.point + (r.index + gap) / count
      let index := (r.index + gap) % count
      if point.isValidChar then
        readFrom? fuel
          { point, index := index + 1, bias := adapt gap count r.first, first := false,
            label := r.label.take index ++ Char.ofNat point :: r.label.drop index } rest
      else none

/-- The characters of a label in transfer form, behind its prefix. -/
def ofTransferForm? (coded : List Char) : Option (List Char) :=
  let back := (coded.reverse.takeWhile (· != '-')).reverse
  let basic := coded.take (coded.length - back.length - 1)
  readFrom? back.length ⟨0x80, 0, 72, true, basic⟩ back

/-! ## 2. Folding characters -/

/-- Whether a character leaves no trace in a name. -/
def isIgnored (n : Nat) : Bool :=
  n == 0xAD || n == 0x34F || n == 0x200B || n == 0x2060 || n == 0xFEFF || (0xFE00 ≤ n && n ≤ 0xFE0F)

/-- The lower case of a letter of the Latin, Greek or Cyrillic alphabet. -/
def lowerPoint (n : Nat) : Nat :=
  if 0x41 ≤ n ∧ n ≤ 0x5A then n + 0x20
  else if 0xC0 ≤ n ∧ n ≤ 0xDE ∧ n ≠ 0xD7 then n + 0x20
  else if (0x100 ≤ n ∧ n ≤ 0x137 ∨ 0x14A ≤ n ∧ n ≤ 0x177) ∧ n % 2 = 0 then n + 1
  else if (0x139 ≤ n ∧ n ≤ 0x148 ∨ 0x179 ≤ n ∧ n ≤ 0x17E) ∧ n % 2 = 1 then n + 1
  else if n = 0x178 then 0xFF
  else if 0x391 ≤ n ∧ n ≤ 0x3A9 then n + 0x20
  else if 0x400 ≤ n ∧ n ≤ 0x40F then n + 0x50
  else if 0x410 ≤ n ∧ n ≤ 0x42F then n + 0x20
  else n

/-- What a character becomes in a name. -/
def mapChar (c : Char) : List Char :=
  let n := c.toNat
  if isIgnored n then []
  else if n = 0x3002 ∨ n = 0xFF0E ∨ n = 0xFF61 then ['.']
  else if 0xFF01 ≤ n ∧ n ≤ 0xFF5E then [Char.ofNat (lowerPoint (n - 0xFEE0))]
  else [Char.ofNat (lowerPoint n)]

/-! ## 3. Whole names -/

/-- The ASCII characters that a domain name cannot have. -/
def isForbidden (c : Char) : Bool :=
  c.toNat ≤ 0x20 || c.toNat == 0x7F || "%#/:<>?@[\\]^|".toList.contains c

/-- The ASCII characters that any other host cannot have. -/
def isForbiddenInHost (c : Char) : Bool :=
  c.toNat == 0 || "\t\n\r #/:<>?@[\\]^|".toList.contains c

/-- Whether a character stays as it is in a name. -/
def isStable (c : Char) : Bool :=
  mapChar c == [c] && (if c.toNat < 0x80 then !isForbidden c else Text.isPrintable c)

/-- The form of a label in a URL.  One that is in transfer form already must be that of a label
which needs it. -/
def labelForm? (label : List Char) : Option (List Char) :=
  if label.take 4 = transferMark then
    match ofTransferForm? (label.drop 4) with
    | none => none
    | some decoded =>
      if decoded.all isStable && decoded.any (0x80 ≤ ·.toNat) && transferForm decoded == label then
        some label
      else none
  else if label.all (·.toNat < 0x80) then some label
  else some (transferForm label)

/-- The name that a text spells, in its normal form. -/
def ofText? (cs : List Char) : Option (List Char) :=
  let name := cs.flatMap mapChar
  if name.all isStable then ((Text.splitOn '.' name).mapM labelForm?).map (Text.joinWith ['.'])
  else none

end MeshNode.Url.Domain
