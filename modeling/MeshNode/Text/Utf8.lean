/-
# UTF-8

Characters to bytes and back.  The decoder is a machine that reads one byte at a time and
says of every maximal stretch of its input either which character it is or that it is not
one.  Strict and lossy decoding are two readings of the same run:

* `encode` writes the characters of a text;
* `scan` is the run of the machine: `some c` for a character, `none` for a maximal stretch
  that begins no character;
* `decode?` accepts a run without a `none`, `decodeLossy` writes U+FFFD for each of them.

A byte that ends a stretch by not fitting it is read again as the start of the next one,
so a truncated character costs one replacement and never hides the byte after it.
-/

namespace MeshNode

/-- The bytes of a body, a path or a file of text. -/
abbrev Bytes := List UInt8

namespace Utf8

/-! ## 1. Writing -/

/-- The bytes of one character. -/
def encodeChar (c : Char) : Bytes :=
  let n := c.toNat
  if n < 0x80 then [.ofNat n]
  else if n < 0x800 then [.ofNat (0xC0 + n / 0x40), .ofNat (0x80 + n % 0x40)]
  else if n < 0x10000 then
    [.ofNat (0xE0 + n / 0x1000), .ofNat (0x80 + n / 0x40 % 0x40), .ofNat (0x80 + n % 0x40)]
  else
    [.ofNat (0xF0 + n / 0x40000), .ofNat (0x80 + n / 0x1000 % 0x40),
     .ofNat (0x80 + n / 0x40 % 0x40), .ofNat (0x80 + n % 0x40)]

/-- The bytes of a list of characters. -/
def encodeChars (cs : List Char) : Bytes := cs.flatMap encodeChar

/-- The bytes of a text. -/
def encode (s : String) : Bytes := encodeChars s.toList

/-! ## 2. The machine -/

/-- A character of which the first bytes were read: `point` is the number they spell so far,
`needed` the count of bytes still to come, and the next one lies in `lower .. upper`. -/
structure Pending where
  point : Nat
  needed : Nat
  lower : Nat
  upper : Nat
  deriving DecidableEq, Repr

/-- What the machine knows between two bytes; `none` between two characters. -/
abbrev State := Option Pending

/-- A byte at the start of a character: what it completes, and what is pending after it. -/
def start (b : Nat) : List (Option Char) × State :=
  if b < 0x80 then ([some (Char.ofNat b)], none)
  else if b < 0xC2 then ([none], none)
  else if b < 0xE0 then ([], some ⟨b - 0xC0, 1, 0x80, 0xBF⟩)
  else if b = 0xE0 then ([], some ⟨b - 0xE0, 2, 0xA0, 0xBF⟩)
  else if b = 0xED then ([], some ⟨b - 0xE0, 2, 0x80, 0x9F⟩)
  else if b < 0xF0 then ([], some ⟨b - 0xE0, 2, 0x80, 0xBF⟩)
  else if b = 0xF0 then ([], some ⟨b - 0xF0, 3, 0x90, 0xBF⟩)
  else if b < 0xF4 then ([], some ⟨b - 0xF0, 3, 0x80, 0xBF⟩)
  else if b = 0xF4 then ([], some ⟨b - 0xF0, 3, 0x80, 0x8F⟩)
  else ([none], none)

/-- One step of the machine. -/
def step (state : State) (byte : UInt8) : List (Option Char) × State :=
  let b := byte.toNat
  match state with
  | none => start b
  | some p =>
    if p.lower ≤ b ∧ b ≤ p.upper then
      let point := p.point * 0x40 + (b - 0x80)
      match p.needed with
      | 0 | 1 => ([some (Char.ofNat point)], none)
      | needed + 1 => ([], some ⟨point, needed, 0x80, 0xBF⟩)
    else
      let (found, next) := start b
      (none :: found, next)

/-- What the end of the input adds: a character that was not finished. -/
def finish : State → List (Option Char)
  | none => []
  | some _ => [none]

/-- The run from a state, its findings put in front of `found` in reverse order. -/
def run (found : List (Option Char)) (state : State) : Bytes → List (Option Char)
  | [] => (finish state).reverse ++ found
  | b :: rest =>
    let (new, next) := step state b
    run (new.reverse ++ found) next rest

/-- The characters of a list of bytes, and a `none` for each maximal stretch that is none. -/
def scan (bytes : Bytes) : List (Option Char) := (run [] none bytes).reverse

/-! ## 3. Reading -/

/-- The characters of a list of bytes, if all of them belong to one. -/
def decodeChars? (bytes : Bytes) : Option (List Char) :=
  let found := scan bytes
  if found.all Option.isSome then some (found.filterMap id) else none

/-- The text of a list of bytes, if it is well-formed. -/
def decode? (bytes : Bytes) : Option String := (decodeChars? bytes).map String.ofList

/-- The text of a list of bytes, with U+FFFD for each stretch that spells no character. -/
def decodeLossy (bytes : Bytes) : String :=
  String.ofList ((scan bytes).map (·.getD '\uFFFD'))

end Utf8
end MeshNode
