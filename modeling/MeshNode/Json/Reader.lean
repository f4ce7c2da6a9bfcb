/-
# Reading JSON

The building blocks of every JSON reader.  A `Reader` takes the value at the start of a text
and gives it back with the rest of the text.  Readers are built for the shape they expect, so
a text is checked against its shape while it is read, from left to right: the first problem
met is the one reported.

* `literal` reads a string after its opening quotation mark;
* `items` and `members` read arrays and objects of any length, `optionalItem` one item;
* `record` reads what may be written as an object or, field by field, as an array.

The first argument of a reader bounds each of its loops.  Every round of a loop takes at
least one byte, so the length of the whole text is always enough, and `fromBytes` passes it.
-/
import MeshNode.Json.Number

namespace MeshNode.Json

open Token

/-- Takes a value off the start of a text; the number bounds the rounds of a loop. -/
abbrev Reader (α : Type) := Nat → Bytes → Except Error (α × Bytes)

/-! ## 1. Words and string literals -/

/-- The text after a word. -/
def expectWord : Bytes → Bytes → Except Error Bytes
  | [], s => .ok s
  | _ :: _, [] => .error .endOfText
  | w :: word, b :: rest => if b = w then expectWord word rest else .error .malformed

/-- Four hexadecimal digits as one number.  A text too short for four is at its end, whatever
stands in it. -/
def hexUnit (s : Bytes) : Except Error (Nat × Bytes) :=
  match s with
  | a :: b :: c :: d :: rest =>
    match hexUnit? a b c d with
    | some n => .ok (n, rest)
    | none => .error .malformed
  | _ => .error .endOfText

/-- Takes one byte that must be the given one. -/
def expectByte (byte : UInt8) (s : Bytes) : Except Error Bytes :=
  match s with
  | [] => .error .endOfText
  | b :: rest => if b = byte then .ok rest else .error .malformed

/-- The character of an escape by number, after its letter.  A number in the first half of the
surrogate range must be followed by an escape in the second half; together they are one
character.  One in the second half cannot come first. -/
def numberedChar (s : Bytes) : Except Error (Char × Bytes) := do
  let (high, s) ← hexUnit s
  if 0xDC00 ≤ high ∧ high ≤ 0xDFFF then .error .malformed
  else if high < 0xD800 ∨ 0xDBFF < high then .ok (Char.ofNat high, s)
  else
    let s ← expectByte backslash s
    let s ← expectByte letterU s
    let (low, s) ← hexUnit s
    if low < 0xDC00 ∨ 0xDFFF < low then .error .malformed
    else .ok (Char.ofNat (0x10000 + (high - 0xD800) * 0x400 + (low - 0xDC00)), s)

/-- The bytes that an escape stands for, after its backslash. -/
def escapeBytes (s : Bytes) : Except Error (Bytes × Bytes) :=
  match s with
  | [] => .error .endOfText
  | b :: rest =>
    if b = letterU then
      match numberedChar rest with
      | .error e => .error e
      | .ok (c, rest) => .ok (Utf8.encodeChar c, rest)
    else
      match escaped? b with
      | some byte => .ok ([byte], rest)
      | none => .error .malformed

/-- The bytes of a string up to its closing quotation mark, after those in `acc`, which is in
reverse order. -/
def literalBytes (acc : Bytes) : Reader Bytes
  | 0, _ => .error .endOfText
  | _ + 1, [] => .error .endOfText
  | limit + 1, b :: rest =>
    if b = quote then .ok (acc.reverse, rest)
    else if b = backslash then
      match escapeBytes rest with
      | .error e => .error e
      | .ok (new, rest) => literalBytes (new.reverse ++ acc) limit rest
    else if b < 0x20 then .error .malformed
    else literalBytes (b :: acc) limit rest

/-- A string after its opening quotation mark.  Its bytes are judged once it is closed. -/
def literal : Reader String := fun limit s =>
  match literalBytes [] limit s with
  | .error e => .error e
  | .ok (bytes, rest) =>
    match Utf8.decode? bytes with
    | some text => .ok (text, rest)
    | none => .error .malformed

/-! ## 2. Items of an array -/

/-- Whether an array goes on after its opening bracket or after an item: the text from the next
item, or nothing at the closing bracket. -/
def nextItem (first : Bool) (s : Bytes) : Except Error (Option Bytes) :=
  match skipSpaces s with
  | [] => .error .endOfText
  | b :: rest =>
    if b = closeBracket then .ok none
    else if first then .ok (some (b :: rest))
    else if b = comma then
      match skipSpaces rest with
      | [] => .error .endOfText
      | c :: rest => if c = closeBracket then .error .malformed else .ok (some (c :: rest))
    else .error .malformed

/-- The text after the closing bracket of an array. -/
def closeArray (s : Bytes) : Except Error Bytes :=
  match skipSpaces s with
  | [] => .error .endOfText
  | b :: rest => if b = closeBracket then .ok rest else .error .malformed

/-- The next item of an array, if there is one. -/
def optionalItem {α : Type} (first : Bool) (item : Reader α) : Reader (Option α) := fun limit s =>
  match nextItem first s with
  | .error e => .error e
  | .ok none => .ok (none, s)
  | .ok (some s) =>
    match item limit s with
    | .error e => .error e
    | .ok (v, s) => .ok (some v, s)

/-- The items of an array after those in `acc`, which is in reverse order, and the text after
the closing bracket.  `rounds` bounds their number. -/
def itemsFrom {α : Type} (item : Reader α) (limit : Nat) :
    Nat → Bool → List α → Bytes → Except Error (List α × Bytes)
  | 0, _, _, _ => .error .endOfText
  | rounds + 1, first, acc, s =>
    match optionalItem first item limit s with
    | .error e => .error e
    | .ok (some v, s) => itemsFrom item limit rounds false (v :: acc) s
    | .ok (none, s) =>
      match closeArray s with
      | .error e => .error e
      | .ok s => .ok (acc.reverse, s)

/-- An array of any length after its opening bracket. -/
def items {α : Type} (item : Reader α) : Reader (List α) := fun limit s =>
  itemsFrom item limit limit true [] s

/-! ## 3. Members of an object -/

/-- Whether an object goes on after its opening brace or after a member: the text from inside
the next key, or the text after the closing brace. -/
def nextKey (first : Bool) (s : Bytes) : Except Error (Bytes ⊕ Bytes) :=
  match skipSpaces s with
  | [] => .error .endOfText
  | b :: rest =>
    if b = closeBrace then .ok (.inr rest)
    else if first then if b = quote then .ok (.inl rest) else .error .malformed
    else if b = comma then
      match skipSpaces rest with
      | [] => .error .endOfText
      | c :: rest => if c = quote then .ok (.inl rest) else .error .malformed
    else .error .malformed

/-- The text after the colon between a key and its value. -/
def skipColon (s : Bytes) : Except Error Bytes :=
  match skipSpaces s with
  | [] => .error .endOfText
  | b :: rest => if b = colon then .ok rest else .error .malformed

/-- The text after the closing brace of an object that has no further member. -/
def closeObject (s : Bytes) : Except Error Bytes :=
  match skipSpaces s with
  | [] => .error .endOfText
  | b :: rest => if b = closeBrace then .ok rest else .error .malformed

/-- What the members of an object add to `state`, and the text after the closing brace.  A
member's key is read, then `member` takes over behind it, in front of the colon. -/
def membersFrom {σ : Type} (member : String → σ → Reader σ) (limit : Nat) :
    Nat → Bool → σ → Bytes → Except Error (σ × Bytes)
  | 0, _, _, _ => .error .endOfText
  | rounds + 1, first, state, s =>
    match nextKey first s with
    | .error e => .error e
    | .ok (.inr s) => .ok (state, s)
    | .ok (.inl s) =>
      match literal limit s with
      | .error e => .error e
      | .ok (key, s) =>
        match member key state limit s with
        | .error e => .error e
        | .ok (state, s) => membersFrom member limit rounds false state s

/-- An object of any length after its opening brace. -/
def members {σ : Type} (member : String → σ → Reader σ) (state : σ) : Reader σ := fun limit s =>
  membersFrom member limit limit true state s

/-- The value of a member, from in front of its colon. -/
def memberValue {α : Type} (value : Reader α) : Reader α := fun limit s =>
  match skipColon s with
  | .error e => .error e
  | .ok s => value limit s

/-! ## 4. Values of one expected shape -/

/-- What stands at the start of a text where something else was expected.  A word, a number or
a string is read to its end first. -/
def found : Reader Found := fun limit s =>
  match skipSpaces s with
  | [] => .error .endOfText
  | b :: rest =>
    if b = quote then (literal limit rest).map fun (t, s) => (.text t, s)
    else if b = openBracket then .ok (.array, rest)
    else if b = openBrace then .ok (.object, rest)
    else if b = 0x6E then (expectWord nullWord (b :: rest)).map fun s => (.null, s)
    else if b = 0x74 then (expectWord trueWord (b :: rest)).map fun s => (.bool true, s)
    else if b = 0x66 then (expectWord falseWord (b :: rest)).map fun s => (.bool false, s)
    else if b = minus ∨ isDigit b then
      (readNumber (b :: rest)).map fun (v, s) => (Found.ofJson v, s)
    else .error .malformed

/-- Refuses the value at the start of a text. -/
def unexpected {α : Type} (expected : Expected) : Reader α := fun limit s =>
  match found limit s with
  | .error e => .error e
  | .ok (what, _) => .error (.mismatch (.wrongType what expected))

/-- A string that stands for what is expected. -/
def textFor (expected : Expected) : Reader String := fun limit s =>
  match skipSpaces s with
  | [] => .error .endOfText
  | b :: rest => if b = quote then literal limit rest else unexpected expected limit (b :: rest)

/-- A string. -/
def text : Reader String := textFor .text

/-- An array of items of one kind. -/
def listOf {α : Type} (item : Reader α) : Reader (List α) := fun limit s =>
  match skipSpaces s with
  | [] => .error .endOfText
  | b :: rest =>
    if b = openBracket then items item limit rest else unexpected .array limit (b :: rest)

/-- An object with values of one kind under any keys; of equal keys the last counts. -/
def mapOf {α : Type} (value : Reader α) : Reader (Dictionary α) := fun limit s =>
  match skipSpaces s with
  | [] => .error .endOfText
  | b :: rest =>
    if b = openBrace then
      members (fun key held limit s =>
        (memberValue value limit s).map fun (v, s) => (held.put key v, s)) .empty limit rest
    else unexpected .object limit (b :: rest)

/-- A record, written as an object or as an array of its fields.  `fromObject` reads behind the
opening brace to behind the closing one, `fromArray` behind the opening bracket to the place
where the closing one must follow. -/
def record {α : Type} (name : String) (fromObject fromArray : Reader α) : Reader α := fun limit s =>
  match skipSpaces s with
  | [] => .error .endOfText
  | b :: rest =>
    if b = openBrace then fromObject limit rest
    else if b = openBracket then
      match fromArray limit rest with
      | .error e => .error e
      | .ok (v, s) =>
        match closeArray s with
        | .error e => .error e
        | .ok s => .ok (v, s)
    else unexpected (.record name) limit (b :: rest)

/-- A field of a record that may stand only once: refuses a second key before its value. -/
def fieldOnce {α : Type} (name : String) (held : Option α) (value : Reader α) :
    Reader (Option α) := fun limit s =>
  match held with
  | some _ => .error (.mismatch (.duplicateField name))
  | none => (memberValue value limit s).map fun (v, s) => (some v, s)

/-! ## 5. Whole texts -/

/-- The value of a whole text; nothing but white space may follow it. -/
def fromBytes {α : Type} (value : Reader α) (s : Bytes) : Except Error α :=
  match value (s.length + 1) s with
  | .error e => .error e
  | .ok (v, rest) =>
    match skipSpaces rest with
    | [] => .ok v
    | _ :: _ => .error .malformed

end MeshNode.Json
