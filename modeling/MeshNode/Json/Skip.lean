/-
# Passing over JSON values

The value of a member that nobody asked for is passed over, not read: it has to be well-formed,
but strings are not decoded, numbers have no range, and nesting has no limit.  The reader
keeps the containers that are open in a list instead of calling itself, so depth costs
nothing but the length of that list.

* `skipString` and `skipNumber` pass over scalars;
* `skip` passes over any value (`Phase` says what comes next, `Frame` what is open).
-/
import MeshNode.Json.Reader

namespace MeshNode.Json

open Token

/-! ## 1. Scalars -/

/-- The text after a string, from behind its opening quotation mark.  An escape is checked for
its form alone. -/
def skipString : Bytes → Except Error Bytes
  | [] => .error .endOfText
  | b :: rest =>
    if b = quote then .ok rest
    else if b = backslash then
      match rest with
      | [] => .error .endOfText
      | e :: rest =>
        if e = letterU then
          match rest with
          | a :: b :: c :: d :: rest =>
            if (hexUnit? a b c d).isSome then skipString rest else .error .malformed
          | _ => .error .endOfText
        else if (escaped? e).isSome then skipString rest
        else .error .malformed
    else if b < 0x20 then .error .malformed
    else skipString rest

/-- The text after digits of which there must be one.  The end of the text is no digit. -/
def skipDigits (s : Bytes) : Except Error Bytes :=
  match s with
  | [] => .error .malformed
  | b :: _ => if isDigit b then .ok (s.dropWhile isDigit) else .error .malformed

/-- The text after an exponent, if there is one. -/
def skipExponent (s : Bytes) : Except Error Bytes :=
  match s with
  | [] => .ok s
  | b :: rest => if isExponentMark b then skipDigits (Numeral.readSign rest).2 else .ok s

/-- The text after a fraction, if there is one. -/
def skipFraction (s : Bytes) : Except Error Bytes :=
  match s with
  | [] => .ok s
  | b :: rest => if b = point then skipDigits rest else .ok s

/-- The text after the digits in front of a point. -/
def skipWhole (s : Bytes) : Except Error Bytes :=
  match s with
  | [] => .error .malformed
  | b :: rest =>
    if b = zero then
      match rest with
      | [] => .ok rest
      | c :: _ => if isDigit c then .error .malformed else .ok rest
    else skipDigits s

/-- The text after a number without its sign. -/
def skipNumber (s : Bytes) : Except Error Bytes := do
  skipExponent (← skipFraction (← skipWhole s))

/-! ## 2. Any value -/

/-- A container that is open. -/
inductive Frame
  | array
  | object
  deriving DecidableEq, Repr

/-- What comes next: a value, a key with its value, or what follows a value. -/
inductive Phase
  | value
  | key
  | after
  deriving DecidableEq, Repr

/-- A step of passing over a value: the phase and the open containers after it, and the text. -/
structure Skipping where
  phase : Phase
  frames : List Frame
  rest : Bytes

/-- The step at the start of a value, whose first byte is `b`. -/
def skipValueStep (frames : List Frame) (b : UInt8) (rest : Bytes) : Except Error Skipping :=
  let scalar (r : Except Error Bytes) : Except Error Skipping := r.map (⟨.after, frames, ·⟩)
  if b = openBracket then
    match skipSpaces rest with
    | [] => .error .endOfText
    | c :: more =>
      if c = closeBracket then .ok ⟨.after, frames, more⟩
      else .ok ⟨.value, .array :: frames, c :: more⟩
  else if b = openBrace then
    match skipSpaces rest with
    | [] => .error .endOfText
    | c :: more =>
      if c = closeBrace then .ok ⟨.after, frames, more⟩
      else .ok ⟨.key, .object :: frames, c :: more⟩
  else if b = quote then scalar (skipString rest)
  else if b = 0x6E then scalar (expectWord nullWord (b :: rest))
  else if b = 0x74 then scalar (expectWord trueWord (b :: rest))
  else if b = 0x66 then scalar (expectWord falseWord (b :: rest))
  else if b = minus then scalar (skipNumber rest)
  else if isDigit b then scalar (skipNumber (b :: rest))
  else .error .malformed

/-- The step from a key, whose first byte is `b`, to behind its colon. -/
def skipKeyStep (frames : List Frame) (b : UInt8) (rest : Bytes) : Except Error Skipping :=
  if b = quote then
    match skipString rest with
    | .error e => .error e
    | .ok rest => (skipColon rest).map (⟨.value, frames, ·⟩)
  else .error .malformed

/-- The step behind a value that stands in an open container. -/
def skipAfterStep (frame : Frame) (frames : List Frame) (b : UInt8) (rest : Bytes) :
    Except Error Skipping :=
  match frame with
  | .array =>
    if b = comma then .ok ⟨.value, .array :: frames, rest⟩
    else if b = closeBracket then .ok ⟨.after, frames, rest⟩
    else .error .malformed
  | .object =>
    if b = comma then .ok ⟨.key, .object :: frames, rest⟩
    else if b = closeBrace then .ok ⟨.after, frames, rest⟩
    else .error .malformed

/-- Passes on until no container is open behind a value. -/
def skipFrom : Nat → Phase → List Frame → Bytes → Except Error Bytes
  | _, .after, [], s => .ok s
  | 0, _, _, _ => .error .endOfText
  | limit + 1, phase, frames, s =>
    match skipSpaces s with
    | [] => .error .endOfText
    | b :: rest =>
      let step :=
        match phase, frames with
        | .value, _ => skipValueStep frames b rest
        | .key, _ => skipKeyStep frames b rest
        | .after, [] => .error .malformed
        | .after, frame :: frames => skipAfterStep frame frames b rest
      match step with
      | .error e => .error e
      | .ok next => skipFrom limit next.phase next.frames next.rest

/-- Passes over one value. -/
def skip : Reader Unit := fun limit s => (skipFrom limit .value [] s).map ((), ·)

end MeshNode.Json
