/-
# Percent-encoding: what is written, and reading it back

An encoded text has ASCII characters alone: those that its part does not reserve, and those of
the escapes.  In a part that reserves the percent sign, escapes are the only place for it, and
every text can be read back.

* `mem_encode`: the characters of an encoded text;
* `Unreserved`: the texts that encoding leaves as they are, and `unreserved_encode`: encoded
  texts are such;
* `decode_encode`, `encode_inj`, `decodeText?_encode`: reading undoes writing.
-/
import MeshNode.Proofs.Text.Utf8
import MeshNode.Url.Percent

namespace MeshNode.Url.Percent

open Utf8

variable {reserved : Char → Bool}

/-! ## 1. Escapes -/

theorem hexDigit_ascii {n : Nat} (h : n < 16) : (hexDigit n).toNat < 0x80 := by
  have hall : ∀ n < 16, (hexDigit n).toNat < 0x80 := by decide
  exact hall n h

theorem hexValue?_hexDigit {n : Nat} (h : n < 16) :
    hexValue? (.ofNat (hexDigit n).toNat) = some n := by
  have hall : ∀ n < 16, hexValue? (.ofNat (hexDigit n).toNat) = some n := by decide
  exact hall n h

/-- The bytes of an escape are those of its three signs. -/
theorem encodeChars_escape (b : UInt8) :
    encodeChars (escape b) = [0x25, .ofNat (hexDigit (b.toNat / 16)).toNat,
      .ofNat (hexDigit (b.toNat % 16)).toNat] := by
  have hb := b.toNat_lt
  have hhigh := hexDigit_ascii (show b.toNat / 16 < 16 by omega)
  have hlow := hexDigit_ascii (show b.toNat % 16 < 16 by omega)
  simp only [escape, encodeChars, List.flatMap_cons, List.flatMap_nil, encodeChar_of_ascii hhigh,
    encodeChar_of_ascii hlow]
  rfl

/-- An escape is read back as its byte. -/
theorem decode_escape (b : UInt8) (rest : Bytes) :
    decode (encodeChars (escape b) ++ rest) = b :: decode rest := by
  have hb := b.toNat_lt
  have hvalue : escaped? (.ofNat (hexDigit (b.toNat / 16)).toNat)
      (.ofNat (hexDigit (b.toNat % 16)).toNat) = some b := by
    rw [escaped?, hexValue?_hexDigit (by omega), hexValue?_hexDigit (by omega)]
    simp only [Nat.div_add_mod, UInt8.ofNat_toNat]
  rw [encodeChars_escape]
  simp only [List.cons_append, List.nil_append, decode, if_true, hvalue]

/-- Any other byte stays. -/
theorem decode_cons {b : UInt8} (hb : b ≠ 0x25) (rest : Bytes) :
    decode (b :: rest) = b :: decode rest := by
  cases rest with
  | nil => rfl
  | cons c rest =>
    cases rest with
    | nil => simp only [decode]
    | cons d rest => rw [decode, if_neg hb]

theorem decode_escapes : ∀ (bytes rest : Bytes),
    decode (encodeChars (bytes.flatMap escape) ++ rest) = bytes ++ decode rest
  | [], _ => rfl
  | b :: bytes, rest => by
    have ih := decode_escapes bytes rest
    simp only [encodeChars, List.flatMap_cons, List.flatMap_append, List.append_assoc] at ih ⊢
    rw [← encodeChars, decode_escape]
    exact congrArg (b :: ·) ih

/-! ## 2. The characters of an encoded text -/

/-- What is not reserved is no character that is. -/
theorem ne_of_reserved {c d : Char} (hc : reserved c = false) (hd : reserved d = true) : c ≠ d := by
  rintro rfl
  rw [hc] at hd
  cases hd

/-- Where control characters and the space are reserved, what is left is above them. -/
theorem high_of_free (hcontrols : ∀ c, reserved c = false → controls c = false)
    (hspace : reserved ' ' = true) {c : Char} (h : reserved c = false) : 0x20 < c.toNat := by
  have hlow := hcontrols c h
  have hnot : c.toNat ≠ 0x20 := fun heq =>
    ne_of_reserved h hspace (by rw [← Char.ofNat_toNat c, heq])
  simp only [controls, Bool.or_eq_false_iff, decide_eq_false_iff_not] at hlow
  omega

theorem controls_of_fragment {c : Char} (h : fragment c = false) : controls c = false :=
  (Bool.or_eq_false_iff.mp h).1

theorem fragment_of_path {c : Char} (h : path c = false) : fragment c = false :=
  (Bool.or_eq_false_iff.mp h).1

theorem controls_of_webQuery {c : Char} (h : webQuery c = false) : controls c = false :=
  (Bool.or_eq_false_iff.mp (Bool.or_eq_false_iff.mp h).1).1

theorem controls_of_userInfo {c : Char} (h : userInfo c = false) : controls c = false :=
  controls_of_fragment (fragment_of_path (Bool.or_eq_false_iff.mp h).1)

/-- A character is written as it is or as the escapes of its bytes. -/
theorem encodeChar_cases (reserved : Char → Bool) (c : Char) :
    (c.toNat < 0x80 ∧ reserved c = false ∧ encodeChar reserved c = [c]) ∨
      ((0x80 ≤ c.toNat ∨ reserved c = true) ∧
        encodeChar reserved c = (Utf8.encodeChar c).flatMap escape) := by
  by_cases h : c.toNat < 0x80 ∧ reserved c = false
  · exact .inl ⟨h.1, h.2, if_pos (by simp [h])⟩
  · refine .inr ⟨?_, if_neg (by simpa using h)⟩
    cases hr : reserved c with
    | false => exact .inl (Nat.le_of_not_lt fun hlt => h ⟨hlt, hr⟩)
    | true => exact .inr rfl

theorem mem_escape {b : UInt8} {c : Char} (h : c ∈ escape b) :
    c = '%' ∨ ∃ n, n < 16 ∧ c = hexDigit n := by
  have hb := b.toNat_lt
  rcases List.mem_cons.mp h with rfl | h
  · exact .inl rfl
  · rcases List.mem_cons.mp h with rfl | h
    · exact .inr ⟨b.toNat / 16, by omega, rfl⟩
    · exact .inr ⟨b.toNat % 16, by omega, List.mem_singleton.mp h⟩

/-- **The characters of an encoded text**: ASCII characters of the text that are not reserved,
and those of the escapes. -/
theorem mem_encode {cs : List Char} {c : Char} (h : c ∈ encode reserved cs) :
    (c ∈ cs ∧ c.toNat < 0x80 ∧ reserved c = false) ∨ c = '%' ∨ ∃ n, n < 16 ∧ c = hexDigit n := by
  obtain ⟨d, hd, hc⟩ := List.mem_flatMap.mp h
  rcases encodeChar_cases reserved d with ⟨hascii, hfree, hself⟩ | ⟨-, hescapes⟩
  · rw [hself] at hc
    rw [List.mem_singleton.mp hc]
    exact .inl ⟨hd, hascii, hfree⟩
  · rw [hescapes] at hc
    obtain ⟨b, -, hc⟩ := List.mem_flatMap.mp hc
    exact .inr (mem_escape hc)

/-- A text of ASCII characters that are not reserved. -/
def Unreserved (reserved : Char → Bool) (cs : List Char) : Prop :=
  ∀ c ∈ cs, c.toNat < 0x80 ∧ reserved c = false

/-- Such a text is written as it is. -/
theorem encode_of_unreserved : ∀ {cs : List Char}, Unreserved reserved cs →
    encode reserved cs = cs
  | [], _ => rfl
  | c :: cs, h => by
    obtain ⟨hascii, hfree⟩ := h c List.mem_cons_self
    have ih : encode reserved cs = cs :=
      encode_of_unreserved fun d hd => h d (List.mem_cons_of_mem c hd)
    rw [encode, List.flatMap_cons, encodeChar, if_pos (by simp [hascii, hfree]), ← encode, ih]
    rfl

/-- The parts that leave escapes as they are. -/
structure KeepsEscapes (reserved : Char → Bool) : Prop where
  mark : reserved '%' = false
  digit : ∀ n < 16, reserved (hexDigit n) = false

theorem keepsEscapes_path : KeepsEscapes path := ⟨by decide, by decide⟩

theorem keepsEscapes_userInfo : KeepsEscapes userInfo := ⟨by decide, by decide⟩

theorem keepsEscapes_webQuery : KeepsEscapes webQuery := ⟨by decide, by decide⟩

theorem keepsEscapes_fragment : KeepsEscapes fragment := ⟨by decide, by decide⟩

/-- **An encoded text needs no encoding** in a part that leaves escapes as they are and reserves
no more. -/
theorem unreserved_encode {reserved' : Char → Bool} (hkeep : KeepsEscapes reserved')
    (hless : ∀ c, reserved c = false → reserved' c = false) (cs : List Char) :
    Unreserved reserved' (encode reserved cs) := by
  intro c hc
  rcases mem_encode hc with ⟨-, hascii, hfree⟩ | rfl | ⟨n, hn, rfl⟩
  · exact ⟨hascii, hless c hfree⟩
  · exact ⟨by decide, hkeep.mark⟩
  · exact ⟨hexDigit_ascii hn, hkeep.digit n hn⟩

/-! ## 3. Reading back -/

/-- Only the percent sign has its byte. -/
theorem ne_mark_of_mem_encodeChar {c : Char} (hc : c ≠ '%') :
    ∀ b ∈ Utf8.encodeChar c, b ≠ 0x25 := by
  intro b hb heq
  have hbyte : b.toNat = 0x25 := congrArg UInt8.toNat heq
  by_cases hascii : c.toNat < 0x80
  · rw [encodeChar_of_ascii hascii, List.mem_singleton] at hb
    rw [hb, toNat_ofNat_byte (by omega)] at hbyte
    exact hc (by rw [← Char.ofNat_toNat c, hbyte])
  · have hhigh := high_of_mem_encodeChar (Nat.le_of_not_lt hascii) b hb
    omega

/-- Bytes that are no percent sign stay. -/
theorem decode_append : ∀ {bytes : Bytes}, (∀ b ∈ bytes, b ≠ 0x25) → ∀ rest : Bytes,
    decode (bytes ++ rest) = bytes ++ decode rest
  | [], _, _ => rfl
  | b :: bytes, h, rest => by
    rw [List.cons_append, decode_cons (h b List.mem_cons_self),
      decode_append fun d hd => h d (List.mem_cons_of_mem b hd)]
    rfl

/-- A text without the sign is read as it is. -/
theorem decode_encodeChars {cs : List Char} (h : '%' ∉ cs) :
    decode (encodeChars cs) = encodeChars cs := by
  have hbytes : ∀ b ∈ encodeChars cs, b ≠ 0x25 := by
    intro b hb
    obtain ⟨c, hc, hb⟩ := List.mem_flatMap.mp hb
    exact ne_mark_of_mem_encodeChar (fun heq => h (heq ▸ hc)) b hb
  have hdecode := decode_append hbytes []
  rwa [List.append_nil, decode, List.append_nil] at hdecode

theorem decode_encodeChar (hmark : reserved '%' = true) (c : Char) (rest : Bytes) :
    decode (encodeChars (encodeChar reserved c) ++ rest) = Utf8.encodeChar c ++ decode rest := by
  rcases encodeChar_cases reserved c with ⟨-, hfree, hself⟩ | ⟨-, hescapes⟩
  · have hkeep : encodeChars [c] = Utf8.encodeChar c := List.flatMap_singleton _ _
    rw [hself, hkeep, decode_append (ne_mark_of_mem_encodeChar (ne_of_reserved hfree hmark))]
  · rw [hescapes]
    exact decode_escapes _ rest

/-- **Reading undoes writing**, where the percent sign is reserved. -/
theorem decode_encode (hmark : reserved '%' = true) : ∀ cs : List Char,
    decode (encodeChars (encode reserved cs)) = encodeChars cs
  | [] => rfl
  | c :: cs => by
    have ih := decode_encode hmark cs
    simp only [encode, encodeChars, List.flatMap_cons, List.flatMap_append] at ih ⊢
    rw [← encodeChars, decode_encodeChar hmark, ih]

/-- No two texts are written the same. -/
theorem encode_inj (hmark : reserved '%' = true) {cs ds : List Char}
    (h : encode reserved cs = encode reserved ds) : cs = ds := by
  have hbytes : encodeChars cs = encodeChars ds := by
    rw [← decode_encode hmark cs, h, decode_encode hmark]
  exact Option.some.inj (by rw [← decodeChars?_encodeChars cs, hbytes, decodeChars?_encodeChars])

theorem decodeText?_encode (hmark : reserved '%' = true) (s : String) :
    decodeText? (String.ofList (encode reserved s.toList)) = some s := by
  rw [decodeText?, Utf8.encode, String.toList_ofList, decode_encode hmark]
  exact decode?_encode s

end MeshNode.Url.Percent
