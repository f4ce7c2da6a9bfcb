/-
# Strings: how a character is written

A character stands in a written string in one of two ways: as its own bytes, none of which means
anything to the reader, or behind a backslash, as an escape for these bytes.

* `charBytes_cases` are the two ways;
* `literalBytes_charBytes`: the reader over one character, whatever follows it.
-/
import MeshNode.Json.Reader
import MeshNode.Proofs.Text.Utf8

namespace MeshNode.Json

open Token

/-! ## 1. Bytes that stand for themselves -/

/-- A byte that stands for itself inside a string. -/
def Plain (b : UInt8) : Prop := b ≠ quote ∧ b ≠ backslash ∧ ¬ b < 0x20

theorem plain_of_toNat {b : UInt8} (h : 0x20 ≤ b.toNat) (hq : b.toNat ≠ 0x22)
    (hb : b.toNat ≠ 0x5C) : Plain b := by
  refine ⟨?_, ?_, ?_⟩
  · rintro rfl
    exact hq rfl
  · rintro rfl
    exact hb rfl
  · rw [UInt8.lt_iff_toNat_lt]
    exact Nat.not_lt.mpr h

/-- The bytes of a character that needs no escape stand for themselves. -/
theorem plain_encodeChar {c : Char} (h : 0x20 ≤ c.toNat) (hq : c.toNat ≠ 0x22)
    (hb : c.toNat ≠ 0x5C) : ∀ b ∈ Utf8.encodeChar c, Plain b := by
  intro b hmem
  by_cases ha : c.toNat < 0x80
  · rw [Utf8.encodeChar_of_ascii ha] at hmem
    have ht : b.toNat = c.toNat := by
      rw [List.mem_singleton.mp hmem, Utf8.toNat_ofNat_byte (by omega)]
    exact plain_of_toNat (by omega) (by omega) (by omega)
  · have ht := Utf8.high_of_mem_encodeChar (by omega) b hmem
    exact plain_of_toNat (by omega) (by omega) (by omega)

/-! ## 2. Escapes -/

theorem hexValue?_hexDigit {k : Nat} (h : k < 16) : hexValue? (Literal.hexDigit k) = some k := by
  have hk : ∀ k < 16, hexValue? (Literal.hexDigit k) = some k := by decide
  exact hk k h

/-- The escape by number of a control character. -/
theorem escapeBytes_number {n : Nat} (h : n < 0x20) (rest : Bytes) :
    escapeBytes (letterU :: zero :: zero :: Literal.hexDigit (n / 16) :: Literal.hexDigit (n % 16)
      :: rest) = .ok (Utf8.encodeChar (Char.ofNat n), rest) := by
  have hz : hexValue? zero = some 0 := by decide
  have hn : n / 16 * 16 + n % 16 = n := by omega
  have hunit : hexUnit (zero :: zero :: Literal.hexDigit (n / 16) :: Literal.hexDigit (n % 16)
      :: rest) = .ok (n, rest) := by
    simp only [hexUnit, hexUnit?, hz, hexValue?_hexDigit (show n / 16 < 16 by omega),
      hexValue?_hexDigit (show n % 16 < 16 by omega), Nat.zero_mul, Nat.zero_add, hn]
  have hchar : numberedChar (zero :: zero :: Literal.hexDigit (n / 16)
      :: Literal.hexDigit (n % 16) :: rest) = .ok (Char.ofNat n, rest) := by
    have hlow : ¬ (0xDC00 ≤ n ∧ n ≤ 0xDFFF) := by omega
    have hhigh : n < 0xD800 ∨ 0xDBFF < n := by omega
    simp only [numberedChar, hunit, bind, Except.bind, hlow, if_false, hhigh, if_true]
  simp only [escapeBytes, if_true, hchar]

/-- **The two ways in which a character stands in a string.** -/
theorem charBytes_cases (c : Char) :
    (Literal.charBytes c = Utf8.encodeChar c ∧ ∀ b ∈ Utf8.encodeChar c, Plain b) ∨
      ∃ esc, Literal.charBytes c = backslash :: esc ∧
        ∀ rest, escapeBytes (esc ++ rest) = .ok (Utf8.encodeChar c, rest) := by
  unfold Literal.charBytes
  by_cases hq : c = '"'
  · subst hq
    exact Or.inr ⟨[quote], rfl, fun rest => rfl⟩
  by_cases hb : c = '\\'
  · subst hb
    exact Or.inr ⟨[backslash], rfl, fun rest => rfl⟩
  simp only [if_neg hq, if_neg hb]
  by_cases hn : c.toNat < 0x20
  · refine Or.inr ?_
    have hc : Char.ofNat c.toNat = c := Char.ofNat_toNat c
    generalize c.toNat = n at hn hc
    subst hc
    rw [if_pos hn]
    split
    · next h => exact ⟨[0x62], rfl, fun rest => by subst h; rfl⟩
    split
    · next h => exact ⟨[0x74], rfl, fun rest => by subst h; rfl⟩
    split
    · next h => exact ⟨[0x6E], rfl, fun rest => by subst h; rfl⟩
    split
    · next h => exact ⟨[0x66], rfl, fun rest => by subst h; rfl⟩
    split
    · next h => exact ⟨[0x72], rfl, fun rest => by subst h; rfl⟩
    · exact ⟨_, rfl, fun rest => escapeBytes_number hn rest⟩
  · refine Or.inl ⟨if_neg hn, plain_encodeChar (by omega) ?_ ?_⟩
    · exact fun h => hq (Char.toNat_inj.mp h)
    · exact fun h => hb (Char.toNat_inj.mp h)

/-! ## 3. The reader over a string -/

/-- Each byte that stands for itself costs one round. -/
theorem literalBytes_plain : ∀ (bs : Bytes) (acc : Bytes) (limit : Nat) (rest : Bytes),
    (∀ b ∈ bs, Plain b) → literalBytes acc (limit + bs.length) (bs ++ rest)
      = literalBytes (bs.reverse ++ acc) limit rest
  | [], acc, limit, rest, _ => rfl
  | b :: bs, acc, limit, rest, h => by
    obtain ⟨hq, hb, hc⟩ := h b (by simp)
    have ih := literalBytes_plain bs (b :: acc) limit rest (fun x hx => h x (by simp [hx]))
    rw [List.length_cons, ← Nat.add_assoc, List.cons_append, literalBytes, if_neg hq, if_neg hb,
      if_neg hc, ih]
    simp

/-- An escape costs one round. -/
theorem literalBytes_escape {s new rest : Bytes} (h : escapeBytes s = .ok (new, rest))
    (acc : Bytes) (limit : Nat) :
    literalBytes acc (limit + 1) (backslash :: s)
      = literalBytes (new.reverse ++ acc) limit rest := by
  rw [literalBytes, if_neg (by decide), if_pos rfl, h]

/-- The reader over one character: its bytes are collected, and enough rounds are left for the
rest. -/
theorem literalBytes_charBytes (c : Char) (acc : Bytes) {limit : Nat} {rest : Bytes}
    (h : (Literal.charBytes c ++ rest).length < limit) :
    ∃ limit', rest.length < limit' ∧ literalBytes acc limit (Literal.charBytes c ++ rest)
      = literalBytes ((Utf8.encodeChar c).reverse ++ acc) limit' rest := by
  rw [List.length_append] at h
  rcases charBytes_cases c with ⟨he, hp⟩ | ⟨esc, he, hesc⟩
  · rw [he] at h ⊢
    refine ⟨limit - (Utf8.encodeChar c).length, by omega, ?_⟩
    rw [← literalBytes_plain _ _ _ _ hp, Nat.sub_add_cancel (by omega)]
  · rw [he] at h ⊢
    refine ⟨limit - 1, by simp at h; omega, ?_⟩
    rw [← literalBytes_escape (hesc rest), Nat.sub_add_cancel (by omega), List.cons_append]

end MeshNode.Json
