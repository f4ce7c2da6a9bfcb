/-
# Whole numbers: reading undoes writing

A whole number of 64 bits is read back from its text, and nothing behind the text is taken
along, as long as what follows cannot go on a number.

* `Delimited` is that condition on what follows;
* `readNumber_intBytes`: the number behind its text.
-/
import MeshNode.Json.Number
import MeshNode.Proofs.Text.Digits
import MeshNode.Proofs.Text.Split

namespace MeshNode.Json

open Token

/-- A text that does not go on a number: it is empty or starts with none of the bytes that may
stand in a number behind its first digit. -/
def Delimited (r : Bytes) : Prop :=
  ∀ b ∈ r.head?, isDigit b = false ∧ b ≠ point ∧ isExponentMark b = false

/-! ## 1. Digits as bytes -/

/-- The digits of a number as bytes. -/
def natBytes (n : Nat) : Bytes := (Nat.toDigits 10 n).map fun c => .ofNat c.toNat

theorem intBytes_of_nonneg {n : Int} (h : 0 ≤ n) : intBytes n = natBytes n.toNat := by
  have hn : n.natAbs = n.toNat := by omega
  simp [intBytes, natBytes, hn, show ¬ n < 0 by omega]

theorem intBytes_of_neg {n : Int} (h : n < 0) : intBytes n = minus :: natBytes n.natAbs := by
  simp [intBytes, natBytes, h]

/-- The byte of a digit. -/
def digitByte (d : Nat) : UInt8 := .ofNat d.digitChar.toNat

theorem isDigit_digitByte {d : Nat} (h : d < 10) : isDigit (digitByte d) = true := by
  have hd : ∀ d < 10, isDigit (digitByte d) = true := by decide
  exact hd d h

theorem digitValue_digitByte {d : Nat} (h : d < 10) : digitValue (digitByte d) = d := by
  have hd : ∀ d < 10, digitValue (digitByte d) = d := by decide
  exact hd d h

/-- Induction over the digits of a number, as bytes. -/
theorem natBytes_induction {P : Nat → Bytes → Prop} (one : ∀ d, d < 10 → P d [digitByte d])
    (more : ∀ n d, 0 < n → d < 10 → P n (natBytes n) →
      P (10 * n + d) (natBytes n ++ [digitByte d])) (n : Nat) : P n (natBytes n) := by
  refine Text.toDigits_induction (by decide : 1 < 10)
    (P := fun n cs => P n (cs.map fun c => UInt8.ofNat c.toNat)) ?_ ?_ n
  · intro d hd
    exact one d hd
  · intro n d hn hd ih
    rw [List.map_append]
    exact more n d hn hd ih

theorem natBytes_ne_nil (n : Nat) : natBytes n ≠ [] := by
  simp [natBytes, Nat.toDigits_ne_nil]

theorem isDigit_of_mem_natBytes (n : Nat) : ∀ b ∈ natBytes n, isDigit b = true := by
  refine natBytes_induction (P := fun _ bs => ∀ b ∈ bs, isDigit b = true) ?_ ?_ n
  · intro d hd
    simpa using isDigit_digitByte hd
  · intro n d _ hd ih b hb
    rcases List.mem_append.mp hb with h | h
    · exact ih b h
    · rw [List.mem_singleton.mp h]
      exact isDigit_digitByte hd

/-- The values of the digits spell the number. -/
theorem ofDigits_natBytes (n : Nat) : Numeral.ofDigits ((natBytes n).map digitValue) = n := by
  refine natBytes_induction (P := fun n bs => Numeral.ofDigits (bs.map digitValue) = n) ?_ ?_ n
  · intro d hd
    simp [Numeral.ofDigits, digitValue_digitByte hd]
  · intro n d _ hd ih
    rw [Numeral.ofDigits] at ih ⊢
    rw [List.map_append, List.foldl_append, ih]
    simp [digitValue_digitByte hd]

/-- Digits that start with zero are one digit. -/
theorem natBytes_leading_zero {n : Nat} (h : ((natBytes n).map digitValue).head? = some 0) :
    (natBytes n).length = 1 := by
  have hz : n = 0 := by
    revert h
    refine natBytes_induction (P := fun n bs => (bs.map digitValue).head? = some 0 → n = 0) ?_ ?_ n
    · intro d hd h
      simpa [digitValue_digitByte hd] using h
    · intro n d hn _ ih h
      cases hc : natBytes n with
      | nil => exact absurd hc (natBytes_ne_nil n)
      | cons c rest =>
        rw [hc] at ih h
        exact absurd (ih (by simpa using h)) (by omega)
  subst hz
  rfl

/-! ## 2. The reader behind the digits -/

/-- The digits are taken, and nothing behind them. -/
theorem takeDigits_append {ds r : Bytes} (hds : ∀ b ∈ ds, isDigit b = true)
    (hr : Delimited r) : Numeral.takeDigits (ds ++ r) = (ds.map digitValue, r) := by
  obtain ⟨htake, hdrop⟩ := Text.span_run hds fun b hb => (hr b hb).1
  rw [Numeral.takeDigits, htake, hdrop]

theorem readFraction_of_delimited {r : Bytes} (hr : Delimited r) :
    Numeral.readFraction r = .ok (none, r) := by
  cases r with
  | nil => rfl
  | cons b r => simp [Numeral.readFraction, (hr b rfl).2.1]

theorem readExponent_of_delimited {r : Bytes} (hr : Delimited r) :
    Numeral.readExponent r = .ok (none, r) := by
  cases r with
  | nil => rfl
  | cons b r => simp [Numeral.readExponent, (hr b rfl).2.2]

theorem readUnsigned_natBytes (negative : Bool) (n : Nat) {r : Bytes} (hr : Delimited r) :
    Numeral.readUnsigned negative (natBytes n ++ r)
      = .ok (⟨negative, (natBytes n).map digitValue, none, none⟩, r) := by
  have htake := takeDigits_append (isDigit_of_mem_natBytes n) hr
  have hsome : Numeral.someDigits (natBytes n ++ r) = .ok ((natBytes n).map digitValue, r) := by
    cases hc : natBytes n with
    | nil => exact absurd hc (natBytes_ne_nil n)
    | cons b rest =>
      have hb : isDigit b = true := isDigit_of_mem_natBytes n b (by simp [hc])
      rw [hc] at htake
      simp only [Numeral.someDigits, List.cons_append, hb, if_true] at htake ⊢
      rw [htake]
  have hwhole : Numeral.readWhole (natBytes n ++ r) = .ok ((natBytes n).map digitValue, r) := by
    rw [Numeral.readWhole, hsome]
    refine if_neg ?_
    rintro ⟨hz, hl⟩
    rw [List.length_map, natBytes_leading_zero hz] at hl
    exact absurd hl (by decide)
  simp only [Numeral.readUnsigned, hwhole, readFraction_of_delimited hr,
    readExponent_of_delimited hr]

/-- A number of digits does not shrink when digits follow. -/
theorem le_foldl_digits : ∀ (ds : List Nat) (n : Nat), n ≤ ds.foldl (fun n d => 10 * n + d) n
  | [], n => Nat.le_refl n
  | d :: ds, n => by
    have h := le_foldl_digits ds (10 * n + d)
    simp only [List.foldl_cons]
    omega

/-- Digits that fit a word are all taken. -/
theorem fill_of_lt : ∀ (ds : List Nat) (n : Nat),
    ds.foldl (fun n d => 10 * n + d) n < Numeral.wordBound →
      Numeral.fill n ds = (ds.foldl (fun n d => 10 * n + d) n, [])
  | [], _, _ => rfl
  | d :: ds, n, h => by
    simp only [List.foldl_cons] at h ⊢
    have hd : 10 * n + d < Numeral.wordBound := Nat.lt_of_le_of_lt (le_foldl_digits ds _) h
    rw [Numeral.fill, if_pos hd]
    exact fill_of_lt ds (10 * n + d) h

theorem fill_natBytes {n : Nat} (h : n < Numeral.wordBound) :
    Numeral.fill 0 ((natBytes n).map digitValue) = (n, []) := by
  have ho := ofDigits_natBytes n
  rw [Numeral.ofDigits] at ho
  rw [fill_of_lt _ _ (by rw [ho]; exact h), ho]

/-! ## 3. Whole numbers -/

/-- **A whole number of 64 bits is read back.** -/
theorem readNumber_intBytes {n : Int} (hn : isWord n = true) {r : Bytes} (hr : Delimited r) :
    readNumber (intBytes n ++ r) = .ok (.int n, r) := by
  simp only [isWord, Bool.and_eq_true, decide_eq_true_eq] at hn
  by_cases h : n < 0
  · have hm : n.natAbs ≤ 0x8000000000000000 := by omega
    have hread : Numeral.read (intBytes n ++ r)
        = .ok (⟨true, (natBytes n.natAbs).map digitValue, none, none⟩, r) := by
      rw [intBytes_of_neg h]
      simp only [Numeral.read, List.cons_append, if_true]
      exact readUnsigned_natBytes true n.natAbs hr
    have hval : -(n.natAbs : Int) = n := by omega
    simp only [readNumber, hread, Numeral.value?,
      fill_natBytes (show n.natAbs < 0x10000000000000000 by omega)]
    have hbound : 0 < n.natAbs ∧ n.natAbs ≤ 0x8000000000000000 := ⟨by omega, hm⟩
    simp only [List.isEmpty_nil, Bool.not_true, Bool.false_eq_true, if_false, if_pos hbound, hval]
  · have hread : Numeral.read (intBytes n ++ r)
        = .ok (⟨false, (natBytes n.toNat).map digitValue, none, none⟩, r) := by
      rw [intBytes_of_nonneg (by omega)]
      cases hc : natBytes n.toNat with
      | nil => exact absurd hc (natBytes_ne_nil _)
      | cons b rest =>
        have hb : b ≠ minus := by
          rintro rfl
          exact absurd (isDigit_of_mem_natBytes n.toNat minus (by simp [hc])) (by decide)
        simp only [Numeral.read, List.cons_append, if_neg hb]
        rw [← List.cons_append, ← hc]
        exact readUnsigned_natBytes false n.toNat hr
    have hval : (n.toNat : Int) = n := by omega
    simp only [readNumber, hread, Numeral.value?,
      fill_natBytes (show n.toNat < 0x10000000000000000 by omega)]
    simp [hval]

/-- The first byte of a whole number's text. -/
theorem intBytes_head (n : Int) :
    ∃ b rest, intBytes n = b :: rest ∧ (b = minus ∨ isDigit b = true) := by
  by_cases h : n < 0
  · exact ⟨minus, natBytes n.natAbs, intBytes_of_neg h, Or.inl rfl⟩
  · rw [intBytes_of_nonneg (by omega)]
    cases hc : natBytes n.toNat with
    | nil => exact absurd hc (natBytes_ne_nil _)
    | cons b rest =>
      exact ⟨b, rest, rfl, Or.inr (isDigit_of_mem_natBytes n.toNat b (by simp [hc]))⟩

end MeshNode.Json
