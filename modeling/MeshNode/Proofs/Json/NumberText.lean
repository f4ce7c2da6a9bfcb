/-
# Numbers: one text, one outcome

The text of a number is read as a whole, or it is refused for its range; which of the two depends on
nothing but the text, as long as what follows does not go on the number.

* `readWhole_text`, `readFraction_text`, `readExponent_text`: the parts of a number;
* `readNumber_text`: the whole of it.
-/
import MeshNode.Proofs.Json.Passing

namespace MeshNode.Json

open Token

variable {t r : Bytes}

theorem someDigits_digits (h : Digits t) (hr : NoDigitFirst r) :
    Numeral.someDigits (t ++ r) = .ok (t.map digitValue, r) := by
  obtain ⟨hne, hall⟩ := h
  have htake : Numeral.takeDigits (t ++ r) = (t.map digitValue, r) := by
    obtain ⟨htake, hdrop⟩ := Text.span_run hall hr
    rw [Numeral.takeDigits, htake, hdrop]
  cases t with
  | nil => exact absurd rfl hne
  | cons b t =>
    rw [List.cons_append] at htake ⊢
    rw [Numeral.someDigits, if_pos (hall b List.mem_cons_self), htake]

theorem readWhole_text (h : WholeText t) (hr : NoDigitFirst r) :
    Numeral.readWhole (t ++ r) = .ok (t.map digitValue, r) := by
  have hleading : ¬ ((t.map digitValue).head? = some 0 ∧ 1 < (t.map digitValue).length) := by
    rintro ⟨hhead, hlength⟩
    rcases h with rfl | ⟨⟨hne, hall⟩, hzero⟩
    · exact absurd hlength (by decide)
    · cases t with
      | nil => exact hne rfl
      | cons b t =>
        -- the only digit of value nought is the zero
        have hb := hall b List.mem_cons_self
        have hvalue : digitValue b = 0 := Option.some.inj hhead
        rw [isDigit, Bool.and_eq_true, decide_eq_true_eq, UInt8.le_iff_toNat_le] at hb
        have hb48 : b.toNat = zero.toNat := by
          have hlow : 0x30 ≤ b.toNat := hb.1
          have hhigh : b.toNat - 0x30 = 0 := hvalue
          show b.toNat = 0x30
          omega
        exact hzero (by rw [List.head?_cons, UInt8.toNat_inj.mp hb48])
  have hdigits : Digits t := by
    rcases h with rfl | ⟨hdigits, -⟩
    · exact ⟨List.cons_ne_nil _ _, List.all_eq_true.mp rfl⟩
    · exact hdigits
  rw [Numeral.readWhole, someDigits_digits hdigits hr]
  exact if_neg hleading

theorem readFraction_text (h : FractionText t) :
    ∃ fraction, ∀ r, NoDigitFirst r → point ∉ r.head? →
      Numeral.readFraction (t ++ r) = .ok (fraction, r) := by
  rcases h with rfl | ⟨digits, rfl, hdigits⟩
  · refine ⟨none, fun r _ hpoint => ?_⟩
    cases r with
    | nil => rfl
    | cons b r =>
      rw [List.nil_append, Numeral.readFraction]
      exact if_neg fun hb => hpoint (by rw [hb]; rfl)
  · refine ⟨some (digits.map digitValue), fun r hr _ => ?_⟩
    rw [List.cons_append, Numeral.readFraction, if_pos rfl, someDigits_digits hdigits hr]

theorem readExponent_text (h : ExponentText t) :
    ∃ exponent, ∀ r, Delimited r → Numeral.readExponent (t ++ r) = .ok (exponent, r) := by
  rcases h with rfl | ⟨mark, sign, digits, rfl, hmark, hsign, hdigits⟩
  · exact ⟨none, fun r hr => readExponent_of_delimited hr⟩
  · obtain ⟨negative, hread⟩ := readSign_append hsign hdigits
    refine ⟨some (negative, digits.map digitValue), fun r hr => ?_⟩
    rw [List.cons_append, List.append_assoc, Numeral.readExponent, if_pos hmark, hread]
    dsimp only
    rw [someDigits_digits hdigits fun b hb => (hr b hb).1]

theorem readUnsigned_text (h : UnsignedText t) (negative : Bool) :
    ∃ n, ∀ r, Delimited r → Numeral.readUnsigned negative (t ++ r) = .ok (n, r) := by
  obtain ⟨whole, fraction, exponent, rfl, hwhole, hfraction, hexponent, hbehind⟩ := h.parts
  obtain ⟨f, hf⟩ := readFraction_text hfraction
  obtain ⟨e, he⟩ := readExponent_text hexponent
  refine ⟨⟨negative, whole.map digitValue, f, e⟩, fun r hr => ?_⟩
  obtain ⟨hmiddle, hlast, hpoint⟩ := hbehind r hr
  rw [List.append_assoc, List.append_assoc, Numeral.readUnsigned, readWhole_text hwhole hmiddle]
  dsimp only
  rw [hf _ hlast hpoint]
  dsimp only
  rw [he r hr]

/-- **A number is read as a whole**, or it is refused for its range. -/
theorem readNumber_text (h : NumberText t) :
    ∃ result : Except Error Json, ∀ r, Delimited r → readNumber (t ++ r) = result.map (·, r) := by
  have hread : ∃ n, ∀ r, Delimited r → Numeral.read (t ++ r) = .ok (n, r) := by
    rcases h with h | ⟨u, rfl, h⟩
    · obtain ⟨n, hn⟩ := readUnsigned_text h false
      obtain ⟨b, u, rfl, hb⟩ := unsigned_starts h
      have hminus : b ≠ minus := by
        rintro rfl
        cases hb
      exact ⟨n, fun r hr => by rw [List.cons_append, Numeral.read, if_neg hminus]; exact hn r hr⟩
    · obtain ⟨n, hn⟩ := readUnsigned_text h true
      exact ⟨n, fun r hr => by rw [List.cons_append, Numeral.read, if_pos rfl]; exact hn r hr⟩
  obtain ⟨n, hn⟩ := hread
  cases hvalue : n.value? with
  | none => exact ⟨.error .malformed, fun r hr => by simp only [readNumber, hn r hr, hvalue]; rfl⟩
  | some v => exact ⟨.ok v, fun r hr => by simp only [readNumber, hn r hr, hvalue]; rfl⟩

end MeshNode.Json
