/-
# Digits: reading undoes writing

The digits of a number in a base up to sixteen spell that number again.

* `toDigits_induction`: from the last digit to the front, the way digits are written;
* `of_mem_toDigits`: what the digits of a number are;
* `numberIn?_toDigits`: the number behind the digits.
-/
import MeshNode.Address.IP

namespace MeshNode.Text

/-- The digits of a number are one digit, or those of its quotient with the remainder's digit
behind them. -/
theorem toDigits_induction {base : Nat} (hb : 1 < base) {P : Nat → List Char → Prop}
    (one : ∀ d, d < base → P d [d.digitChar])
    (more : ∀ n d, 0 < n → d < base → P n (Nat.toDigits base n) →
      P (base * n + d) (Nat.toDigits base n ++ [d.digitChar]))
    (n : Nat) : P n (Nat.toDigits base n) := by
  induction n using Nat.strongRecOn with
  | ind n ih =>
    by_cases h : n < base
    · rw [Nat.toDigits_of_lt_base h]
      exact one n h
    · have hn : base ≤ n := Nat.le_of_not_lt h
      have hq : 0 < n / base := Nat.div_pos hn (by omega)
      have hp := more (n / base) (n % base) hq (Nat.mod_lt n (by omega))
        (ih (n / base) (Nat.div_lt_self (by omega) hb))
      rw [Nat.div_add_mod] at hp
      rw [Nat.toDigits_of_base_le hb hn]
      exact hp

/-- What holds of the sixteen digits holds of those of a number. -/
theorem of_mem_toDigits {base : Nat} (hb : 1 < base) (hb' : base ≤ 16) {P : Char → Prop}
    (h : ∀ d < 16, P d.digitChar) {n : Nat} : ∀ c ∈ Nat.toDigits base n, P c := by
  refine toDigits_induction hb (P := fun _ cs => ∀ c ∈ cs, P c) ?_ ?_ n
  · intro d hd c hc
    rw [List.mem_singleton.mp hc]
    exact h d (by omega)
  · intro n d _ hd ih c hc
    rcases List.mem_append.mp hc with hc | hc
    · exact ih c hc
    · rw [List.mem_singleton.mp hc]
      exact h d (by omega)

theorem digitValue?_digitChar {base d : Nat} (hb : base ≤ 16) (h : d < base) :
    digitValue? base d.digitChar = some d := by
  have hd : ∀ d < 16, ∀ base < 17, d < base → digitValue? base d.digitChar = some d := by decide
  exact hd d (by omega) base (by omega) h

/-- One more digit behind others multiplies their number by the base. -/
theorem foldlM_digitValue? {base : Nat} (hb : 1 < base) (hb' : base ≤ 16) (n : Nat) :
    (Nat.toDigits base n).foldlM (fun n c => (digitValue? base c).map (n * base + ·)) 0
      = some n := by
  refine toDigits_induction hb (P := fun n cs =>
    cs.foldlM (fun n c => (digitValue? base c).map (n * base + ·)) 0 = some n) ?_ ?_ n
  · intro d hd
    simp [digitValue?_digitChar hb' hd]
  · intro n d _ hd ih
    rw [List.foldlM_append, ih]
    simp [digitValue?_digitChar hb' hd, Nat.mul_comm]

/-- **The digits of a number spell it.** -/
theorem numberIn?_toDigits {base : Nat} (hb : 1 < base) (hb' : base ≤ 16) (n : Nat) :
    numberIn? base (Nat.toDigits base n) = some n := by
  have h := foldlM_digitValue? hb hb' n
  cases hd : Nat.toDigits base n with
  | nil => exact absurd hd Nat.toDigits_ne_nil
  | cons c rest => rwa [hd] at h

end MeshNode.Text
