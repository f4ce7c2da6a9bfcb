/-
# Which texts are taken for a port

A port should be written in decimal.  Whatever is written so, and is no greater than a port can be,
is taken for the port that it denotes.  But a variable is a truth value first, and a number of any
kind before it is a text, so other texts are ports as well: six words, and every numeral that is no
whole number of 64 bits, for the whole number nearest to the double that it spells.

* `WholeNumeral`: an optional sign and digits, and the number that they denote;
* `NearestWhole`: the whole number nearest to a double, and `roundToWord_eq_iff` that it is taken;
* `PortText`: the texts that are taken for a port, `toNat?_ofText_iff` that there are no others;
* `ofVariables_eq_ok_iff` and `settings_read_iff`: when settings are read, and what their ports are;
* `words_taken_for_ports`: texts that are no numerals.
-/
import Mathlib.Data.List.Induction
import Mathlib.Tactic.Linarith
import MeshNode.Proofs.Settings.Environment
import MeshNode.Proofs.Settings.Value

namespace MeshNode

namespace Decimal

/-! ## 1. Whole numbers in decimal -/

/-- The decimal digits. -/
def digitChars : List Char := ['0', '1', '2', '3', '4', '5', '6', '7', '8', '9']

/-- The number that digits denote: the last counts ones, the one before it tens, and so on. -/
def denoted (digits : List Char) : Nat := Nat.ofDigits 10 (digits.reverse.map digitChars.idxOf)

/-- **A whole number in decimal**: an optional sign, and digits. -/
inductive WholeNumeral (text : List Char) : Int → Prop
  | plain (h : text ≠ []) (hdigits : ∀ c ∈ text, c ∈ digitChars) : WholeNumeral text (denoted text)
  | plus {digits : List Char} (htext : text = '+' :: digits) (h : digits ≠ [])
    (hdigits : ∀ c ∈ digits, c ∈ digitChars) : WholeNumeral text (denoted digits)
  | minus {digits : List Char} (htext : text = '-' :: digits) (h : digits ≠ [])
    (hdigits : ∀ c ∈ digits, c ∈ digitChars) : WholeNumeral text (-denoted digits)

theorem isDigit_iff {c : Char} : isDigit c = true ↔ c ∈ digitChars := by
  constructor
  · intro h
    have hrange : 48 ≤ c.toNat ∧ c.toNat ≤ 57 := by
      simpa [isDigit, Char.le_def, UInt32.le_iff_toNat_le] using h
    have hall : ∀ n ∈ List.range' 48 10, Char.ofNat n ∈ digitChars := by decide
    have hmem := hall c.toNat (List.mem_range'_1.mpr ⟨hrange.1, by omega⟩)
    rwa [Char.ofNat_toNat] at hmem
  · intro h
    -- as a Boolean: `∀ c ∈ digitChars` may be decided by trying every character there is
    have hall : digitChars.all isDigit = true := by decide
    exact List.all_eq_true.mp hall c h

/-- The digits are read as what they denote. -/
theorem natOfDigits_eq {digits : List Char} (h : ∀ c ∈ digits, c ∈ digitChars) :
    natOfDigits digits = denoted digits := by
  induction digits using List.reverseRecOn with
  | nil => rfl
  | append_singleton front c ih =>
    have hfront : natOfDigits front = denoted front :=
      ih fun d hd => h d (List.mem_append_left [c] hd)
    have hvalues : digitChars.all (fun c => c.toNat - '0'.toNat == digitChars.idxOf c) = true := by
      decide
    have hvalue : c.toNat - '0'.toNat = digitChars.idxOf c :=
      eq_of_beq (List.all_eq_true.mp hvalues c (h c (by simp)))
    have hdenoted : denoted (front ++ [c]) = digitChars.idxOf c + 10 * denoted front := by
      simp [denoted, Nat.ofDigits_cons]
    rw [hdenoted, ← hfront, natOfDigits, List.foldl_append, List.foldl_cons, List.foldl_nil,
      hvalue, ← natOfDigits]
    omega

/-- What is read from digits behind a sign. -/
theorem parseInt?_of_sign {text digits : List Char} {negative : Bool}
    (hsign : takeSign text = (negative, digits)) (n : Int) :
    parseInt? text = some n ↔ (digits ≠ [] ∧ ∀ c ∈ digits, c ∈ digitChars) ∧
      n = if negative then -(denoted digits : Int) else denoted digits := by
  rw [parseInt?, hsign]
  dsimp only
  by_cases hdigits : digits ≠ [] ∧ ∀ c ∈ digits, c ∈ digitChars
  · have hempty : digits.isEmpty = false := List.isEmpty_eq_false_iff.mpr hdigits.1
    have hall : digits.all isDigit = true :=
      List.all_eq_true.mpr fun c hc => isDigit_iff.mpr (hdigits.2 c hc)
    rw [hempty, hall, natOfDigits_eq hdigits.2, and_iff_right hdigits]
    exact ⟨fun h => (Option.some.inj h).symm, fun h => congrArg some h.symm⟩
  · have hnot : (digits.isEmpty || !digits.all isDigit) = true := by
      rw [Bool.or_eq_true, Bool.not_eq_true', ← Bool.not_eq_true, List.all_eq_true]
      by_cases hnil : digits = []
      · exact .inl (List.isEmpty_iff.mpr hnil)
      · exact .inr fun hall => hdigits ⟨hnil, fun c hc => isDigit_iff.mp (hall c hc)⟩
    rw [if_pos hnot]
    exact iff_of_false (by rintro ⟨⟩) fun h => hdigits h.1

/-- **A whole number is read** exactly from its numerals. -/
theorem parseInt?_eq_some_iff {text : List Char} {n : Int} :
    parseInt? text = some n ↔ WholeNumeral text n := by
  have hminus : '-' ∉ digitChars := by decide
  have hplus : '+' ∉ digitChars := by decide
  rcases hsign : takeSign text with ⟨negative, digits⟩
  rw [parseInt?_of_sign hsign]
  unfold takeSign at hsign
  split at hsign
  · next rest =>
    obtain ⟨rfl, rfl⟩ := Prod.mk.inj hsign
    constructor
    · rintro ⟨⟨h, hdigits⟩, rfl⟩
      exact .minus rfl h hdigits
    · rintro (⟨-, hdigits⟩ | ⟨htext, -, -⟩ | ⟨htext, h, hdigits⟩)
      · exact absurd (hdigits '-' List.mem_cons_self) hminus
      · cases htext
      · obtain rfl := (List.cons.inj htext).2
        exact ⟨⟨h, hdigits⟩, rfl⟩
  · next rest =>
    obtain ⟨rfl, rfl⟩ := Prod.mk.inj hsign
    constructor
    · rintro ⟨⟨h, hdigits⟩, rfl⟩
      exact .plus rfl h hdigits
    · rintro (⟨-, hdigits⟩ | ⟨htext, h, hdigits⟩ | ⟨htext, -, -⟩)
      · exact absurd (hdigits '+' List.mem_cons_self) hplus
      · obtain rfl := (List.cons.inj htext).2
        exact ⟨⟨h, hdigits⟩, rfl⟩
      · cases htext
  · next hnotMinus hnotPlus =>
    obtain ⟨rfl, rfl⟩ := Prod.mk.inj hsign
    constructor
    · rintro ⟨⟨h, hdigits⟩, rfl⟩
      exact .plain h hdigits
    · rintro (⟨h, hdigits⟩ | ⟨htext, -, -⟩ | ⟨htext, -, -⟩)
      · exact ⟨⟨h, hdigits⟩, rfl⟩
      · exact absurd htext (hnotPlus _)
      · exact absurd htext (hnotMinus _)

/-! ## 2. The whole number nearest to a double -/

/-- The value of a positive finite double. -/
def Parts.value (p : Parts) : ℚ := p.mantissa * 2 ^ p.exponent

/-- **The whole number nearest to a double**, from zero on: a half goes up, what is below zero or no
number goes to zero, and infinity is near to none. -/
def NearestWhole : Class → Nat → Prop
  | .finite false magnitude, n => (n : ℚ) - 1 / 2 ≤ magnitude.value ∧ magnitude.value < n + 1 / 2
  | .infinite false, _ => False
  | .finite true _, n | .infinite true, n | .zero _, n | .nan, n => n = 0

end Decimal

namespace Variable

open Decimal

/-- A quotient that is rounded, a half going up. -/
theorem halfUp_iff {d : Nat} (hd : 0 < d) (m n : Nat) : (2 * m + d) / (2 * d) = n ↔
    (n : ℚ) - 1 / 2 ≤ (m : ℚ) / (d : ℚ) ∧ (m : ℚ) / (d : ℚ) < n + 1 / 2 := by
  have hpos : (0 : ℚ) < d := by exact_mod_cast hd
  have hdouble : n * (2 * d) = 2 * (n * d) := Nat.mul_left_comm n 2 d
  have hproduct : ((n : ℚ) + 1 / 2) * d = ((n * d : Nat) : ℚ) + 1 / 2 * d := by
    push_cast
    ring
  rw [Nat.div_eq_iff (by omega), sub_le_iff_le_add, div_add' _ _ _ hpos.ne', le_div_iff₀ hpos,
    div_lt_iff₀ hpos, hdouble, hproduct, ← Nat.cast_mul]
  generalize n * d = whole
  constructor
  · rintro ⟨hlow, hhigh⟩
    have hbelow : (2 * whole : ℚ) ≤ 2 * m + d := by exact_mod_cast hlow
    have habove : (2 * m + d : ℚ) < 2 * whole + 2 * d := by
      have hstrict : 2 * m + d < 2 * whole + 2 * d := by omega
      exact_mod_cast hstrict
    constructor <;> linarith
  · rintro ⟨hlow, hhigh⟩
    have hbelow : (2 * whole : ℚ) ≤ 2 * m + d := by linarith
    have habove : (2 * m : ℚ) < 2 * whole + d := by linarith
    have hbelow' : 2 * whole ≤ 2 * m + d := by exact_mod_cast hbelow
    have habove' : 2 * m < 2 * whole + d := by exact_mod_cast habove
    omega

/-- **The nearest whole number** of a positive finite double is computed exactly. -/
theorem roundParts_eq_iff (p : Parts) (n : Nat) :
    roundParts p = n ↔ (n : ℚ) - 1 / 2 ≤ p.value ∧ p.value < n + 1 / 2 := by
  obtain ⟨m, e, leading⟩ := p
  by_cases he : 0 ≤ e
  · -- the double is a whole number itself
    obtain ⟨k, rfl⟩ := Int.eq_ofNat_of_zero_le he
    have hround : roundParts ⟨m, k, leading⟩ = (2 * (m * 2 ^ k) + 1) / (2 * 1) := by
      have hhalf : (2 * (m * 2 ^ k) + 1) / (2 * 1) = m * 2 ^ k := by omega
      rw [roundParts, if_pos he, hhalf]
      rfl
    have hvalue : Parts.value ⟨m, k, leading⟩ = ((m * 2 ^ k : Nat) : ℚ) / ((1 : Nat) : ℚ) := by
      simp [Parts.value]
    rw [hround, hvalue]
    exact halfUp_iff Nat.one_pos (m * 2 ^ k) n
  · obtain ⟨k, rfl⟩ : ∃ k : Nat, e = -(k : Int) := ⟨(-e).toNat, by omega⟩
    have hround : roundParts ⟨m, -(k : Int), leading⟩ = (2 * m + 2 ^ k) / (2 * 2 ^ k) := by
      rw [roundParts, if_neg he]
      simp
    have hvalue : Parts.value ⟨m, -(k : Int), leading⟩ = (m : ℚ) / ((2 ^ k : Nat) : ℚ) := by
      simp [Parts.value, div_eq_mul_inv]
    rw [hround, hvalue]
    exact halfUp_iff (Nat.two_pow_pos k) m n

/-- **The word nearest to a double** is the whole number nearest to it, below the greatest word. -/
theorem roundToWord_eq_iff (x : Float) {n : Nat} (hn : n < greatestWord) :
    roundToWord x = n ↔ NearestWhole (Class.ofFloat x) n := by
  rw [roundToWord]
  cases Class.ofFloat x with
  | nan => exact eq_comm
  | zero negative => exact eq_comm
  | infinite negative =>
    cases negative with
    | true => exact eq_comm
    | false => exact iff_of_false hn.ne' id
  | finite negative magnitude =>
    cases negative with
    | true => exact eq_comm
    | false =>
      dsimp only [NearestWhole]
      rw [← roundParts_eq_iff]
      omega

/-! ## 3. Words -/

/-- The words for one. -/
def onWords : List String := ["true", "on", "yes"]

/-- The words for zero. -/
def offWords : List String := ["false", "off", "no"]

/-- The words that stand for numbers. -/
def switchWords : List String := onWords ++ offWords

/-- The first letters of these words. -/
def switchInitials : List Char := ['t', 'o', 'y', 'f', 'n']

/-- Such a letter begins no numeral. -/
theorem initial_of_toLower {c : Char} (h : c.toLower ∈ switchInitials) :
    (c ≠ '-' ∧ c ≠ '+') ∧ c ≠ '.' ∧ isDigit c = false := by
  have hall : ('-' :: '+' :: '.' :: digitChars).all (·.toLower ∉ switchInitials) = true := by decide
  have hnot : c ∉ '-' :: '+' :: '.' :: digitChars := fun hc =>
    of_decide_eq_true (List.all_eq_true.mp hall c hc) h
  simp only [List.mem_cons, not_or] at hnot
  obtain ⟨hminus, hplus, hpoint, hdigit⟩ := hnot
  refine ⟨⟨hminus, hplus⟩, hpoint, ?_⟩
  rw [← Bool.not_eq_true, isDigit_iff]
  exact hdigit

/-- A text that begins so is no magnitude in digits. -/
theorem parseDigits?_of_initial {c : Char} (hpoint : c ≠ '.') (hdigit : isDigit c = false)
    (rest : List Char) : parseDigits? (c :: rest) = none := by
  have htake : takeDigits (c :: rest) = ([], c :: rest) := by
    simp [takeDigits, hdigit]
  have hafter : afterPoint (c :: rest) = ([], c :: rest) := by
    unfold afterPoint
    split
    · next heq => exact absurd (List.cons.inj heq).1 hpoint
    · rfl
  rw [parseDigits?_eq, htake]
  dsimp only
  rw [hafter]
  rfl

/-- **A word is no numeral**, in whatever case it is spelled. -/
theorem parse?_of_switch {text : String} (h : lower text ∈ switchWords) :
    parseInt? text.toList = none ∧ Numeral.parse? text.toList = none := by
  have hinitial : ∀ word ∈ switchWords, word.toList.head?.any (· ∈ switchInitials) = true := by
    decide
  have hother : ∀ word ∈ switchWords, word ≠ "nan" ∧ word ≠ "inf" ∧ word ≠ "infinity" := by
    decide
  obtain ⟨d, hhead, hd⟩ := (Option.any_eq_true _ _).mp (hinitial _ h)
  obtain ⟨ds, hword⟩ := List.head?_eq_some_iff.mp hhead
  obtain ⟨hnan, hinf, hinfinity⟩ := hother _ h
  rw [lower, String.toList_ofList] at hword
  obtain ⟨c, cs, htext, rfl, -⟩ := List.map_eq_cons_iff.mp hword
  obtain ⟨hsign, hpoint, hdigit⟩ := initial_of_toLower (of_decide_eq_true hd)
  rw [lower, htext] at hnan hinf hinfinity
  rw [htext]
  have hsame : takeSign (c :: cs) = (false, c :: cs) := by
    refine takeSign_of_head fun x hx => ?_
    obtain rfl : c = x := Option.some.inj hx
    exact hsign
  have hparse : parseWord? (c :: cs) = none := by
    unfold parseWord?
    split
    · next heq => exact absurd heq hnan
    · next heq => exact absurd heq hinf
    · next heq => exact absurd heq hinfinity
    · rfl
  constructor
  · exact parseInt?_of_mem hsign hdigit List.mem_cons_self
  · rw [Numeral.parse?, hsame]
    simp only [hparse, parseDigits?_of_initial hpoint hdigit]
    rfl

/-! ## 4. Texts -/

/-- A whole number of 64 bits. -/
def Signed64 (n : Int) : Prop := -0x8000000000000000 ≤ n ∧ n < 0x8000000000000000

theorem int?_eq_some_iff {text : String} {n : Int} :
    int? text = some n ↔ WholeNumeral text.toList n ∧ Signed64 n := by
  rw [int?, Option.filter_eq_some_iff, parseInt?_eq_some_iff, Bool.and_eq_true, decide_eq_true_iff,
    decide_eq_true_iff, Signed64]

/-- A truth value is spelled by its word. -/
theorem bool?_eq_some_iff {text : String} {b : Bool} :
    bool? text = some b ↔ lower text = if b then "true" else "false" := by
  unfold bool?
  split
  · next heq => cases b <;> simp [heq]
  · next heq => cases b <;> simp [heq]
  · next htrue hfalse =>
    refine iff_of_false (by rintro ⟨⟩) ?_
    cases b with
    | false => exact hfalse
    | true => exact htrue

/-- What begins with a truth value is no numeral of any kind. -/
theorem bool?_of_numeral {text : String}
    (h : parseInt? text.toList ≠ none ∨ Numeral.parse? text.toList ≠ none) : bool? text = none := by
  cases hbool : bool? text with
  | none => rfl
  | some b =>
    have hword : lower text ∈ switchWords := by
      rw [bool?_eq_some_iff.mp hbool]
      cases b <;> decide
    obtain ⟨hint, hfloat⟩ := parse?_of_switch hword
    exact absurd h (not_or.mpr ⟨fun hne => hne hint, fun hne => hne hfloat⟩)

/-- **The texts that are taken for a port**, each with the number that it is taken for. -/
inductive PortText (text : String) : Nat → Prop
  /-- A whole number in decimal. -/
  | numeral {n : Nat} (h : WholeNumeral text.toList n) : PortText text n
  /-- A word for one. -/
  | on (h : lower text ∈ onWords) : PortText text 1
  /-- A word for zero. -/
  | off (h : lower text ∈ offWords) : PortText text 0
  /-- Any other numeral, for the whole number nearest to the double that it spells. -/
  | double {x : Numeral} {n : Nat} (hwide : ∀ i, WholeNumeral text.toList i → ¬ Signed64 i)
    (hx : Numeral.parse? text.toList = some x)
    (hn : NearestWhole (Class.ofFloat x.toFloat) n) : PortText text n

/-- A word is taken for its number. -/
theorem toNat?_ofText_switch {text : String} (h : lower text ∈ switchWords) :
    (ofText text).toNat? = .ok (if lower text ∈ onWords then 1 else 0) := by
  obtain ⟨hint, hfloat⟩ := parse?_of_switch h
  have hnoInt : int? text = none := by rw [int?, hint]; rfl
  have hnoFloat : float? text = none := by rw [float?, hfloat]; rfl
  simp only [switchWords, onWords, offWords, List.cons_append, List.nil_append, List.mem_cons,
    List.not_mem_nil, or_false] at h
  rcases h with h | h | h | h | h | h
  all_goals
    simp [ofText, hnoInt, hnoFloat, bool?, switch?, toNat?, onWords, h]

/-- What stands for a number is one of the words. -/
theorem portText_of_switch? {text : String} {n : Nat} (h : switch? text = some n) :
    PortText text n := by
  unfold switch? at h
  split at h
  case h_7 => cases h
  all_goals
    next hword =>
    obtain rfl := Option.some.inj h
    first
    | exact .on (by simp [onWords, hword])
    | exact .off (by simp [offWords, hword])

/-- What is taken for a port is one of these texts. -/
theorem portText_of_toNat? {text : String} {n : Nat} (hn : n < 65536)
    (h : (ofText text).toNat? = .ok n) : PortText text n := by
  rw [ofText] at h
  cases hbool : bool? text with
  | some b =>
    have hword := bool?_eq_some_iff.mp hbool
    obtain rfl : b.toNat = n := by simpa [hbool, toNat?] using h
    cases b with
    | true => exact .on (by simp [onWords, hword])
    | false => exact .off (by simp [offWords, hword])
  | none =>
    cases hint : int? text with
    | some i =>
      obtain ⟨hnumeral, -⟩ := int?_eq_some_iff.mp hint
      simp only [hbool, hint, toNat?] at h
      split at h
      · next hi =>
        obtain rfl : i.toNat = n := Except.ok.inj h
        rw [← Int.toNat_of_nonneg hi] at hnumeral
        exact .numeral hnumeral
      · cases h
    | none =>
      cases hfloat : float? text with
      | some x =>
        simp only [hbool, hint, hfloat, toNat?] at h
        obtain ⟨numeral, hparse, rfl⟩ := Option.map_eq_some_iff.mp hfloat
        have hword : n < greatestWord := by rw [greatestWord]; omega
        refine .double (fun i hi hsigned => ?_) hparse
          ((roundToWord_eq_iff _ hword).mp (Except.ok.inj h))
        rw [int?_eq_some_iff.mpr ⟨hi, hsigned⟩] at hint
        cases hint
      | none =>
        cases hswitch : switch? text with
        | none => simp [hbool, hint, hfloat, toNat?, hswitch] at h
        | some k =>
          obtain rfl : k = n := by simpa [hbool, hint, hfloat, toNat?, hswitch] using h
          exact portText_of_switch? hswitch

/-- **A text is taken for a port** exactly so. -/
theorem toNat?_ofText_iff {text : String} {n : Nat} (hn : n < 65536) :
    (ofText text).toNat? = .ok n ↔ PortText text n := by
  refine ⟨portText_of_toNat? hn, fun h => ?_⟩
  cases h with
  | numeral h =>
    have hsigned : Signed64 n := by
      constructor <;> omega
    have hbool : bool? text = none :=
      bool?_of_numeral (.inl (by rw [parseInt?_eq_some_iff.mpr h]; rintro ⟨⟩))
    rw [ofText, hbool, int?_eq_some_iff.mpr ⟨h, hsigned⟩]
    simp [toNat?]
  | on h =>
    have hword : lower text ∈ switchWords := List.mem_append_left offWords h
    rw [toNat?_ofText_switch hword, if_pos h]
  | off h =>
    have hword : lower text ∈ switchWords := List.mem_append_right onWords h
    have hother : ∀ word ∈ offWords, word ∉ onWords := by decide
    rw [toNat?_ofText_switch hword, if_neg (hother _ h)]
  | @double x _ hwide hx hround =>
    have hword : n < greatestWord := by rw [greatestWord]; omega
    have hbool : bool? text = none := bool?_of_numeral (.inr (by rw [hx]; rintro ⟨⟩))
    have hint : int? text = none := by
      refine Option.eq_none_iff_forall_ne_some.mpr fun i hi => ?_
      obtain ⟨hnumeral, hsigned⟩ := int?_eq_some_iff.mp hi
      exact hwide i hnumeral hsigned
    have hfloat : float? text = some x.toFloat := by rw [float?, hx]; rfl
    rw [ofText, hbool, hint, hfloat]
    exact congrArg Except.ok ((roundToWord_eq_iff _ hword).mpr hround)

end Variable

/-! ## 5. Settings -/

namespace Settings

open Decimal

/-- There is a text, and it is taken for this port. -/
def GivenPort (value : Option String) (p : UInt16) : Prop :=
  ∃ text, value = some text ∧ Variable.PortText text p.toNat

/-- **A port is read** exactly from the texts that are taken for it. -/
theorem port?_eq_some_iff {vars : List (String × String)} {key : String} {p : UInt16} :
    port? vars key = .ok (some p) ↔ GivenPort (lookup? vars key) p := by
  have hp := p.toNat_lt
  unfold GivenPort port? number?
  cases lookup? vars key with
  | none => simp
  | some text =>
    simp only [Option.some.injEq, exists_eq_left', ← Variable.toNat?_ofText_iff hp]
    cases (Variable.ofText text).toNat? with
    | error e => simp
    | ok n =>
      simp only [Except.ok.injEq]
      split
      · next hn =>
        rw [Except.ok.injEq, Option.some.injEq]
        constructor
        · rintro rfl
          exact (UInt16.toNat_ofNat_of_lt hn).symm
        · rintro rfl
          exact UInt16.ofNat_toNat
      · next hn => exact iff_of_false (by rintro ⟨⟩) fun h => hn (h ▸ hp)

/-- What is read in two steps is read in each. -/
theorem bind_eq_ok_iff {ε α β : Type} {x : Except ε α} {f : α → Except ε β} {b : β} :
    x >>= f = .ok b ↔ ∃ a, x = .ok a ∧ f a = .ok b := by
  cases x <;> simp [bind, Except.bind]

/-- A setting that is required is one that is given. -/
theorem required_eq_ok_iff {α : Type} {key : String} {o : Option α} {v : α} :
    required key o = .ok v ↔ o = some v := by
  cases o <;> simp [required]

/-- When settings are read from variables, whatever their names are. -/
theorem ofVariables_eq_ok_iff (vars : List (String × String)) (s : Settings) :
    ofVariables vars = .ok s ↔
      GivenPort (lookup? vars readPortKey) s.readPort ∧
      GivenPort (lookup? vars writePortKey) s.writePort ∧
      numberOf ((lookup? vars requestTimeoutKey).map .ofText) = .ok s.requestTimeout ∧
      s.readHost = hostOf (lookup? vars readHostKey) := by
  simp only [ofVariables, bind_eq_ok_iff, required_eq_ok_iff, ← port?_eq_some_iff,
    ← number?_eq_ok_iff]
  constructor
  · rintro ⟨_, hread, _, hwrite, limit, hlimit, readPort, rfl, writePort, rfl, hs⟩
    obtain rfl := Except.ok.inj hs
    refine ⟨hread, hwrite, hlimit, ?_⟩
    cases lookup? vars readHostKey with
    | none => rfl
    | some text => rfl
  · obtain ⟨readPort, writePort, readHost, requestTimeout⟩ := s
    rintro ⟨hread, hwrite, hlimit, hreadHost⟩
    refine ⟨_, hread, _, hwrite, _, hlimit, _, rfl, _, rfl, ?_⟩
    cases hhost : lookup? vars readHostKey with
    | none => simpa [hhost, hostOf] using hreadHost.symm
    | some text => simpa [hhost, hostOf] using hreadHost.symm

/-- **When settings are read** from an environment: both ports are given, each by a text that is
taken for it, and the limit of time is no wrong number.  The text for a host is taken as it is, or
written anew if it spells a value of another kind. -/
theorem settings_read_iff (e : Environment) (s : Settings) :
    ofVariables e.vars = .ok s ↔
      GivenPort (e.last? readPortName) s.readPort ∧ GivenPort (e.last? writePortName) s.writePort ∧
      numberOf ((e.last? requestTimeoutName).map .ofText) = .ok s.requestTimeout ∧
      s.readHost = hostOf (e.last? readHostName) := by
  obtain ⟨hread, hwrite, hhost, hlimit⟩ := lookup?_ownNames e
  rw [ofVariables_eq_ok_iff, hread, hwrite, hhost, hlimit]

/-- Texts that are no numeral of a port, and the read ports that they are taken for. -/
theorem words_taken_for_ports :
    let texts := ["true", "oFF", "3046.5", "1e3", "-70000.25", "nan", "-9223372036854775809"]
    texts.map (fun text => (ofVariables [("INSPR_SCCLIENT_READ_PORT", text),
        ("INSPR_LBSIDECAR_WRITE_PORT", "3047")]).toOption)
      = [1, 0, 3047, 1000, 0, 0, 0].map (fun p => some { readPort := p, writePort := 3047 }) ∧
    ¬ ∃ text ∈ texts, ∃ n : Int, WholeNumeral text.toList n ∧ 0 ≤ n ∧ n < 65536 := by
  intro texts
  refine ⟨by decide +kernel, ?_⟩
  have hnone : ∀ text ∈ texts,
      ((parseInt? text.toList).any fun n => 0 ≤ n ∧ n < 65536) = false := by
    decide +kernel
  rintro ⟨text, htext, n, hnumeral, hn⟩
  have hnot := hnone text htext
  rw [parseInt?_eq_some_iff.mpr hnumeral] at hnot
  simp [hn] at hnot

end Settings
end MeshNode
