/-
# What variables are taken for

A variable is a text, and it is taken for the first kind of value that the text spells.  A number
in decimal is taken for itself.  The text of an address is taken for no other kind: no truth value
is spelled without a `t` or an `l`, and neither a whole number nor a double has a colon or two dots.

* `parseInt?_toDigits` and `ofText_number`: numbers;
* `ofText_address`: addresses.
-/
import MeshNode.Proofs.Address.ReadBack
import MeshNode.Settings.Value

namespace MeshNode

namespace Decimal

/-! ## 1. Numbers in decimal -/

theorem isDigit_of_mem_toDigits (n : Nat) : ∀ c ∈ Nat.toDigits 10 n, isDigit c = true := by
  have hdigit : ∀ d < 10, isDigit d.digitChar = true := by decide
  refine Text.toDigits_induction (by decide) (P := fun _ cs => ∀ c ∈ cs, isDigit c = true) ?_ ?_ n
  · intro d hd c hc
    rw [List.mem_singleton.mp hc]
    exact hdigit d hd
  · intro n d _ hd ih c hc
    rcases List.mem_append.mp hc with hc | hc
    · exact ih c hc
    · rw [List.mem_singleton.mp hc]
      exact hdigit d hd

/-- The digits of a number spell it. -/
theorem natOfDigits_toDigits (n : Nat) : natOfDigits (Nat.toDigits 10 n) = n := by
  have hdigit : ∀ d < 10, d.digitChar.toNat - '0'.toNat = d := by decide
  refine Text.toDigits_induction (by decide) (P := fun n cs => natOfDigits cs = n) ?_ ?_ n
  · intro d hd
    rw [natOfDigits, List.foldl_cons, List.foldl_nil, hdigit d hd]
    omega
  · intro n d _ hd ih
    rw [natOfDigits] at ih ⊢
    rw [List.foldl_append, ih, List.foldl_cons, List.foldl_nil, hdigit d hd]

/-- A text without a sign in front. -/
theorem takeSign_of_head {cs : List Char} (h : ∀ c ∈ cs.head?, c ≠ '-' ∧ c ≠ '+') :
    takeSign cs = (false, cs) := by
  unfold takeSign
  split
  · exact absurd rfl (h '-' rfl).1
  · exact absurd rfl (h '+' rfl).2
  · rfl

/-- **A number is read back** from its digits. -/
theorem parseInt?_toDigits (n : Nat) : parseInt? (Nat.toDigits 10 n) = some (n : Int) := by
  have hdigits := isDigit_of_mem_toDigits n
  have hsign : takeSign (Nat.toDigits 10 n) = (false, Nat.toDigits 10 n) := by
    refine takeSign_of_head fun c hc => ?_
    have hc := hdigits c (List.mem_of_mem_head? hc)
    constructor
    · rintro rfl
      exact absurd hc (by decide)
    · rintro rfl
      exact absurd hc (by decide)
  have hne : (Nat.toDigits 10 n).isEmpty = false :=
    List.isEmpty_eq_false_iff.mpr Nat.toDigits_ne_nil
  rw [parseInt?, hsign]
  simp only [hne, List.all_eq_true.mpr hdigits, natOfDigits_toDigits]
  rfl

/-! ## 2. Texts that are no numbers -/

/-- What stands behind a sign has every other character of the text. -/
theorem mem_takeSign {c : Char} (h : c ≠ '-' ∧ c ≠ '+') {cs : List Char} (hc : c ∈ cs) :
    c ∈ (takeSign cs).2 := by
  unfold takeSign
  split
  · exact (List.mem_cons.mp hc).resolve_left h.1
  · exact (List.mem_cons.mp hc).resolve_left h.2
  · exact hc

/-- A whole number has nothing but digits behind its sign. -/
theorem parseInt?_of_mem {c : Char} (hsign : c ≠ '-' ∧ c ≠ '+') (hdigit : isDigit c = false)
    {cs : List Char} (hc : c ∈ cs) : parseInt? cs = none := by
  have hmem := mem_takeSign hsign hc
  have hall : (takeSign cs).2.all isDigit = false := by
    rw [List.all_eq_false]
    exact ⟨c, hmem, by simp [hdigit]⟩
  rw [parseInt?]
  simp [hall]

/-- An exponent has no other sign than its letter and those of a whole number. -/
theorem parseExponent?_of_mem {c : Char} (hsign : c ≠ '-' ∧ c ≠ '+') (hdigit : isDigit c = false)
    (hletter : c ≠ 'e' ∧ c ≠ 'E') {cs : List Char} (hc : c ∈ cs) : parseExponent? cs = none := by
  cases cs with
  | nil => cases hc
  | cons d ds =>
    rw [parseExponent?]
    split
    · next hd =>
      have hne : c ≠ d := by
        rintro rfl
        exact hd.elim hletter.1 hletter.2
      exact parseInt?_of_mem hsign hdigit ((List.mem_cons.mp hc).resolve_left hne)
    · rfl

/-- Behind digits stands every other character. -/
theorem mem_takeDigits {c : Char} (hdigit : isDigit c = false) {cs : List Char} (hc : c ∈ cs) :
    c ∈ (takeDigits cs).2 := by
  rw [← List.takeWhile_append_dropWhile (p := isDigit) (l := cs)] at hc
  rcases List.mem_append.mp hc with hc | hc
  · have hall := List.all_eq_true.mp (List.all_takeWhile (p := isDigit) (l := cs)) c hc
    rw [hdigit] at hall
    cases hall
  · exact hc

/-- What stands between whole digits and the exponent: a point with more digits, or nothing. -/
def afterPoint (rest : List Char) : List Char × List Char :=
  match rest with
  | '.' :: rest => takeDigits rest
  | rest => ([], rest)

theorem parseDigits?_eq (cs : List Char) : parseDigits? cs =
    if (takeDigits cs).1.isEmpty && (afterPoint (takeDigits cs).2).1.isEmpty then none
    else (parseExponent? (afterPoint (takeDigits cs).2).2).map fun e =>
      .decimal ((takeDigits cs).1 ++ (afterPoint (takeDigits cs).2).1)
        (e - (afterPoint (takeDigits cs).2).1.length) := rfl

/-- A magnitude in digits has no exponent that is none. -/
theorem parseDigits?_of_rest {cs : List Char}
    (h : parseExponent? (afterPoint (takeDigits cs).2).2 = none) : parseDigits? cs = none := by
  rw [parseDigits?_eq, h]
  split <;> rfl

/-- It has no colon. -/
theorem parseDigits?_of_colon {cs : List Char} (h : ':' ∈ cs) : parseDigits? cs = none := by
  have hdigit : isDigit ':' = false := by decide
  have hrest : ':' ∈ (afterPoint (takeDigits cs).2).2 := by
    have hwhole := mem_takeDigits hdigit h
    unfold afterPoint
    split
    · next rest heq =>
      rw [heq] at hwhole
      exact mem_takeDigits hdigit ((List.mem_cons.mp hwhole).resolve_left (by decide))
    · exact hwhole
  exact parseDigits?_of_rest (parseExponent?_of_mem (by decide) hdigit (by decide) hrest)

theorem takeDigits_append {front rest : List Char} (hfront : ∀ c ∈ front, isDigit c = true)
    (hrest : ∀ c ∈ rest.head?, isDigit c = false) : takeDigits (front ++ rest) = (front, rest) := by
  obtain ⟨htake, hdrop⟩ := Text.span_run hfront hrest
  rw [takeDigits, htake, hdrop]

/-- It does not have two points. -/
theorem parseDigits?_of_points {front inner : List Char} (hfront : ∀ c ∈ front, isDigit c = true)
    (hinner : ∀ c ∈ inner, isDigit c = true) (rest : List Char) :
    parseDigits? (front ++ '.' :: (inner ++ '.' :: rest)) = none := by
  have hpoint : ∀ rest : List Char, ∀ c ∈ ('.' :: rest).head?, isDigit c = false := by
    intro rest c hc
    obtain rfl : '.' = c := Option.some.inj hc
    decide
  refine parseDigits?_of_rest ?_
  rw [takeDigits_append hfront (hpoint _), afterPoint, takeDigits_append hinner (hpoint _)]
  rfl

/-- A text that begins with no sign, has no `n` and is no magnitude in digits. -/
theorem Numeral.parse?_eq_none {cs : List Char} (hhead : ∀ c ∈ cs.head?, c ≠ '-' ∧ c ≠ '+')
    (hletter : ∀ c ∈ cs, c.toLower ≠ 'n') (hdigits : parseDigits? cs = none) :
    Numeral.parse? cs = none := by
  have hword : parseWord? cs = none := by
    have hmem : 'n' ∉ cs.map Char.toLower := by
      intro h
      obtain ⟨c, hc, heq⟩ := List.mem_map.mp h
      exact hletter c hc heq
    have hne : ∀ word : String, 'n' ∈ word.toList → String.ofList (cs.map Char.toLower) ≠ word := by
      rintro word hword rfl
      rw [String.toList_ofList] at hword
      exact hmem hword
    unfold parseWord?
    split
    · next heq => exact absurd heq (hne "nan" (by decide))
    · next heq => exact absurd heq (hne "inf" (by decide))
    · next heq => exact absurd heq (hne "infinity" (by decide))
    · rfl
  rw [Numeral.parse?, takeSign_of_head hhead]
  simp only [hword, hdigits]
  rfl

end Decimal

/-! ## 3. Variables -/

namespace Variable

/-- A text without `t` and `l` is no truth value. -/
theorem bool?_eq_none {s : String} (h : ∀ c ∈ s.toList, c.toLower ≠ 't' ∧ c.toLower ≠ 'l') :
    bool? s = none := by
  have hne : ∀ word : String, 't' ∈ word.toList ∨ 'l' ∈ word.toList → lower s ≠ word := by
    rintro word hword rfl
    rw [lower, String.toList_ofList] at hword
    rcases hword with hmem | hmem
    · obtain ⟨c, hc, heq⟩ := List.mem_map.mp hmem
      exact (h c hc).1 heq
    · obtain ⟨c, hc, heq⟩ := List.mem_map.mp hmem
      exact (h c hc).2 heq
  unfold bool?
  split
  · next heq => exact absurd heq (hne "true" (by decide))
  · next heq => exact absurd heq (hne "false" (by decide))
  · rfl

/-- **A number in decimal** is taken for itself, if it is a signed word. -/
theorem ofText_number {n : Nat} (hn : n < 0x8000000000000000) :
    ofText (toString n) = .int n := by
  have hdigits : (toString n).toList = Nat.toDigits 10 n := Nat.toList_repr
  have hbool : bool? (toString n) = none := by
    refine bool?_eq_none ?_
    rw [hdigits]
    exact Text.of_mem_toDigits (by decide) (by decide) (by decide)
  have hint : int? (toString n) = some (n : Int) := by
    rw [int?, hdigits, Decimal.parseInt?_toDigits, Option.filter_some, if_pos]
    simp only [Bool.and_eq_true, decide_eq_true_eq]
    omega
  rw [ofText, hbool, hint]

/-- The text of an address of version 4 has two points with digits in front of each. -/
theorem parseDigits?_v4 (x : IPv4) : Decimal.parseDigits? x.text = none := by
  have htext : x.text = Nat.toDigits 10 x.a.toNat ++ '.' :: (Nat.toDigits 10 x.b.toNat ++
      '.' :: (Nat.toDigits 10 x.c.toNat ++ '.' :: Nat.toDigits 10 x.d.toNat)) := by
    simp [IPv4.text, Text.joinWith]
  rw [htext]
  exact Decimal.parseDigits?_of_points (Decimal.isDigit_of_mem_toDigits _)
    (Decimal.isDigit_of_mem_toDigits _) _

/-- **The text of an address** is taken for a text. -/
theorem ofText_address (a : IPAddress) : ofText a.text = .text a.text := by
  have hletters : ∀ c ∈ a.text.toList,
      (c.toLower ≠ 't' ∧ c.toLower ≠ 'l') ∧ c.toLower ≠ 'n' ∧ c ≠ '-' ∧ c ≠ '+' :=
    a.of_mem_text (by decide) (by decide) (by decide)
  have hbool : bool? a.text = none := bool?_eq_none fun c hc => (hletters c hc).1
  have hnumbers : Decimal.parseInt? a.text.toList = none ∧
      Decimal.parseDigits? a.text.toList = none := by
    cases a with
    | v4 x =>
      rw [IPAddress.text, String.toList_ofList]
      have hdot : '.' ∈ x.text := by simp [IPv4.text, Text.joinWith]
      exact ⟨Decimal.parseInt?_of_mem (by decide) (by decide) hdot, parseDigits?_v4 x⟩
    | v6 x =>
      rw [IPAddress.text, String.toList_ofList]
      exact ⟨Decimal.parseInt?_of_mem (by decide) (by decide) x.colon_mem_text,
        Decimal.parseDigits?_of_colon x.colon_mem_text⟩
  have hint : int? a.text = none := by
    rw [int?, hnumbers.1]
    rfl
  have hfloat : float? a.text = none := by
    rw [float?, Decimal.Numeral.parse?_eq_none (fun c hc =>
      (hletters c (List.mem_of_mem_head? hc)).2.2) (fun c hc => (hletters c hc).2.1) hnumbers.2]
    rfl
  rw [ofText, hbool, hint, hfloat]

end Variable
end MeshNode
