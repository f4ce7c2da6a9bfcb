/-
# Scalars: what is read is JSON

Where a reader of a word, a string or a number succeeds, it took a text of the grammar off the
front and left the rest.  Both readers of a string and both readers of a number are covered, the
one that gives the value and the one that passes it over.

* `blank_of_skipSpaces`, `eq_of_expectWord`: white space and words;
* `fromBytes_eq_ok_iff`: whole texts, which white space may follow;
* `spells_of_literal`, `inner_of_skipString`: strings, with what a key spells;
* `numberText_of_readNumber`, `unsignedText_of_skipNumber`: numbers.
-/
import Mathlib.Data.List.TakeWhile
import MeshNode.Json.Skip
import MeshNode.Proofs.Json.Grammar

namespace MeshNode.Json

open Token

variable {s rest : Bytes}

/-- What a result that came out of two steps says of each. -/
theorem ok_of_bind {ε α β : Type} {x : Except ε α} {f : α → Except ε β} {b : β}
    (h : x >>= f = .ok b) : ∃ a, x = .ok a ∧ f a = .ok b := by
  cases x with
  | error e => cases h
  | ok a => exact ⟨a, rfl, h⟩

/-- What a result that was changed says of what it was. -/
theorem ok_of_map {ε α β : Type} {x : Except ε α} {f : α → β} {b : β} (h : x.map f = .ok b) :
    ∃ a, x = .ok a ∧ f a = b := by
  cases x with
  | error e => cases h
  | ok a => exact ⟨a, rfl, Except.ok.inj h⟩

/-! ## 1. White space and words -/

theorem blank_takeWhile (s : Bytes) : Blank (s.takeWhile isSpace) :=
  fun _ hb => List.all_eq_true.mp List.all_takeWhile _ hb

/-- What white space was skipped in front of a byte. -/
theorem blank_of_skipSpaces {b : UInt8} (h : skipSpaces s = b :: rest) :
    ∃ ws, Blank ws ∧ s = ws ++ b :: rest := by
  refine ⟨s.takeWhile isSpace, blank_takeWhile s, ?_⟩
  rw [← h]
  exact List.takeWhile_append_dropWhile.symm

/-- A text without anything but white space. -/
theorem skipSpaces_eq_nil_iff : skipSpaces s = [] ↔ Blank s := List.dropWhile_eq_nil_iff

/-- **A whole text is read** if a reader takes a value off the front of it, and what it leaves is
white space. -/
theorem fromBytes_eq_ok_iff {α : Type} {read : Reader α} {a : α} :
    fromBytes read s = .ok a ↔ ∃ rest, read (s.length + 1) s = .ok (a, rest) ∧ Blank rest := by
  rw [fromBytes]
  cases hread : read (s.length + 1) s with
  | error e => exact iff_of_false (by rintro ⟨⟩) (by rintro ⟨_, ⟨⟩, -⟩)
  | ok result =>
    obtain ⟨a', rest⟩ := result
    dsimp only
    constructor
    · intro h
      split at h
      · next hrest =>
        cases h
        exact ⟨rest, rfl, skipSpaces_eq_nil_iff.mp hrest⟩
      · cases h
    · rintro ⟨_, ⟨⟩, hblank⟩
      rw [skipSpaces_eq_nil_iff.mpr hblank]

theorem eq_of_expectWord : ∀ {word s rest : Bytes}, expectWord word s = .ok rest → s = word ++ rest
  | [], s, rest, h => Except.ok.inj h
  | w :: word, [], rest, h => nomatch h
  | w :: word, b :: s, rest, h => by
    rw [expectWord] at h
    split at h
    · next hb => rw [hb, eq_of_expectWord h, List.cons_append]
    · cases h

/-! ## 2. Strings -/

theorem eq_of_hexUnit {n : Nat} (h : hexUnit s = .ok (n, rest)) :
    ∃ a b c d, s = a :: b :: c :: d :: rest ∧ hexUnit? a b c d = some n := by
  rw [hexUnit.eq_def] at h
  split at h
  · next a b c d more =>
    split at h
    · next hn =>
      cases h
      exact ⟨a, b, c, d, rfl, hn⟩
    · cases h
  · cases h

theorem eq_of_expectByte {byte : UInt8} (h : expectByte byte s = .ok rest) : s = byte :: rest := by
  rw [expectByte.eq_def] at h
  split at h
  · cases h
  · split at h
    · next hb =>
      cases h
      rw [hb]
    · cases h

/-- An escape by number, or two of them for one character, spells that character. -/
theorem spells_of_numberedChar {c : Char} (h : numberedChar s = .ok (c, rest)) :
    ∃ esc, s = esc ++ rest ∧ ∀ {t u : Bytes}, Spells t u →
      Spells (backslash :: letterU :: (esc ++ t)) (Utf8.encodeChar c ++ u) := by
  obtain ⟨⟨high, s₁⟩, hhigh, h⟩ := ok_of_bind h
  obtain ⟨a, b, c', d, hs, hunit⟩ := eq_of_hexUnit hhigh
  dsimp only at h
  split at h
  · cases h
  next hlow =>
  split at h
  · next hchar =>
    cases h
    refine ⟨[a, b, c', d], hs, fun htu => ?_⟩
    exact .number hunit (by omega) htu
  next hsurrogate =>
  obtain ⟨s₂, hslash, h⟩ := ok_of_bind h
  obtain ⟨s₃, hletter, h⟩ := ok_of_bind h
  obtain ⟨⟨low, s₄⟩, hsecond, h⟩ := ok_of_bind h
  obtain ⟨a', b', c'', d', hs₃, hunit'⟩ := eq_of_hexUnit hsecond
  dsimp only at h
  split at h
  · cases h
  next hrange =>
  rw [Except.ok.injEq, Prod.mk.injEq] at h
  rw [← h.1, ← h.2]
  refine ⟨[a, b, c', d, backslash, letterU, a', b', c'', d'], ?_, fun htu => ?_⟩
  · rw [hs, eq_of_expectByte hslash, eq_of_expectByte hletter, hs₃]
    rfl
  · exact .pair hunit (by omega) hunit' (by omega) htu

theorem spells_of_escapeBytes {new : Bytes} (h : escapeBytes s = .ok (new, rest)) :
    ∃ esc, s = esc ++ rest ∧ ∀ {t u : Bytes}, Spells t u →
      Spells (backslash :: (esc ++ t)) (new ++ u) := by
  rw [escapeBytes.eq_def] at h
  split at h
  · cases h
  next b more =>
  split at h
  · next hletter =>
    split at h
    · cases h
    next c left hchar =>
    cases h
    obtain ⟨esc, hs, hspells⟩ := spells_of_numberedChar hchar
    refine ⟨letterU :: esc, ?_, fun htu => hspells htu⟩
    rw [hletter, hs, List.cons_append]
  · split at h
    · next byte hbyte =>
      cases h
      exact ⟨[b], rfl, fun htu => .escape hbyte htu⟩
    · cases h

/-- The bytes of a string are what its text spells, behind those that were there before. -/
theorem spells_of_literalBytes : ∀ {limit : Nat} {acc s bytes rest : Bytes},
    literalBytes acc limit s = .ok (bytes, rest) →
      ∃ t u, s = t ++ quote :: rest ∧ Spells t u ∧ bytes = acc.reverse ++ u
  | 0, _, _, _, _, h => nomatch h
  | _ + 1, _, [], _, _, h => nomatch h
  | limit + 1, acc, b :: s, bytes, rest, h => by
    rw [literalBytes] at h
    split at h
    · next hquote =>
      cases h
      exact ⟨[], [], by rw [hquote, List.nil_append], .nil, (List.append_nil _).symm⟩
    next hquote =>
    split at h
    · next hslash =>
      split at h
      · cases h
      next new more hescape =>
      obtain ⟨esc, hs, hspells⟩ := spells_of_escapeBytes hescape
      obtain ⟨t, u, hmore, htu, hbytes⟩ := spells_of_literalBytes h
      refine ⟨backslash :: (esc ++ t), new ++ u, ?_, hspells htu, ?_⟩
      · rw [hslash, hs, hmore, List.cons_append, List.append_assoc]
      · rw [hbytes, List.reverse_append, List.reverse_reverse, List.append_assoc]
    next hslash =>
    split at h
    · cases h
    next hcontrol =>
    obtain ⟨t, u, hs, htu, hbytes⟩ := spells_of_literalBytes h
    refine ⟨b :: t, b :: u, ?_, .plain ⟨hquote, hslash, hcontrol⟩ htu, ?_⟩
    · rw [hs, List.cons_append]
    · rw [hbytes, List.reverse_cons, List.append_assoc, List.singleton_append]

/-- **A string that is read** is the text of a string, and it spells what was read. -/
theorem spells_of_literal {limit : Nat} {name : String} (h : literal limit s = .ok (name, rest)) :
    ∃ t, s = t ++ quote :: rest ∧ Spells t (Utf8.encode name) := by
  rw [literal] at h
  split at h
  · cases h
  next bytes more hbytes =>
  split at h
  · next text htext =>
    cases h
    obtain ⟨t, u, hs, htu, hu⟩ := spells_of_literalBytes hbytes
    rw [List.reverse_nil, List.nil_append] at hu
    rw [← hu, Utf8.encode_of_decode? htext] at htu
    exact ⟨t, hs, htu⟩
  · cases h

/-- **A string that is passed over** is the text of a string. -/
theorem inner_of_skipString (h : skipString s = .ok rest) :
    ∃ t, Inner t ∧ s = t ++ quote :: rest := by
  fun_induction skipString s with
  | case2 more =>
    cases h
    exact ⟨[], .nil, rfl⟩
  | case4 a b c d more hunit _ ih =>
    obtain ⟨t, ht, hs⟩ := ih h
    obtain ⟨n, hn⟩ := Option.isSome_iff_exists.mp hunit
    exact ⟨backslash :: letterU :: a :: b :: c :: d :: t, .number hn ht, by rw [hs]; rfl⟩
  | case7 e more _ hbyte _ ih =>
    obtain ⟨t, ht, hs⟩ := ih h
    obtain ⟨b, hb⟩ := Option.isSome_iff_exists.mp hbyte
    exact ⟨backslash :: e :: t, .escape hb ht, by rw [hs]; rfl⟩
  | case10 b more hquote hslash hcontrol ih =>
    obtain ⟨t, ht, hs⟩ := ih h
    exact ⟨b :: t, .plain ⟨hquote, hslash, hcontrol⟩ ht, by rw [hs]; rfl⟩
  | _ => cases h

/-! ## 3. Numbers -/

theorem digits_of_skipDigits (h : skipDigits s = .ok rest) : ∃ t, Digits t ∧ s = t ++ rest := by
  rw [skipDigits.eq_def] at h
  split at h
  · cases h
  next b more =>
  split at h
  · next hb =>
    cases h
    refine ⟨(b :: more).takeWhile isDigit, ⟨?_, ?_⟩, List.takeWhile_append_dropWhile.symm⟩
    · rw [List.takeWhile_cons_of_pos hb]
      exact List.cons_ne_nil _ _
    · exact fun c hc => List.all_eq_true.mp List.all_takeWhile c hc
  · cases h

theorem wholeText_of_skipWhole (h : skipWhole s = .ok rest) : ∃ t, WholeText t ∧ s = t ++ rest := by
  rw [skipWhole.eq_def] at h
  split at h
  · cases h
  next b more =>
  split at h
  · next hzero =>
    have hmore : more = rest := by
      split at h
      · exact Except.ok.inj h
      · split at h
        · cases h
        · exact Except.ok.inj h
    exact ⟨[zero], .inl rfl, by rw [hzero, hmore]; rfl⟩
  · next hzero =>
    obtain ⟨t, ht, hs⟩ := digits_of_skipDigits h
    refine ⟨t, .inr ⟨ht, ?_⟩, hs⟩
    cases t with
    | nil => exact absurd rfl ht.1
    | cons c t =>
      rw [List.cons_append, List.cons.injEq] at hs
      rw [List.head?_cons, ← hs.1]
      exact fun hc => hzero (Option.some.inj hc)

theorem fractionText_of_skipFraction (h : skipFraction s = .ok rest) :
    ∃ t, FractionText t ∧ s = t ++ rest := by
  rw [skipFraction.eq_def] at h
  split at h
  · exact ⟨[], .inl rfl, Except.ok.inj h⟩
  next b more =>
  split at h
  · next hpoint =>
    obtain ⟨t, ht, hmore⟩ := digits_of_skipDigits h
    exact ⟨point :: t, .inr ⟨t, rfl, ht⟩, by rw [hpoint, hmore]; rfl⟩
  · exact ⟨[], .inl rfl, Except.ok.inj h⟩

theorem eq_of_readSign (s : Bytes) :
    ∃ sign, sign ∈ [[], [plus], [minus]] ∧ s = sign ++ (Numeral.readSign s).2 := by
  rw [Numeral.readSign.eq_def]
  split
  · exact ⟨[], by simp, rfl⟩
  next b more =>
  split
  · next hplus => exact ⟨[plus], by simp, by rw [hplus]; rfl⟩
  split
  · next hminus => exact ⟨[minus], by simp, by rw [hminus]; rfl⟩
  · exact ⟨[], by simp, rfl⟩

theorem exponentText_of_skipExponent (h : skipExponent s = .ok rest) :
    ∃ t, ExponentText t ∧ s = t ++ rest := by
  rw [skipExponent.eq_def] at h
  split at h
  · exact ⟨[], .inl rfl, Except.ok.inj h⟩
  next mark more =>
  split at h
  · next hmark =>
    obtain ⟨sign, hsign, hmore⟩ := eq_of_readSign more
    obtain ⟨t, ht, hdigits⟩ := digits_of_skipDigits h
    refine ⟨mark :: (sign ++ t), .inr ⟨mark, sign, t, rfl, hmark, hsign, ht⟩, ?_⟩
    rw [hmore, hdigits, List.cons_append, List.append_assoc]
  · exact ⟨[], .inl rfl, Except.ok.inj h⟩

/-- **A number that is passed over** is the text of a number, from behind its sign. -/
theorem unsignedText_of_skipNumber (h : skipNumber s = .ok rest) :
    ∃ t, UnsignedText t ∧ s = t ++ rest := by
  obtain ⟨s₁, hwhole, h⟩ := ok_of_bind h
  obtain ⟨s₂, hfraction, hexponent⟩ := ok_of_bind h
  obtain ⟨whole, hw, hs⟩ := wholeText_of_skipWhole hwhole
  obtain ⟨fraction, hf, hs₁⟩ := fractionText_of_skipFraction hfraction
  obtain ⟨exponent, he, hs₂⟩ := exponentText_of_skipExponent hexponent
  refine ⟨whole ++ (fraction ++ exponent), ⟨whole, fraction, exponent, rfl, hw, hf, he⟩, ?_⟩
  rw [hs, hs₁, hs₂, List.append_assoc, List.append_assoc]

/-! ### What can be read can be passed over -/

theorem skipDigits_of_someDigits {digits : List Nat}
    (h : Numeral.someDigits s = .ok (digits, rest)) :
    skipDigits s = .ok rest ∧ digits = (s.takeWhile isDigit).map digitValue := by
  rw [Numeral.someDigits.eq_def] at h
  split at h
  · cases h
  next b more =>
  split at h
  · next hb =>
    rw [Numeral.takeDigits, Except.ok.injEq, Prod.mk.injEq] at h
    rw [skipDigits, if_pos hb, ← h.1, ← h.2]
    exact ⟨rfl, rfl⟩
  · cases h

theorem skipWhole_of_readWhole {digits : List Nat} (h : Numeral.readWhole s = .ok (digits, rest)) :
    skipWhole s = .ok rest := by
  rw [Numeral.readWhole] at h
  split at h
  · cases h
  next digits' rest' hdigits =>
  obtain ⟨hskip, hvalues⟩ := skipDigits_of_someDigits hdigits
  split at h
  · cases h
  next hleading =>
  cases h
  rw [skipWhole.eq_def]
  split
  · exact hskip
  next b more =>
  split
  · next hzero =>
    -- a digit behind the zero would have been refused
    have hmore : ∀ c t, more = c :: t → isDigit c = false := by
      intro c t ht
      cases hc : isDigit c with
      | false => rfl
      | true =>
        refine absurd ?_ hleading
        rw [hvalues, hzero, ht, List.takeWhile_cons_of_pos (by decide),
          List.takeWhile_cons_of_pos hc]
        exact ⟨rfl, by simp⟩
    rw [skipDigits, hzero, if_pos (by decide), Except.ok.injEq,
      List.dropWhile_cons_of_pos (by decide)] at hskip
    cases more with
    | nil => rw [← hskip]; rfl
    | cons c t =>
      have hc := hmore c t rfl
      rw [List.dropWhile_cons_of_neg (by rw [hc]; decide)] at hskip
      dsimp only
      rw [hc, ← hskip]
      rfl
  · exact hskip

theorem skipFraction_of_readFraction {fraction : Option (List Nat)}
    (h : Numeral.readFraction s = .ok (fraction, rest)) : skipFraction s = .ok rest := by
  cases s with
  | nil =>
    cases h
    rfl
  | cons b more =>
    rw [Numeral.readFraction] at h
    rw [skipFraction]
    by_cases hpoint : b = point
    · rw [if_pos hpoint] at h ⊢
      split at h
      · cases h
      next digits rest' hdigits =>
      cases h
      exact (skipDigits_of_someDigits hdigits).1
    · rw [if_neg hpoint] at h ⊢
      cases h
      rfl

theorem skipExponent_of_readExponent {exponent : Option (Bool × List Nat)}
    (h : Numeral.readExponent s = .ok (exponent, rest)) : skipExponent s = .ok rest := by
  cases s with
  | nil =>
    cases h
    rfl
  | cons mark more =>
    rw [Numeral.readExponent] at h
    rw [skipExponent]
    by_cases hmark : isExponentMark mark = true
    · rw [if_pos hmark] at h ⊢
      dsimp only at h
      split at h
      · cases h
      next digits rest' hdigits =>
      cases h
      exact (skipDigits_of_someDigits hdigits).1
    · rw [if_neg hmark] at h ⊢
      cases h
      rfl

theorem skipNumber_of_readUnsigned {negative : Bool} {n : Numeral}
    (h : Numeral.readUnsigned negative s = .ok (n, rest)) : skipNumber s = .ok rest := by
  rw [Numeral.readUnsigned] at h
  split at h
  · cases h
  next whole s₁ hwhole =>
  split at h
  · cases h
  next fraction s₂ hfraction =>
  split at h
  · cases h
  next exponent s₃ hexponent =>
  cases h
  simp only [skipNumber, skipWhole_of_readWhole hwhole, skipFraction_of_readFraction hfraction,
    skipExponent_of_readExponent hexponent, bind, Except.bind]

/-- **A number that is read** is the text of a number. -/
theorem numberText_of_readNumber {v : Json} (h : readNumber s = .ok (v, rest)) :
    ∃ t, NumberText t ∧ s = t ++ rest := by
  rw [readNumber] at h
  split at h
  · cases h
  next n rest' hread =>
  split at h
  · cases h
  next hvalue =>
  cases h
  rw [Numeral.read.eq_def] at hread
  split at hread
  · cases hread
  next b more =>
  split at hread
  · next hminus =>
    obtain ⟨t, ht, hmore⟩ := unsignedText_of_skipNumber (skipNumber_of_readUnsigned hread)
    exact ⟨minus :: t, .inr ⟨t, rfl, ht⟩, by rw [hminus, hmore]; rfl⟩
  · obtain ⟨t, ht, hs⟩ := unsignedText_of_skipNumber (skipNumber_of_readUnsigned hread)
    exact ⟨t, .inl ht, hs⟩

end MeshNode.Json
