/-
# Strings: one text, one outcome

The text of a string is read or refused as a whole, and which of the two depends on nothing but the
text.  A string may be refused although its form is right, because an escape stands for half a
character or because its bytes are no UTF-8.

* `Collects`: what a string comes to, with `Spells.collects` and `Inner.collects`;
* `skipString_inner`, `literal_inner_text`: both readers of strings over any text of the grammar;
* `spelled`: what a key spells, with `spelled_eq_ok_iff`;
* `spells_inner`, `literal_inner`: what is written spells what was written, and is read back.
-/
import MeshNode.Proofs.Json.Scalar

namespace MeshNode.Json

open Token

variable {t u r : Bytes}

/-! ## 1. What a string comes to -/

/-- What the text of a string comes to up to its closing mark, in front of whatever follows. -/
def Collects (t : Bytes) (result : Except Error Bytes) : Prop :=
  ∀ acc limit r, (t ++ quote :: r).length < limit →
    literalBytes acc limit (t ++ quote :: r) = result.map fun u => (acc.reverse ++ u, r)

theorem Collects.nil : Collects [] (.ok []) := by
  intro acc limit r hl
  obtain ⟨limit, rfl⟩ : ∃ l, limit = l + 1 := ⟨limit - 1, by omega⟩
  rw [List.nil_append, literalBytes, if_pos rfl]
  simp [Except.map]

/-- Bytes that are read to `new` in one round, in front of the rest of a string. -/
theorem Collects.cons (front : Bytes) {new : Bytes} {result : Except Error Bytes} (hne : front ≠ [])
    (hround : ∀ acc limit s, literalBytes acc (limit + 1) (front ++ s)
      = literalBytes (new.reverse ++ acc) limit s) (h : Collects t result) :
    Collects (front ++ t) (result.map (new ++ ·)) := by
  intro acc limit r hl
  obtain ⟨limit, rfl⟩ : ∃ l, limit = l + 1 := ⟨limit - 1, by omega⟩
  have hfront : 0 < front.length := List.length_pos_iff.mpr hne
  rw [List.append_assoc] at hl ⊢
  rw [List.length_append] at hl
  rw [hround, h (new.reverse ++ acc) limit r (by omega)]
  cases result <;> simp [Except.map]

/-- Bytes that are refused in one round. -/
theorem Collects.refused (front : Bytes) {e : Error}
    (hround : ∀ acc limit r, literalBytes acc (limit + 1) (front ++ (t ++ quote :: r)) = .error e) :
    Collects (front ++ t) (.error e) := by
  intro acc limit r hl
  obtain ⟨limit, rfl⟩ : ∃ l, limit = l + 1 := ⟨limit - 1, by omega⟩
  rw [List.append_assoc, hround]
  rfl

theorem literalBytes_refused {s : Bytes} {e : Error} (h : escapeBytes s = .error e)
    (acc : Bytes) (limit : Nat) : literalBytes acc (limit + 1) (backslash :: s) = .error e := by
  rw [literalBytes, if_neg (by decide), if_pos rfl, h]

theorem Collects.plain {b : UInt8} {result : Except Error Bytes} (hb : Plain b)
    (h : Collects t result) : Collects (b :: t) (result.map ([b] ++ ·)) := by
  refine Collects.cons [b] (List.cons_ne_nil _ _) (fun acc limit s => ?_) h
  rw [List.singleton_append, literalBytes, if_neg hb.1, if_neg hb.2.1, if_neg hb.2.2]
  rfl

theorem Collects.escape {e b : UInt8} {result : Except Error Bytes} (he : escaped? e = some b)
    (h : Collects t result) : Collects (backslash :: e :: t) (result.map ([b] ++ ·)) := by
  have hletter : e ≠ letterU := by
    rintro rfl
    cases he
  refine Collects.cons [backslash, e] (List.cons_ne_nil _ _) (fun acc limit s => ?_) h
  have hread : escapeBytes (e :: s) = .ok ([b], s) := by
    rw [escapeBytes, if_neg hletter, he]
  exact literalBytes_escape hread acc limit

/-- An escape by number, whatever it comes to. -/
theorem escapeBytes_numbered (s : Bytes) : escapeBytes (letterU :: s)
    = (numberedChar s).map fun (c, rest) => (Utf8.encodeChar c, rest) := by
  rw [escapeBytes, if_pos rfl]
  cases numberedChar s <;> rfl

variable {a b c d a' b' c' d' : UInt8} {n high low : Nat}

theorem hexUnit_four (h : hexUnit? a b c d = some n) (s : Bytes) :
    hexUnit (a :: b :: c :: d :: s) = .ok (n, s) := by
  simp only [hexUnit, h]

theorem numberedChar_one (h : hexUnit? a b c d = some n) (hchar : n < 0xD800 ∨ 0xDFFF < n)
    (s : Bytes) : numberedChar (a :: b :: c :: d :: s) = .ok (Char.ofNat n, s) := by
  have hlow : ¬ (0xDC00 ≤ n ∧ n ≤ 0xDFFF) := by omega
  have hhigh : n < 0xD800 ∨ 0xDBFF < n := by omega
  simp only [numberedChar, hexUnit_four h, bind, Except.bind, if_neg hlow, if_pos hhigh]

theorem numberedChar_low (h : hexUnit? a b c d = some n) (hlow : 0xDC00 ≤ n ∧ n ≤ 0xDFFF)
    (s : Bytes) : numberedChar (a :: b :: c :: d :: s) = .error .malformed := by
  simp only [numberedChar, hexUnit_four h, bind, Except.bind, if_pos hlow]

/-- The first half of a surrogate pair asks for an escape by number behind it. -/
theorem numberedChar_high (h : hexUnit? a b c d = some n) (hhigh : 0xD800 ≤ n ∧ n < 0xDC00)
    (s : Bytes) : numberedChar (a :: b :: c :: d :: s) = (do
      let s ← expectByte backslash s
      let s ← expectByte letterU s
      let (low, s) ← hexUnit s
      if low < 0xDC00 ∨ 0xDFFF < low then .error .malformed
      else .ok (Char.ofNat (0x10000 + (n - 0xD800) * 0x400 + (low - 0xDC00)), s)) := by
  have hlow : ¬ (0xDC00 ≤ n ∧ n ≤ 0xDFFF) := by omega
  have hchar : ¬ (n < 0xD800 ∨ 0xDBFF < n) := by omega
  simp only [numberedChar, hexUnit_four h, bind, Except.bind, if_neg hlow, if_neg hchar]

theorem numberedChar_pair (h : hexUnit? a b c d = some high)
    (hfirst : 0xD800 ≤ high ∧ high < 0xDC00) (h' : hexUnit? a' b' c' d' = some low) (s : Bytes) :
    numberedChar (a :: b :: c :: d :: backslash :: letterU :: a' :: b' :: c' :: d' :: s)
      = if low < 0xDC00 ∨ 0xDFFF < low then .error .malformed
        else .ok (Char.ofNat (0x10000 + (high - 0xD800) * 0x400 + (low - 0xDC00)), s) := by
  rw [numberedChar_high h hfirst]
  simp only [expectByte, if_true, bind, Except.bind, hexUnit_four h']

/-- The first half of a surrogate pair with anything but an escape by number behind it. -/
theorem numberedChar_alone (h : hexUnit? a b c d = some n) (hhigh : 0xD800 ≤ n ∧ n < 0xDC00)
    {x : UInt8} {s : Bytes} (hx : x ≠ backslash ∨ ∃ e s', e ≠ letterU ∧ s = e :: s') :
    numberedChar (a :: b :: c :: d :: x :: s) = .error .malformed := by
  rw [numberedChar_high h hhigh]
  by_cases hslash : x = backslash
  · obtain hne | ⟨e, s', he, rfl⟩ := hx
    · exact absurd hslash hne
    · simp only [expectByte, if_pos hslash, if_neg he, bind, Except.bind]
  · simp only [expectByte, if_neg hslash, bind, Except.bind]

theorem Collects.number (h : hexUnit? a b c d = some n) (hchar : n < 0xD800 ∨ 0xDFFF < n)
    {result : Except Error Bytes} (ht : Collects t result) :
    Collects (backslash :: letterU :: a :: b :: c :: d :: t)
      (result.map (Utf8.encodeChar (Char.ofNat n) ++ ·)) := by
  refine Collects.cons [backslash, letterU, a, b, c, d] (List.cons_ne_nil _ _)
    (fun acc limit s => ?_) ht
  have hread : escapeBytes (letterU :: a :: b :: c :: d :: s)
      = .ok (Utf8.encodeChar (Char.ofNat n), s) := by
    rw [escapeBytes_numbered, numberedChar_one h hchar]
    rfl
  exact literalBytes_escape hread acc limit

theorem Collects.pair (h : hexUnit? a b c d = some high) (hfirst : 0xD800 ≤ high ∧ high < 0xDC00)
    (h' : hexUnit? a' b' c' d' = some low) (hsecond : 0xDC00 ≤ low ∧ low ≤ 0xDFFF)
    {result : Except Error Bytes} (ht : Collects t result) :
    Collects (backslash :: letterU :: a :: b :: c :: d
        :: backslash :: letterU :: a' :: b' :: c' :: d' :: t)
      (result.map (Utf8.encodeChar
        (Char.ofNat (0x10000 + (high - 0xD800) * 0x400 + (low - 0xDC00))) ++ ·)) := by
  have hlow : ¬ (low < 0xDC00 ∨ 0xDFFF < low) := by omega
  refine Collects.cons
    [backslash, letterU, a, b, c, d, backslash, letterU, a', b', c', d']
    (List.cons_ne_nil _ _) (fun acc limit s => ?_) ht
  have hread : escapeBytes
        (letterU :: a :: b :: c :: d :: backslash :: letterU :: a' :: b' :: c' :: d' :: s)
      = .ok (Utf8.encodeChar
        (Char.ofNat (0x10000 + (high - 0xD800) * 0x400 + (low - 0xDC00))), s) := by
    rw [escapeBytes_numbered, numberedChar_pair h hfirst h', if_neg hlow]
    rfl
  exact literalBytes_escape hread acc limit

/-- What spells bytes is read to these bytes. -/
theorem Spells.collects (h : Spells t u) : Collects t (.ok u) := by
  induction h with
  | nil => exact .nil
  | plain hb _ ih => exact ih.plain hb
  | escape he _ ih => exact ih.escape he
  | number hn hchar _ ih => exact ih.number hn hchar
  | pair hhigh hfirst hlow hsecond _ ih => exact ih.pair hhigh hfirst hlow hsecond

/-- An escape by number that stands for no character, and what a string with it comes to. -/
theorem Collects.unpaired
    (hrefused : ∀ r, numberedChar (a :: b :: c :: d :: (t ++ quote :: r)) = .error .malformed) :
    Collects (backslash :: letterU :: a :: b :: c :: d :: t) (.error .malformed) := by
  refine Collects.refused [backslash, letterU, a, b, c, d] fun acc limit r => ?_
  have hread : escapeBytes (letterU :: a :: b :: c :: d :: (t ++ quote :: r))
      = .error .malformed := by
    rw [escapeBytes_numbered, hrefused]
    rfl
  exact literalBytes_refused hread acc limit

/-- **Every text of a string comes to something**, by induction over it; of two escapes by number
the second may belong to the first. -/
theorem Inner.collects : ∀ {t : Bytes}, Inner t → ∃ result, Collects t result
  | _, .nil => ⟨_, .nil⟩
  | _, .plain hb rest =>
    let ⟨_, h⟩ := rest.collects
    ⟨_, h.plain hb⟩
  | _, .escape he rest =>
    let ⟨_, h⟩ := rest.collects
    ⟨_, h.escape he⟩
  | _, .number (n := n) (t := t) hn rest => by
    by_cases hchar : n < 0xD800 ∨ 0xDFFF < n
    · obtain ⟨result, h⟩ := rest.collects
      exact ⟨_, h.number hn hchar⟩
    by_cases hlow : 0xDC00 ≤ n
    · exact ⟨_, .unpaired fun r => numberedChar_low hn ⟨hlow, by omega⟩ _⟩
    have hhigh : 0xD800 ≤ n ∧ n < 0xDC00 := by omega
    match rest with
    | .nil => exact ⟨_, .unpaired fun r => numberedChar_alone hn hhigh (.inl (by decide))⟩
    | .plain hb _ => exact ⟨_, .unpaired fun r => numberedChar_alone hn hhigh (.inl hb.2.1)⟩
    | .escape (e := e) he _ =>
      have hletter : e ≠ letterU := by
        rintro rfl
        cases he
      exact ⟨_, .unpaired fun r =>
        numberedChar_alone hn hhigh (.inr ⟨e, _, hletter, rfl⟩)⟩
    | .number (n := k) hk rest =>
      by_cases hsecond : k < 0xDC00 ∨ 0xDFFF < k
      · refine ⟨_, .unpaired fun r => ?_⟩
        simp only [List.cons_append]
        rw [numberedChar_pair hn hhigh hk, if_pos hsecond]
      · obtain ⟨result, h⟩ := rest.collects
        exact ⟨_, h.pair hn hhigh hk (by omega)⟩

/-! ## 2. What a string spells -/

/-- **Every string of the grammar is passed over.** -/
theorem skipString_inner (h : Inner t) (r : Bytes) : skipString (t ++ quote :: r) = .ok r := by
  induction h with
  | nil =>
    rw [List.nil_append, skipString.eq_def]
    rfl
  | @plain b t hb _ ih =>
    rw [List.cons_append, skipString.eq_def]
    dsimp only
    rw [if_neg hb.1, if_neg hb.2.1, if_neg hb.2.2, ih]
  | @escape e b t he _ ih =>
    have hletter : e ≠ letterU := by
      rintro rfl
      cases he
    rw [List.cons_append, List.cons_append, skipString.eq_def]
    dsimp only
    rw [if_neg (by decide), if_pos rfl, if_neg hletter, if_pos (Option.isSome_of_eq_some he), ih]
  | @number a b c d n t hn _ ih =>
    simp only [List.cons_append]
    rw [skipString.eq_def]
    dsimp only
    rw [if_neg (by decide), if_pos rfl, if_pos rfl, if_pos (Option.isSome_of_eq_some hn), ih]

/-- What the key of a member spells, or why it spells nothing. -/
def spelled (key : Bytes) : Except Error String :=
  (literal (key.length + 2) (key ++ [quote])).map Prod.fst

/-- **A string is read or refused as a whole**, from behind its opening mark. -/
theorem literal_inner_text (h : Inner t) {limit : Nat} (hl : (t ++ quote :: r).length < limit) :
    literal limit (t ++ quote :: r) = (spelled t).map (·, r) := by
  obtain ⟨result, hcollects⟩ := h.collects
  rw [spelled, literal, literal, hcollects [] limit r hl, hcollects [] _ [] (by simp)]
  cases result with
  | error e => rfl
  | ok u =>
    simp only [Except.map]
    cases Utf8.decode? ([].reverse ++ u) <;> rfl

theorem Spells.spelled {name : String} (h : Spells t (Utf8.encode name)) :
    spelled t = .ok name := by
  rw [Json.spelled, literal, h.collects [] _ [] (by simp)]
  simp only [Except.map, List.reverse_nil, List.nil_append, Utf8.decode?_encode]

/-- **What a key spells** is what its text stands for, and nothing else. -/
theorem spelled_eq_ok_iff {name : String} (h : Inner t) :
    spelled t = .ok name ↔ Spells t (Utf8.encode name) := by
  constructor
  · intro hname
    obtain ⟨⟨name', rest⟩, hliteral, rfl⟩ := ok_of_map hname
    obtain ⟨u, htext, hspells⟩ := spells_of_literal hliteral
    -- both texts end at the first closing mark
    have hpass := skipString_inner h []
    rw [htext, skipString_inner hspells.inner rest, Except.ok.injEq] at hpass
    subst hpass
    rw [List.append_cancel_right htext]
    exact hspells
  · exact Spells.spelled

/-! ## 3. What is written -/

theorem Spells.plains {bs : Bytes} (hbs : ∀ b ∈ bs, Plain b) (h : Spells t u) :
    Spells (bs ++ t) (bs ++ u) := by
  induction bs with
  | nil => exact h
  | cons b bs ih =>
    exact .plain (hbs b List.mem_cons_self) (ih fun x hx => hbs x (List.mem_cons_of_mem b hx))

theorem Spells.charBytes (c : Char) (h : Spells t u) :
    Spells (Literal.charBytes c ++ t) (Utf8.encodeChar c ++ u) := by
  rcases charBytes_cases c with ⟨he, hplain⟩ | ⟨esc, he, hesc⟩
  · rw [he]
    exact h.plains hplain
  · obtain ⟨esc', hesc', hspells⟩ := spells_of_escapeBytes (hesc [])
    rw [List.append_nil, List.append_nil] at hesc'
    rw [he, hesc']
    exact hspells h

/-- **A written string** spells what was written. -/
theorem spells_inner (s : String) : Spells (Literal.inner s.toList) (Utf8.encode s) := by
  show Spells (Literal.inner s.toList) (Utf8.encodeChars s.toList)
  induction s.toList with
  | nil => exact .nil
  | cons c cs ih => exact ih.charBytes c

/-- **A written string is read back**, from behind its opening mark. -/
theorem literal_inner (s : String) {limit : Nat} (hl : (Literal.inner s.toList ++ quote :: r).length
    < limit) : literal limit (Literal.inner s.toList ++ quote :: r) = .ok (s, r) := by
  rw [literal_inner_text (spells_inner s).inner hl, (spells_inner s).spelled]
  rfl

/-- An item as it is written, without white space. -/
def Item.written (value : Bytes) : Item := ⟨[], value, [], blank_nil, blank_nil⟩

theorem Item.written_text (value : Bytes) : (written value).text = value := by
  simp [written, Item.text]

/-- A member as it is written, without white space. -/
def Member.written (key : String) (value : Bytes) : Member where
  before := []
  key := Literal.inner key.toList
  gap := []
  item := .written value
  before_blank := blank_nil
  key_inner := (spells_inner key).inner
  gap_blank := blank_nil

theorem Member.written_named (key : String) (value : Bytes) : (written key value).Named key :=
  spells_inner key

/-- A member is named only once, as it is written. -/
theorem Member.written_named_iff {key name : String} {value : Bytes} :
    (written key value).Named name ↔ name = key := by
  constructor
  · intro h
    exact Except.ok.inj (h.spelled.symm.trans (written_named key value).spelled)
  · rintro rfl
    exact written_named name value

theorem Member.written_text (key : String) (value : Bytes) :
    (written key value).text = memberText key value := by
  simp [written, Member.text, Item.written_text, memberText, Literal.bytes]

end MeshNode.Json
