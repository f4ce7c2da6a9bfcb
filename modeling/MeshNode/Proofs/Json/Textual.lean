/-
# Values: what is read is text

Outside of strings JSON has nothing but ASCII, and a string is judged when it is closed: the bytes
that it spells must be those of a text.  An escape stands for whole characters, so the bytes around
it must have been whole characters too.  Hence whatever a reader took off the front of a text is a
text itself, and bytes that were read as one value are well-formed UTF-8 from end to end.

* `clean_of_spells`: what spells a text is a text, told by the two runs of the machine that reads
  UTF-8, side by side;
* `TextTo`: how far a text goes from a place, and the tokens on the way;
* `Textual` says of a reader that it takes texts off the front, with `Textual.items` and
  `textual_members` for arrays and objects;
* `valueWith_textual` and `isText_of_ofBytes`: values of any shape, and whole texts.
-/
import MeshNode.Proofs.Json.Soundness
import MeshNode.Proofs.Text.Lossy

namespace MeshNode.Json

open Token Utf8

variable {α σ : Type} {s s' rest t u : Bytes} {limit : Nat}

/-! ## 1. Strings -/

theorem ascii_of_hexValue? {b : UInt8} {n : Nat} (h : hexValue? b = some n) : b.toNat < 0x80 := by
  unfold hexValue? at h
  dsimp only at h
  split at h
  · omega
  split at h
  · omega
  split at h
  · omega
  · cases h

/-- The digits of an escape by number. -/
theorem ascii_of_hexUnit? {a b c d : UInt8} {n : Nat} (h : hexUnit? a b c d = some n) :
    ∀ x ∈ [a, b, c, d], x.toNat < 0x80 := by
  unfold hexUnit? at h
  split at h
  · next ha hb hc hd =>
    simp only [List.forall_mem_cons, ascii_of_hexValue? ha, ascii_of_hexValue? hb,
      ascii_of_hexValue? hc, ascii_of_hexValue? hd, true_and]
    exact fun _ hx => absurd hx List.not_mem_nil
  · cases h

/-- The letter of an escape, and what it stands for. -/
theorem ascii_of_escaped? {e b : UInt8} (h : escaped? e = some b) :
    e.toNat < 0x80 ∧ b.toNat < 0x80 := by
  have hall : ∀ n < 256, ((escaped? (.ofNat n)).all fun b => n < 0x80 && b.toNat < 0x80) = true := by
    decide +kernel
  have he := hall e.toNat e.toNat_lt
  rw [UInt8.ofNat_toNat, h] at he
  simpa using he

/-- Between two characters, bytes of ASCII are the next ones. -/
theorem clean_append_ascii : ∀ {bs : Bytes}, (∀ b ∈ bs, b.toNat < 0x80) →
    (Clean none (bs ++ rest) ↔ Clean none rest)
  | [], _ => Iff.rfl
  | b :: bs, h => by
    rw [List.cons_append, clean_ascii (h b List.mem_cons_self),
      clean_append_ascii fun x hx => h x (List.mem_cons_of_mem b hx)]

/-- The escape of a character by number, in front of the rest of a string. -/
theorem clean_number {a b c d : UInt8} {n : Nat} (hn : hexUnit? a b c d = some n)
    (h : Clean none t) : Clean none (backslash :: letterU :: a :: b :: c :: d :: t) := by
  have hslash : (backslash : UInt8).toNat < 0x80 := by decide
  have hletter : (letterU : UInt8).toNat < 0x80 := by decide
  rw [clean_ascii hslash, clean_ascii hletter]
  exact (clean_append_ascii (ascii_of_hexUnit? hn)).mpr h

/-- **What spells a text is a text**, from any place inside of it.  The bytes that stand for
themselves move both runs alike, and where an escape comes, the run over what is spelled is between
two characters. -/
theorem clean_of_spells (h : Spells t u) : ∀ {state : State}, Awaits state → Clean state u →
    Clean state t := by
  induction h with
  | nil => exact fun _ h => h
  | plain _ _ ih =>
    intro state _ hclean
    obtain ⟨hnow, hlater⟩ := clean_cons.mp hclean
    exact clean_cons.mpr ⟨hnow, ih (awaits_step state _) hlater⟩
  | escape he _ ih =>
    intro state hstate hclean
    obtain ⟨hletter, hbyte⟩ := ascii_of_escaped? he
    obtain rfl := between_of_clean hstate (.inl hbyte) hclean
    have hslash : (backslash : UInt8).toNat < 0x80 := by decide
    rw [clean_ascii hslash, clean_ascii hletter]
    exact ih awaits_none ((clean_ascii hbyte).mp hclean)
  | number hn _ _ ih =>
    intro state hstate hclean
    obtain rfl := between_of_clean_encodeChar hstate hclean
    exact clean_number hn (ih awaits_none ((clean_encodeChar _).mp hclean))
  | pair hhigh _ hlow _ _ ih =>
    intro state hstate hclean
    obtain rfl := between_of_clean_encodeChar hstate hclean
    exact clean_number hhigh (clean_number hlow (ih awaits_none ((clean_encodeChar _).mp hclean)))

/-- The text of a string that spells a name. -/
theorem isText_of_spells {name : String} (h : Spells t (encode name)) : IsText t := by
  have hname : IsText (encode name) := ⟨name, rfl⟩
  exact isText_of_clean (clean_of_spells h awaits_none hname.clean)

/-! ## 2. From one place to another -/

/-- From `s` to `rest` there is nothing but text. -/
def TextTo (s rest : Bytes) : Prop := ∃ t, s = t ++ rest ∧ IsText t

theorem TextTo.refl (s : Bytes) : TextTo s s := ⟨[], rfl, isText_nil⟩

theorem TextTo.trans (h : TextTo s s') (h' : TextTo s' rest) : TextTo s rest := by
  obtain ⟨t, rfl, ht⟩ := h
  obtain ⟨t', rfl, ht'⟩ := h'
  exact ⟨t ++ t', (List.append_assoc _ _ _).symm, ht.append ht'⟩

theorem textTo_ascii (h : ∀ b ∈ t, b.toNat < 0x80) : TextTo (t ++ rest) rest :=
  ⟨t, rfl, isText_of_ascii h⟩

theorem textTo_byte {b : UInt8} (hb : b.toNat < 0x80) : TextTo (b :: rest) rest :=
  ⟨[b], rfl, isText_singleton hb⟩

theorem ascii_of_blank (h : Blank t) : ∀ b ∈ t, b.toNat < 0x80 := by
  intro b hb
  have hspace := h b hb
  simp only [isSpace, Bool.or_eq_true, beq_iff_eq] at hspace
  rcases hspace with ((rfl | rfl) | rfl) | rfl <;> decide

/-- White space, and one byte of ASCII behind it. -/
theorem textTo_mark {ws : Bytes} {b : UInt8} (hws : Blank ws) (hb : b.toNat < 0x80) :
    TextTo (ws ++ b :: rest) rest :=
  (textTo_ascii (ascii_of_blank hws)).trans (textTo_byte hb)

theorem ascii_of_digits (h : Digits t) : ∀ b ∈ t, b.toNat < 0x80 := by
  intro b hb
  have hdigit := h.2 b hb
  rw [isDigit, Bool.and_eq_true, decide_eq_true_eq, decide_eq_true_eq] at hdigit
  have hhigh : b.toNat ≤ 0x39 := UInt8.le_iff_toNat_le.mp hdigit.2
  omega

theorem ascii_of_unsigned (h : UnsignedText t) : ∀ b ∈ t, b.toNat < 0x80 := by
  obtain ⟨whole, fraction, exponent, rfl, hwhole, hfraction, hexponent⟩ := h
  simp only [List.forall_mem_append]
  refine ⟨?_, ?_, ?_⟩
  · rcases hwhole with rfl | ⟨hdigits, -⟩
    · exact List.forall_mem_singleton.mpr (by decide)
    · exact ascii_of_digits hdigits
  · rcases hfraction with rfl | ⟨digits, rfl, hdigits⟩
    · exact fun _ hb => absurd hb List.not_mem_nil
    · exact List.forall_mem_cons.mpr ⟨by decide, ascii_of_digits hdigits⟩
  · rcases hexponent with rfl | ⟨mark, sign, digits, rfl, hmark, hsign, hdigits⟩
    · exact fun _ hb => absurd hb List.not_mem_nil
    refine List.forall_mem_cons.mpr ⟨?_, List.forall_mem_append.mpr ⟨?_, ascii_of_digits hdigits⟩⟩
    · simp only [isExponentMark, Bool.or_eq_true, beq_iff_eq] at hmark
      rcases hmark with rfl | rfl <;> decide
    · simp only [List.mem_cons, List.not_mem_nil, or_false] at hsign
      rcases hsign with rfl | rfl | rfl
      · exact fun _ hb => absurd hb List.not_mem_nil
      · exact List.forall_mem_singleton.mpr (by decide)
      · exact List.forall_mem_singleton.mpr (by decide)

theorem ascii_of_number (h : NumberText t) : ∀ b ∈ t, b.toNat < 0x80 := by
  rcases h with h | ⟨u, rfl, h⟩
  · exact ascii_of_unsigned h
  · exact List.forall_mem_cons.mpr ⟨by decide, ascii_of_unsigned h⟩

/-! ### Tokens -/

/-- A string, from behind its opening mark. -/
theorem textTo_of_literal {name : String} (h : literal limit s = .ok (name, rest)) :
    TextTo s rest := by
  obtain ⟨t, rfl, hspells⟩ := spells_of_literal h
  exact TextTo.trans ⟨t, rfl, isText_of_spells hspells⟩ (textTo_byte (by decide))

theorem textTo_of_word {word : Bytes} (hword : word ∈ [nullWord, trueWord, falseWord])
    (h : expectWord word s = .ok rest) : TextTo s rest := by
  -- as a Boolean: `∀ b ∈ word` may be decided by trying every byte there is
  have hall : [nullWord, trueWord, falseWord].all (·.all (·.toNat < 0x80)) = true := by decide
  have hascii : ∀ b ∈ word, b.toNat < 0x80 := by simpa using List.all_eq_true.mp hall word hword
  rw [eq_of_expectWord h]
  exact textTo_ascii hascii

theorem textTo_of_foundWord {word : Bytes} {meant what : Found}
    (hword : word ∈ [nullWord, trueWord, falseWord])
    (h : (expectWord word s).map (fun s => (meant, s)) = .ok (what, rest)) : TextTo s rest := by
  obtain ⟨s', hs', heq⟩ := ok_of_map h
  cases heq
  exact textTo_of_word hword hs'

theorem textTo_of_closeArray (h : closeArray s = .ok rest) : TextTo s rest := by
  obtain ⟨ws, hws, rfl⟩ := blank_of_closeArray h
  exact textTo_mark hws (by decide)

theorem textTo_of_nextItem {first : Bool} (h : nextItem first s = .ok (some rest)) :
    TextTo s rest := by
  cases first with
  | true =>
    obtain ⟨ws, hws, rfl⟩ := nextItem_first_some h
    exact textTo_ascii (ascii_of_blank hws)
  | false =>
    obtain ⟨ws, ws', hws, hws', rfl⟩ := nextItem_later_some h
    exact (textTo_mark hws (by decide)).trans (textTo_ascii (ascii_of_blank hws'))

theorem textTo_of_close {first : Bool} (h : nextKey first s = .ok (.inr rest)) :
    TextTo s rest := by
  obtain ⟨ws, hws, rfl⟩ := nextKey_close_sound h
  exact textTo_mark hws (by decide)

theorem textTo_of_nextKey {first : Bool} (h : nextKey first s = .ok (.inl rest)) :
    TextTo s rest := by
  cases first with
  | true =>
    obtain ⟨ws, hws, rfl⟩ := nextKey_first_some h
    exact textTo_mark hws (by decide)
  | false =>
    obtain ⟨ws, ws', hws, hws', rfl⟩ := nextKey_later_some h
    exact (textTo_mark hws (by decide)).trans (textTo_mark hws' (by decide))

theorem textTo_of_skipColon (h : skipColon s = .ok rest) : TextTo s rest := by
  obtain ⟨ws, hws, rfl⟩ := blank_of_skipColon h
  exact textTo_mark hws (by decide)

/-! ## 3. Readers -/

/-- What a reader takes off the front of a text is a text. -/
def Textual (read : Reader α) : Prop :=
  ∀ ⦃limit : Nat⦄ ⦃s rest : Bytes⦄ ⦃a : α⦄, read limit s = .ok (a, rest) → TextTo s rest

theorem found_textual : Textual found := by
  intro limit s rest what h
  rw [found] at h
  split at h
  · cases h
  next b more hmore =>
  obtain ⟨ws, hws, rfl⟩ := blank_of_skipSpaces hmore
  refine (textTo_ascii (ascii_of_blank hws)).trans ?_
  split at h
  · next hquote =>
    obtain ⟨⟨name, s'⟩, hliteral, heq⟩ := ok_of_map h
    cases heq
    exact (textTo_byte (by rw [hquote]; decide)).trans (textTo_of_literal hliteral)
  split at h
  · next hbracket =>
    cases h
    exact textTo_byte (by rw [hbracket]; decide)
  split at h
  · next hbrace =>
    cases h
    exact textTo_byte (by rw [hbrace]; decide)
  split at h
  · exact textTo_of_foundWord (by simp) h
  split at h
  · exact textTo_of_foundWord (by simp) h
  split at h
  · exact textTo_of_foundWord (by simp) h
  split at h
  · obtain ⟨⟨v, s'⟩, hnumber, heq⟩ := ok_of_map h
    obtain ⟨t, ht, hs⟩ := numberText_of_readNumber hnumber
    cases heq
    rw [hs]
    exact textTo_ascii (ascii_of_number ht)
  · cases h

variable {item : Reader α} {member : String → σ → Reader σ}

theorem Textual.optionalItem (h : Textual item) (first : Bool) :
    Textual (optionalItem first item) := by
  intro limit s rest found hfound
  rcases optionalItem_cases hfound with ⟨-, rfl⟩ | ⟨v, s', -, hnext, hitem⟩
  · exact TextTo.refl _
  · exact (textTo_of_nextItem hnext).trans (h hitem)

theorem Textual.itemsFrom (h : Textual item) :
    ∀ {rounds : Nat} {first : Bool} {acc vs : List α} {s : Bytes},
      itemsFrom item limit rounds first acc s = .ok (vs, rest) → TextTo s rest
  | 0, _, _, _, _, hread => nomatch hread
  | rounds + 1, first, acc, vs, s, hread => by
    rw [Json.itemsFrom] at hread
    split at hread
    · cases hread
    · next v s' hitem => exact (h.optionalItem first hitem).trans (h.itemsFrom hread)
    next s' hnone =>
    split at hread
    · cases hread
    next s'' hclose =>
    cases hread
    exact (h.optionalItem first hnone).trans (textTo_of_closeArray hclose)

/-- **An array** is text if its items are. -/
theorem Textual.items (h : Textual item) : Textual (items item) := fun _ _ _ _ hread =>
  h.itemsFrom hread

theorem textual_membersFrom (h : ∀ key state, Textual (member key state)) :
    ∀ {rounds : Nat} {first : Bool} {state state' : σ} {s : Bytes},
      membersFrom member limit rounds first state s = .ok (state', rest) → TextTo s rest
  | 0, _, _, _, _, hread => nomatch hread
  | rounds + 1, first, state, state', s, hread => by
    rw [membersFrom] at hread
    split at hread
    · cases hread
    · next s' hclose =>
      cases hread
      exact textTo_of_close hclose
    next s₁ hnext =>
    split at hread
    · cases hread
    next key s₂ hkey =>
    split at hread
    · cases hread
    next state₁ s₃ hmember =>
    exact (textTo_of_nextKey hnext).trans ((textTo_of_literal hkey).trans
      ((h key state hmember).trans (textual_membersFrom h hread)))

/-- **An object** is text if what stands behind its keys is. -/
theorem textual_members (h : ∀ key state, Textual (member key state)) (state : σ) :
    Textual (members member state) := fun _ _ _ _ hread => textual_membersFrom h hread

theorem Textual.memberValue (h : Textual item) : Textual (memberValue item) := by
  intro limit s rest v hread
  rw [Json.memberValue] at hread
  split at hread
  · cases hread
  next s' hcolon =>
  exact (textTo_of_skipColon hcolon).trans (h hread)

/-- What is made of the result of a reader does not change what it took. -/
theorem Textual.map {β : Type} (h : Textual item) (f : α → β) :
    Textual fun limit s => (item limit s).map fun (v, s) => (f v, s) := by
  intro limit s rest b hread
  obtain ⟨⟨v, s'⟩, hv, heq⟩ := ok_of_map hread
  cases heq
  exact h hv

/-! ## 4. Any value -/

theorem scalar_textual : Textual scalar := by
  intro limit s rest v h
  rw [scalar] at h
  split at h
  · cases h
  next what s' hfound =>
  have hrest : s' = rest := by
    cases what with
    | array => cases h
    | object => cases h
    | _ => cases h; rfl
  rw [← hrest]
  exact found_textual hfound

theorem textFor_textual (expected : Expected) : Textual (textFor expected) := by
  intro limit s rest name h
  rw [textFor] at h
  split at h
  · cases h
  next b more hmore =>
  obtain ⟨ws, hws, rfl⟩ := blank_of_skipSpaces hmore
  split at h
  · next hquote => exact (textTo_mark hws (by rw [hquote]; decide)).trans (textTo_of_literal h)
  · rw [unexpected] at h
    split at h <;> cases h

variable {inner : Nat → Bytes → Except Error Json} {v : Json}

/-- An object that stands for the value of a text inside is a text, whatever that value is. -/
theorem textTo_of_rawValue (hkey : rawKey? limit s = some s')
    (h : rawValue inner limit s' = .ok (v, rest)) : TextTo s rest := by
  obtain ⟨ws, t, hws, hspells, rfl⟩ := eq_of_rawKey? hkey
  obtain ⟨_, s'', hmember, -, hclose⟩ := rawValue_cases h
  obtain ⟨ws', hws', rfl⟩ := blank_of_closeObject hclose
  have hmark : TextTo (t ++ quote :: s') s' :=
    TextTo.trans ⟨t, rfl, isText_of_spells hspells⟩ (textTo_byte (by decide))
  exact (textTo_mark hws (by decide)).trans (hmark.trans
    (((textFor_textual .raw).memberValue hmember).trans (textTo_mark hws' (by decide))))

/-- **A value that is read** is a text, whatever the budget of the reader is, and whatever is made of
the texts inside. -/
theorem valueWith_textual (inner : Nat → Bytes → Except Error Json) :
    ∀ budget, Textual (valueWith inner budget)
  | 0 => scalar_textual
  | budget + 1 => by
    have ih := valueWith_textual inner budget
    intro limit s rest v h
    obtain ⟨b, more, hmore, hcases⟩ := valueWith_cases h
    obtain ⟨ws, hws, rfl⟩ := blank_of_skipSpaces hmore
    rcases hcases with ⟨rfl, vs, -, hitems⟩ | ⟨rfl, s', hkey, hraw⟩ | ⟨rfl, -, ms, -, hmembers⟩ |
      ⟨-, -, hscalar⟩
    · exact (textTo_mark hws (by decide)).trans (ih.items hitems)
    · exact (textTo_mark hws (by decide)).trans (textTo_of_rawValue hkey hraw)
    · have hentries := textual_members fun key entries =>
        ih.memberValue.map fun v => Dictionary.insert key v entries
      exact (textTo_mark hws (by decide)).trans (hentries [] hmembers)
    · exact (textTo_ascii (ascii_of_blank hws)).trans (scalar_textual hscalar)

/-- **Bytes that are read as one value** are a text, to the end. -/
theorem isText_of_ofBytes {v : Json} (h : ofBytes s = .ok v) : IsText s := by
  obtain ⟨rest, hread, hrest⟩ := fromBytes_eq_ok_iff.mp h
  obtain ⟨t, rfl, ht⟩ := valueWith_textual ofText nesting hread
  exact ht.append (isText_of_ascii (ascii_of_blank hrest))

end MeshNode.Json
