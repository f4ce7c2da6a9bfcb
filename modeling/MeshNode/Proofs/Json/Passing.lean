/-
# Values: what is JSON is passed over

The reader that passes over a value takes every value of the grammar, at any depth, and leaves what
follows it.  Only a number does not say itself where it ends, so what follows must not go on a
number.

* `skipNumber_unsigned`: numbers;
* `Passes` relates two states on the way, with rounds enough left for the rest of the text;
* `ValueText.passedOver`: from in front of a value to behind it, whatever containers are open;
* `skip_value`: the whole run.
-/
import MeshNode.Proofs.Json.Collection
import MeshNode.Proofs.Json.RoundTrip
import MeshNode.Proofs.Json.Skipped

namespace MeshNode.Json

open Token

variable {s s' r ws t : Bytes} {frames : List Frame}

/-! ## 1. Numbers -/

/-- A text that does not begin with a digit. -/
def NoDigitFirst (s : Bytes) : Prop := ∀ b ∈ s.head?, isDigit b = false

theorem skipDigits_digits (h : Digits t) (hr : NoDigitFirst r) : skipDigits (t ++ r) = .ok r := by
  obtain ⟨hne, hall⟩ := h
  have hdrop : (t ++ r).dropWhile isDigit = r := (Text.span_run hall hr).2
  cases t with
  | nil => exact absurd rfl hne
  | cons b t =>
    rw [skipDigits.eq_def]
    dsimp only [List.cons_append] at hdrop ⊢
    rw [if_pos (hall b List.mem_cons_self), hdrop]

theorem skipWhole_text (h : WholeText t) (hr : NoDigitFirst r) : skipWhole (t ++ r) = .ok r := by
  rcases h with rfl | ⟨hdigits, hzero⟩
  · rw [List.singleton_append, skipWhole.eq_def]
    dsimp only
    rw [if_pos rfl]
    cases r with
    | nil => rfl
    | cons b r =>
      dsimp only
      rw [hr b rfl]
      rfl
  · have hskip := skipDigits_digits hdigits hr
    cases t with
    | nil => exact absurd rfl hdigits.1
    | cons b t =>
      rw [skipWhole.eq_def]
      dsimp only [List.cons_append] at hskip ⊢
      rw [if_neg fun hb => hzero (by rw [hb]; rfl), hskip]

theorem skipFraction_text (h : FractionText t) (hr : NoDigitFirst r) (hpoint : point ∉ r.head?) :
    skipFraction (t ++ r) = .ok r := by
  rcases h with rfl | ⟨digits, rfl, hdigits⟩
  · cases r with
    | nil => rfl
    | cons b r =>
      rw [List.nil_append, skipFraction.eq_def]
      dsimp only
      rw [if_neg fun hb => hpoint (by rw [hb]; rfl)]
  · rw [List.cons_append, skipFraction.eq_def]
    dsimp only
    rw [if_pos rfl, skipDigits_digits hdigits hr]

/-- The sign in front of digits is read alike whatever stands behind them. -/
theorem readSign_append {sign : Bytes} (hsign : sign ∈ [[], [plus], [minus]]) (ht : Digits t) :
    ∃ negative, ∀ r, Numeral.readSign (sign ++ (t ++ r)) = (negative, t ++ r) := by
  obtain ⟨hne, hall⟩ := ht
  simp only [List.mem_cons, List.not_mem_nil, or_false] at hsign
  rcases hsign with rfl | rfl | rfl
  · cases t with
    | nil => exact absurd rfl hne
    | cons b t =>
      have hb := hall b List.mem_cons_self
      have hplus : b ≠ plus := by
        rintro rfl
        cases hb
      have hminus : b ≠ minus := by
        rintro rfl
        cases hb
      refine ⟨false, fun r => ?_⟩
      rw [List.nil_append, List.cons_append, Numeral.readSign.eq_def]
      dsimp only
      rw [if_neg hplus, if_neg hminus]
  · exact ⟨false, fun r => rfl⟩
  · exact ⟨true, fun r => rfl⟩

theorem skipExponent_text (h : ExponentText t) (hr : Delimited r) :
    skipExponent (t ++ r) = .ok r := by
  rcases h with rfl | ⟨mark, sign, digits, rfl, hmark, hsign, hdigits⟩
  · cases r with
    | nil => rfl
    | cons b r =>
      rw [List.nil_append, skipExponent.eq_def]
      dsimp only
      rw [(hr b rfl).2.2]
      rfl
  · obtain ⟨negative, hread⟩ := readSign_append hsign hdigits
    rw [List.cons_append, List.append_assoc, skipExponent.eq_def]
    dsimp only
    rw [if_pos hmark, hread]
    exact skipDigits_digits hdigits fun b hb => (hr b hb).1

/-- The parts of a number, and what stands behind each of them: no digit behind the whole, neither
digit nor point behind the fraction. -/
theorem UnsignedText.parts (h : UnsignedText t) :
    ∃ whole fraction exponent, t = whole ++ (fraction ++ exponent) ∧ WholeText whole ∧
      FractionText fraction ∧ ExponentText exponent ∧ ∀ r, Delimited r →
        NoDigitFirst (fraction ++ (exponent ++ r)) ∧ NoDigitFirst (exponent ++ r) ∧
          point ∉ (exponent ++ r).head? := by
  obtain ⟨whole, fraction, exponent, rfl, hwhole, hfraction, hexponent⟩ := h
  refine ⟨whole, fraction, exponent, rfl, hwhole, hfraction, hexponent, fun r hr => ?_⟩
  have hmark : ∀ mark : UInt8, isExponentMark mark = true →
      isDigit mark = false ∧ mark ≠ point := by
    intro mark hmark
    simp only [isExponentMark, Bool.or_eq_true, beq_iff_eq] at hmark
    rcases hmark with rfl | rfl <;> decide
  have hlast : ∀ b ∈ (exponent ++ r).head?, isDigit b = false ∧ b ≠ point := by
    rcases hexponent with rfl | ⟨mark, sign, digits, rfl, hm, -, -⟩
    · exact fun b hb => ⟨(hr b hb).1, (hr b hb).2.1⟩
    · intro b hb
      cases hb
      exact hmark mark hm
  refine ⟨?_, fun b hb => (hlast b hb).1, fun hb => (hlast _ hb).2 rfl⟩
  rcases hfraction with rfl | ⟨digits, rfl, -⟩
  · exact fun b hb => (hlast b hb).1
  · intro b hb
    cases hb
    decide

/-- **Every number of the grammar is passed over**, from behind its sign. -/
theorem skipNumber_unsigned (h : UnsignedText t) (hr : Delimited r) :
    skipNumber (t ++ r) = .ok r := by
  obtain ⟨whole, fraction, exponent, rfl, hwhole, hfraction, hexponent, hbehind⟩ := h.parts
  obtain ⟨hmiddle, hlast, hpoint⟩ := hbehind r hr
  rw [List.append_assoc, List.append_assoc, skipNumber, skipWhole_text hwhole hmiddle]
  simp only [bind, Except.bind]
  rw [skipFraction_text hfraction hlast hpoint]
  exact skipExponent_text hexponent hr

theorem unsigned_starts (h : UnsignedText t) : ∃ b u, t = b :: u ∧ isDigit b = true := by
  obtain ⟨whole, fraction, exponent, rfl, rfl | ⟨⟨hne, hall⟩, -⟩, -, -⟩ := h
  · exact ⟨zero, _, rfl, by decide⟩
  · cases whole with
    | nil => exact absurd rfl hne
    | cons b whole => exact ⟨b, _, rfl, hall b List.mem_cons_self⟩

theorem NumberText.first (h : NumberText t) :
    ∃ b u, t = b :: u ∧ (b = minus ∨ isDigit b = true) := by
  rcases h with h | ⟨u, rfl, -⟩
  · obtain ⟨b, u, rfl, hb⟩ := unsigned_starts h
    exact ⟨b, u, rfl, .inr hb⟩
  · exact ⟨minus, u, rfl, .inl rfl⟩

/-- The text of a value can be told from white space and from the end of an array. -/
theorem ValueText.starts (h : ValueText t) : Starts t := by
  cases h with
  | word h =>
    simp only [List.mem_cons, List.not_mem_nil, or_false] at h
    rcases h with rfl | rfl | rfl <;> exact ⟨_, _, rfl, by decide, by decide⟩
  | number h =>
    obtain ⟨b, u, rfl, hb⟩ := h.first
    obtain ⟨hspace, -, -, -, hclose, -⟩ := numeral_start hb
    exact ⟨b, u, rfl, hspace, hclose⟩
  | string => exact ⟨quote, _, rfl, by decide, by decide⟩
  | emptyArray | array => exact ⟨openBracket, _, rfl, by decide, by decide⟩
  | emptyObject | object => exact ⟨openBrace, _, rfl, by decide, by decide⟩

/-! ## 2. From one state to another -/

/-- **The run from one state goes on from another**, and if there were rounds enough for the text
at first, there are enough for what is left of it. -/
def Passes (phase : Phase) (frames : List Frame) (s : Bytes) (phase' : Phase)
    (frames' : List Frame) (s' : Bytes) : Prop :=
  ∀ limit, s.length < limit → ∃ limit', s'.length < limit' ∧
    skipFrom limit phase frames s = skipFrom limit' phase' frames' s'

variable {phase phase' phase'' : Phase} {frames' frames'' : List Frame} {s'' : Bytes}

theorem Passes.trans (h : Passes phase frames s phase' frames' s')
    (h' : Passes phase' frames' s' phase'' frames'' s'') :
    Passes phase frames s phase'' frames'' s'' := by
  intro limit hl
  obtain ⟨limit', hl', heq⟩ := h limit hl
  obtain ⟨limit'', hl'', heq'⟩ := h' limit' hl'
  exact ⟨limit'', hl'', heq.trans heq'⟩

/-- What one round does, behind the white space in front of it. -/
theorem Passes.of_round (ws : Bytes) {b : UInt8} {rest : Bytes}
    (hround : ∀ limit, skipFrom (limit + 1) phase frames (ws ++ b :: rest)
      = skipFrom limit phase' frames' s') (hs' : s'.length ≤ rest.length) :
    Passes phase frames (ws ++ b :: rest) phase' frames' s' := by
  intro limit hl
  rw [List.length_append, List.length_cons] at hl
  obtain ⟨limit, rfl⟩ : ∃ l, limit = l + 1 := ⟨limit - 1, by omega⟩
  exact ⟨limit, by omega, hround limit⟩

theorem passes_valueStep (frames : List Frame) {b : UInt8} {rest : Bytes} {next : Skipping}
    (hb : isSpace b = false) (hstep : skipValueStep frames b rest = .ok next)
    (hnext : next.rest.length ≤ rest.length) :
    Passes .value frames (b :: rest) next.phase next.frames next.rest := by
  refine Passes.of_round [] (fun limit => ?_) hnext
  rw [List.nil_append, skipFrom, skipSpaces_cons hb]
  · simp only [hstep]
  · nofun

/-- A scalar is passed over in one round. -/
theorem passes_scalar (frames : List Frame) (b : UInt8) (rest : Bytes) (hb : isSpace b = false)
    (hstep : skipValueStep frames b rest = .ok ⟨.after, frames, r⟩) (hr : r.length ≤ rest.length) :
    Passes .value frames (b :: rest) .after frames r :=
  passes_valueStep frames hb hstep hr

/-- A key, its colon, and the white space around them. -/
theorem passes_key (frames : List Frame) {key gap : Bytes} (hws : Blank ws) (hkey : Inner key)
    (hgap : Blank gap) (s : Bytes) :
    Passes .key frames (ws ++ quote :: (key ++ quote :: (gap ++ colon :: s))) .value frames s := by
  have hstep : skipKeyStep frames quote (key ++ quote :: (gap ++ colon :: s))
      = .ok ⟨.value, frames, s⟩ := by
    rw [skipKeyStep, if_pos rfl, skipString_inner hkey]
    dsimp only
    rw [skipColon_blank hgap]
    rfl
  refine Passes.of_round ws (fun limit => ?_) ?_
  · rw [skipFrom, skipSpaces_blank_cons hws (by decide)]
    · simp only [hstep]
    · rintro ⟨⟩
  · simp only [List.length_append, List.length_cons]
    omega

/-- The opening bracket in front of an item, and the white space behind it. -/
theorem passes_openArray (frames : List Frame) (ht : Starts t) (hws : Blank ws) (s : Bytes) :
    Passes .value frames (openBracket :: (ws ++ (t ++ s))) .value (.array :: frames) (t ++ s) := by
  obtain ⟨b, u, rfl, hb, hclose⟩ := ht
  have hstep : skipValueStep frames openBracket (ws ++ (b :: u ++ s))
      = .ok ⟨.value, .array :: frames, b :: u ++ s⟩ := by
    rw [skipValueStep, List.cons_append, skipSpaces_blank_cons hws hb]
    simp only [if_true, if_neg hclose]
  exact passes_valueStep frames (by decide) hstep (List.suffix_append ws _).length_le

/-- The opening brace in front of a key, and the white space behind it. -/
theorem passes_openObject (frames : List Frame) (hws : Blank ws) (s : Bytes) :
    Passes .value frames (openBrace :: (ws ++ quote :: s)) .key (.object :: frames)
      (quote :: s) := by
  have hstep : skipValueStep frames openBrace (ws ++ quote :: s)
      = .ok ⟨.key, .object :: frames, quote :: s⟩ := by
    rw [skipValueStep, skipSpaces_blank_cons hws (by decide)]
    rfl
  exact passes_valueStep frames (by decide) hstep (List.suffix_append ws _).length_le

/-- The white space behind a value in an open container, and the mark behind that. -/
theorem passes_afterStep (frame : Frame) (frames : List Frame) {b : UInt8} {rest : Bytes}
    {phase : Phase} {frames' : List Frame} (hws : Blank ws) (hb : isSpace b = false)
    (hstep : skipAfterStep frame frames b rest = .ok ⟨phase, frames', rest⟩) :
    Passes .after (frame :: frames) (ws ++ b :: rest) phase frames' rest := by
  refine Passes.of_round ws (fun limit => ?_) (Nat.le_refl _)
  rw [skipFrom, skipSpaces_blank_cons hws hb]
  · simp only [hstep]
  · nofun

/-! ## 3. Any value -/

/-- A value is passed over, whatever containers are open around it. -/
def PassedOver (t : Bytes) : Prop :=
  ∀ frames ⦃r : Bytes⦄, Delimited r → Passes .value frames (t ++ r) .after frames r

/-- White space in front of a value is passed over with it. -/
theorem PassedOver.behind (h : PassedOver t) (ht : Starts t) (hws : Blank ws) (hr : Delimited r) :
    Passes .value frames (ws ++ (t ++ r)) .after frames r := by
  obtain ⟨b, u, rfl, hb, -⟩ := ht
  intro limit hl
  rw [List.length_append] at hl
  obtain ⟨limit', hl', heq⟩ := h frames hr limit (by omega)
  refine ⟨limit', hl', Eq.trans ?_ heq⟩
  obtain ⟨limit, rfl⟩ : ∃ l, limit = l + 1 := ⟨limit - 1, by omega⟩
  rw [skipFrom, skipFrom, skipSpaces_blank hws]
  · nofun
  · nofun

/-- An item of an array. -/
theorem passes_item (frames : List Frame) {i : Item} (h : PassedOver i.value)
    (ht : ValueText i.value) (hr : Delimited r) :
    Passes .value frames (i.text ++ r) .after frames (i.after ++ r) := by
  rw [Item.text, List.append_assoc, List.append_assoc]
  exact h.behind ht.starts i.before_blank (i.after_blank.delimited hr)

/-- A member of an object. -/
theorem passes_member (frames : List Frame) {m : Member} (h : PassedOver m.item.value)
    (ht : ValueText m.item.value) (hr : Delimited r) :
    Passes .key frames (m.text ++ r) .after frames (m.item.after ++ r) := by
  have hkey := passes_key frames m.before_blank m.key_inner m.gap_blank (m.item.text ++ r)
  have hvalue := passes_item frames h ht hr
  rw [Member.text]
  simp only [List.append_assoc, List.cons_append]
  exact hkey.trans hvalue

/-- The items behind an item, and the closing bracket. -/
theorem passes_itemsEnd (frames : List Frame) (r : Bytes) : ∀ (items : List Item),
    (∀ i ∈ items, ValueText i.value) → (∀ i ∈ items, PassedOver i.value) → ∀ {ws : Bytes},
      Blank ws → Passes .after (.array :: frames)
        (ws ++ ((items.map Item.text).flatMap (comma :: ·) ++ closeBracket :: r)) .after frames r
  | [], _, _, ws, hws => passes_afterStep .array frames hws (by decide) rfl
  | i :: items, ht, hpass, ws, hws => by
    have hdelimited := delimited_flatMap delimited_closeBracket (items.map Item.text) r
    have hitem := passes_item (.array :: frames) (hpass i List.mem_cons_self)
      (ht i List.mem_cons_self) hdelimited
    have hlater := passes_itemsEnd frames r items (fun j hj => ht j (List.mem_cons_of_mem i hj))
      (fun j hj => hpass j (List.mem_cons_of_mem i hj)) i.after_blank
    simp only [List.map_cons, List.flatMap_cons, List.append_assoc, List.cons_append]
    exact (passes_afterStep .array frames hws (by decide) rfl).trans (hitem.trans hlater)

/-- The members behind a member, and the closing brace. -/
theorem passes_membersEnd (frames : List Frame) (r : Bytes) : ∀ (members : List Member),
    (∀ m ∈ members, ValueText m.item.value) → (∀ m ∈ members, PassedOver m.item.value) →
      ∀ {ws : Bytes}, Blank ws → Passes .after (.object :: frames)
        (ws ++ ((members.map Member.text).flatMap (comma :: ·) ++ closeBrace :: r)) .after frames r
  | [], _, _, ws, hws => passes_afterStep .object frames hws (by decide) rfl
  | m :: members, ht, hpass, ws, hws => by
    have hdelimited := delimited_flatMap delimited_closeBrace (members.map Member.text) r
    have hmember := passes_member (.object :: frames) (hpass m List.mem_cons_self)
      (ht m List.mem_cons_self) hdelimited
    have hlater := passes_membersEnd frames r members
      (fun j hj => ht j (List.mem_cons_of_mem m hj))
      (fun j hj => hpass j (List.mem_cons_of_mem m hj)) m.item.after_blank
    simp only [List.map_cons, List.flatMap_cons, List.append_assoc, List.cons_append]
    exact (passes_afterStep .object frames hws (by decide) rfl).trans (hmember.trans hlater)

theorem passedOver_word (h : t ∈ [nullWord, trueWord, falseWord]) : PassedOver t := by
  intro frames r _
  simp only [List.mem_cons, List.not_mem_nil, or_false] at h
  rcases h with rfl | rfl | rfl
  · exact passes_scalar frames 0x6E ([0x75, 0x6C, 0x6C] ++ r) (by decide) rfl
      (List.suffix_append _ r).length_le
  · exact passes_scalar frames 0x74 ([0x72, 0x75, 0x65] ++ r) (by decide) rfl
      (List.suffix_append _ r).length_le
  · exact passes_scalar frames 0x66 ([0x61, 0x6C, 0x73, 0x65] ++ r) (by decide) rfl
      (List.suffix_append _ r).length_le

theorem passedOver_number (h : NumberText t) : PassedOver t := by
  intro frames r hr
  rcases h with h | ⟨u, rfl, h⟩
  · have hskip := skipNumber_unsigned h hr
    obtain ⟨b, u, rfl, hb⟩ := unsigned_starts h
    obtain ⟨hspace, hquote, hopen, hbrace, -, hn, ht, hf⟩ := numeral_start (.inr hb)
    have hminus : b ≠ minus := by
      rintro rfl
      cases hb
    rw [List.cons_append] at hskip ⊢
    refine passes_scalar frames b (u ++ r) hspace ?_ (by rw [List.length_append]; omega)
    simp only [skipValueStep, if_neg hopen, if_neg hbrace, if_neg hquote, if_neg hn, if_neg ht,
      if_neg hf, if_neg hminus, if_pos hb, hskip, Except.map]
  · refine passes_scalar frames minus (u ++ r) (by decide) ?_ (by rw [List.length_append]; omega)
    unfold skipValueStep
    simp only [show minus ≠ openBracket by decide, show minus ≠ openBrace by decide,
      show minus ≠ quote by decide, show minus ≠ 0x6E by decide, show minus ≠ 0x74 by decide,
      show minus ≠ 0x66 by decide, if_false, if_true, skipNumber_unsigned h hr, Except.map]

/-- A value between two marks, whose first byte leads the reader from one to behind the other. -/
theorem passes_enclosed {opening closing : UInt8} (hopening : isSpace opening = false)
    (frames : List Frame)
    (hstep : skipValueStep frames opening (t ++ closing :: r) = .ok ⟨.after, frames, r⟩) :
    Passes .value frames (opening :: (t ++ closing :: r)) .after frames r := by
  refine passes_scalar frames opening (t ++ closing :: r) hopening hstep ?_
  simp only [List.length_append, List.length_cons]
  omega

theorem passedOver_enclosed {opening closing : UInt8} (hopening : isSpace opening = false)
    (hstep : ∀ frames r, skipValueStep frames opening (t ++ closing :: r)
      = .ok ⟨.after, frames, r⟩) : PassedOver (opening :: (t ++ [closing])) := by
  intro frames r _
  simp only [List.cons_append, List.append_assoc, List.nil_append]
  exact passes_enclosed hopening frames (hstep frames r)

theorem passedOver_string (h : Inner t) : PassedOver (quote :: (t ++ [quote])) := by
  refine passedOver_enclosed (by decide) fun frames r => ?_
  unfold skipValueStep
  simp only [show quote ≠ openBracket by decide, show quote ≠ openBrace by decide, if_false,
    if_true, skipString_inner h, Except.map]

theorem passedOver_emptyArray (h : Blank t) : PassedOver (openBracket :: (t ++ [closeBracket])) := by
  refine passedOver_enclosed (by decide) fun frames r => ?_
  rw [skipValueStep, skipSpaces_blank_cons h (by decide)]
  rfl

theorem passes_emptyObject (frames : List Frame) (r : Bytes) (h : Blank t) :
    Passes .value frames (openBrace :: (t ++ closeBrace :: r)) .after frames r := by
  refine passes_enclosed (by decide) frames ?_
  rw [skipValueStep, skipSpaces_blank_cons h (by decide)]
  rfl

theorem passedOver_array {items : List Item} (ht : ∀ i ∈ items, ValueText i.value)
    (hpass : ∀ i ∈ items, PassedOver i.value) :
    PassedOver (openBracket :: (separated (items.map Item.text) ++ [closeBracket])) := by
  cases items with
  | nil => exact passedOver_emptyArray blank_nil
  | cons i items =>
    intro frames r _
    have hdelimited := delimited_flatMap delimited_closeBracket (items.map Item.text) r
    have hi := ht i List.mem_cons_self
    have hopen := passes_openArray frames hi.starts i.before_blank
      (i.after ++ ((items.map Item.text).flatMap (comma :: ·) ++ closeBracket :: r))
    have hitem := hpass i List.mem_cons_self (.array :: frames) (i.after_blank.delimited hdelimited)
    have hlater := passes_itemsEnd frames r items (fun j hj => ht j (List.mem_cons_of_mem i hj))
      (fun j hj => hpass j (List.mem_cons_of_mem i hj)) i.after_blank
    simp only [List.map_cons, separated, Item.text, List.append_assoc, List.cons_append,
      List.nil_append]
    exact (hopen.trans hitem).trans hlater

/-- An object is passed over whatever follows it: its closing brace cannot go on. -/
theorem passes_object (frames : List Frame) (r : Bytes) {members : List Member}
    (ht : ∀ m ∈ members, ValueText m.item.value) (hpass : ∀ m ∈ members, PassedOver m.item.value) :
    Passes .value frames (openBrace :: (separated (members.map Member.text) ++ closeBrace :: r))
      .after frames r := by
  cases members with
  | nil => exact passes_emptyObject frames r blank_nil
  | cons m members =>
    have hdelimited := delimited_flatMap delimited_closeBrace (members.map Member.text) r
    -- the white space in front of the first key is passed over with the opening brace
    have hopen := passes_openObject frames m.before_blank
      (m.key ++ quote :: (m.gap ++ colon :: (m.item.text
        ++ ((members.map Member.text).flatMap (comma :: ·) ++ closeBrace :: r))))
    have hkey := passes_key (.object :: frames) blank_nil m.key_inner m.gap_blank
      (m.item.text ++ ((members.map Member.text).flatMap (comma :: ·) ++ closeBrace :: r))
    have hitem := passes_item (.object :: frames) (hpass m List.mem_cons_self)
      (ht m List.mem_cons_self) hdelimited
    have hlater := passes_membersEnd frames r members
      (fun j hj => ht j (List.mem_cons_of_mem m hj))
      (fun j hj => hpass j (List.mem_cons_of_mem m hj)) m.item.after_blank
    simp only [List.map_cons, separated, Member.text, List.append_assoc, List.cons_append,
      List.nil_append] at hkey ⊢
    exact ((hopen.trans hkey).trans hitem).trans hlater

/-- **Every value of the grammar is passed over**, by induction on how it is built. -/
theorem ValueText.passedOver (h : ValueText t) : PassedOver t := by
  induction h with
  | word h => exact passedOver_word h
  | number h => exact passedOver_number h
  | string h => exact passedOver_string h
  | emptyArray h => exact passedOver_emptyArray h
  | array h ih => exact passedOver_array h ih
  | emptyObject h =>
    intro frames r _
    simpa using passes_emptyObject frames r h
  | object h ih =>
    intro frames r _
    simpa using passes_object frames r h ih

/-! ## 4. The run -/

/-- **A value of the grammar is passed over**, with the white space in front of it, if what follows
does not go on a number. -/
theorem skip_value {limit : Nat} (h : ValueAt s r) (hr : Delimited r) (hl : s.length < limit) :
    skip limit s = .ok ((), r) := by
  obtain ⟨ws, t, hws, ht, rfl⟩ := h
  have hpass : Passes .value [] (ws ++ (t ++ r)) .after [] r :=
    ht.passedOver.behind ht.starts hws hr
  obtain ⟨limit', -, heq⟩ := hpass limit hl
  rw [skip, heq, skipFrom]
  rfl

/-- **An object of the grammar is passed over**, whatever follows it. -/
theorem skip_object {limit : Nat} {members : List Member}
    (h : ∀ m ∈ members, ValueText m.item.value) (r : Bytes)
    (hl : (openBrace :: (separated (members.map Member.text) ++ closeBrace :: r)).length < limit) :
    skip limit (openBrace :: (separated (members.map Member.text) ++ closeBrace :: r))
      = .ok ((), r) := by
  obtain ⟨limit', -, heq⟩ := passes_object [] r h (fun m hm => (h m hm).passedOver) limit hl
  rw [skip, heq, skipFrom]
  rfl

end MeshNode.Json
