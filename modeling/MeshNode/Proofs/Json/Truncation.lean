/-
# Values: texts that end too early

A written value that is cut off is told from every other wrong text: what is left of it is a value
that still goes on.  Only a number can be cut so that a number is left, and then nothing is left
behind it; an array or an object around it asks for more all the same.

* `TakenWhole` says this of a reader and a text, `Unfinished` what it comes to where no cut leaves a
  value;
* `TakenWhole.cut`: a reader in front of a text that goes on, cut anywhere;
* `items_unfinished` and `members_unfinished`: arrays and objects, by induction over their parts;
* `value_takenWhole`: every value, by induction over it.
-/
import MeshNode.Proofs.Json.RoundTrip

namespace MeshNode.Json

open Token

variable {α β σ : Type} {text tail p : Bytes} {read : Reader α}

/-- Whatever is left of `text` when it is cut, the reader asks for more. -/
def Unfinished (read : Reader α) (text : Bytes) : Prop :=
  ∀ ⦃limit p⦄, p <+: text → p ≠ text → p.length < limit → read limit p = .error .endOfText

/-- The reader takes all of `text` in front of what follows it, and of what is left of it when it
is cut it takes all or asks for more. -/
structure TakenWhole (read : Reader α) (text : Bytes) : Prop where
  whole : ∃ a, Yields read text (.ok a)
  part : ∀ ⦃limit p⦄, p <+: text → p.length < limit →
    read limit p = .error .endOfText ∨ ∃ a, read limit p = .ok (a, [])

/-- A text in two parts is cut in the first one or behind it. -/
theorem prefix_append_cases (h : p <+: text ++ tail) :
    p <+: text ∨ ∃ q, p = text ++ q ∧ q <+: tail := by
  rcases List.prefix_or_prefix_of_prefix h (List.prefix_append text tail) with hp | ⟨q, rfl⟩
  · exact .inl hp
  · exact .inr ⟨q, rfl, (List.prefix_append_right_inj text).mp h⟩

theorem prefix_singleton {b : UInt8} (h : p <+: [b]) : p = [] ∨ p = [b] := by
  rcases List.prefix_cons_iff.mp h with rfl | ⟨q, rfl, hq⟩
  · exact .inl rfl
  · rw [List.prefix_nil.mp hq]
    exact .inr rfl

/-- A text that is read when it is whole, and that no cut finishes early. -/
theorem Unfinished.takenWhole {a : α} (h : Unfinished read text) (hy : Yields read text (.ok a)) :
    TakenWhole read text := by
  refine ⟨⟨a, hy⟩, fun limit p hp hl => ?_⟩
  by_cases hwhole : p = text
  · subst hwhole
    exact .inr ⟨a, hy.alone hl⟩
  · exact .inl (h hp hwhole hl)

theorem Delimited.of_prefix (h : Delimited text) (hp : p <+: text) : Delimited p := by
  cases p with
  | nil => nofun
  | cons b p =>
    obtain ⟨r, rfl⟩ := hp
    exact h

/-- **A text that goes on, cut anywhere**: the reader of its first part asks for more, or it leaves
what is there of the rest. -/
theorem TakenWhole.cut {limit : Nat} (h : TakenWhole read text) (htail : tail ≠ [])
    (hd : Delimited tail) (hp : p <+: text ++ tail) (hne : p ≠ text ++ tail)
    (hl : p.length < limit) :
    read limit p = .error .endOfText ∨
      ∃ a q, read limit p = .ok (a, q) ∧ q <+: tail ∧ q ≠ tail ∧ q.length ≤ p.length := by
  rcases prefix_append_cases hp with hfirst | ⟨q, rfl, hq⟩
  · rcases h.part hfirst hl with hmore | ⟨a, ha⟩
    · exact .inl hmore
    · exact .inr ⟨a, [], ha, List.nil_prefix, htail.symm, Nat.zero_le _⟩
  · obtain ⟨a, hy⟩ := h.whole
    refine .inr ⟨a, q, hy limit q (hd.of_prefix hq) hl, hq, ?_, by simp⟩
    rintro rfl
    exact hne rfl

/-! ## 1. Words, strings and numbers -/

theorem expectWord_cut : ∀ {word p : Bytes}, p <+: word → p ≠ word →
    expectWord word p = .error .endOfText
  | [], _, hp, hne => absurd (List.prefix_nil.mp hp) hne
  | _ :: _, [], _, _ => rfl
  | w :: word, b :: p, hp, hne => by
    obtain ⟨rfl, hrest⟩ := List.cons_prefix_cons.mp hp
    rw [expectWord, if_pos rfl]
    exact expectWord_cut hrest fun h => hne (by rw [h])

theorem hexUnit_short {s : Bytes} (h : s.length < 4) : hexUnit s = .error .endOfText := by
  match s, h with
  | [], _ | [_], _ | [_, _], _ | [_, _, _], _ => rfl

/-- An escape that is written is a letter, or a `u` with four digits behind it. -/
theorem escape_forms {c : Char} {esc : Bytes} (h : Literal.charBytes c = backslash :: esc) :
    (∃ b, esc = [b]) ∨ ∃ digits, esc = letterU :: digits ∧ digits.length = 4 := by
  unfold Literal.charBytes at h
  dsimp only at h
  by_cases hq : c = '"'
  · rw [if_pos hq] at h
    exact .inl ⟨quote, (List.cons.inj h).2.symm⟩
  by_cases hb : c = '\\'
  · rw [if_neg hq, if_pos hb] at h
    exact .inl ⟨backslash, (List.cons.inj h).2.symm⟩
  rw [if_neg hq, if_neg hb] at h
  by_cases hn : c.toNat < 0x20
  · rw [if_pos hn] at h
    split at h
    · exact .inl ⟨0x62, (List.cons.inj h).2.symm⟩
    split at h
    · exact .inl ⟨0x74, (List.cons.inj h).2.symm⟩
    split at h
    · exact .inl ⟨0x6E, (List.cons.inj h).2.symm⟩
    split at h
    · exact .inl ⟨0x66, (List.cons.inj h).2.symm⟩
    split at h
    · exact .inl ⟨0x72, (List.cons.inj h).2.symm⟩
    · exact .inr ⟨_, (List.cons.inj h).2.symm, rfl⟩
  · rw [if_neg hn] at h
    -- the bytes of a character that needs no escape do not begin with a backslash
    have hplain := plain_encodeChar (c := c) (by omega) (fun h => hq (Char.toNat_inj.mp h))
      (fun h => hb (Char.toNat_inj.mp h)) backslash (by rw [h]; exact List.mem_cons_self)
    exact absurd rfl hplain.2.1

theorem escapeBytes_cut {c : Char} {esc : Bytes} (h : Literal.charBytes c = backslash :: esc)
    (hp : p <+: esc) (hne : p ≠ esc) : escapeBytes p = .error .endOfText := by
  cases p with
  | nil => rfl
  | cons b p =>
    rcases escape_forms h with ⟨e, rfl⟩ | ⟨digits, rfl, hdigits⟩
    · rcases prefix_singleton hp with hnil | hwhole
      · cases hnil
      · exact absurd hwhole hne
    · obtain ⟨rfl, hrest⟩ := List.cons_prefix_cons.mp hp
      have hshort : p.length < 4 := by
        refine hdigits ▸ Nat.lt_of_le_of_ne hrest.length_le fun hlength => ?_
        exact hne (by rw [hrest.eq_of_length hlength])
      rw [escapeBytes, if_pos rfl, numberedChar, hexUnit_short hshort]
      rfl

theorem literalBytes_nil (acc : Bytes) (limit : Nat) :
    literalBytes acc limit [] = .error .endOfText := by
  cases limit <;> rfl

/-- Bytes that stand for themselves close no string. -/
theorem literalBytes_unclosed (hplain : ∀ b ∈ p, Plain b) (acc : Bytes) {limit : Nat}
    (hl : p.length < limit) : literalBytes acc limit p = .error .endOfText := by
  have hround := literalBytes_plain p acc (limit - p.length) [] hplain
  rw [Nat.sub_add_cancel (Nat.le_of_lt hl), List.append_nil, literalBytes_nil] at hround
  exact hround

theorem literalBytes_charBytes_cut {c : Char} (hp : p <+: Literal.charBytes c)
    (hne : p ≠ Literal.charBytes c) (acc : Bytes) {limit : Nat} (hl : p.length < limit) :
    literalBytes acc limit p = .error .endOfText := by
  rcases charBytes_cases c with ⟨he, hplain⟩ | ⟨esc, he, -⟩
  · rw [he] at hp
    exact literalBytes_unclosed (fun b hb => hplain b (hp.subset hb)) acc hl
  · have hform := he
    rw [he] at hp hne
    rcases List.prefix_cons_iff.mp hp with rfl | ⟨q, rfl, hq⟩
    · exact literalBytes_nil acc limit
    · obtain ⟨limit, rfl⟩ : ∃ l, limit = l + 1 := ⟨limit - 1, by omega⟩
      have hmore := escapeBytes_cut hform hq fun h => hne (by rw [h])
      rw [literalBytes, if_neg (by decide), if_pos rfl, hmore]

/-- **A string without its closing mark** asks for more, wherever it is cut. -/
theorem literalBytes_cut : ∀ {cs : List Char} {acc p : Bytes} {limit : Nat},
    p <+: Literal.inner cs → p.length < limit → literalBytes acc limit p = .error .endOfText
  | [], acc, p, limit, hp, _ => by
    rw [List.prefix_nil.mp hp]
    exact literalBytes_nil acc limit
  | c :: cs, acc, p, limit, hp, hl => by
    have hinner : Literal.inner (c :: cs) = Literal.charBytes c ++ Literal.inner cs := by
      simp [Literal.inner]
    rw [hinner] at hp
    rcases prefix_append_cases hp with hfirst | ⟨q, rfl, hq⟩
    · by_cases hwhole : p = Literal.charBytes c
      · subst hwhole
        have hwhole : (Literal.charBytes c ++ []).length < limit := by simpa using hl
        obtain ⟨limit', hl', heq⟩ := literalBytes_charBytes c acc hwhole
        rw [List.append_nil] at heq
        rw [heq, literalBytes_nil]
      · exact literalBytes_charBytes_cut hfirst hwhole acc hl
    · obtain ⟨limit', hl', heq⟩ := literalBytes_charBytes c acc hl
      rw [heq]
      exact literalBytes_cut hq hl'

theorem literal_cut {cs : List Char} {limit : Nat} (hp : p <+: Literal.inner cs)
    (hl : p.length < limit) : literal limit p = .error .endOfText := by
  rw [literal, literalBytes_cut hp hl]

/-- A number that is cut behind its first digit is a smaller number. -/
theorem natBytes_prefix (n : Nat) : ∀ p, p <+: natBytes n →
    p = [] ∨ p = natBytes n ∨ ∃ m, 0 < m ∧ m < n ∧ p = natBytes m := by
  refine natBytes_induction
    (P := fun n bs => ∀ p, p <+: bs → p = [] ∨ p = bs ∨ ∃ m, 0 < m ∧ m < n ∧ p = natBytes m)
    ?one ?more n
  case one =>
    intro d _ p hp
    rcases prefix_singleton hp with hnil | hwhole
    · exact .inl hnil
    · exact .inr (.inl hwhole)
  case more =>
    intro n d hn _ ih p hp
    rcases List.prefix_concat_iff.mp hp with hwhole | hp
    · exact .inr (.inl hwhole)
    rcases ih p hp with hnil | hdigits | ⟨m, hm, hmn, hdigits⟩
    · exact .inl hnil
    · exact .inr (.inr ⟨n, hn, by omega, hdigits⟩)
    · exact .inr (.inr ⟨m, hm, by omega, hdigits⟩)

/-- What is left of a whole number: nothing, its sign, or a whole number. -/
theorem intBytes_prefix {n : Int} (hn : isWord n = true) (hp : p <+: intBytes n) :
    p = [] ∨ p = [minus] ∨ ∃ k, isWord k = true ∧ p = intBytes k := by
  have hword := hn
  simp only [isWord, Bool.and_eq_true, decide_eq_true_eq] at hn
  by_cases hneg : n < 0
  · have htext := hp
    rw [intBytes_of_neg hneg] at htext
    rcases List.prefix_cons_iff.mp htext with rfl | ⟨q, rfl, hq⟩
    · exact .inl rfl
    rcases natBytes_prefix _ q hq with rfl | rfl | ⟨m, hm, hmn, rfl⟩
    · exact .inr (.inl rfl)
    · exact .inr (.inr ⟨n, hword, (intBytes_of_neg hneg).symm⟩)
    · refine .inr (.inr ⟨-m, ?_, ?_⟩)
      · simp only [isWord, Bool.and_eq_true, decide_eq_true_eq]
        omega
      · rw [intBytes_of_neg (by omega), Int.natAbs_neg, Int.natAbs_natCast]
  · have htext := hp
    rw [intBytes_of_nonneg (by omega)] at htext
    rcases natBytes_prefix _ p htext with rfl | rfl | ⟨m, hm, hmn, rfl⟩
    · exact .inl rfl
    · exact .inr (.inr ⟨n, hword, (intBytes_of_nonneg (by omega)).symm⟩)
    · refine .inr (.inr ⟨m, ?_, ?_⟩)
      · simp only [isWord, Bool.and_eq_true, decide_eq_true_eq]
        omega
      · rw [intBytes_of_nonneg (by omega), Int.toNat_natCast]

/-! ## 2. Scalars -/

theorem value_nil (budget limit : Nat) : value budget limit [] = .error .endOfText := by
  cases budget <;> rfl

/-- The first letter of a word decides which word must follow. -/
theorem value_word {word : Bytes} (hword : word ∈ [nullWord, trueWord, falseWord]) :
    ∃ v, ∀ (budget limit : Nat) (b : UInt8) (rest : Bytes), b ∈ word.head? →
      value budget limit (b :: rest) = (expectWord word (b :: rest)).map fun s => (v, s) := by
  simp only [List.mem_cons, List.not_mem_nil, or_false] at hword
  rcases hword with rfl | rfl | rfl
  case' inl => refine ⟨.null, fun budget limit b rest hb => ?_⟩
  case' inr.inl => refine ⟨.bool true, fun budget limit b rest hb => ?_⟩
  case' inr.inr => refine ⟨.bool false, fun budget limit b rest hb => ?_⟩
  all_goals
    cases hb
    rw [value_of_scalar budget limit (by decide) (by decide) (by decide)]
  case inl =>
    have hfound : found limit (0x6E :: rest)
        = (expectWord nullWord (0x6E :: rest)).map fun s => (.null, s) := rfl
    rw [scalar, hfound]
    cases expectWord nullWord (0x6E :: rest) <;> rfl
  case inr.inl =>
    have hfound : found limit (0x74 :: rest)
        = (expectWord trueWord (0x74 :: rest)).map fun s => (.bool true, s) := rfl
    rw [scalar, hfound]
    cases expectWord trueWord (0x74 :: rest) <;> rfl
  case inr.inr =>
    have hfound : found limit (0x66 :: rest)
        = (expectWord falseWord (0x66 :: rest)).map fun s => (.bool false, s) := rfl
    rw [scalar, hfound]
    cases expectWord falseWord (0x66 :: rest) <;> rfl

/-- A word that is cut. -/
theorem word_unfinished {word : Bytes} (hword : word ∈ [nullWord, trueWord, falseWord])
    (budget : Nat) : Unfinished (value budget) word := by
  intro limit p hp hne _
  cases p with
  | nil => exact value_nil budget limit
  | cons b p =>
    have hb : b ∈ word.head? := by
      obtain ⟨r, rfl⟩ := hp
      rfl
    obtain ⟨v, hv⟩ := value_word hword
    rw [hv budget limit b p hb, expectWord_cut hp hne]
    rfl

/-- A string that is cut. -/
theorem str_unfinished (budget : Nat) (s : String) :
    Unfinished (value budget) (write (.str s)) := by
  intro limit p hp hne hl
  rw [write_str, Literal.bytes] at hp hne
  rcases List.prefix_cons_iff.mp hp with rfl | ⟨q, rfl, hq⟩
  · exact value_nil budget limit
  have hinner : q <+: Literal.inner s.toList := by
    rcases List.prefix_concat_iff.mp hq with hwhole | hinner
    · exact absurd (by rw [hwhole]) hne
    · exact hinner
  rw [List.length_cons] at hl
  rw [value_of_scalar budget limit (by decide) (by decide) (by decide), scalar, found,
    skipSpaces_cons (by decide)]
  dsimp only
  rw [if_pos rfl, literal_cut hinner (by omega)]
  rfl

/-- A whole number that is cut: a smaller one, if a digit is left of it. -/
theorem int_takenWhole (budget : Nat) {n : Int} (hn : isWord n = true) :
    TakenWhole (value budget) (write (.int n)) := by
  refine ⟨⟨.int n, int_yields budget hn⟩, fun limit p hp hl => ?_⟩
  rw [write_int] at hp
  rcases intBytes_prefix hn hp with rfl | rfl | ⟨k, hk, rfl⟩
  · exact .inl (value_nil budget limit)
  · rw [value_of_scalar budget limit (by decide) (by decide) (by decide)]
    exact .inl rfl
  · rw [← write_int] at hl ⊢
    exact .inr ⟨.int k, (int_yields budget hk).alone hl⟩

/-! ## 3. Arrays -/

/-- What is left of a text that can be told from white space can be told from it too. -/
theorem Starts.of_prefix (h : Starts text) (hp : p <+: text) (hne : p ≠ []) : Starts p := by
  obtain ⟨b, rest, rfl, hb, hc⟩ := h
  rcases List.prefix_cons_iff.mp hp with rfl | ⟨q, rfl, -⟩
  · exact absurd rfl hne
  · exact ⟨b, q, rfl, hb, hc⟩

theorem Starts.append (h : Starts text) (r : Bytes) : Starts (text ++ r) := by
  obtain ⟨b, rest, rfl, hb, hc⟩ := h
  exact ⟨b, rest ++ r, rfl, hb, hc⟩

variable {item : Reader α} {content : β → Bytes} {limit rounds : Nat}

theorem itemsFrom_nil (item : Reader α) (limit : Nat) (rounds : Nat) (first : Bool) (acc : List α) :
    itemsFrom item limit rounds first acc [] = .error .endOfText := by
  cases rounds <;> rfl

/-- An item in front of the rest of an array, cut anywhere: the loop asks for more in the item, or
in what is there of the rest. -/
theorem itemsFrom_cut {first : Bool} {s : Bytes} {acc : List α} (hitem : TakenWhole item text)
    (htail : tail ≠ []) (hd : Delimited tail) (hp : p <+: text ++ tail) (hne : p ≠ text ++ tail)
    (hl : p.length < limit)
    (hnext : nextItem first s = .error .endOfText ∨ nextItem first s = .ok (some p))
    (hlater : ∀ acc q, q <+: tail → q ≠ tail → q.length < limit →
      itemsFrom item limit rounds false acc q = .error .endOfText) :
    itemsFrom item limit (rounds + 1) first acc s = .error .endOfText := by
  rw [itemsFrom, optionalItem]
  rcases hnext with hnext | hnext
  · rw [hnext]
  · rw [hnext]
    dsimp only
    rcases hitem.cut htail hd hp hne hl with hmore | ⟨a, q, hread, hq, hqne, hlength⟩
    · rw [hmore]
    · rw [hread]
      exact hlater (a :: acc) q hq hqne (Nat.lt_of_le_of_lt hlength hl)

theorem nextItem_first_cut (h : Starts text) (hp : p <+: text) :
    nextItem true p = .error .endOfText ∨ nextItem true p = .ok (some p) := by
  by_cases hnil : p = []
  · subst hnil
    exact .inl rfl
  · have hnext := nextItem_first (h.of_prefix hp hnil) []
    rw [List.append_nil] at hnext
    exact .inr hnext

theorem nextItem_later_cut (h : Starts text) (hp : p <+: text) :
    nextItem false (comma :: p) = .error .endOfText ∨
      nextItem false (comma :: p) = .ok (some p) := by
  by_cases hnil : p = []
  · subst hnil
    exact .inl rfl
  · have hnext := nextItem_later (h.of_prefix hp hnil) []
    rw [List.append_nil] at hnext
    exact .inr hnext

theorem flatMap_close_ne_nil (close : UInt8) (ts : List Bytes) :
    ts.flatMap (comma :: ·) ++ [close] ≠ [] := by simp

/-- The items behind the first one, cut in front of the closing bracket or earlier. -/
theorem itemsFrom_later_cut (limit : Nat) : ∀ {vs : List β} {rounds : Nat} {acc : List α}
    {p : Bytes},
    (∀ v ∈ vs, TakenWhole item (content v)) → (∀ v ∈ vs, Starts (content v)) →
    p <+: (vs.map content).flatMap (comma :: ·) ++ [closeBracket] →
    p ≠ (vs.map content).flatMap (comma :: ·) ++ [closeBracket] → p.length < limit →
    itemsFrom item limit rounds false acc p = .error .endOfText
  | _, 0, _, _, _, _, _, _, _ => rfl
  | [], rounds + 1, acc, p, _, _, hp, hne, _ => by
    rcases prefix_singleton hp with rfl | rfl
    · exact itemsFrom_nil item limit _ false acc
    · exact absurd rfl hne
  | v :: vs, rounds + 1, acc, p, hitems, hs, hp, hne, hl => by
    simp only [List.map_cons, List.flatMap_cons, List.append_assoc, List.cons_append] at hp hne
    rcases List.prefix_cons_iff.mp hp with rfl | ⟨q, rfl, hq⟩
    · exact itemsFrom_nil item limit _ false acc
    have hd := delimited_flatMap delimited_closeBracket (vs.map content) []
    have hnext := nextItem_later_cut ((hs v List.mem_cons_self).append _) hq
    rw [List.length_cons] at hl
    refine itemsFrom_cut (hitems v List.mem_cons_self) (flatMap_close_ne_nil _ _) hd hq
      (fun h => hne (by rw [h])) (by omega) hnext fun acc r hr hrne hrl => ?_
    exact itemsFrom_later_cut limit (fun w hw => hitems w (List.mem_cons_of_mem v hw))
      (fun w hw => hs w (List.mem_cons_of_mem v hw)) hr hrne hrl

/-- **An array of written items that is cut** asks for more. -/
theorem items_unfinished {vs : List β} (hitems : ∀ v ∈ vs, TakenWhole item (content v))
    (hs : ∀ v ∈ vs, Starts (content v)) :
    Unfinished (items item) (separated (vs.map content) ++ [closeBracket]) := by
  intro limit p hp hne hl
  obtain ⟨rounds, rfl⟩ : ∃ rounds, limit = rounds + 1 := ⟨limit - 1, by omega⟩
  rw [items]
  cases vs with
  | nil =>
    rcases prefix_singleton hp with rfl | rfl
    · exact itemsFrom_nil item _ _ true []
    · exact absurd rfl hne
  | cons v vs =>
    rw [List.map_cons, separated, List.append_assoc] at hp hne
    have hd := delimited_flatMap delimited_closeBracket (vs.map content) []
    have hnext := nextItem_first_cut ((hs v List.mem_cons_self).append _) hp
    refine itemsFrom_cut (hitems v List.mem_cons_self) (flatMap_close_ne_nil _ _) hd hp hne hl hnext
      fun acc q hq hqne hql => ?_
    exact itemsFrom_later_cut (rounds + 1) (fun w hw => hitems w (List.mem_cons_of_mem v hw))
      (fun w hw => hs w (List.mem_cons_of_mem v hw)) hq hqne hql

/-! ## 4. Objects -/

/-- The value of a member, cut anywhere behind the key. -/
theorem TakenWhole.memberValue {value : Reader α} (h : TakenWhole value text) :
    TakenWhole (memberValue value) (colon :: text) := by
  obtain ⟨a, hy⟩ := h.whole
  refine ⟨⟨a, hy.memberValue⟩, fun limit p hp hl => ?_⟩
  rw [Json.memberValue]
  rcases List.prefix_cons_iff.mp hp with rfl | ⟨q, rfl, hq⟩
  · exact .inl rfl
  · rw [List.length_cons] at hl
    rw [skipColon_colon]
    exact h.part hq (by omega)

/-- What was made of what was taken does not change how much was taken. -/
theorem TakenWhole.map (f : α → β) (h : TakenWhole read text) :
    TakenWhole (fun limit s => (read limit s).map fun (a, s) => (f a, s)) text := by
  obtain ⟨a, hy⟩ := h.whole
  refine ⟨⟨f a, fun limit r hr hl => ?_⟩, fun limit p hp hl => ?_⟩
  · dsimp only
    rw [hy limit r hr hl]
    rfl
  · dsimp only
    rcases h.part hp hl with hmore | ⟨b, hb⟩
    · rw [hmore]
      exact .inl rfl
    · rw [hb]
      exact .inr ⟨f b, rfl⟩

theorem membersFrom_nil (member : String → σ → Reader σ) (limit rounds : Nat) (first : Bool)
    (state : σ) : membersFrom member limit rounds first state [] = .error .endOfText := by
  cases rounds <;> rfl

variable {member : String → σ → Reader σ} {key : β → String}

/-- A member in front of the rest of an object, cut anywhere: the loop asks for more in the key, in
the value, or in what is there of the rest. -/
theorem membersFrom_cut {name : String} {state : σ} {first : Bool} {s : Bytes}
    (hmember : TakenWhole (member name state) text) (htail : tail ≠ []) (hd : Delimited tail)
    (hnext : nextKey first s = .error .endOfText ∨
      ∃ p, p <+: Literal.inner name.toList ++ quote :: (text ++ tail) ∧
        p ≠ Literal.inner name.toList ++ quote :: (text ++ tail) ∧ p.length < limit ∧
        nextKey first s = .ok (.inl p))
    (hlater : ∀ state q, q <+: tail → q ≠ tail → q.length < limit →
      membersFrom member limit rounds false state q = .error .endOfText) :
    membersFrom member limit (rounds + 1) first state s = .error .endOfText := by
  rw [membersFrom]
  rcases hnext with hnext | ⟨p, hp, hne, hl, hnext⟩
  · rw [hnext]
  rw [hnext]
  dsimp only
  rcases prefix_append_cases hp with hkey | ⟨q, rfl, hq⟩
  · rw [literal_cut hkey hl]
  rcases List.prefix_cons_iff.mp hq with rfl | ⟨r, rfl, hr⟩
  · rw [List.append_nil] at hl ⊢
    rw [literal_cut (List.prefix_refl _) hl]
  rw [literal_inner name hl]
  dsimp only
  have hrl : r.length < limit := by
    rw [List.length_append, List.length_cons] at hl
    omega
  have hrne : r ≠ text ++ tail := fun h => hne (by rw [h])
  rcases hmember.cut htail hd hr hrne hrl with hmore | ⟨state', q, hread, hq, hqne, hlength⟩
  · rw [hmore]
  · rw [hread]
    exact hlater state' q hq hqne (Nat.lt_of_le_of_lt hlength hrl)

/-- What is left of a text that begins with a key. -/
theorem nextKey_first_cut (hp : p <+: quote :: text) (hne : p ≠ quote :: text)
    (hl : p.length < limit) : nextKey true p = .error .endOfText ∨
      ∃ q, q <+: text ∧ q ≠ text ∧ q.length < limit ∧ nextKey true p = .ok (.inl q) := by
  rcases List.prefix_cons_iff.mp hp with rfl | ⟨q, rfl, hq⟩
  · exact .inl rfl
  · rw [List.length_cons] at hl
    exact .inr ⟨q, hq, fun h => hne (by rw [h]), by omega, nextKey_first q⟩

theorem nextKey_later_cut (hp : p <+: comma :: quote :: text) (hne : p ≠ comma :: quote :: text)
    (hl : p.length < limit) : nextKey false p = .error .endOfText ∨
      ∃ q, q <+: text ∧ q ≠ text ∧ q.length < limit ∧ nextKey false p = .ok (.inl q) := by
  rcases List.prefix_cons_iff.mp hp with rfl | ⟨q, rfl, hq⟩
  · exact .inl rfl
  rcases List.prefix_cons_iff.mp hq with rfl | ⟨r, rfl, hr⟩
  · exact .inl rfl
  · rw [List.length_cons, List.length_cons] at hl
    exact .inr ⟨r, hr, fun h => hne (by rw [h]), by omega, nextKey_later r⟩

/-- The members behind the first one, cut in front of the closing brace or earlier. -/
theorem membersFrom_later_cut (limit : Nat) : ∀ {ms : List β} {rounds : Nat} {state : σ}
    {p : Bytes},
    (∀ m ∈ ms, ∀ st, TakenWhole (member (key m) st) (colon :: content m)) →
    p <+: (ms.map fun m => memberText (key m) (content m)).flatMap (comma :: ·) ++ [closeBrace] →
    p ≠ (ms.map fun m => memberText (key m) (content m)).flatMap (comma :: ·) ++ [closeBrace] →
    p.length < limit → membersFrom member limit rounds false state p = .error .endOfText
  | _, 0, _, _, _, _, _, _ => rfl
  | [], rounds + 1, state, p, _, hp, hne, _ => by
    rcases prefix_singleton hp with rfl | rfl
    · exact membersFrom_nil member limit _ false state
    · exact absurd rfl hne
  | m :: ms, rounds + 1, state, p, hmembers, hp, hne, hl => by
    simp only [List.map_cons, List.flatMap_cons, List.append_assoc, List.cons_append,
      memberText_append] at hp hne
    have hd := delimited_flatMap delimited_closeBrace
      (ms.map fun m => memberText (key m) (content m)) []
    refine membersFrom_cut (hmembers m List.mem_cons_self state) (flatMap_close_ne_nil _ _) hd
      (nextKey_later_cut hp hne hl) fun st q hq hqne hql => ?_
    exact membersFrom_later_cut limit (fun x hx => hmembers x (List.mem_cons_of_mem m hx))
      hq hqne hql

/-- **An object of written members that is cut** asks for more. -/
theorem members_unfinished {ms : List β}
    (hmembers : ∀ m ∈ ms, ∀ st, TakenWhole (member (key m) st) (colon :: content m)) (state : σ) :
    Unfinished (members member state)
      (separated (ms.map fun m => memberText (key m) (content m)) ++ [closeBrace]) := by
  intro limit p hp hne hl
  obtain ⟨rounds, rfl⟩ : ∃ rounds, limit = rounds + 1 := ⟨limit - 1, by omega⟩
  rw [members]
  cases ms with
  | nil =>
    rcases prefix_singleton hp with rfl | rfl
    · exact membersFrom_nil member _ _ true state
    · exact absurd rfl hne
  | cons m ms =>
    rw [List.map_cons, separated, List.append_assoc, memberText_append] at hp hne
    have hd := delimited_flatMap delimited_closeBrace
      (ms.map fun m => memberText (key m) (content m)) []
    refine membersFrom_cut (hmembers m List.mem_cons_self state) (flatMap_close_ne_nil _ _) hd
      (nextKey_first_cut hp hne hl) fun st q hq hqne hql => ?_
    exact membersFrom_later_cut (rounds + 1) (fun x hx => hmembers x (List.mem_cons_of_mem m hx))
      hq hqne hql

/-! ## 5. All values -/

/-- A container behind its opening mark. -/
theorem Unfinished.opened {opening : UInt8} {inside : Reader σ} (h : Unfinished inside text)
    (hnil : ∀ limit, read limit [] = .error .endOfText)
    (hopen : ∀ limit p, p <+: text → inside limit p = .error .endOfText →
      read limit (opening :: p) = .error .endOfText) :
    Unfinished read (opening :: text) := by
  intro limit p hp hne hl
  rcases List.prefix_cons_iff.mp hp with rfl | ⟨q, rfl, hq⟩
  · exact hnil limit
  · rw [List.length_cons] at hl
    exact hopen limit q hq (h hq (fun heq => hne (by rw [heq])) (by omega))

theorem arr_takenWhole {budget : Nat} {vs : List Json} {v : Json}
    (hf : ∀ v ∈ vs, v.floatFree = true)
    (hy : Yields (value (budget + 1)) (write (.arr vs)) (.ok v))
    (ih : ∀ v ∈ vs, TakenWhole (value budget) (write v)) :
    TakenWhole (value (budget + 1)) (write (.arr vs)) := by
  refine Unfinished.takenWhole ?_ hy
  rw [write_arr]
  refine (items_unfinished ih fun v hv => starts_write v (hf v hv)).opened (fun _ => rfl)
    fun limit p _ hmore => ?_
  rw [value_array, hmore]
  rfl

/-- The first key of an object that is cut is cut as well, or it is the one that was written. -/
theorem rawKey?_of_front {limit limit' : Nat} {s : Bytes} (h : rawKey? limit s = none)
    (hl : s.length < limit) (hp : p <+: s) : rawKey? limit' p = none := by
  cases hkey : rawKey? limit' p with
  | none => rfl
  | some p' =>
    obtain ⟨r, rfl⟩ := hp
    obtain ⟨ws, t, hws, hspells, rfl⟩ := eq_of_rawKey? hkey
    simp only [List.append_assoc, List.cons_append] at h hl
    rw [rawKey?_spelled hws hspells.inner (by rw [List.length_append, List.length_cons] at hl; omega),
      hspells.spelled] at h
    dsimp only at h
    rw [isMark_iff.mpr rfl, cond_true] at h
    cases h

theorem obj_takenWhole {budget : Nat} {ms : List (String × Json)} {v : Json}
    (hmark : marked ms = false) (hy : Yields (value (budget + 1)) (write (.obj ms)) (.ok v))
    (ih : ∀ m ∈ ms, TakenWhole (value budget) (write m.2)) :
    TakenWhole (value (budget + 1)) (write (.obj ms)) := by
  refine Unfinished.takenWhole ?_ hy
  have hkey := rawKey?_of_unmarked (r := []) hmark (Nat.lt_succ_self _)
  rw [write_obj]
  rw [memberTexts] at hkey ⊢
  have hentry : ∀ m ∈ ms, ∀ entries,
      TakenWhole (entryWith (value budget) m.1 entries) (colon :: write m.2) := fun m hm entries =>
    (ih m hm).memberValue.map fun v => Dictionary.insert m.1 v entries
  refine (members_unfinished hentry []).opened (fun _ => rfl) fun limit p hp hmore => ?_
  rw [value_object (rawKey?_of_front hkey (Nat.lt_succ_self _) hp), hmore]
  rfl

/-- **A written value that is cut** leaves nothing behind a value, or asks for more, if no object in
it begins with the mark. -/
theorem value_takenWhole (v : Json) : v.floatFree = true → v.rawFree = true →
    ∀ budget, v.depth ≤ budget → TakenWhole (value budget) (write v) := by
  induction v using induction with
  | null =>
    intro _ _ budget _
    rw [write_null]
    exact (word_unfinished (by simp) budget).takenWhole (write_null ▸ null_yields budget)
  | bool b =>
    intro _ _ budget _
    refine Unfinished.takenWhole ?_ (bool_yields budget b)
    rw [write_bool]
    exact word_unfinished (by cases b <;> simp) budget
  | int n => exact fun hf _ budget _ => int_takenWhole budget hf
  | float x => exact fun hf => absurd hf (by simp [floatFree])
  | str s => exact fun _ _ budget _ => (str_unfinished budget s).takenWhole (str_yields budget s)
  | arr vs ih =>
    intro hf hm budget hd
    have hy := value_yields (.arr vs) hf budget
    rw [reread_of_rawFree _ hf hm, if_pos hd] at hy
    obtain ⟨budget, rfl⟩ : ∃ b, budget = b + 1 := ⟨budget - 1, by rw [depth] at hd; omega⟩
    exact arr_takenWhole (floatFree_arr.mp hf) hy fun v hv =>
      ih v hv (floatFree_arr.mp hf v hv) (rawFree_arr.mp hm v hv) budget (depth_arr_le.mp hd v hv)
  | obj ms ih =>
    intro hf hm budget hd
    have hy := value_yields (.obj ms) hf budget
    rw [reread_of_rawFree _ hf hm, if_pos hd] at hy
    obtain ⟨budget, rfl⟩ : ∃ b, budget = b + 1 := ⟨budget - 1, by rw [depth] at hd; omega⟩
    obtain ⟨hmark, hfree⟩ := rawFree_obj.mp hm
    exact obj_takenWhole hmark hy fun m hm =>
      ih m hm (floatFree_obj.mp hf m hm) (hfree m hm) budget (depth_obj_le.mp hd m hm)

end MeshNode.Json
