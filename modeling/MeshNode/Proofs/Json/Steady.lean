/-
# Values: one text, one outcome

What a reader makes of a value of the grammar depends on the text of the value alone: neither the
white space in front of it, nor what follows it, nor the bound on the loops changes the outcome, be
it a value or a refusal.

* `outcome` is what a reader makes of a text that stands alone, `Steady` says that it is so
  everywhere;
* `ArrayText` and `ObjectText`: the texts of containers, with their items and members;
* `ValueText.kinds`: which kinds of values there are, told apart by the first byte;
* `unexpected_yields` and `steady_of_marks`: readers that expect one kind of value, and first of all
  `text_steady`;
* `items_spaced` and `members_spaced`: the inside of arrays and objects;
* `value_steady`: so a value of any shape comes to the same wherever it stands.
-/
import MeshNode.Proofs.Json.Codec
import MeshNode.Proofs.Json.NumberText

namespace MeshNode.Json

open Token

variable {α β : Type} {t u r ws : Bytes} {read : Reader α} {result : Except Error α}

/-- The reader makes the same of `t` wherever it stands, with white space in front of it. -/
def Steady (read : Reader α) (t : Bytes) : Prop :=
  ∀ ⦃ws⦄, Blank ws → Yields read (ws ++ t) (outcome read t)

theorem Steady.of_yields (h : ∀ ws, Blank ws → Yields read (ws ++ t) result) : Steady read t := by
  have ht : Yields read t result := h [] blank_nil
  intro ws hws
  rw [ht.outcome_eq]
  exact h ws hws

theorem Steady.yields (h : Steady read t) : Yields read t (outcome read t) := h blank_nil

/-- **A whole text**: a value with white space around it comes to what the value comes to. -/
theorem Steady.fromBytes {ws' : Bytes} (h : Steady read t) (hws : Blank ws) (hws' : Blank ws') :
    fromBytes read (ws ++ (t ++ ws')) = outcome read t := by
  have hread := h hws ((ws ++ (t ++ ws')).length + 1) ws'
    (by rw [← List.append_nil ws']; exact hws'.delimited nofun) (by rw [List.append_assoc]; omega)
  rw [List.append_assoc] at hread
  rw [Json.fromBytes, hread]
  cases outcome read t with
  | error e => rfl
  | ok a => simp only [Except.map, skipSpaces_eq_nil_iff.mpr hws']

/-! ## 1. The kinds of values -/

/-- A text of a word or a number. -/
def BareText (t : Bytes) : Prop := t ∈ [nullWord, trueWord, falseWord] ∨ NumberText t

/-- An array with these items. -/
def ArrayText (items : List Item) (t : Bytes) : Prop :=
  (∀ i ∈ items, ValueText i.value) ∧ ∃ ws, Blank ws ∧
    t = openBracket :: (ws ++ (separated (items.map Item.text) ++ [closeBracket]))

/-- An object with these members. -/
def ObjectText (members : List Member) (t : Bytes) : Prop :=
  (∀ m ∈ members, ValueText m.item.value) ∧ ∃ ws, Blank ws ∧
    t = openBrace :: (ws ++ (separated (members.map Member.text) ++ [closeBrace]))

/-- **The four kinds of values**, told apart by their first byte. -/
theorem ValueText.kinds (h : ValueText t) :
    BareText t ∨ (∃ u, Inner u ∧ t = quote :: (u ++ [quote])) ∨ (∃ items, ArrayText items t) ∨
      ∃ members, ObjectText members t := by
  cases h with
  | word h => exact .inl (.inl h)
  | number h => exact .inl (.inr h)
  | string h => exact .inr (.inl ⟨_, h, rfl⟩)
  | emptyArray h => exact .inr (.inr (.inl ⟨[], by simp, _, h, rfl⟩))
  | array h => exact .inr (.inr (.inl ⟨_, h, [], blank_nil, rfl⟩))
  | emptyObject h => exact .inr (.inr (.inr ⟨[], by simp, _, h, rfl⟩))
  | object h => exact .inr (.inr (.inr ⟨_, h, [], blank_nil, rfl⟩))

/-- A text of an array is a value: the white space in front belongs to its first item. -/
theorem ArrayText.valueText {items : List Item} (h : ArrayText items t) : ValueText t := by
  obtain ⟨hitems, ws, hws, rfl⟩ := h
  cases items with
  | nil => exact .emptyArray hws
  | cons i items =>
    have harray := @ValueText.array (⟨ws ++ i.before, i.value, i.after, hws.append i.before_blank,
      i.after_blank⟩ :: items) (by simpa using hitems)
    simpa [separated, Item.text] using harray

/-- A text of an object is a value. -/
theorem ObjectText.valueText {members : List Member} (h : ObjectText members t) : ValueText t := by
  obtain ⟨hmembers, ws, hws, rfl⟩ := h
  cases members with
  | nil => exact .emptyObject hws
  | cons m members =>
    have hobject := @ValueText.object (⟨ws ++ m.before, m.key, m.gap, m.item,
      hws.append m.before_blank, m.key_inner, m.gap_blank⟩ :: members) (by simpa using hmembers)
    simpa [separated, Member.text] using hobject

theorem BareText.first (h : BareText t) : ∃ b u, t = b :: u ∧ isSpace b = false ∧ b ≠ quote ∧
    b ≠ openBracket ∧ b ≠ openBrace := by
  rcases h with h | h
  · simp only [List.mem_cons, List.not_mem_nil, or_false] at h
    rcases h with rfl | rfl | rfl <;>
      exact ⟨_, _, rfl, by decide, by decide, by decide, by decide⟩
  · obtain ⟨b, u, rfl, hb⟩ := h.first
    obtain ⟨hspace, hquote, hbracket, hbrace, -⟩ := numeral_start hb
    exact ⟨b, u, rfl, hspace, hquote, hbracket, hbrace⟩

/-! ## 2. Readers that go by the first byte -/

/-- A reader that passes over the white space in front. -/
def SkipsBlank (read : Reader α) : Prop :=
  ∀ ⦃ws⦄, Blank ws → ∀ limit s, read limit (ws ++ s) = read limit s

theorem SkipsBlank.steady (hread : SkipsBlank read) (h : Yields read t result) : Steady read t := by
  have hall : ∀ ws, Blank ws → Yields read (ws ++ t) result := by
    intro ws hws limit r hr hl
    rw [List.append_assoc] at hl ⊢
    rw [List.length_append] at hl
    rw [hread hws]
    exact h limit r hr (by omega)
  exact .of_yields hall

theorem found_skipsBlank : SkipsBlank found := by
  intro ws hws limit s
  rw [found, found, skipSpaces_blank hws]

/-- What is found of a word or a number. -/
theorem found_bare (h : BareText t) : ∃ result, Yields found t result := by
  rcases h with h | h
  · simp only [List.mem_cons, List.not_mem_nil, or_false] at h
    rcases h with rfl | rfl | rfl
    · exact ⟨.ok .null, fun limit r _ _ => rfl⟩
    · exact ⟨.ok (.bool true), fun limit r _ _ => rfl⟩
    · exact ⟨.ok (.bool false), fun limit r _ _ => rfl⟩
  · obtain ⟨result, hresult⟩ := readNumber_text h
    obtain ⟨b, u, rfl, hb⟩ := h.first
    obtain ⟨hspace, hquote, hbracket, hbrace, -, hn, ht, hf⟩ := numeral_start hb
    refine ⟨result.map Found.ofJson, fun limit r hr _ => ?_⟩
    have hread := hresult r hr
    rw [List.cons_append] at hread ⊢
    rw [found, skipSpaces_cons hspace]
    dsimp only
    rw [if_neg hquote, if_neg hbracket, if_neg hbrace, if_neg hn, if_neg ht, if_neg hf, if_pos hb,
      hread]
    cases result <;> rfl

/-- What follows the closing mark of a string, in front of which the string is read. -/
theorem found_string (h : Inner u) :
    Yields found (quote :: (u ++ [quote])) ((spelled u).map .text) := by
  intro limit r _ hl
  have hsplit : quote :: (u ++ [quote]) ++ r = quote :: (u ++ quote :: r) := by simp
  rw [hsplit] at hl ⊢
  rw [List.length_cons] at hl
  rw [found, skipSpaces_cons (by decide)]
  dsimp only
  rw [if_pos rfl, literal_inner_text h (by omega)]
  cases spelled u <;> rfl

/-- **A value of a kind that was not expected** is refused. -/
theorem unexpected_yields (h : ValueText t) (expected : Expected) :
    ∃ e, Yields (unexpected expected : Reader α) t (.error e) := by
  have hrefused : ∀ {result}, Yields found t result →
      ∃ e, Yields (unexpected expected : Reader α) t (.error e) := by
    intro result hfound
    cases result with
    | error e => exact ⟨e, fun limit r hr hl => by rw [unexpected, hfound limit r hr hl]; rfl⟩
    | ok what =>
      refine ⟨.mismatch (.wrongType what expected), fun limit r hr hl => ?_⟩
      rw [unexpected, hfound limit r hr hl]
      rfl
  rcases h.kinds with hbare | ⟨u, hu, rfl⟩ | ⟨items, -, ws, -, rfl⟩ | ⟨members, -, ws, -, rfl⟩
  · obtain ⟨result, hresult⟩ := found_bare hbare
    exact hrefused hresult
  · exact hrefused (found_string hu)
  · exact ⟨.mismatch (.wrongType .array expected), fun limit r _ _ => rfl⟩
  · exact ⟨.mismatch (.wrongType .object expected), fun limit r _ _ => rfl⟩

/-- **A reader that knows some first bytes** and refuses every value with another one is steady at a
value as soon as it is with the known ones. -/
theorem steady_of_marks (expected : Expected) (marked : UInt8 → Prop) (hskip : SkipsBlank read)
    (hother : ∀ b, isSpace b = false → ¬ marked b → ∀ limit s,
      read limit (b :: s) = unexpected expected limit (b :: s)) (h : ValueText t)
    (hmarked : ∀ b ∈ t.head?, marked b → ∃ result, Yields read t result) : Steady read t := by
  obtain ⟨b, u, rfl, hspace, -⟩ := h.starts
  by_cases hb : marked b
  · obtain ⟨result, hresult⟩ := hmarked b rfl hb
    exact hskip.steady hresult
  · obtain ⟨e, he⟩ := unexpected_yields (α := α) h expected
    have hread : Yields read (b :: u) (.error e) := fun limit r hr hl => by
      rw [List.cons_append, hother b hspace hb]
      exact he limit r hr hl
    exact hskip.steady hread

/-- A value that begins like a string is one. -/
theorem ValueText.string_of_head (h : ValueText t) (hhead : quote ∈ t.head?) :
    ∃ u, Inner u ∧ t = quote :: (u ++ [quote]) := by
  rcases h.kinds with hbare | hstring | ⟨items, -, ws, -, rfl⟩ | ⟨members, -, ws, -, rfl⟩
  · obtain ⟨b, u, rfl, -, hquote, -⟩ := hbare.first
    exact absurd (Option.some.inj hhead) hquote
  · exact hstring
  · exact absurd (Option.some.inj hhead) (by decide)
  · exact absurd (Option.some.inj hhead) (by decide)

/-- A value that begins like an array is one. -/
theorem ValueText.array_of_head (h : ValueText t) (hhead : openBracket ∈ t.head?) :
    ∃ items, ArrayText items t := by
  rcases h.kinds with hbare | ⟨u, -, rfl⟩ | harray | ⟨members, -, ws, -, rfl⟩
  · obtain ⟨b, u, rfl, -, -, hbracket, -⟩ := hbare.first
    exact absurd (Option.some.inj hhead) hbracket
  · exact absurd (Option.some.inj hhead) (by decide)
  · exact harray
  · exact absurd (Option.some.inj hhead) (by decide)

/-- A value that begins like an object is one. -/
theorem ValueText.object_of_head (h : ValueText t) (hhead : openBrace ∈ t.head?) :
    ∃ members, ObjectText members t := by
  rcases h.kinds with hbare | ⟨u, -, rfl⟩ | ⟨items, -, ws, -, rfl⟩ | hobject
  · obtain ⟨b, u, rfl, -, -, -, hbrace⟩ := hbare.first
    exact absurd (Option.some.inj hhead) hbrace
  · exact absurd (Option.some.inj hhead) (by decide)
  · exact absurd (Option.some.inj hhead) (by decide)
  · exact hobject

/-! ### The reader of strings -/

theorem textFor_skipsBlank (expected : Expected) : SkipsBlank (textFor expected) := by
  intro ws hws limit s
  rw [textFor, textFor, skipSpaces_blank hws]

/-- A string is read to what it spells. -/
theorem textFor_string (expected : Expected) (h : Inner u) :
    Yields (textFor expected) (quote :: (u ++ [quote])) (spelled u) := by
  intro limit r _ hl
  have hsplit : quote :: (u ++ [quote]) ++ r = quote :: (u ++ quote :: r) := by simp
  rw [hsplit] at hl ⊢
  rw [List.length_cons] at hl
  rw [textFor, skipSpaces_cons (by decide)]
  dsimp only
  rw [if_pos rfl, literal_inner_text h (by omega)]

/-- **Strings**, and every value that is none. -/
theorem textFor_steady (expected : Expected) (h : ValueText t) : Steady (textFor expected) t := by
  refine steady_of_marks expected (· = quote) (textFor_skipsBlank expected)
    (fun b hspace hb limit s => ?_) h fun b hhead hb => ?_
  · rw [textFor, skipSpaces_cons hspace]
    exact if_neg hb
  · subst hb
    obtain ⟨u, hu, rfl⟩ := h.string_of_head hhead
    exact ⟨_, textFor_string expected hu⟩

theorem text_steady (h : ValueText t) : Steady text t := textFor_steady .text h

/-! ## 3. Arrays and objects -/

variable {σ : Type} {limit : Nat} {item : Reader α}

/-- **An array of the grammar** yields its items, or the first error among them. -/
theorem items_spaced {items : List Item} {result : Item → Except Error α}
    (hy : ∀ i ∈ items, Yields item i.value (result i)) (hs : ∀ i ∈ items, Starts i.value)
    (hws : Blank ws)
    (hl : (ws ++ (separated (items.map Item.text) ++ closeBracket :: r)).length < limit) :
    Json.items item limit (ws ++ (separated (items.map Item.text) ++ closeBracket :: r))
      = (items.mapM result).map (·, r) := by
  have hread := items_formed id hy hs hws (by rwa [List.map_id])
  rwa [List.map_id] at hread

variable {member : String → σ → Reader σ} {step : String → σ → Member → Except Error σ}

/-- What a member does to the state, once its key is read. -/
def memberStep (step : String → σ → Member → Except Error σ) (state : σ) (m : Member) :
    Except Error σ :=
  (spelled m.key).bind fun name => step name state m

/-- The reader of members does with `m` what `step` says. -/
def StepsOver (member : String → σ → Reader σ) (step : String → σ → Member → Except Error σ)
    (m : Member) : Prop :=
  ∀ ⦃name⦄, spelled m.key = .ok name →
    ∀ state, Yields (member name state) m.field (step name state m)

theorem StepsOver.takesMember {m : Member} (h : StepsOver member step m) :
    TakesMember member m (memberStep step · m) := by
  intro state
  cases hkey : spelled m.key with
  | error e =>
    dsimp only
    rw [memberStep, hkey]
    rfl
  | ok name =>
    dsimp only
    rw [memberStep, hkey]
    exact h hkey state

/-- **An object of the grammar** yields what its members do to the state in their order, or the
first error on the way. -/
theorem members_spaced {ms : List Member} (hsteps : ∀ m ∈ ms, StepsOver member step m) (state : σ)
    (hws : Blank ws)
    (hl : (ws ++ (separated (ms.map Member.text) ++ closeBrace :: r)).length < limit) :
    members member state limit (ws ++ (separated (ms.map Member.text) ++ closeBrace :: r))
      = (ms.foldlM (memberStep step) state).map (·, r) := by
  have htakes := fun m hm => (hsteps m hm).takesMember
  have hread := members_formed id htakes state hws (by rwa [List.map_id])
  rwa [List.map_id] at hread

/-! ## 4. Any value -/

/-- The value of a member, from in front of its colon. -/
theorem Steady.field {m : Member} (h : Steady read m.item.value) :
    Yields (memberValue read) m.field (outcome read m.item.value) := by
  intro limit r hr hl
  have hvalue := h m.item.before_blank limit r hr
  rw [Member.field, List.append_assoc, List.cons_append] at hl ⊢
  rw [memberValue, skipColon_blank m.gap_blank]
  rw [List.length_append, List.length_cons] at hl
  exact hvalue (by omega)

/-- A value that is passed over, from in front of its colon. -/
theorem skip_field {m : Member} (h : ValueText m.item.value) :
    Yields (memberValue skip) m.field (.ok ()) := by
  intro limit r hr hl
  have hvalue : ValueAt (m.item.before ++ (m.item.value ++ r)) r :=
    ⟨m.item.before, m.item.value, m.item.before_blank, h, rfl⟩
  simp only [Member.field, List.append_assoc, List.cons_append, List.length_append,
    List.length_cons] at hl ⊢
  rw [memberValue, skipColon_blank m.gap_blank]
  dsimp only
  rw [skip_value hvalue hr (by simp only [List.length_append]; omega)]
  rfl

theorem value_skipsBlank (budget : Nat) : SkipsBlank (value budget) := by
  intro ws hws limit s
  cases budget with
  | zero =>
    show scalar limit (ws ++ s) = scalar limit s
    rw [scalar, scalar, found_skipsBlank hws]
  | succ budget => simp only [value, valueWith, skipSpaces_blank hws]

/-- A value that opens no container. -/
theorem value_found {what : Except Error Found} (budget : Nat) {b : UInt8} {u : Bytes}
    (hspace : isSpace b = false) (hbracket : b ≠ openBracket) (hbrace : b ≠ openBrace)
    (h : Yields found (b :: u) what) : Steady (value budget) (b :: u) := by
  have hread : Yields (value budget) (b :: u) (what.bind scalarOf) := by
    intro limit r hr hl
    rw [List.cons_append, value_of_scalar budget limit hspace hbracket hbrace]
    exact scalar_yields h limit r hr hl
  exact (value_skipsBlank budget).steady hread

theorem value_arrayText {items : List Item} (h : ArrayText items t) (budget : Nat)
    (ih : ∀ i ∈ items, ∀ budget, Steady (value budget) i.value) : Steady (value budget) t := by
  obtain ⟨hitems, ws, hws, rfl⟩ := h
  cases budget with
  | zero =>
    have hread : Yields (value 0) (openBracket :: (ws ++ (separated (items.map Item.text)
        ++ [closeBracket]))) (.error .malformed) :=
      fun limit r _ _ => value_zero_container (.inl rfl) limit _
    exact (value_skipsBlank 0).steady hread
  | succ budget =>
    have hread : Yields (value (budget + 1))
        (openBracket :: (ws ++ (separated (items.map Item.text) ++ [closeBracket])))
        ((items.mapM fun i => outcome (value budget) i.value).map Json.arr) := by
      intro limit r _ hl
      simp only [List.cons_append, List.append_assoc, List.nil_append] at hl ⊢
      rw [List.length_cons] at hl
      have hinside := items_spaced (fun i hi => (ih i hi budget).yields)
        (fun i hi => (hitems i hi).starts) hws (Nat.lt_of_succ_lt hl)
      rw [value_array, hinside]
      cases items.mapM fun i => outcome (value budget) i.value <;> rfl
    exact (value_skipsBlank (budget + 1)).steady hread

/-- What a member with any name does that is put to those before it. -/
def putEntry (put : String → α → σ → σ) (read : Reader α) (name : String) (held : σ) (m : Member) :
    Except Error σ :=
  (outcome read m.item.value).map fun v => put name v held

theorem entries_stepsOver (put : String → α → σ → σ) {m : Member} (h : Steady read m.item.value) :
    StepsOver (fun key held limit s =>
      (memberValue read limit s).map fun (v, s) => (put key v held, s)) (putEntry put read) m :=
  fun name _ held => h.field.map fun v => put name v held

/-- An object that does not begin with the mark. -/
theorem obj_formed {members : List Member} {budget : Nat}
    (ih : ∀ m ∈ members, Steady (value budget) m.item.value) (hws : Blank ws)
    (hkey : ∀ m ∈ members.head?, spelled m.key ≠ .ok rawMark) :
    Yields (value (budget + 1))
      (openBrace :: (ws ++ (separated (members.map Member.text) ++ [closeBrace])))
      ((members.foldlM (memberStep (putEntry Dictionary.insert (value budget))) []).map Json.obj) := by
  have hsteps : ∀ m ∈ members, StepsOver (entryWith (value budget))
      (putEntry Dictionary.insert (value budget)) m :=
    fun m hm => entries_stepsOver Dictionary.insert (ih m hm)
  intro limit r _ hl
  simp only [List.cons_append, List.append_assoc, List.nil_append] at hl ⊢
  rw [List.length_cons] at hl
  have hlength := Nat.lt_of_succ_lt hl
  have hunmarked : rawKey? limit (ws ++ (separated (members.map Member.text) ++ closeBrace :: r))
      = none := by
    cases members with
    | nil =>
      rw [List.map_nil, separated, List.nil_append, rawKey?, nextKey,
        skipSpaces_blank_cons hws (by decide)]
      rfl
    | cons m ms =>
      rw [rawKey?_formed hws m ms hlength]
      cases hname : spelled m.key with
      | error e => rfl
      | ok name =>
        have hmark : isMark name = false :=
          Bool.eq_false_iff.mpr fun h => hkey m rfl (by rw [hname, isMark_iff.mp h])
        dsimp only
        rw [hmark, cond_false]
  rw [value_object hunmarked, members_spaced hsteps [] hws hlength]
  cases members.foldlM (memberStep (putEntry Dictionary.insert (value budget))) [] <;> rfl

theorem value_objectText {members : List Member} (h : ObjectText members t) (budget : Nat)
    (ih : ∀ m ∈ members, ∀ budget, Steady (value budget) m.item.value) :
    Steady (value budget) t := by
  obtain ⟨hmembers, ws, hws, rfl⟩ := h
  cases budget with
  | zero =>
    have hread : Yields (value 0) (openBrace :: (ws ++ (separated (members.map Member.text)
        ++ [closeBrace]))) (.error .malformed) :=
      fun limit r _ _ => value_zero_container (.inr rfl) limit _
    exact (value_skipsBlank 0).steady hread
  | succ budget =>
    by_cases hkey : ∀ m ∈ members.head?, spelled m.key ≠ .ok rawMark
    · exact (value_skipsBlank _).steady (obj_formed (fun m hm => ih m hm budget) hws hkey)
    · cases members with
      | nil => exact absurd nofun hkey
      | cons m ms =>
        have hmark : spelled m.key = .ok rawMark := by simpa using hkey
        have htext := (textFor_steady .raw (hmembers m List.mem_cons_self)).field
        exact (value_skipsBlank _).steady (raw_formed hws hmark htext)

/-- **A value of the grammar comes to the same wherever it stands**, for every budget, by induction
on how it is built. -/
theorem value_steady (h : ValueText t) : ∀ budget, Steady (value budget) t := by
  have hbare : ∀ {t}, BareText t → ∀ budget, Steady (value budget) t := by
    intro t h budget
    obtain ⟨what, hfound⟩ := found_bare h
    obtain ⟨b, u, rfl, hspace, -, hbracket, hbrace⟩ := h.first
    exact value_found budget hspace hbracket hbrace hfound
  induction h with
  | word h => exact hbare (.inl h)
  | number h => exact hbare (.inr h)
  | string h =>
    exact fun budget => value_found budget (by decide) (by decide) (by decide) (found_string h)
  | emptyArray h =>
    have harray : ArrayText [] _ := ⟨by simp, _, h, rfl⟩
    exact fun budget => value_arrayText harray budget (by simp)
  | array h ih => exact fun budget => value_arrayText ⟨h, [], blank_nil, rfl⟩ budget ih
  | emptyObject h =>
    have hobject : ObjectText [] _ := ⟨by simp, _, h, rfl⟩
    exact fun budget => value_objectText hobject budget (by simp)
  | object h ih => exact fun budget => value_objectText ⟨h, [], blank_nil, rfl⟩ budget ih

end MeshNode.Json
