/-
# Records in all their forms

A record is read slot by slot: each field has its own reader and its own place in what was read so
far, and a key that belongs to no field is passed over.  What is left in a slot behind an object or
an array depends on the one value that was given for it, so the order of the members, members with
other names, white space and the form of the record do not matter.

* `Slot` is a field with its reader and its place, `Assembled` a record with its slots;
* `step_held` and `fold_held`: what a member and what all members leave in a slot;
* `fill_held`: what the items of an array leave in a slot;
* `Assembled.steady`, `Assembled.reads` and `Assembled.refuses`: the reader of the record, on any
  value, on the texts of a record and on flawed ones.
-/
import Mathlib.Data.List.Pairwise
import MeshNode.Proofs.Json.Form

namespace MeshNode.Json

open Token

variable {α σ : Type}

/-! ## 1. Slots -/

/-- A field of a record with the reader of its value, and with its place in what was read so far. -/
structure Slot (α σ : Type) extends RecordField α where
  Content : Type
  read : Reader Content
  content : α → Content
  held : σ → Option Content
  put : σ → Option Content → σ
  steady : ∀ t, ValueText t → Steady read t
  reads : ∀ a t, ValueText t → Shows a t → outcome read t = .ok (content a)
  refuses : ∀ t, ValueText t → Flawed t → ∃ e, outcome read t = .error e
  held_put : ∀ f v, held (put f v) = v

/-- Two slots that have nothing in common. -/
def Slot.Apart (s s' : Slot α σ) : Prop :=
  s.name ≠ s'.name ∧ (∀ f v, s'.held (s.put f v) = s'.held f) ∧
    ∀ f v, s.held (s'.put f v) = s.held f

theorem Slot.Apart.symm {s s' : Slot α σ} (h : s.Apart s') : s'.Apart s :=
  ⟨h.1.symm, h.2.2, h.2.1⟩

/-- What a value does to its slot: it may be given only once. -/
def Slot.fill (s : Slot α σ) (f : σ) (t : Bytes) : Except Error σ :=
  match s.held f with
  | some _ => .error (.mismatch (.duplicateField s.name))
  | none => (outcome s.read t).map fun v => s.put f (some v)

/-- The slots of a record, the state they are places in, and what is made of it. -/
structure Layout (α σ : Type) where
  slots : List (Slot α σ)
  start : σ
  member : String → σ → Reader σ
  apart : slots.Pairwise Slot.Apart
  start_held : ∀ s ∈ slots, s.held start = none
  member_slot : ∀ s ∈ slots, ∀ f limit t, member s.name f limit t
    = (fieldOnce s.name (s.held f) s.read limit t).map fun (v, t) => (s.put f v, t)
  member_other : ∀ name, (∀ s ∈ slots, name ≠ s.name) → ∀ f limit t, member name f limit t
    = (memberValue skip limit t).map fun (_, t) => (f, t)

/-! ## 2. Objects -/

namespace Layout

variable {l : Layout α σ} {s : Slot α σ} {f f' : σ} {m : Member} {ms : List Member}

/-- What a member with the given name does to what was read so far. -/
def step (l : Layout α σ) (name : String) (f : σ) (m : Member) : Except Error σ :=
  outcome (l.member name f) m.field

theorem slot_yields (hs : s ∈ l.slots) (h : ValueText m.item.value) (f : σ) :
    Yields (l.member s.name f) m.field (s.fill f m.item.value) := by
  intro limit r hr hl
  rw [l.member_slot s hs, fieldOnce.eq_def, Slot.fill.eq_def]
  cases s.held f with
  | some v => rfl
  | none =>
    have hvalue := (s.steady _ h).field.map some limit r hr hl
    dsimp only at hvalue ⊢
    rw [hvalue]
    cases outcome s.read m.item.value <;> rfl

theorem other_yields {name : String} (hname : ∀ s ∈ l.slots, name ≠ s.name)
    (h : ValueText m.item.value) (f : σ) : Yields (l.member name f) m.field (.ok f) := by
  intro limit r hr hl
  rw [l.member_other name hname, skip_field h limit r hr hl]
  rfl

theorem slot_or_other (l : Layout α σ) (name : String) :
    (∃ s ∈ l.slots, name = s.name) ∨ ∀ s ∈ l.slots, name ≠ s.name := by
  by_cases h : ∃ s ∈ l.slots, name = s.name
  · exact .inl h
  · exact .inr fun s hs hname => h ⟨s, hs, hname⟩

/-- The reader of members takes the steps. -/
theorem stepsOver (h : ValueText m.item.value) : StepsOver l.member l.step m := by
  intro name _ f
  rcases l.slot_or_other name with ⟨s, hs, rfl⟩ | hname
  · rw [step, (slot_yields hs h f).outcome_eq]
    exact slot_yields hs h f
  · rw [step, (other_yields hname h f).outcome_eq]
    exact other_yields hname h f

/-- A slot is told by its name. -/
theorem eq_or_apart {s s' : Slot α σ} (hs : s ∈ l.slots) (hs' : s' ∈ l.slots) :
    s = s' ∨ s.Apart s' := by
  have hsymm : Std.Symm (Slot.Apart (α := α) (σ := σ)) := ⟨fun _ _ => Slot.Apart.symm⟩
  by_cases h : s = s'
  · exact .inl h
  · exact .inr (l.apart.forall hs hs' h)

/-- **What one member leaves in a slot**: its value, in a slot that was empty, if it has the name of
the slot, and otherwise what was there. -/
theorem step_held (hs : s ∈ l.slots) (h : ValueText m.item.value)
    (hstep : memberStep l.step f m = .ok f') :
    (m.Named s.name ∧ s.held f = none ∧
        ∃ v, outcome s.read m.item.value = .ok v ∧ s.held f' = some v) ∨
      (¬ m.Named s.name ∧ s.held f' = s.held f) := by
  rw [memberStep] at hstep
  cases hkey : spelled m.key with
  | error e =>
    rw [hkey] at hstep
    cases hstep
  | ok name =>
    have hnamed : m.Named name := (spelled_eq_ok_iff m.key_inner).mp hkey
    have hunique : ∀ {name'}, m.Named name' → name' = name := fun hname' =>
      Except.ok.inj ((Spells.spelled hname').symm.trans hkey)
    rw [hkey] at hstep
    -- the key leads to one slot or to none, and that slot is this one or has nothing to do with it
    rcases l.slot_or_other name with ⟨s', hs', rfl⟩ | hname
    · rw [Except.bind, step, (slot_yields hs' h f).outcome_eq, Slot.fill] at hstep
      split at hstep
      · cases hstep
      next hempty =>
      obtain ⟨v, hv, rfl⟩ := ok_of_map hstep
      rcases eq_or_apart hs hs' with rfl | hapart
      · exact .inl ⟨hnamed, hempty, v, hv, s.held_put f (some v)⟩
      · exact .inr ⟨fun hs => hapart.1 (hunique hs), hapart.2.2 f (some v)⟩
    · rw [Except.bind, step, (other_yields hname h f).outcome_eq, Except.ok.injEq] at hstep
      subst hstep
      exact .inr ⟨fun hs' => hname s hs (hunique hs').symm, rfl⟩

/-- What all members leave in a slot. -/
structure Held (s : Slot α σ) (ms : List Member) (f f' : σ) : Prop where
  /-- No two of them have its name. -/
  once : ms.Pairwise fun m m' => ¬ (m.Named s.name ∧ m'.Named s.name)
  /-- The one that has its name finds it empty and leaves its value. -/
  given : ∀ m ∈ ms, m.Named s.name → s.held f = none ∧
    ∃ v, outcome s.read m.item.value = .ok v ∧ s.held f' = some v
  /-- If there is none, the slot is as before. -/
  left : (∀ m ∈ ms, ¬ m.Named s.name) → s.held f' = s.held f

/-- **What all members leave in a slot**, by induction over them. -/
theorem fold_held (hs : s ∈ l.slots) (hms : ∀ m ∈ ms, ValueText m.item.value)
    (h : ms.foldlM (memberStep l.step) f = .ok f') : Held s ms f f' := by
  induction ms generalizing f with
  | nil =>
    cases h
    exact ⟨.nil, by simp, fun _ => rfl⟩
  | cons m ms ih =>
    rw [List.foldlM_cons] at h
    obtain ⟨f₁, hstep, hlater⟩ := ok_of_bind h
    have hrest := ih (fun x hx => hms x (List.mem_cons_of_mem m hx)) hlater
    rcases step_held hs (hms m List.mem_cons_self) hstep with
      ⟨hnamed, hempty, v, hv, hheld⟩ | ⟨hnamed, hheld⟩
    · -- the slot is filled now, so a later member with its name would not have been taken
      have hno : ∀ x ∈ ms, ¬ x.Named s.name := by
        intro x hx hname
        have hnone := (hrest.given x hx hname).1
        rw [hheld] at hnone
        cases hnone
      refine ⟨List.pairwise_cons.mpr ⟨fun x hx hboth => hno x hx hboth.2, hrest.once⟩, ?_, ?_⟩
      · intro x hx hname
        rcases List.mem_cons.mp hx with rfl | hx
        · exact ⟨hempty, v, hv, (hrest.left hno).trans hheld⟩
        · exact absurd hname (hno x hx)
      · exact fun hnone => absurd hnamed (hnone m List.mem_cons_self)
    · refine ⟨List.pairwise_cons.mpr ⟨fun x hx hboth => hnamed hboth.1, hrest.once⟩, ?_, ?_⟩
      · intro x hx hname
        rcases List.mem_cons.mp hx with rfl | hx
        · exact absurd hname hnamed
        · rw [← hheld]
          exact hrest.given x hx hname
      · intro hnone
        rw [hrest.left fun x hx => hnone x (List.mem_cons_of_mem m hx), hheld]

/-- Members that find their slots empty and have values that are read are all taken. -/
theorem fold_succeeds (hms : ∀ m ∈ ms, ValueText m.item.value)
    (hnames : ∀ m ∈ ms, ∃ name, m.Named name)
    (hslots : ∀ s ∈ l.slots, (ms.Pairwise fun m m' => ¬ (m.Named s.name ∧ m'.Named s.name)) ∧
      ∀ m ∈ ms, m.Named s.name → s.held f = none ∧ ∃ v, outcome s.read m.item.value = .ok v) :
    ∃ f', ms.foldlM (memberStep l.step) f = .ok f' := by
  induction ms generalizing f with
  | nil => exact ⟨f, rfl⟩
  | cons m ms ih =>
    obtain ⟨name, hnamed⟩ := hnames m List.mem_cons_self
    have hvalue := hms m List.mem_cons_self
    have hstep : ∃ f₁, memberStep l.step f m = .ok f₁ := by
      rw [memberStep, hnamed.spelled, Except.bind, step]
      rcases l.slot_or_other name with ⟨s, hs, rfl⟩ | hname
      · obtain ⟨hempty, v, hv⟩ := (hslots s hs).2 m List.mem_cons_self hnamed
        refine ⟨s.put f (some v), ?_⟩
        rw [(slot_yields hs hvalue f).outcome_eq, Slot.fill, hempty, hv]
        rfl
      · exact ⟨f, (other_yields hname hvalue f).outcome_eq⟩
    obtain ⟨f₁, hf₁⟩ := hstep
    obtain ⟨f', hf'⟩ := ih (f := f₁) (fun x hx => hms x (List.mem_cons_of_mem m hx))
      (fun x hx => hnames x (List.mem_cons_of_mem m hx)) (fun s hs => by
        obtain ⟨honce, hgiven⟩ := hslots s hs
        rw [List.pairwise_cons] at honce
        refine ⟨honce.2, fun x hx hname => ?_⟩
        obtain ⟨hempty, hv⟩ := hgiven x (List.mem_cons_of_mem m hx) hname
        refine ⟨?_, hv⟩
        rcases step_held hs hvalue hf₁ with ⟨hfirst, -⟩ | ⟨-, hheld⟩
        · exact absurd ⟨hfirst, hname⟩ (honce.1 x hx)
        · rw [hheld, hempty])
    exact ⟨f', by rw [List.foldlM_cons, hf₁]; exact hf'⟩

end Layout

/-! ## 3. Arrays -/

/-- Reads the items of an array slot by slot; behind the last item the slots stay empty. -/
def slotItems : List (Slot α σ) → Bool → σ → Reader σ
  | [], _, f => fun _ t => .ok (f, t)
  | s :: slots, first, f => fun limit t =>
    match optionalItem first s.read limit t with
    | .error e => .error e
    | .ok (v, t) => slotItems slots false (s.put f v) limit t

/-- What the values of items leave in the slots. -/
def fillAll : List (Slot α σ) → List Item → σ → Except Error σ
  | [], _, f => .ok f
  | s :: slots, [], f => fillAll slots [] (s.put f none)
  | s :: slots, i :: items, f =>
    (outcome s.read i.value).bind fun v => fillAll slots items (s.put f (some v))

variable {s : Slot α σ} {slots : List (Slot α σ)} {items : List Item} {f f' : σ} {limit : Nat}
  {t r ws : Bytes}

/-- The text behind the first `n` items of an array, or behind all of them if there are fewer: white
space, the items that are left, each behind a comma, and the closing bracket. -/
def itemsLeft : Nat → List Item → Bytes → Bytes → Bytes
  | _, [], ws, r => ws ++ closeBracket :: r
  | 0, i :: items, ws, r =>
    ws ++ (((i :: items).map Item.text).flatMap (comma :: ·) ++ closeBracket :: r)
  | n + 1, i :: items, _, r => itemsLeft n items i.after r

/-- An array ends there if it has no more items than that. -/
theorem closeArray_itemsLeft (r : Bytes) : ∀ (n : Nat) (items : List Item) {ws : Bytes}, Blank ws →
    closeArray (itemsLeft n items ws r)
      = if items.length ≤ n then .ok r else .error .malformed
  | n, [], ws, hws => by
    rw [itemsLeft, closeArray_blank hws, List.length_nil, if_pos (Nat.zero_le n)]
  | 0, i :: items, ws, hws => by
    rw [if_neg (by simp), closeArray, itemsLeft, List.map_cons, List.flatMap_cons,
      List.append_assoc, List.cons_append, skipSpaces_blank_cons hws (by decide)]
    rfl
  | n + 1, i :: items, ws, _ => by
    rw [itemsLeft, closeArray_itemsLeft r n items i.after_blank, List.length_cons]
    simp only [Nat.add_le_add_iff_right]

theorem slotItems_next {first : Bool} {i : Item} {tail : Bytes} (hi : ValueText i.value)
    (hd : Delimited tail) (hnext : nextItem first t = .ok (some (i.value ++ tail)))
    (hl : (i.value ++ tail).length < limit) :
    slotItems (s :: slots) first f limit t
      = (outcome s.read i.value).bind fun v =>
          slotItems slots false (s.put f (some v)) limit tail := by
  have hitem := (s.steady _ hi).yields limit tail hd hl
  simp only [slotItems, optionalItem, hnext, hitem]
  cases outcome s.read i.value <;> rfl

/-- Behind the last item every slot stays empty. -/
theorem slotItems_close (hws : Blank ws) (r : Bytes) : ∀ (slots : List (Slot α σ)) (first : Bool)
    (f : σ), slotItems slots first f limit (ws ++ closeBracket :: r)
      = (fillAll slots [] f).map (·, ws ++ closeBracket :: r)
  | [], _, _ => rfl
  | s :: slots, first, f => by
    simp only [slotItems, optionalItem, nextItem_close_blank first hws]
    exact slotItems_close hws r slots false (s.put f none)

/-- An array that has ended has no further item, first or not. -/
theorem nextItem_none {first : Bool} (h : nextItem first t = .ok none) (first' : Bool) :
    nextItem first' t = .ok none := by
  rw [nextItem] at h ⊢
  split at h
  · cases h
  next b rest _ =>
  by_cases hb : b = closeBracket
  · exact if_pos hb
  · rw [if_neg hb] at h
    repeat' split at h
    all_goals cases h

/-- Where an item is lacking, all those that would follow are lacking too. -/
theorem optionalItem_lacking {β γ : Type} {read : Reader β} {first : Bool} {t' : Bytes}
    (h : optionalItem first read limit t = .ok (none, t')) (first' : Bool) (read' : Reader γ) :
    optionalItem first' read' limit t' = .ok (none, t') := by
  rw [optionalItem] at h
  split at h
  · cases h
  next hnone =>
    cases h
    simp only [optionalItem, nextItem_none hnone first']
  · split at h <;> cases h

/-- The items behind the first one are put into their slots. -/
theorem slotItems_later (limit : Nat) (r : Bytes) : ∀ (slots : List (Slot α σ)) {items : List Item}
    (f : σ) {ws : Bytes}, (∀ i ∈ items, ValueText i.value) → Blank ws →
    (ws ++ ((items.map Item.text).flatMap (comma :: ·) ++ closeBracket :: r)).length < limit →
    slotItems slots false f limit
        (ws ++ ((items.map Item.text).flatMap (comma :: ·) ++ closeBracket :: r))
      = (fillAll slots items f).map (·, itemsLeft slots.length items ws r)
  | slots, [], f, ws, _, hws, _ => by
    rw [itemsLeft]
    exact slotItems_close hws r slots false f
  | [], i :: items, f, ws, _, _, _ => rfl
  | s :: slots, i :: items, f, ws, hitems, hws, hl => by
    have hi := hitems i List.mem_cons_self
    have hd := i.delimited items r
    have hnext := nextItem_later_blank hi.starts hws i.before_blank
      (i.after ++ ((items.map Item.text).flatMap (comma :: ·) ++ closeBracket :: r))
    have ih := fun v => slotItems_later limit r slots (s.put f (some v))
      (fun j hj => hitems j (List.mem_cons_of_mem i hj)) i.after_blank
    simp only [List.map_cons, List.flatMap_cons, List.append_assoc, List.cons_append, Item.text,
      List.length_append, List.length_cons] at hl ⊢
    rw [slotItems_next hi hd hnext (by simp only [List.length_append, List.length_cons]; omega)]
    simp only [ih _ (by simp only [List.length_append, List.length_cons]; omega), fillAll,
      itemsLeft]
    cases outcome s.read i.value <;> rfl

/-- **The items of an array are put into their slots**, or the first error among them comes up. -/
theorem slotItems_spaced (s : Slot α σ) (slots : List (Slot α σ)) (f : σ)
    (hitems : ∀ i ∈ items, ValueText i.value) (hws : Blank ws)
    (hl : (ws ++ (separated (items.map Item.text) ++ closeBracket :: r)).length < limit) :
    slotItems (s :: slots) true f limit
        (ws ++ (separated (items.map Item.text) ++ closeBracket :: r))
      = (fillAll (s :: slots) items f).map (·, itemsLeft (slots.length + 1) items ws r) := by
  cases items with
  | nil => exact slotItems_close hws r (s :: slots) true f
  | cons i items =>
    have hi := hitems i List.mem_cons_self
    have hd := i.delimited items r
    have hnext := nextItem_first_blank hi.starts (hws.append i.before_blank)
      (i.after ++ ((items.map Item.text).flatMap (comma :: ·) ++ closeBracket :: r))
    have hlater := fun v => slotItems_later limit r slots (s.put f (some v))
      (fun j hj => hitems j (List.mem_cons_of_mem i hj)) i.after_blank
    rw [List.append_assoc] at hnext
    simp only [List.map_cons, separated, List.append_assoc, Item.text, List.length_append,
      List.length_cons] at hl ⊢
    rw [slotItems_next hi hd hnext (by simp only [List.length_append, List.length_cons]; omega)]
    simp only [hlater _ (by simp only [List.length_append, List.length_cons]; omega), fillAll,
      itemsLeft]
    cases outcome s.read i.value <;> rfl

/-- What all items leave in the slots. -/
structure Filled (slots : List (Slot α σ)) (items : List Item) (f f' : σ) : Prop where
  /-- A slot with an item has its value. -/
  given : ∀ p ∈ slots.zip items, ∃ v, outcome p.1.read p.2.value = .ok v ∧ p.1.held f' = some v
  /-- A slot without an item is empty. -/
  lacking : ∀ s ∈ slots.drop items.length, s.held f' = none
  /-- Any other slot is as before. -/
  other : ∀ s : Slot α σ, (∀ s' ∈ slots, s.Apart s') → s.held f' = s.held f

/-- One slot in front of others, with the value that was put there. -/
theorem Filled.other_cons {f₁ : σ} {v : Option s.Content} (hf₁ : f₁ = s.put f v)
    (h : Filled slots items f₁ f') (s' : Slot α σ) (hs' : ∀ x ∈ s :: slots, s'.Apart x) :
    s'.held f' = s'.held f := by
  rw [h.other s' fun x hx => hs' x (List.mem_cons_of_mem s hx), hf₁]
  exact (hs' s List.mem_cons_self).2.2 f v

/-- **What all items leave in the slots**, by induction over the slots. -/
theorem fill_held : ∀ {slots : List (Slot α σ)} {items : List Item} {f f' : σ},
    slots.Pairwise Slot.Apart → fillAll slots items f = .ok f' → Filled slots items f f'
  | [], items, f, f', _, h => by
    cases h
    exact ⟨by simp, by simp, fun _ _ => rfl⟩
  | s :: slots, [], f, f', hapart, h => by
    rw [List.pairwise_cons] at hapart
    have hrest := fill_held hapart.2 (show fillAll slots [] (s.put f none) = .ok f' from h)
    refine ⟨by simp, ?_, hrest.other_cons rfl⟩
    intro s' hs'
    rw [List.length_nil, List.drop_zero] at hs'
    rcases List.mem_cons.mp hs' with rfl | hs'
    · rw [hrest.other s' hapart.1]
      exact s'.held_put f none
    · exact hrest.lacking s' hs'
  | s :: slots, i :: items, f, f', hapart, h => by
    rw [List.pairwise_cons] at hapart
    obtain ⟨v, hv, h⟩ := ok_of_bind
      (show (outcome s.read i.value >>= fun v => fillAll slots items (s.put f (some v))) = .ok f'
        from h)
    have hrest := fill_held hapart.2 h
    refine ⟨?_, hrest.lacking, hrest.other_cons rfl⟩
    intro p hp
    rw [List.zip_cons_cons] at hp
    rcases List.mem_cons.mp hp with rfl | hp
    · refine ⟨v, hv, ?_⟩
      rw [hrest.other s hapart.1]
      exact s.held_put f (some v)
    · exact hrest.given p hp

theorem fill_succeeds : ∀ (slots : List (Slot α σ)) (items : List Item) (f : σ),
    (∀ p ∈ slots.zip items, ∃ v, outcome p.1.read p.2.value = .ok v) →
    ∃ f', fillAll slots items f = .ok f'
  | [], _, f, _ => ⟨f, rfl⟩
  | s :: slots, [], f, _ => fill_succeeds slots [] (s.put f none) (by simp)
  | s :: slots, i :: items, f, h => by
    obtain ⟨v, hv⟩ := h (s, i) (by simp)
    obtain ⟨f', hf'⟩ := fill_succeeds slots items (s.put f (some v))
      fun p hp => h p (by simp [hp])
    refine ⟨f', ?_⟩
    rw [fillAll, hv]
    exact hf'

/-! ## 4. Records -/

/-- What is made of the slots behind a record: the record that they show, and nothing if a slot is
empty that no record may leave out. -/
structure Makes (l : Layout α σ) (finish : σ → Except Error α) : Prop where
  made : ∀ f a, (∀ s ∈ l.slots, s.held f = some (s.content a) ∨ s.held f = none ∧ s.Absent a) →
    finish f = .ok a
  lacking : ∀ f, ∀ s ∈ l.slots, (∀ a, ¬ s.Absent a) → s.held f = none → ∃ e, finish f = .error e

/-- The two readers of a record are put together from its slots. -/
structure Assembled (l : Layout α σ) (fromObject fromArray : Reader α) where
  objectEnd : σ → Except Error α
  arrayEnd : σ → Except Error α
  objectEnd_makes : Makes l objectEnd
  arrayEnd_makes : Makes l arrayEnd
  slots_ne_nil : l.slots ≠ []
  fromObject_eq : ∀ limit t, fromObject limit t
    = (members l.member l.start limit t).bind fun (f, t) => (objectEnd f).map (·, t)
  fromArray_eq : ∀ limit t, fromArray limit t
    = (slotItems l.slots true l.start limit t).bind fun (f, t) => (arrayEnd f).map (·, t)

/-- The fields of a record, without their readers. -/
def Layout.fields (l : Layout α σ) : List (RecordField α) := l.slots.map Slot.toRecordField

namespace Assembled

variable {l : Layout α σ} {fromObject fromArray : Reader α} {name : String} {ms : List Member}
  {a : α}

/-- What an object comes to. -/
theorem object_yields (h : Assembled l fromObject fromArray) (ht : ObjectText ms t) :
    Yields (record name fromObject fromArray) t
      ((ms.foldlM (memberStep l.step) l.start).bind h.objectEnd) := by
  obtain ⟨hms, ws, hws, rfl⟩ := ht
  intro limit r _ hl
  simp only [List.cons_append, List.append_assoc, List.nil_append] at hl ⊢
  rw [List.length_cons] at hl
  have hmembers := members_spaced (fun m hm => l.stepsOver (hms m hm)) l.start hws
    (Nat.lt_of_succ_lt hl)
  rw [record, skipSpaces_cons (by decide)]
  dsimp only
  rw [if_pos rfl, h.fromObject_eq, hmembers]
  cases ms.foldlM (memberStep l.step) l.start <;> rfl

/-- What an array comes to; one with too many items is refused behind the last slot. -/
theorem array_yields (h : Assembled l fromObject fromArray) (ht : ArrayText items t) :
    Yields (record name fromObject fromArray) t
      ((fillAll l.slots items l.start).bind fun f => (h.arrayEnd f).bind fun a =>
        if items.length ≤ l.slots.length then .ok a else .error .malformed) := by
  obtain ⟨hitems, ws, hws, rfl⟩ := ht
  intro limit r _ hl
  simp only [List.cons_append, List.append_assoc, List.nil_append] at hl ⊢
  rw [List.length_cons] at hl
  obtain ⟨s, slots, hslots⟩ := List.exists_cons_of_ne_nil h.slots_ne_nil
  have hfill := slotItems_spaced s slots l.start hitems hws
    (Nat.lt_of_succ_lt hl)
  have hclose := closeArray_itemsLeft r l.slots.length items hws
  rw [← hslots, ← List.length_cons (a := s), ← hslots] at hfill
  rw [record, skipSpaces_cons (by decide)]
  dsimp only
  rw [if_neg (by decide), if_pos rfl, h.fromArray_eq, hfill]
  cases fillAll l.slots items l.start with
  | error e => rfl
  | ok f =>
    simp only [Except.map, Except.bind]
    cases h.arrayEnd f with
    | error e => rfl
    | ok a =>
      by_cases hlength : items.length ≤ l.slots.length
      · simp only [hclose, if_pos hlength]
      · simp only [hclose, if_neg hlength]

/-- **Every value comes to something**, whatever its kind. -/
theorem steady (h : Assembled l fromObject fromArray) (name : String) (t : Bytes)
    (ht : ValueText t) : Steady (record name fromObject fromArray) t := by
  refine steady_of_marks (.record name) (fun b => b = openBrace ∨ b = openBracket) ?skip
    (fun b hspace hb limit s => ?other) ht fun b hhead hb => ?marked
  case skip =>
    intro ws hws limit s
    rw [record, record, skipSpaces_blank hws]
  case other =>
    rw [not_or] at hb
    rw [record, skipSpaces_cons hspace]
    dsimp only
    rw [if_neg hb.1, if_neg hb.2]
  case marked =>
    rcases hb with rfl | rfl
    · obtain ⟨ms, hms⟩ := ht.object_of_head hhead
      exact ⟨_, h.object_yields hms⟩
    · obtain ⟨items, hitems⟩ := ht.array_of_head hhead
      exact ⟨_, h.array_yields hitems⟩

/-- An object that shows a record. -/
theorem reads_object (h : Assembled l fromObject fromArray) (ht : ObjectForm l.fields a t) :
    outcome (record name fromObject fromArray) t = .ok a := by
  obtain ⟨ms, hobject, hnames, hfields⟩ := ht
  have hslots : ∀ s ∈ l.slots, (ms.Pairwise fun m m' => ¬ (m.Named s.name ∧ m'.Named s.name)) ∧
      (∀ m ∈ ms, m.Named s.name → s.Shows a m.item.value) ∧
      ((∀ m ∈ ms, ¬ m.Named s.name) → s.Absent a) :=
    fun s hs => hfields s.toRecordField (List.mem_map_of_mem hs)
  have hreads : ∀ s ∈ l.slots, ∀ m ∈ ms, m.Named s.name →
      outcome s.read m.item.value = .ok (s.content a) := fun s hs m hm hname =>
    s.reads a _ (hobject.1 m hm) ((hslots s hs).2.1 m hm hname)
  obtain ⟨f, hf⟩ := Layout.fold_succeeds (f := l.start) hobject.1 hnames fun s hs =>
    ⟨(hslots s hs).1, fun m hm hname =>
      ⟨l.start_held s hs, s.content a, hreads s hs m hm hname⟩⟩
  rw [(h.object_yields hobject).outcome_eq, hf]
  refine h.objectEnd_makes.made f a fun s hs => ?_
  have hheld := Layout.fold_held hs hobject.1 hf
  by_cases hany : ∃ m ∈ ms, m.Named s.name
  · obtain ⟨m, hm, hname⟩ := hany
    obtain ⟨-, v, hv, hsome⟩ := hheld.given m hm hname
    rw [hreads s hs m hm hname, Except.ok.injEq] at hv
    exact .inl (hv ▸ hsome)
  · have hnone : ∀ m ∈ ms, ¬ m.Named s.name := fun m hm hname => hany ⟨m, hm, hname⟩
    exact .inr ⟨(hheld.left hnone).trans (l.start_held s hs), (hslots s hs).2.2 hnone⟩

/-- An array that shows a record. -/
theorem reads_array (h : Assembled l fromObject fromArray) (ht : ArrayForm l.fields a t) :
    outcome (record name fromObject fromArray) t = .ok a := by
  obtain ⟨items, _, _, hfields, harray, hshown, homitted⟩ := ht
  obtain ⟨shown, omitted, hslots, rfl, rfl⟩ := List.map_eq_append_iff.mp hfields
  rw [List.forall₂_map_left_iff] at hshown
  have hlength := hshown.length_eq
  have hzip : l.slots.zip items = shown.zip items := by
    rw [hslots, ← List.append_nil items, List.zip_append hlength, List.append_nil,
      List.zip_nil_right, List.append_nil]
  have hdrop : l.slots.drop items.length = omitted := by
    rw [hslots, List.drop_left' hlength]
  have hreads : ∀ p ∈ l.slots.zip items, outcome p.1.read p.2.value = .ok (p.1.content a) := by
    rintro ⟨s, i⟩ hp
    rw [hzip] at hp
    exact s.reads a i.value (harray.1 i (List.of_mem_zip hp).2) ((List.forall₂_zip hshown hp))
  obtain ⟨f, hf⟩ := fill_succeeds l.slots items l.start fun p hp => ⟨_, hreads p hp⟩
  have hfilled := fill_held l.apart hf
  have hmade : h.arrayEnd f = .ok a := by
    refine h.arrayEnd_makes.made f a fun s hs => ?_
    rw [hslots] at hs
    rcases List.mem_append.mp hs with hs | hs
    · obtain ⟨i, hi⟩ : ∃ i, (s, i) ∈ shown.zip items := by
        obtain ⟨n, hn, rfl⟩ := List.getElem_of_mem hs
        exact ⟨items[n], List.mem_iff_getElem.mpr ⟨n, by simp; omega, by simp⟩⟩
      obtain ⟨v, hv, hheld⟩ := hfilled.given (s, i) (hzip ▸ hi)
      rw [hreads (s, i) (hzip ▸ hi), Except.ok.injEq] at hv
      exact .inl (hv ▸ hheld)
    · refine .inr ⟨hfilled.lacking s (hdrop ▸ hs), ?_⟩
      exact homitted s.toRecordField (List.mem_map_of_mem hs)
  have hle : items.length ≤ l.slots.length := by
    rw [hslots, List.length_append]
    omega
  rw [(h.array_yields harray).outcome_eq, hf, Except.bind, hmade, Except.bind, if_pos hle]

/-- **Every text of a record is read to the record.** -/
theorem reads (h : Assembled l fromObject fromArray) (ht : RecordText l.fields a t) :
    outcome (record name fromObject fromArray) t = .ok a := by
  rcases ht with ht | ht
  · exact h.reads_object ht
  · exact h.reads_array ht

/-- A flaw in an object, wherever it is and whatever else is wrong. -/
theorem refuses_object (h : Assembled l fromObject fromArray) (ht : ObjectFlawed l.fields t) :
    ∃ e, outcome (record name fromObject fromArray) t = .error e := by
  obtain ⟨ms, hobject, _, hfield, hflaw⟩ := ht
  obtain ⟨s, hs, rfl⟩ := List.mem_map.mp hfield
  rw [(h.object_yields hobject).outcome_eq]
  cases hf : ms.foldlM (memberStep l.step) l.start with
  | error e => exact ⟨e, rfl⟩
  | ok f =>
    have hheld := Layout.fold_held hs hobject.1 hf
    rcases hflaw with ⟨m, m', hsub, hm, hm'⟩ | ⟨m, hm, hname, hflawed⟩ | ⟨hneeded, hnone⟩
    · exact absurd ⟨hm, hm'⟩ (List.pairwise_iff_forall_sublist.mp hheld.once hsub)
    · obtain ⟨-, v, hv, -⟩ := hheld.given m hm hname
      obtain ⟨e, he⟩ := s.refuses _ (hobject.1 m hm) hflawed
      rw [hv] at he
      cases he
    · exact h.objectEnd_makes.lacking f s hs hneeded
        ((hheld.left hnone).trans (l.start_held s hs))

/-- A flaw in an array. -/
theorem refuses_array (h : Assembled l fromObject fromArray) (ht : ArrayFlawed l.fields t) :
    ∃ e, outcome (record name fromObject fromArray) t = .error e := by
  obtain ⟨items, harray, hflaw⟩ := ht
  rw [(h.array_yields harray).outcome_eq]
  cases hf : fillAll l.slots items l.start with
  | error e => exact ⟨e, rfl⟩
  | ok f =>
    have hfilled := fill_held l.apart hf
    rcases hflaw with ⟨p, hp, hflawed⟩ | ⟨_, hfield, hneeded⟩
    · rw [Layout.fields, List.zip_map_left] at hp
      obtain ⟨⟨s, i⟩, hsi, rfl⟩ := List.mem_map.mp hp
      obtain ⟨v, hv, -⟩ := hfilled.given (s, i) hsi
      obtain ⟨e, he⟩ := s.refuses _ (harray.1 i (List.of_mem_zip hsi).2) hflawed
      rw [hv] at he
      cases he
    · rw [Layout.fields, ← List.map_drop] at hfield
      obtain ⟨s, hs, rfl⟩ := List.mem_map.mp hfield
      obtain ⟨e, he⟩ := h.arrayEnd_makes.lacking f s (List.mem_of_mem_drop hs) hneeded
        (hfilled.lacking s hs)
      exact ⟨e, by rw [Except.bind, he]; rfl⟩

/-- **Every flawed text is refused.** -/
theorem refuses (h : Assembled l fromObject fromArray) (ht : RecordFlawed l.fields t) :
    ∃ e, outcome (record name fromObject fromArray) t = .error e := by
  rcases ht with rfl | ht | ht
  · exact ⟨.mismatch (.wrongType .null (.record name)), rfl⟩
  · exact h.refuses_object ht
  · exact h.refuses_array ht

/-- **A record whose readers are put together from its slots** is taken in every form. -/
theorem takesEveryForm (h : Assembled l fromObject fromArray) (name : String) :
    TakesEveryForm l.fields (record name fromObject fromArray) := by
  intro ws t ws' hws hws'
  refine ⟨fun a ht => ?_, fun ht => ?_⟩
  · rw [(h.steady name t ht.valueText).fromBytes hws hws', h.reads ht]
  · rw [(h.steady name t ht.valueText).fromBytes hws hws']
    exact h.refuses ht

end Assembled

end MeshNode.Json
