/-
# The forms of a value

One value can be written in many texts.  Strings are escaped in more than one way, the members of an
object come in any order with others between them, white space stands anywhere, and a record may be
an object or an array of its fields.  The forms of strings, lists, dictionaries and records are told
here without a reader, together with the flaws for which a text of a record is refused; then the
readers of strings, lists and dictionaries are run over their forms.

* `StringText`, `ListText`, `MapText`: the texts of strings, lists and dictionaries;
* `RecordField`, `RecordText` and `RecordFlawed`: the texts of a record, field by field, and its
  flaws, and `TakesEveryForm`: what a reader should make of them;
* `valueText_write`, `stringText_write`, `listText_write`, `mapText_write`, `objectForm_write`: what
  is written is one of the forms;
* `text_of_form`, `listOf_of_form`, `mapOf_of_form`: the readers, with `listOf_steady` and
  `mapOf_steady` on any other value.
-/
import Mathlib.Data.List.Forall2
import MeshNode.Proofs.Json.Steady

namespace MeshNode.Json

open Token

variable {α β : Type} {t : Bytes}

/-! ## 1. Strings, lists and dictionaries -/

/-- A text of a string. -/
def StringText (s : String) (t : Bytes) : Prop :=
  ∃ u, Spells u (Utf8.encode s) ∧ t = quote :: (u ++ [quote])

/-- A text of a list, for the texts of its items. -/
def ListText (Shows : α → Bytes → Prop) (as : List α) (t : Bytes) : Prop :=
  ∃ items, ArrayText items t ∧ List.Forall₂ (fun i a => Shows a i.value) items as

/-- A text of a dictionary of strings: entries in any order, of which the last one with a key
counts. -/
def MapText (d : Dictionary String) (t : Bytes) : Prop :=
  ∃ members, ∃ pairs : List (String × String), ObjectText members t ∧
    List.Forall₂ (fun m e => m.Named e.1 ∧ StringText e.2 m.item.value) members pairs ∧
    pairs.foldl (fun d e => d.put e.1 e.2) .empty = d

/-! ## 2. Records -/

/-- A field of a record: its name, the texts that show what a record has in it, the records that may
leave it out, and the texts that no record may have in it. -/
structure RecordField (α : Type) where
  name : String
  Shows : α → Bytes → Prop
  Absent : α → Prop
  Flawed : Bytes → Prop

variable {fields : List (RecordField α)} {a : α}

/-- An object for a record: no field is named twice, each that is named shows the record, and the
others may be left out.  Members with other names may stand anywhere. -/
def ObjectForm (fields : List (RecordField α)) (a : α) (t : Bytes) : Prop :=
  ∃ members, ObjectText members t ∧ (∀ m ∈ members, ∃ name, m.Named name) ∧
    ∀ f ∈ fields, (members.Pairwise fun m m' => ¬ (m.Named f.name ∧ m'.Named f.name)) ∧
      (∀ m ∈ members, m.Named f.name → f.Shows a m.item.value) ∧
      ((∀ m ∈ members, ¬ m.Named f.name) → f.Absent a)

/-- An array for a record: its fields in their order, and those that are lacking at the end may be
left out. -/
def ArrayForm (fields : List (RecordField α)) (a : α) (t : Bytes) : Prop :=
  ∃ items shown omitted, fields = shown ++ omitted ∧ ArrayText items t ∧
    List.Forall₂ (fun f i => f.Shows a i.value) shown items ∧ ∀ f ∈ omitted, f.Absent a

/-- **The texts of a record.** -/
def RecordText (fields : List (RecordField α)) (a : α) (t : Bytes) : Prop :=
  ObjectForm fields a t ∨ ArrayForm fields a t

/-- An object that is flawed at some field, whatever else stands in it: the field is named twice, or
its value is flawed, or it is lacking although no record may leave it out. -/
def ObjectFlawed (fields : List (RecordField α)) (t : Bytes) : Prop :=
  ∃ members, ObjectText members t ∧ ∃ f ∈ fields,
    (∃ m m', [m, m'].Sublist members ∧ m.Named f.name ∧ m'.Named f.name) ∨
    (∃ m ∈ members, m.Named f.name ∧ f.Flawed m.item.value) ∨
    ((∀ a, ¬ f.Absent a) ∧ ∀ m ∈ members, ¬ m.Named f.name)

/-- An array that is flawed at some field: its value is flawed, or it is lacking although no record
may leave it out. -/
def ArrayFlawed (fields : List (RecordField α)) (t : Bytes) : Prop :=
  ∃ items, ArrayText items t ∧
    ((∃ p ∈ fields.zip items, p.1.Flawed p.2.value) ∨
      ∃ f ∈ fields.drop items.length, ∀ a, ¬ f.Absent a)

/-- **The flaws of a record**: null, or a flaw at some field of an object or an array. -/
def RecordFlawed (fields : List (RecordField α)) (t : Bytes) : Prop :=
  t = nullWord ∨ ObjectFlawed fields t ∨ ArrayFlawed fields t

/-- A list with a flawed item is flawed, and so is null. -/
def ListFlawed (Flawed : Bytes → Prop) (t : Bytes) : Prop :=
  t = nullWord ∨ ∃ items, ArrayText items t ∧ ∃ i ∈ items, Flawed i.value

/-- A text of a record is a value, whichever form it has. -/
theorem RecordText.valueText (h : RecordText fields a t) : ValueText t := by
  rcases h with ⟨_, h, -⟩ | ⟨_, _, _, -, h, -⟩
  · exact h.valueText
  · exact h.valueText

/-- A flawed text is a value too: it is not for its syntax that it is refused. -/
theorem RecordFlawed.valueText (h : RecordFlawed fields t) : ValueText t := by
  rcases h with rfl | ⟨_, h, -⟩ | ⟨_, h, -⟩
  · exact .word List.mem_cons_self
  · exact h.valueText
  · exact h.valueText

/-- **A reader of a record takes every text of it**, with white space around it, and refuses every
flawed one. -/
def TakesEveryForm (fields : List (RecordField α)) (read : Reader α) : Prop :=
  ∀ ws t ws', Blank ws → Blank ws' →
    (∀ a, RecordText fields a t → fromBytes read (ws ++ (t ++ ws')) = .ok a) ∧
      (RecordFlawed fields t → ∃ e, fromBytes read (ws ++ (t ++ ws')) = .error e)

/-! ## 3. What is written is one of the forms -/

theorem stringText_write (s : String) : StringText s (write (.str s)) := by
  rw [write_str]
  exact ⟨_, spells_inner s, rfl⟩

theorem StringText.valueText {s : String} (h : StringText s t) : ValueText t := by
  obtain ⟨u, hu, rfl⟩ := h
  exact .string hu.inner

theorem arrayText_write {items : List Json} (h : ∀ v ∈ items, ValueText (write v)) :
    ArrayText (items.map fun v => .written (write v)) (write (.arr items)) := by
  refine ⟨List.forall_mem_map.mpr h, [], blank_nil, ?_⟩
  rw [write_arr, List.map_map, List.nil_append]
  simp only [Function.comp_def, Item.written_text]

theorem objectText_write {members : List (String × Json)}
    (h : ∀ m ∈ members, ValueText (write m.2)) :
    ObjectText (members.map fun m => .written m.1 (write m.2)) (write (.obj members)) := by
  refine ⟨List.forall_mem_map.mpr h, [], blank_nil, ?_⟩
  rw [write_obj, List.map_map, List.nil_append]
  simp only [Function.comp_def, Member.written_text, memberTexts]

/-- A text that is read as a value, and does not begin with white space, is one. -/
theorem Sound.valueText {read : Reader α} (hsound : Sound read) (hs : Starts t) {a : α}
    (h : Yields read t (.ok a)) : ValueText t := by
  have hat : ValueAt t [] := hsound (h.alone (Nat.lt_succ_self t.length))
  obtain ⟨ws, u, hws, hu, rfl⟩ := hat
  obtain ⟨b, rest, ht, hb, -⟩ := hs
  cases ws with
  | nil => simpa using hu
  | cons w ws =>
    obtain rfl : w = b := (List.cons.inj ht).1
    exact absurd (hws w List.mem_cons_self) (by simp [hb])

/-- **A written value is a value of the grammar**, whether it can be read back or not. -/
theorem valueText_write (v : Json) : v.floatFree = true → ValueText (write v) := by
  have hscalar : ∀ {v : Json}, v.floatFree = true → Yields (value 0) (write v) (.ok v) →
      ValueText (write v) := fun hf hy => (value_sound 0).valueText (starts_write _ hf) hy
  induction v using induction with
  | null => exact fun hf => hscalar hf (null_yields 0)
  | bool b => exact fun hf => hscalar hf (bool_yields 0 b)
  | int n => exact fun hf => hscalar hf (int_yields 0 hf)
  | float x => exact fun hf => absurd hf (by simp [floatFree])
  | str s => exact fun _ => (stringText_write s).valueText
  | arr items ih =>
    intro hf
    exact (arrayText_write fun v hv => ih v hv (floatFree_arr.mp hf v hv)).valueText
  | obj members ih =>
    intro hf
    exact (objectText_write fun m hm => ih m hm (floatFree_obj.mp hf m hm)).valueText

/-- A written list, item by item. -/
theorem listText_write {Shows : α → Bytes → Prop} {toJson : α → Json} {as : List α}
    (h : ∀ a ∈ as, ValueText (write (toJson a)) ∧ Shows a (write (toJson a))) :
    ListText Shows as (write (.arr (as.map toJson))) := by
  refine ⟨_, arrayText_write (List.forall_mem_map.mpr fun a ha => (h a ha).1), ?_⟩
  rw [List.map_map, List.forall₂_map_left_iff]
  exact List.forall₂_same.mpr fun a ha => (h a ha).2

/-- A written dictionary. -/
theorem mapText_write (d : Dictionary String) :
    MapText d (write (.obj (d.entries.map fun e => (e.1, .str e.2)))) := by
  have hvalues : ∀ e ∈ d.entries, ValueText (write (.str e.2)) := fun e _ =>
    (stringText_write e.2).valueText
  refine ⟨_, d.entries, objectText_write (List.forall_mem_map.mpr hvalues), ?_, ?_⟩
  · rw [List.map_map, List.forall₂_map_left_iff]
    exact List.forall₂_same.mpr fun e _ => ⟨Member.written_named _ _, stringText_write e.2⟩
  · exact Dictionary.foldl_put_entries d

/-- A written object, if its members have different names and show the record. -/
theorem objectForm_write {members : List (String × Json)}
    (hvalues : ∀ m ∈ members, ValueText (write m.2)) (hkeys : (members.map Prod.fst).Nodup)
    (hfields : ∀ f ∈ fields, (∀ v, (f.name, v) ∈ members → f.Shows a (write v)) ∧
      (f.name ∉ members.map Prod.fst → f.Absent a)) :
    ObjectForm fields a (write (.obj members)) := by
  refine ⟨_, objectText_write hvalues, ?named, fun f hf => ⟨?once, ?shown, ?absent⟩⟩
  case named =>
    intro m hm
    obtain ⟨e, -, rfl⟩ := List.mem_map.mp hm
    exact ⟨e.1, Member.written_named _ _⟩
  case once =>
    rw [List.pairwise_map]
    refine (List.pairwise_map.mp hkeys).imp fun hne hboth => hne ?_
    exact (Member.written_named_iff.mp hboth.1).symm.trans (Member.written_named_iff.mp hboth.2)
  case shown =>
    intro m hm hname
    obtain ⟨⟨key, v⟩, he, rfl⟩ := List.mem_map.mp hm
    obtain rfl := Member.written_named_iff.mp hname
    exact (hfields f hf).1 v he
  case absent =>
    refine fun hnone => (hfields f hf).2 fun hmem => ?_
    obtain ⟨e, he, hname⟩ := List.mem_map.mp hmem
    exact hnone _ (List.mem_map_of_mem he) (Member.written_named_iff.mpr hname.symm)

/-! ## 4. The readers of strings, lists and dictionaries -/

theorem text_of_form {s : String} (h : StringText s t) : outcome text t = .ok s := by
  obtain ⟨u, hu, rfl⟩ := h
  rw [text, (textFor_string .text hu.inner).outcome_eq, hu.spelled]

variable {read : Reader α} {Shows : α → Bytes → Prop} {Flawed : Bytes → Prop} {as : List α}

/-- An array is read to the outcomes of its items. -/
theorem listOf_array {items : List Item} (hread : ∀ t, ValueText t → Steady read t)
    (h : ArrayText items t) :
    Yields (listOf read) t (items.mapM fun i => outcome read i.value) := by
  obtain ⟨hitems, ws, hws, rfl⟩ := h
  intro limit r _ hl
  simp only [List.cons_append, List.append_assoc, List.nil_append] at hl ⊢
  rw [List.length_cons] at hl
  have hinside := items_spaced (fun i hi => (hread _ (hitems i hi)).yields)
    (fun i hi => (hitems i hi).starts) hws (Nat.lt_of_succ_lt hl)
  rw [listOf, skipSpaces_cons (by decide)]
  dsimp only
  rw [if_pos rfl, hinside]

/-- **Lists**, and every value that is none. -/
theorem listOf_steady (hread : ∀ t, ValueText t → Steady read t) (h : ValueText t) :
    Steady (listOf read) t := by
  refine steady_of_marks .array (· = openBracket) ?skip (fun b hspace hb limit s => ?other) h
    fun b hhead hb => ?array
  case skip =>
    intro ws hws limit s
    rw [listOf, listOf, skipSpaces_blank hws]
  case other =>
    rw [listOf, skipSpaces_cons hspace]
    exact if_neg hb
  case array =>
    subst hb
    obtain ⟨items, hitems⟩ := h.array_of_head hhead
    exact ⟨_, listOf_array hread hitems⟩

/-- Results that are there one by one are there together. -/
theorem mapM_of_forall₂ {f : β → Except Error α} {bs : List β}
    (h : List.Forall₂ (fun b a => f b = .ok a) bs as) : bs.mapM f = .ok as := by
  induction h with
  | nil => rfl
  | cons hab _ ih =>
    rw [List.mapM_cons, hab, ih]
    rfl

/-- If the results are there together, they are there one by one. -/
theorem exists_of_mapM {f : β → Except Error α} : ∀ {bs : List β} {as : List α},
    bs.mapM f = .ok as → ∀ b ∈ bs, ∃ a, f b = .ok a
  | [], _, _, b, hb => absurd hb List.not_mem_nil
  | b :: bs, as, h, c, hc => by
    rw [List.mapM_cons] at h
    obtain ⟨a, ha, h⟩ := ok_of_bind h
    obtain ⟨as', has, -⟩ := ok_of_bind h
    rcases List.mem_cons.mp hc with rfl | hc
    · exact ⟨a, ha⟩
    · exact exists_of_mapM has c hc

theorem listOf_of_form (hread : ∀ t, ValueText t → Steady read t)
    (hshows : ∀ a t, ValueText t → Shows a t → outcome read t = .ok a) (h : ListText Shows as t) :
    outcome (listOf read) t = .ok as := by
  obtain ⟨items, harray, hitems⟩ := h
  have hboth := (List.forall₂_and_left _ _).mpr ⟨harray.1, hitems⟩
  rw [(listOf_array hread harray).outcome_eq]
  exact mapM_of_forall₂ (hboth.imp fun i a hi => hshows a i.value hi.1 hi.2)

theorem listOf_of_flawed (hread : ∀ t, ValueText t → Steady read t)
    (hflawed : ∀ t, ValueText t → Flawed t → ∃ e, outcome read t = .error e)
    (h : ListFlawed Flawed t) : ∃ e, outcome (listOf read) t = .error e := by
  rcases h with rfl | ⟨items, harray, i, hi, hbad⟩
  · exact ⟨.mismatch (.wrongType .null .array), rfl⟩
  rw [(listOf_array hread harray).outcome_eq]
  cases hresult : items.mapM fun i => outcome read i.value with
  | error e => exact ⟨e, rfl⟩
  | ok as =>
    obtain ⟨a, ha⟩ := exists_of_mapM hresult i hi
    obtain ⟨e, he⟩ := hflawed i.value (harray.1 i hi) hbad
    rw [ha] at he
    cases he

/-- What a member of a dictionary does to the entries before it. -/
def putMember (read : Reader α) : Dictionary α → Member → Except Error (Dictionary α) :=
  memberStep (putEntry (fun key v d => d.put key v) read)

/-- An object is read to what its members put together. -/
theorem mapOf_object {members : List Member} (hread : ∀ t, ValueText t → Steady read t)
    (h : ObjectText members t) :
    Yields (mapOf read) t (members.foldlM (putMember read) .empty) := by
  obtain ⟨hmembers, ws, hws, rfl⟩ := h
  intro limit r _ hl
  simp only [List.cons_append, List.append_assoc, List.nil_append] at hl ⊢
  rw [List.length_cons] at hl
  have hsteps := fun m hm =>
    entries_stepsOver (fun key v (d : Dictionary α) => d.put key v) (hread _ (hmembers m hm))
  rw [mapOf, skipSpaces_cons (by decide)]
  dsimp only
  rw [if_pos rfl, members_spaced hsteps .empty hws (Nat.lt_of_succ_lt hl)]
  rfl

/-- **Dictionaries**, and every value that is none. -/
theorem mapOf_steady (hread : ∀ t, ValueText t → Steady read t) (h : ValueText t) :
    Steady (mapOf read) t := by
  refine steady_of_marks .object (· = openBrace) ?skip (fun b hspace hb limit s => ?other) h
    fun b hhead hb => ?object
  case skip =>
    intro ws hws limit s
    rw [mapOf, mapOf, skipSpaces_blank hws]
  case other =>
    rw [mapOf, skipSpaces_cons hspace]
    exact if_neg hb
  case object =>
    subst hb
    obtain ⟨members, hmembers⟩ := h.object_of_head hhead
    exact ⟨_, mapOf_object hread hmembers⟩

/-- The entries of a dictionary are put together in the order of the text. -/
theorem mapOf_of_form {d : Dictionary String} (h : MapText d t) :
    outcome (mapOf text) t = .ok d := by
  obtain ⟨members, pairs, hobject, hpairs, rfl⟩ := h
  rw [(mapOf_object (fun t ht => text_steady ht) hobject).outcome_eq]
  clear hobject
  generalize Dictionary.empty = d
  induction hpairs generalizing d with
  | nil => rfl
  | @cons m e ms es hentry _ ih =>
    have hstep : putMember text d m = .ok (d.put e.1 e.2) := by
      rw [putMember, memberStep, hentry.1.spelled, Except.bind, putEntry, text_of_form hentry.2]
      rfl
    rw [List.foldlM_cons, hstep]
    exact ih (d.put e.1 e.2)

end MeshNode.Json
