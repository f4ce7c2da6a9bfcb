/-
# Aliases and changes in any form

A controller may be written in any language, and its answers come in whatever form its writer gives
them: fields in another order, fields left out, fields that this side does not know, strings escaped
or not, records as arrays.  All the forms of one record are read to that record, at every level; and
a field that is given twice, that is null, or that is missing without a default is never overlooked.

* `Metadata.fields`, `Alias.fields`, `Difference.fields`, `Change.fields`: the records field by
  field, which says what their texts and their flaws are;
* `Metadata.recordText_toJson` and its like: what is written is one of the texts;
* `Metadata.layout`, `Metadata.assembled` and their like: the readers, slot by slot;
* `Alias.read_in_any_form`: what the readers make of all the texts.
-/
import MeshNode.Proofs.Alias.Codec
import MeshNode.Proofs.Json.Record

namespace MeshNode

open Json Token

variable {α σ : Type}

/-! ## 1. The fields of the records -/

/-- A field for a string. -/
def textField (name : String) (get : α → String) (Absent : α → Prop) : RecordField α where
  name := name
  Shows a t := StringText (get a) t
  Absent := Absent
  Flawed t := t = nullWord

namespace Metadata

/-- The field for the annotations. -/
def annotationsField : RecordField Metadata where
  name := "annotations"
  Shows m t := MapText m.annotations t
  Absent m := m.annotations = .empty
  Flawed t := t = nullWord

/-- The fields of metadata: each may be left out where it is empty. -/
def fields : List (RecordField Metadata) :=
  [textField "name" name fun m => m.name = "", textField "parent" parent fun m => m.parent = "",
    textField "uuid" uuid fun m => m.uuid = "", annotationsField]

end Metadata

namespace Alias

/-- The field for the metadata, which may stand in either form. -/
def metadataField : RecordField Alias where
  name := "meta"
  Shows a t := RecordText Metadata.fields a.metadata t
  Absent a := a.metadata = {}
  Flawed t := RecordFlawed Metadata.fields t

/-- The fields of an alias: each may be left out where it is empty. -/
def fields : List (RecordField Alias) :=
  [metadataField, textField "resource" resource fun a => a.resource = ""]

end Alias

namespace Difference

/-- The fields of a difference: none may be left out. -/
def fields : List (RecordField Difference) :=
  [textField "field" field fun _ => False, textField "from" before fun _ => False,
    textField "to" after fun _ => False]

end Difference

namespace Change

/-- The field for the differences, each of which may stand in either form. -/
def differencesField : RecordField Change where
  name := "diff"
  Shows c t := ListText (RecordText Difference.fields) c.differences t
  Absent c := c.differences = []
  Flawed t := ListFlawed (RecordFlawed Difference.fields) t

/-- The fields of a change: the differences may be left out where there are none. -/
def fields : List (RecordField Change) :=
  [textField "context" context fun _ => False, differencesField]

end Change

/-! ## 2. What is written -/

/-- **Written metadata** is one of its texts. -/
theorem Metadata.recordText_toJson (m : Metadata) : RecordText fields m m.toJson.write := by
  have hannotations := mapText_write m.annotations
  have hvalue : ValueText (write (.obj (m.annotations.entries.map fun e => (e.1, .str e.2)))) := by
    obtain ⟨_, _, hobject, -⟩ := hannotations
    exact hobject.valueText
  refine .inl ?_
  unfold toJson
  split
  next hempty =>
    refine objectForm_write ?_ (by simp) ?_
    · simp [(stringText_write _).valueText]
    · have hnone : m.annotations = .empty := by
        obtain ⟨_, _, _, ⟨entries, _⟩⟩ := m
        cases entries with
        | nil => rfl
        | cons e es => cases hempty
      simpa [fields, textField, annotationsField, stringText_write] using hnone
  · refine objectForm_write ?_ (by simp) ?_
    · simp [(stringText_write _).valueText, hvalue]
    · simp [fields, textField, annotationsField, stringText_write, hannotations]

/-- **A written alias** is one of its texts. -/
theorem Alias.recordText_toJson (a : Alias) : RecordText fields a a.toJson.write := by
  have hmetadata := a.metadata.recordText_toJson
  refine .inl (objectForm_write ?_ (by simp) ?_)
  · simp [(stringText_write _).valueText, hmetadata.valueText]
  · simp [fields, textField, metadataField, stringText_write, hmetadata]

/-- **A written difference** is one of its texts. -/
theorem Difference.recordText_toJson (d : Difference) : RecordText fields d d.toJson.write := by
  refine .inl (objectForm_write ?_ (by simp) ?_)
  · simp [(stringText_write _).valueText]
  · simp [fields, textField, stringText_write]

/-- **A written change** is one of its texts. -/
theorem Change.recordText_toJson (c : Change) : RecordText fields c c.toJson.write := by
  have hdifferences : ListText (RecordText Difference.fields) c.differences
      (write (.arr (c.differences.map Difference.toJson))) :=
    listText_write fun d _ =>
      ⟨(Difference.recordText_toJson d).valueText, Difference.recordText_toJson d⟩
  have hvalue : ValueText (write (.arr (c.differences.map Difference.toJson))) := by
    obtain ⟨_, harray, -⟩ := hdifferences
    exact harray.valueText
  refine .inl (objectForm_write ?_ (by simp) ?_)
  · simp [(stringText_write _).valueText, hvalue]
  · simp [fields, textField, differencesField, stringText_write, hdifferences]

/-! ## 3. Their slots -/

/-- A slot for a string. -/
def textSlot (name : String) (get : α → String) (Absent : α → Prop) (held : σ → Option String)
    (put : σ → Option String → σ) (held_put : ∀ f v, held (put f v) = v) : Slot α σ where
  toRecordField := textField name get Absent
  Content := String
  read := text
  content := get
  held := held
  put := put
  steady _ h := text_steady h
  reads _ _ _ h := text_of_form h
  refuses := by
    rintro t _ rfl
    exact ⟨.mismatch (.wrongType .null .text), rfl⟩
  held_put := held_put

/-- A slot that is empty where its default is meant. -/
theorem getD_of_held {β : Type} {held : Option β} {v default : β}
    (h : held = some v ∨ held = none ∧ v = default) : held.getD default = v := by
  rcases h with rfl | ⟨rfl, rfl⟩
  · rfl
  · rfl

namespace Metadata

/-- The slot for the annotations. -/
def annotationsSlot : Slot Metadata Fields where
  toRecordField := annotationsField
  Content := Dictionary String
  read := mapOf text
  content := annotations
  held := Fields.annotations
  put f v := { f with annotations := v }
  steady _ h := mapOf_steady (fun _ h => text_steady h) h
  reads _ _ _ h := mapOf_of_form h
  refuses := by
    rintro t _ rfl
    exact ⟨.mismatch (.wrongType .null .object), rfl⟩
  held_put _ _ := rfl

/-- The slots of metadata. -/
def slots : List (Slot Metadata Fields) :=
  [textSlot "name" name (fun m => m.name = "") Fields.name (fun f v => { f with name := v })
      fun _ _ => rfl,
    textSlot "parent" parent (fun m => m.parent = "") Fields.parent
      (fun f v => { f with parent := v }) fun _ _ => rfl,
    textSlot "uuid" uuid (fun m => m.uuid = "") Fields.uuid (fun f v => { f with uuid := v })
      fun _ _ => rfl,
    annotationsSlot]

/-- How metadata is read. -/
def layout : Layout Metadata Fields where
  slots := slots
  start := {}
  member := member
  apart := by simp [slots, textSlot, textField, annotationsSlot, annotationsField, Slot.Apart]
  start_held := by simp [slots, textSlot, annotationsSlot]
  member_slot := by
    simp [slots, textSlot, textField, annotationsSlot, annotationsField, member]
  member_other := by
    intro name hname f limit t
    simp [slots, textSlot, textField, annotationsSlot, annotationsField] at hname
    simp [member, hname, passOver]

theorem makes : Makes layout fun f => .ok f.toMetadata where
  made := by
    intro f m h
    simp only [layout, slots, List.forall_mem_cons] at h
    obtain ⟨hname, hparent, huuid, hannotations, -⟩ := h
    have hname : f.name.getD "" = m.name := getD_of_held hname
    have hparent : f.parent.getD "" = m.parent := getD_of_held hparent
    have huuid : f.uuid.getD "" = m.uuid := getD_of_held huuid
    have hannotations : f.annotations.getD .empty = m.annotations := getD_of_held hannotations
    rw [Fields.toMetadata, hname, hparent, huuid, hannotations]
  lacking := by
    intro f s hs hneeded
    simp only [layout, slots, List.mem_cons, List.not_mem_nil, or_false] at hs
    rcases hs with rfl | rfl | rfl | rfl <;> exact absurd rfl (hneeded {})

/-- The readers of metadata are put together from its slots. -/
def assembled : Assembled layout fromObject fromArray where
  objectEnd f := .ok f.toMetadata
  arrayEnd f := .ok f.toMetadata
  objectEnd_makes := makes
  arrayEnd_makes := makes
  slots_ne_nil := List.cons_ne_nil _ _
  fromObject_eq := by
    intro limit t
    rw [fromObject, layout]
    cases members member {} limit t <;> rfl
  fromArray_eq := by
    intro limit t
    simp only [fromArray, layout, slots, slotItems, textSlot, annotationsSlot, bind, Except.bind]
    rcases optionalItem true text limit t with _ | ⟨name, t⟩
    · rfl
    dsimp only
    rcases optionalItem false text limit t with _ | ⟨parent, t⟩
    · rfl
    dsimp only
    rcases optionalItem false text limit t with _ | ⟨uuid, t⟩
    · rfl
    dsimp only
    rcases optionalItem false (mapOf text) limit t with _ | ⟨annotations, t⟩ <;> rfl

end Metadata

namespace Alias

/-- The slot for the metadata. -/
def metadataSlot : Slot Alias Fields where
  toRecordField := metadataField
  Content := Metadata
  read := Metadata.reader
  content := metadata
  held := Fields.metadata
  put f v := { f with metadata := v }
  steady := Metadata.assembled.steady "Metadata"
  reads _ _ _ h := Metadata.assembled.reads h
  refuses _ _ h := Metadata.assembled.refuses h
  held_put _ _ := rfl

/-- The slots of an alias. -/
def slots : List (Slot Alias Fields) :=
  [metadataSlot, textSlot "resource" resource (fun a => a.resource = "") Fields.resource
    (fun f v => { f with resource := v }) fun _ _ => rfl]

/-- How an alias is read. -/
def layout : Layout Alias Fields where
  slots := slots
  start := {}
  member := member
  apart := by simp [slots, textSlot, textField, metadataSlot, metadataField, Slot.Apart]
  start_held := by simp [slots, textSlot, metadataSlot]
  member_slot := by simp [slots, textSlot, textField, metadataSlot, metadataField, member]
  member_other := by
    intro name hname f limit t
    simp [slots, textSlot, textField, metadataSlot, metadataField] at hname
    simp [member, hname, passOver]

theorem makes : Makes layout fun f => .ok f.toAlias where
  made := by
    intro f a h
    simp only [layout, slots, List.forall_mem_cons] at h
    obtain ⟨hmetadata, hresource, -⟩ := h
    have hmetadata : f.metadata.getD {} = a.metadata := getD_of_held hmetadata
    have hresource : f.resource.getD "" = a.resource := getD_of_held hresource
    rw [Fields.toAlias, hmetadata, hresource]
  lacking := by
    intro f s hs hneeded
    simp only [layout, slots, List.mem_cons, List.not_mem_nil, or_false] at hs
    rcases hs with rfl | rfl <;> exact absurd rfl (hneeded {})

/-- The readers of an alias are put together from its slots. -/
def assembled : Assembled layout fromObject fromArray where
  objectEnd f := .ok f.toAlias
  arrayEnd f := .ok f.toAlias
  objectEnd_makes := makes
  arrayEnd_makes := makes
  slots_ne_nil := List.cons_ne_nil _ _
  fromObject_eq := by
    intro limit t
    rw [fromObject, layout]
    cases members member {} limit t <;> rfl
  fromArray_eq := by
    intro limit t
    simp only [fromArray, layout, slots, slotItems, textSlot, metadataSlot, bind, Except.bind]
    rcases optionalItem true Metadata.reader limit t with _ | ⟨metadata, t⟩
    · rfl
    dsimp only
    rcases optionalItem false text limit t with _ | ⟨resource, t⟩ <;> rfl

end Alias

namespace Difference

/-- The slots of a difference. -/
def slots : List (Slot Difference Fields) :=
  [textSlot "field" field (fun _ => False) Fields.field (fun f v => { f with field := v })
      fun _ _ => rfl,
    textSlot "from" before (fun _ => False) Fields.before (fun f v => { f with before := v })
      fun _ _ => rfl,
    textSlot "to" after (fun _ => False) Fields.after (fun f v => { f with after := v })
      fun _ _ => rfl]

/-- How a difference is read. -/
def layout : Layout Difference Fields where
  slots := slots
  start := {}
  member := member
  apart := by simp [slots, textSlot, textField, Slot.Apart]
  start_held := by simp [slots, textSlot]
  member_slot := by simp [slots, textSlot, textField, member]
  member_other := by
    intro name hname f limit t
    simp [slots, textSlot, textField] at hname
    simp [member, hname, passOver]

/-- A difference from the fields of an object. -/
def ofMembers (f : Fields) : Except Error Difference := do
  let field ← required "field" f.field
  let before ← required "from" f.before
  let after ← required "to" f.after
  .ok ⟨field, before, after⟩

/-- A difference from the fields of an array, which are there up to some of them. -/
def ofItems (f : Fields) : Except Error Difference :=
  match f.field, f.before, f.after with
  | some field, some before, some after => .ok ⟨field, before, after⟩
  | none, _, _ => .error (.mismatch (.tooShort 0 "Difference" 3))
  | some _, none, _ => .error (.mismatch (.tooShort 1 "Difference" 3))
  | some _, some _, none => .error (.mismatch (.tooShort 2 "Difference" 3))

/-- What makes a difference of all three fields and nothing of fewer makes differences. -/
theorem makes {finish : Fields → Except Error Difference}
    (hall : ∀ field before after,
      finish ⟨some field, some before, some after⟩ = .ok ⟨field, before, after⟩)
    (hfew : ∀ f, f.field = none ∨ f.before = none ∨ f.after = none → ∃ e, finish f = .error e) :
    Makes layout finish where
  made := by
    rintro ⟨field, before, after⟩ d h
    simp only [layout, slots, List.forall_mem_cons] at h
    obtain ⟨hfield | ⟨-, hfalse⟩, hbefore | ⟨-, hfalse⟩, hafter | ⟨-, hfalse⟩, -⟩ := h
    · cases hfield
      cases hbefore
      cases hafter
      exact hall d.field d.before d.after
    all_goals cases hfalse
  lacking := by
    intro f s hs _ hheld
    simp only [layout, slots, List.mem_cons, List.not_mem_nil, or_false] at hs
    rcases hs with rfl | rfl | rfl
    · exact hfew f (.inl hheld)
    · exact hfew f (.inr (.inl hheld))
    · exact hfew f (.inr (.inr hheld))

/-- The readers of a difference are put together from its slots. -/
def assembled : Assembled layout fromObject fromArray where
  objectEnd := ofMembers
  arrayEnd := ofItems
  objectEnd_makes := by
    refine makes (fun _ _ _ => rfl) ?_
    rintro ⟨field, before, after⟩ h
    cases field <;> cases before <;> cases after <;>
      simp_all [ofMembers, required, bind, Except.bind]
  arrayEnd_makes := by
    refine makes (fun _ _ _ => rfl) ?_
    rintro ⟨field, before, after⟩ h
    cases field <;> cases before <;> cases after <;> simp_all [ofItems]
  slots_ne_nil := List.cons_ne_nil _ _
  fromObject_eq := by
    intro limit t
    rw [fromObject, layout]
    rcases members member {} limit t with _ | ⟨⟨field, before, after⟩, t⟩
    · rfl
    cases field <;> cases before <;> cases after <;> rfl
  fromArray_eq := by
    intro limit t
    simp only [fromArray, item, layout, slots, slotItems, textSlot, Nat.reduceBEq, bind,
      Except.bind]
    rcases hfield : optionalItem true text limit t with _ | ⟨_ | field, t₁⟩
    · rfl
    · -- the other items are lacking too, and the first one is the one that is missed
      simp only [optionalItem_lacking hfield false text]
      rfl
    dsimp only
    rcases hbefore : optionalItem false text limit t₁ with _ | ⟨_ | before, t₂⟩
    · rfl
    · simp only [optionalItem_lacking hbefore false text]
      rfl
    dsimp only
    rcases optionalItem false text limit t₂ with _ | ⟨_ | after, t₃⟩ <;> rfl

end Difference

namespace Change

/-- The slot for the differences. -/
def differencesSlot : Slot Change Fields where
  toRecordField := differencesField
  Content := List Difference
  read := listOf Difference.reader
  content := differences
  held := Fields.differences
  put f v := { f with differences := v }
  steady _ h := listOf_steady (Difference.assembled.steady "Difference") h
  reads _ _ _ h :=
    listOf_of_form (Difference.assembled.steady "Difference")
      (fun _ _ _ h => Difference.assembled.reads h) h
  refuses _ _ h :=
    listOf_of_flawed (Difference.assembled.steady "Difference")
      (fun _ _ h => Difference.assembled.refuses h) h
  held_put _ _ := rfl

/-- The slots of a change. -/
def slots : List (Slot Change Fields) :=
  [textSlot "context" context (fun _ => False) Fields.context (fun f v => { f with context := v })
    fun _ _ => rfl, differencesSlot]

/-- How a change is read. -/
def layout : Layout Change Fields where
  slots := slots
  start := {}
  member := member
  apart := by simp [slots, textSlot, textField, differencesSlot, differencesField, Slot.Apart]
  start_held := by simp [slots, textSlot, differencesSlot]
  member_slot := by simp [slots, textSlot, textField, differencesSlot, differencesField, member]
  member_other := by
    intro name hname f limit t
    simp [slots, textSlot, textField, differencesSlot, differencesField] at hname
    simp [member, hname, passOver]

/-- A change from its fields, where there is an error in place of a context that is lacking. -/
def ofFields (lacking : Error) (f : Fields) : Except Error Change :=
  match f.context with
  | none => .error lacking
  | some context => .ok ⟨context, f.differences.getD []⟩

theorem makes (lacking : Error) : Makes layout (ofFields lacking) where
  made := by
    intro f c h
    simp only [layout, slots, List.forall_mem_cons] at h
    obtain ⟨hcontext | ⟨-, hfalse⟩, hdifferences, -⟩ := h
    · have hcontext : f.context = some c.context := hcontext
      have hdifferences : f.differences.getD [] = c.differences := getD_of_held hdifferences
      rw [ofFields, hcontext, hdifferences]
    · cases hfalse
  lacking := by
    intro f s hs hneeded hheld
    simp only [layout, slots, List.mem_cons, List.not_mem_nil, or_false] at hs
    rcases hs with rfl | rfl
    · have hheld : f.context = none := hheld
      exact ⟨lacking, by rw [ofFields, hheld]⟩
    · exact absurd rfl (hneeded ⟨"", []⟩)

/-- The readers of a change are put together from its slots. -/
def assembled : Assembled layout fromObject fromArray where
  objectEnd := ofFields (.mismatch (.missingField "context"))
  arrayEnd := ofFields (.mismatch (.tooShort 0 "Change" 2))
  objectEnd_makes := makes _
  arrayEnd_makes := makes _
  slots_ne_nil := List.cons_ne_nil _ _
  fromObject_eq := by
    intro limit t
    rw [fromObject, layout]
    rcases members member {} limit t with _ | ⟨⟨context, differences⟩, t⟩
    · rfl
    cases context <;> rfl
  fromArray_eq := by
    intro limit t
    simp only [fromArray, layout, slots, slotItems, textSlot, differencesSlot, bind, Except.bind]
    rcases hcontext : optionalItem true text limit t with _ | ⟨_ | context, t⟩
    · rfl
    · simp only [optionalItem_lacking hcontext false (listOf Difference.reader)]
      rfl
    dsimp only
    rcases optionalItem false (listOf Difference.reader) limit t with _ | ⟨differences, t⟩ <;> rfl

end Change

/-! ## 4. Every form -/

/-- **Aliases, metadata, differences and changes are taken in every form**: as objects with their
fields in any order and other members between them, or as arrays; with strings escaped in any way
and white space anywhere; and without the fields that have a default.  A text in which a field is
given twice, is null, or is lacking without a default is refused, at either level. -/
theorem Alias.read_in_any_form :
    TakesEveryForm Alias.fields Alias.reader ∧ TakesEveryForm Metadata.fields Metadata.reader ∧
      TakesEveryForm Difference.fields Difference.reader ∧
      TakesEveryForm Change.fields Change.reader :=
  ⟨Alias.assembled.takesEveryForm "Alias", Metadata.assembled.takesEveryForm "Metadata",
    Difference.assembled.takesEveryForm "Difference", Change.assembled.takesEveryForm "Change"⟩

/-- An alias with its fields in the other order, an unknown one between them, and its metadata as an
array that ends early; for a change the same text has no context. -/
theorem Alias.read_in_any_form_shuffled :
    let t := write
      (.obj [("resource", .str "r"), ("x", .null), ("meta", .arr [.str "n", .str "p"])])
    let a : Alias := { metadata := { name := "n", parent := "p" }, resource := "r" }
    (RecordText Alias.fields a t ∧ fromBytes Alias.reader (0x20 :: (t ++ [0x0A])) = .ok a) ∧
      RecordFlawed Change.fields t ∧ ∃ e, fromBytes Change.reader (0x20 :: (t ++ [0x0A])) = .error e
    := by
  intro t a
  have hblank : Blank [0x20] ∧ Blank [0x0A] := by simp [Blank, isSpace]
  have hstring := fun s => (stringText_write s).valueText
  have harray : ArrayText [.written (write (.str "n")), .written (write (.str "p"))]
      (write (.arr [.str "n", .str "p"])) :=
    @arrayText_write [.str "n", .str "p"] (by simp [hstring])
  have hmetadata : RecordText Metadata.fields a.metadata (write (.arr [.str "n", .str "p"])) := by
    refine .inr ⟨_, Metadata.fields.take 2, Metadata.fields.drop 2, rfl, harray, ?_, ?_⟩
    · exact .cons (stringText_write "n") (.cons (stringText_write "p") .nil)
    · simp [Metadata.fields, textField, Metadata.annotationsField, a]
  have hnull : ValueText (write .null) := .word List.mem_cons_self
  have hvalues : ∀ m ∈ [("resource", .str "r"), ("x", .null), ("meta", .arr [.str "n", .str "p"])],
      ValueText (write m.2) := by
    simp [hstring, hnull, harray.valueText]
  have htext : RecordText Alias.fields a t := by
    refine .inl (objectForm_write hvalues (by simp) ?_)
    simp [fields, textField, metadataField, hmetadata, stringText_write, a]
  have hflawed : RecordFlawed Change.fields t := by
    refine .inr (.inl ⟨_, objectText_write hvalues, _, List.mem_cons_self, .inr (.inr ⟨?_, ?_⟩)⟩)
    · exact fun _ => id
    · simp [Member.written_named_iff, textField]
  obtain ⟨halias, -, -, hchange⟩ := Alias.read_in_any_form
  exact ⟨⟨htext, (halias _ t _ hblank.1 hblank.2).1 a htext⟩, hflawed,
    (hchange _ t _ hblank.1 hblank.2).2 hflawed⟩

end MeshNode
