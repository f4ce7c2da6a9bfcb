/-
# Aliases and changes are read back

What is written for an alias or for a log of changes is read back as it was.  The writer leaves out
empty annotations and the reader puts in what is missing; the reader takes members in any order,
members that no record has, and records that are written as arrays.  All of this meets in the
codecs: each record is told member by member, and so every one of them is read back.

* `Metadata.codec`, `Alias.codec`, `Difference.codec`, `Change.codec`, `Changelog.codec`;
* `Settles`: what was read is read again from its text, and written the same way again;
* `Alias.json_read_back`: the round trip of them all.
-/
import Mathlib
import MeshNode.Alias.Basic
import MeshNode.Proofs.Json.Codec

namespace MeshNode

open Json

/-! ## 1. Metadata -/

namespace Metadata

/-- The members of metadata. -/
def parts (m : Metadata) : List (FieldPart Fields) :=
  [FieldPart.field "name" (.str m.name) m.name Fields.name fun f v => { f with name := v },
    FieldPart.field "parent" (.str m.parent) m.parent Fields.parent fun f v =>
      { f with parent := v },
    FieldPart.field "uuid" (.str m.uuid) m.uuid Fields.uuid fun f v => { f with uuid := v }] ++
  (if m.annotations.entries.isEmpty then []
   else [FieldPart.field "annotations" (.obj (m.annotations.entries.map fun e => (e.1, .str e.2)))
    m.annotations Fields.annotations fun f v => { f with annotations := v }])

theorem toJson_eq (m : Metadata) : m.toJson = .obj (m.parts.map FieldPart.member) := by
  unfold toJson parts
  split <;> rfl

theorem parts_taken (m : Metadata) : ∀ p ∈ m.parts, p.TakenBy member := by
  have hannotations := text_codec.mapOf.yields m.annotations
  intro p hp
  simp only [parts, List.cons_append, List.nil_append, List.mem_cons, List.mem_ite_nil_left,
    List.not_mem_nil, or_false] at hp
  rcases hp with rfl | rfl | rfl | ⟨-, rfl⟩
  · exact FieldPart.field_taken (text_yields m.name) (by simp [member])
  · exact FieldPart.field_taken (text_yields m.parent) (by simp [member])
  · exact FieldPart.field_taken (text_yields m.uuid) (by simp [member])
  · exact FieldPart.field_taken hannotations (by simp [member])

/-- Together the members give the metadata: annotations that are left out are empty. -/
theorem effects_parts (m : Metadata) :
    ∃ f, FieldPart.effects m.parts {} = .ok f ∧ f.toMetadata = m := by
  obtain ⟨name, parent, uuid, ⟨entries, hordered⟩⟩ := m
  cases entries with
  | nil => exact ⟨_, rfl, rfl⟩
  | cons e es => exact ⟨_, rfl, rfl⟩

theorem codec : Codec reader toJson where
  yields m := by
    obtain ⟨f, heffects, hmade⟩ := effects_parts m
    rw [toJson_eq]
    refine record_yields m.parts m.parts_taken {} heffects fun limit s rest hread => ?_
    rw [fromObject, hread, ← hmade]
    rfl
  starts m := by
    rw [toJson_eq]
    exact starts_obj _

end Metadata

/-! ## 2. Aliases -/

namespace Alias

/-- The members of an alias. -/
def parts (a : Alias) : List (FieldPart Fields) :=
  [FieldPart.field "meta" a.metadata.toJson a.metadata Fields.metadata fun f v =>
      { f with metadata := v },
    FieldPart.field "resource" (.str a.resource) a.resource Fields.resource fun f v =>
      { f with resource := v }]

theorem parts_taken (a : Alias) : ∀ p ∈ a.parts, p.TakenBy member := by
  intro p hp
  simp only [parts, List.mem_cons, List.not_mem_nil, or_false] at hp
  rcases hp with rfl | rfl
  · exact FieldPart.field_taken (Metadata.codec.yields a.metadata) (by simp [member])
  · exact FieldPart.field_taken (text_yields a.resource) (by simp [member])

theorem codec : Codec reader toJson where
  yields a := by
    refine record_yields a.parts a.parts_taken {} rfl fun limit s rest hread => ?_
    rw [fromObject, hread]
    rfl
  starts a := starts_obj _

end Alias

/-! ## 3. Differences -/

namespace Difference

/-- The members of a difference. -/
def parts (d : Difference) : List (FieldPart Fields) :=
  [FieldPart.field "field" (.str d.field) d.field Fields.field fun f v => { f with field := v },
    FieldPart.field "from" (.str d.before) d.before Fields.before fun f v => { f with before := v },
    FieldPart.field "to" (.str d.after) d.after Fields.after fun f v => { f with after := v }]

theorem parts_taken (d : Difference) : ∀ p ∈ d.parts, p.TakenBy member := by
  intro p hp
  simp only [parts, List.mem_cons, List.not_mem_nil, or_false] at hp
  rcases hp with rfl | rfl | rfl
  · exact FieldPart.field_taken (text_yields d.field) (by simp [member])
  · exact FieldPart.field_taken (text_yields d.before) (by simp [member])
  · exact FieldPart.field_taken (text_yields d.after) (by simp [member])

theorem codec : Codec reader toJson where
  yields d := by
    refine record_yields d.parts d.parts_taken {} rfl fun limit s rest hread => ?_
    rw [fromObject, hread]
    rfl
  starts d := starts_obj _

end Difference

/-! ## 4. Changes -/

namespace Change

/-- The members of a change. -/
def parts (c : Change) : List (FieldPart Fields) :=
  [FieldPart.field "context" (.str c.context) c.context Fields.context fun f v =>
      { f with context := v },
    FieldPart.field "diff" (.arr (c.differences.map Difference.toJson)) c.differences
      Fields.differences fun f v => { f with differences := v }]

theorem parts_taken (c : Change) : ∀ p ∈ c.parts, p.TakenBy member := by
  have hdifferences := Difference.codec.listOf.yields c.differences
  intro p hp
  simp only [parts, List.mem_cons, List.not_mem_nil, or_false] at hp
  rcases hp with rfl | rfl
  · exact FieldPart.field_taken (text_yields c.context) (by simp [member])
  · exact FieldPart.field_taken hdifferences (by simp [member])

theorem codec : Codec reader toJson where
  yields c := by
    refine record_yields c.parts c.parts_taken {} rfl fun limit s rest hread => ?_
    rw [fromObject, hread]
    rfl
  starts c := starts_obj _

end Change

theorem Changelog.codec : Codec Changelog.reader Changelog.toJson := Change.codec.listOf

/-! ## 5. The round trip -/

/-- What was read from any text is read again from the text that is written for it, and what is read
there is written the same way again. -/
def Settles {α : Type} (read : Reader α) (toJson : α → Json) : Prop :=
  ∀ text a, fromBytes read text = .ok a →
    fromBytes read (toJson a).write = .ok a ∧
    ∀ b, fromBytes read (toJson a).write = .ok b → (toJson b).write = (toJson a).write

theorem settles_of_codec {α : Type} {read : Reader α} {toJson : α → Json} (h : Codec read toJson) :
    Settles read toJson := by
  intro text a _
  have hback := h.fromBytes_write a
  refine ⟨hback, ?_⟩
  intro b hb
  rw [hback] at hb
  cases hb
  rfl

/-- **Aliases and changes are read back.**  Every alias and every log of changes comes back from its
text as it was, and whatever was taken for one of the records settles with the first text that is
written for it. -/
theorem Alias.json_read_back :
    (∀ a : Alias, fromBytes Alias.reader a.toJson.write = .ok a) ∧
    (∀ l : Changelog, fromBytes Changelog.reader (Changelog.toJson l).write = .ok l) ∧
    Settles Alias.reader Alias.toJson ∧ Settles Metadata.reader Metadata.toJson ∧
    Settles Difference.reader Difference.toJson ∧ Settles Change.reader Change.toJson ∧
    Settles Changelog.reader Changelog.toJson :=
  ⟨Alias.codec.fromBytes_write, Changelog.codec.fromBytes_write, settles_of_codec Alias.codec,
    settles_of_codec Metadata.codec, settles_of_codec Difference.codec,
    settles_of_codec Change.codec, settles_of_codec Changelog.codec⟩

/-- An alias with annotations, and one that was written as an array with members left out. -/
theorem Alias.json_read_back_annotated :
    let a : Alias := ⟨⟨"a\"\n", "scope", "", ⟨[("owner", "é"), ("team", "\\")], by decide⟩⟩, "ch1"⟩
    let text := Utf8.encode "[ \x7b\"uuid\":\"7\",\"x\":[1.5]\x7d ]"
    let b : Alias := ⟨⟨"", "", "7", .empty⟩, ""⟩
    fromBytes Alias.reader a.toJson.write = .ok a ∧
    fromBytes Alias.reader text = .ok b ∧ fromBytes Alias.reader b.toJson.write = .ok b := by
  intro a text b
  have hread : fromBytes Alias.reader text = .ok b := by
    unfold text
    cbv
  obtain ⟨hback, -, hsettles, -⟩ := Alias.json_read_back
  exact ⟨hback a, hread, (hsettles text b hread).1⟩

end MeshNode
