/-
# What the controller reads

The bodies of the operations on aliases, as the controller reads them.  They hold the arguments of
the operation and no member beside them, and the alias among them is read as it was given.  A reader
of values finds the same arguments in the order of their keys, unless the annotations of the alias
begin with the mark.

* `Metadata.arranged_toJson` and `Alias.fromBytes_arranged`: an alias with its keys in order;
* `Holds`: an object of the grammar with certain members;
* `AliasClient.ofBytes_keyBody`, `ofBytes_deletionBody`, `holds_aliasBody` and `ofBytes_aliasBody`:
  the bodies.
-/
import MeshNode.Alias.Client
import MeshNode.Proofs.Alias.Codec
import MeshNode.Proofs.Json.Form

namespace MeshNode

open Json

/-! ## 1. Aliases with their keys in order -/

namespace Metadata

/-- The members of metadata in the order of their keys: the annotations come first. -/
def keyParts (m : Metadata) : List (FieldPart Fields) := m.parts.drop 3 ++ m.parts.take 3

theorem keyParts_taken (m : Metadata) : ∀ p ∈ m.keyParts, p.TakenBy member := by
  intro p hp
  rcases List.mem_append.mp hp with hp | hp
  · exact m.parts_taken p (List.mem_of_mem_drop hp)
  · exact m.parts_taken p (List.mem_of_mem_take hp)

theorem effects_keyParts (m : Metadata) :
    ∃ f, FieldPart.effects m.keyParts {} = .ok f ∧ f.toMetadata = m := by
  obtain ⟨name, parent, uuid, ⟨entries, hordered⟩⟩ := m
  cases entries with
  | nil => exact ⟨_, rfl, rfl⟩
  | cons e es => exact ⟨_, rfl, rfl⟩

/-- Annotations are in order as they are. -/
theorem arrangedMembers_entries (d : Dictionary String) :
    arrangedMembers [] (d.entries.map fun e => (e.1, .str e.2))
      = d.entries.map fun e => (e.1, .str e.2) := by
  have hordered : (Json.obj (d.entries.map fun e => (e.1, .str e.2))).ordered = true := by
    refine ordered_obj.mpr ⟨(Dictionary.sorted_map Json.str d.entries).trans d.ordered, ?_⟩
    intro e he
    obtain ⟨a, -, rfl⟩ := List.mem_map.mp he
    rfl
  have harranged := arranged_of_ordered _ hordered
  rw [arranged] at harranged
  exact Json.obj.inj harranged

theorem arranged_toJson (m : Metadata) :
    m.toJson.arranged = .obj (m.keyParts.map FieldPart.member) := by
  have hannotations := arrangedMembers_entries m.annotations
  rw [toJson_eq]
  unfold keyParts parts
  split
  · simp only [arranged, arrangedMembers, FieldPart.member, FieldPart.field, Dictionary.insert,
      List.cons_append, List.nil_append, List.map_cons, List.map_nil, List.drop, List.take,
      String.reduceLT, String.reduceEq, ↓reduceIte]
  · simp only [arranged, arrangedMembers, FieldPart.member, FieldPart.field, Dictionary.insert,
      List.cons_append, List.nil_append, List.map_cons, List.map_nil, List.drop, List.take,
      String.reduceLT, String.reduceEq, ↓reduceIte, hannotations]

theorem arranged_yields (m : Metadata) : Yields reader m.toJson.arranged.write (.ok m) := by
  obtain ⟨f, heffects, hmade⟩ := effects_keyParts m
  rw [arranged_toJson]
  refine record_yields m.keyParts m.keyParts_taken {} heffects fun limit s rest hread => ?_
  rw [fromObject, hread, ← hmade]
  rfl

end Metadata

namespace Alias

/-- The members of an alias that is read by its keys. -/
def keyParts (a : Alias) : List (FieldPart Fields) :=
  [FieldPart.field "meta" a.metadata.toJson.arranged a.metadata Fields.metadata fun f v =>
      { f with metadata := v },
    FieldPart.field "resource" (.str a.resource) a.resource Fields.resource fun f v =>
      { f with resource := v }]

theorem keyParts_taken (a : Alias) : ∀ p ∈ a.keyParts, p.TakenBy member := by
  intro p hp
  simp only [keyParts, List.mem_cons, List.not_mem_nil, or_false] at hp
  rcases hp with rfl | rfl
  · exact FieldPart.field_taken a.metadata.arranged_yields (by simp [member])
  · exact FieldPart.field_taken (text_yields a.resource) (by simp [member])

/-- **An alias with its keys in order** is read as the alias. -/
theorem fromBytes_arranged (a : Alias) : fromBytes reader a.toJson.arranged.write = .ok a := by
  have hmembers : a.toJson.arranged = .obj (a.keyParts.map FieldPart.member) := by
    simp only [toJson, arranged, arrangedMembers, keyParts, FieldPart.member, FieldPart.field,
      Dictionary.insert, List.map_cons, List.map_nil, String.reduceLT, String.reduceEq, ↓reduceIte]
  have hyields : Yields reader (write (.obj (a.keyParts.map FieldPart.member))) (.ok a) := by
    refine record_yields a.keyParts a.keyParts_taken {} rfl fun limit s rest hread => ?_
    rw [fromObject, hread]
    rfl
  rw [hmembers]
  exact hyields.fromBytes

theorem floatFree_toJson (a : Alias) : a.toJson.floatFree = true := by
  have hannotations :
      floatFreeMembers (a.metadata.annotations.entries.map fun e => (e.1, .str e.2)) = true := by
    refine (floatFreeMembers_iff _).mpr fun e he => ?_
    obtain ⟨x, -, rfl⟩ := List.mem_map.mp he
    rfl
  by_cases hempty : a.metadata.annotations.entries.isEmpty = true
  · simp [toJson, Metadata.toJson, floatFree, floatFreeMembers, hempty]
  · simp [toJson, Metadata.toJson, floatFree, floatFreeMembers, hempty, hannotations]

/-- An alias opens three containers at most: itself, its metadata and the annotations. -/
theorem depth_toJson (a : Alias) : a.toJson.depth ≤ 3 := by
  have hannotations :
      depthMembers (a.metadata.annotations.entries.map fun e => (e.1, .str e.2)) ≤ 0 := by
    refine (depthMembers_le_iff _).mpr fun e he => ?_
    obtain ⟨x, -, rfl⟩ := List.mem_map.mp he
    exact Nat.le_refl 0
  by_cases hempty : a.metadata.annotations.entries.isEmpty = true
  · simp [toJson, Metadata.toJson, depth, depthMembers, hempty]
  · simp [toJson, Metadata.toJson, depth, depthMembers, hempty]
    omega

end Alias

/-! ## 2. The bodies -/

/-- The text is an object with these members, each with a value of its kind, and with no other. -/
def Holds (members : List (String × (Bytes → Prop))) (body : Bytes) : Prop :=
  ∃ ms, ObjectText ms body ∧
    List.Forall₂ (fun m kind => m.Named kind.1 ∧ kind.2 m.item.value) ms members

namespace AliasClient

theorem ofBytes_keyBody (key : String) :
    Json.ofBytes (keyBody key).write = .ok (.obj [("key", .str key)]) := by
  refine (ofBytes_write_arranged rfl rfl ?_).trans ?_
  · simp [keyBody, depth, depthMembers, nesting]
  · simp only [keyBody, arranged, arrangedMembers, Dictionary.insert]

theorem ofBytes_deletionBody (key : String) (dry : Bool) :
    Json.ofBytes (deletionBody key dry).write
      = .ok (.obj [("dry", .bool dry), ("key", .str key)]) := by
  refine (ofBytes_write_arranged rfl rfl ?_).trans ?_
  · simp [deletionBody, depth, depthMembers, nesting]
  · simp only [deletionBody, arranged, arrangedMembers, Dictionary.insert, String.reduceLT,
      ↓reduceIte]

theorem floatFree_aliasBody (value : Alias) (target : String) (dry : Bool) :
    (aliasBody value target dry).floatFree = true := by
  simp [aliasBody, floatFree, floatFreeMembers, value.floatFree_toJson]

/-- **The body holds the alias**, its target and whether to carry the operation out, whatever the
annotations of the alias are. -/
theorem holds_aliasBody (value : Alias) (target : String) (dry : Bool) :
    Holds [("alias", fun t => fromBytes Alias.reader t = .ok value), ("target", StringText target),
      ("dry", (· = write (.bool dry)))] (aliasBody value target dry).write := by
  have hfree := floatFree_obj.mp (floatFree_aliasBody value target dry)
  refine ⟨_, objectText_write fun m hm => valueText_write m.2 (hfree m hm), ?_⟩
  refine .cons ⟨Member.written_named _ _, Alias.codec.fromBytes_write value⟩ ?_
  refine .cons ⟨Member.written_named _ _, stringText_write target⟩ ?_
  exact .cons ⟨Member.written_named _ _, rfl⟩ .nil

theorem ofBytes_aliasBody {value : Alias} (hmark : value.toJson.rawFree = true) (target : String)
    (dry : Bool) :
    Json.ofBytes (aliasBody value target dry).write
      = .ok (.obj [("alias", value.toJson.arranged), ("dry", .bool dry),
          ("target", .str target)]) := by
  have hdepth := value.depth_toJson
  refine (ofBytes_write_arranged (floatFree_aliasBody value target dry) ?_ ?_).trans ?_
  · exact rawFree_obj.mpr ⟨rfl, by simpa [rawFree] using hmark⟩
  · simp [aliasBody, depth, depthMembers, nesting]
    omega
  · simp only [aliasBody, arranged, arrangedMembers, Dictionary.insert, String.reduceLT,
      String.reduceEq, ↓reduceIte]

end AliasClient
end MeshNode
