/-
# JSON values: induction and measures

A value is a scalar, or it is built from smaller values.  The measures and predicates on values
run over lists of items and members of their own; here they are told by what they say of every
item and every member.

* `Json.induction`: what holds of the scalars, and of a container when it holds of all values
  inside, holds of all values;
* `floatFree_arr`, `ordered_obj`, `rawFree_obj`, `depth_arr_le` and their like.
-/
import MeshNode.Json.Value
import MeshNode.Proofs.Dictionary

namespace MeshNode

namespace Json

/-! ## 1. Induction -/

/-- **Induction over values**: through the items of an array and the values of an object. -/
@[elab_as_elim] theorem induction {P : Json → Prop} (null : P .null) (bool : ∀ b, P (.bool b))
    (int : ∀ n, P (.int n)) (float : ∀ x, P (.float x)) (str : ∀ s, P (.str s))
    (arr : ∀ items, (∀ v ∈ items, P v) → P (.arr items))
    (obj : ∀ members, (∀ m ∈ members, P m.2) → P (.obj members)) (v : Json) : P v := by
  refine @Json.rec P (fun items => ∀ v ∈ items, P v) (fun members => ∀ m ∈ members, P m.2)
    (fun m => P m.2) null bool int float str arr obj ?_ ?_ ?_ ?_ ?_ v
  · simp
  · intro v items hv hitems w hw
    rcases List.mem_cons.mp hw with rfl | hw
    · exact hv
    · exact hitems w hw
  · simp
  · intro m members hm hmembers x hx
    rcases List.mem_cons.mp hx with rfl | hx
    · exact hm
    · exact hmembers x hx
  · intro k v hv
    exact hv

/-! ## 2. Measures and predicates, told by items and members -/

theorem floatFreeItems_iff : ∀ items : List Json,
    floatFreeItems items = true ↔ ∀ v ∈ items, v.floatFree = true
  | [] => by simp [floatFreeItems]
  | v :: rest => by simp [floatFreeItems, floatFreeItems_iff rest]

theorem floatFreeMembers_iff : ∀ members : List (String × Json),
    floatFreeMembers members = true ↔ ∀ m ∈ members, m.2.floatFree = true
  | [] => by simp [floatFreeMembers]
  | (k, v) :: rest => by simp [floatFreeMembers, floatFreeMembers_iff rest]

theorem orderedItems_iff : ∀ items : List Json,
    orderedItems items = true ↔ ∀ v ∈ items, v.ordered = true
  | [] => by simp [orderedItems]
  | v :: rest => by simp [orderedItems, orderedItems_iff rest]

theorem orderedMembers_iff : ∀ members : List (String × Json),
    orderedMembers members = true ↔ ∀ m ∈ members, m.2.ordered = true
  | [] => by simp [orderedMembers]
  | (k, v) :: rest => by simp [orderedMembers, orderedMembers_iff rest]

theorem rawFreeItems_iff : ∀ items : List Json,
    rawFreeItems items = true ↔ ∀ v ∈ items, v.rawFree = true
  | [] => by simp [rawFreeItems]
  | v :: rest => by simp [rawFreeItems, rawFreeItems_iff rest]

theorem rawFreeMembers_iff : ∀ members : List (String × Json),
    rawFreeMembers members = true ↔ ∀ m ∈ members, m.2.rawFree = true
  | [] => by simp [rawFreeMembers]
  | (k, v) :: rest => by simp [rawFreeMembers, rawFreeMembers_iff rest]

theorem depthItems_le_iff {n : Nat} : ∀ items : List Json,
    depthItems items ≤ n ↔ ∀ v ∈ items, v.depth ≤ n
  | [] => by simp [depthItems]
  | v :: rest => by
    rw [depthItems, Nat.max_le, depthItems_le_iff rest, List.forall_mem_cons]

theorem depthMembers_le_iff {n : Nat} : ∀ members : List (String × Json),
    depthMembers members ≤ n ↔ ∀ m ∈ members, m.2.depth ≤ n
  | [] => by simp [depthMembers]
  | (k, v) :: rest => by
    rw [depthMembers, Nat.max_le, depthMembers_le_iff rest, List.forall_mem_cons]

theorem floatFree_arr {items : List Json} :
    (arr items).floatFree = true ↔ ∀ v ∈ items, v.floatFree = true :=
  floatFreeItems_iff items

theorem floatFree_obj {members : List (String × Json)} :
    (obj members).floatFree = true ↔ ∀ m ∈ members, m.2.floatFree = true :=
  floatFreeMembers_iff members

theorem ordered_arr {items : List Json} :
    (arr items).ordered = true ↔ ∀ v ∈ items, v.ordered = true :=
  orderedItems_iff items

theorem ordered_obj {members : List (String × Json)} : (obj members).ordered = true ↔
    Dictionary.sorted members = true ∧ ∀ m ∈ members, m.2.ordered = true := by
  rw [ordered, Bool.and_eq_true, orderedMembers_iff]

theorem rawFree_arr {items : List Json} :
    (arr items).rawFree = true ↔ ∀ v ∈ items, v.rawFree = true :=
  rawFreeItems_iff items

theorem rawFree_obj {members : List (String × Json)} : (obj members).rawFree = true ↔
    marked members = false ∧ ∀ m ∈ members, m.2.rawFree = true := by
  rw [rawFree, Bool.and_eq_true, rawFreeMembers_iff, Bool.not_eq_true']

/-- Members that begin with the mark. -/
theorem eq_of_marked {members : List (String × Json)} (h : marked members = true) :
    ∃ v others, members = (rawMark, v) :: others := by
  cases members with
  | nil => cases h
  | cons m others =>
    obtain ⟨key, v⟩ := m
    obtain rfl : key = rawMark := isMark_iff.mp h
    exact ⟨v, others, rfl⟩

/-- A container is one deeper than what is inside. -/
theorem depth_arr_le {items : List Json} {n : Nat} :
    (arr items).depth ≤ n + 1 ↔ ∀ v ∈ items, v.depth ≤ n := by
  rw [depth, ← depthItems_le_iff]
  omega

theorem depth_obj_le {members : List (String × Json)} {n : Nat} :
    (obj members).depth ≤ n + 1 ↔ ∀ m ∈ members, m.2.depth ≤ n := by
  rw [depth, ← depthMembers_le_iff]
  omega

end Json
end MeshNode
