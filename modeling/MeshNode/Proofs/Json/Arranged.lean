/-
# Values with their keys in any order

A record is written with its members in the order of its fields, and a reader of values gives them
back in the order of their keys.  So what is read is the value with its keys in order.

* `arranged`: a value with the keys of its objects in order;
* `arranged_of_ordered`: a value in order stays as it is.
-/
import MeshNode.Proofs.Json.Value

namespace MeshNode.Json

mutual
/-- A value with the members of every object in the order of their keys; of equal keys the last
counts. -/
def arranged : Json → Json
  | .arr items => .arr (arrangedItems items)
  | .obj members => .obj (arrangedMembers [] members)
  | .null => .null
  | .bool b => .bool b
  | .int n => .int n
  | .float x => .float x
  | .str s => .str s
/-- `arranged` for every item. -/
def arrangedItems : List Json → List Json
  | [] => []
  | v :: rest => arranged v :: arrangedItems rest
/-- Members put to those that are `held`, one after the other. -/
def arrangedMembers (held : List (String × Json)) : List (String × Json) → List (String × Json)
  | [] => held
  | (k, v) :: rest => arrangedMembers (Dictionary.insert k (arranged v) held) rest
end

theorem arrangedItems_eq_map (items : List Json) : arrangedItems items = items.map arranged := by
  induction items with
  | nil => rfl
  | cons v rest ih => rw [arrangedItems, ih, List.map_cons]

theorem arrangedMembers_eq_foldl (members : List (String × Json)) :
    ∀ held, arrangedMembers held members
      = (members.map fun m => (m.1, arranged m.2)).foldl (fun d e => Dictionary.insert e.1 e.2 d)
          held := by
  induction members with
  | nil => exact fun held => rfl
  | cons m rest ih => exact fun held => ih _

/-- **A value in order** stays as it is. -/
theorem arranged_of_ordered (v : Json) : v.ordered = true → v.arranged = v := by
  induction v using induction with
  | arr items ih =>
    intro h
    have hitems : items.map arranged = items :=
      (List.map_congr_left (g := id) fun v hv => ih v hv (ordered_arr.mp h v hv)).trans
        (List.map_id items)
    rw [arranged, arrangedItems_eq_map, hitems]
  | obj members ih =>
    intro h
    obtain ⟨hsorted, hmembers⟩ := ordered_obj.mp h
    have hsame : (members.map fun m => (m.1, arranged m.2)) = members := by
      refine (List.map_congr_left (g := id) fun m hm => ?_).trans (List.map_id members)
      rw [ih m hm (hmembers m hm), id]
    rw [arranged, arrangedMembers_eq_foldl, hsame, Dictionary.foldl_insert members [] hsorted]
    rfl
  | _ => exact fun _ => rfl

end MeshNode.Json
