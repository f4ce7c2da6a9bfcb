/-
# The written form of a value

The writer puts a value together back to front; here its text is told from the front: items and
members with a comma between each two, in brackets and braces, and nothing else.

* `separated` and `memberText` are the parts of the text;
* `write_arr` and `write_obj`: the text of a container, from the texts inside.
-/
import MeshNode.Json.Write
import MeshNode.Proofs.Json.Value

namespace MeshNode.Json

open Token

/-- Texts with a comma between each two. -/
def separated : List Bytes → Bytes
  | [] => []
  | t :: ts => t ++ ts.flatMap (comma :: ·)

/-- The text of a member: its key, a colon, its value. -/
def memberText (key : String) (value : Bytes) : Bytes := Literal.bytes key ++ colon :: value

/-- The texts of the members of an object. -/
def memberTexts (members : List (String × Json)) : List Bytes :=
  members.map fun m => memberText m.1 (write m.2)

/-! ## 1. Back to front is front to back -/

theorem writeItems_later : ∀ (items : List Json) (acc : Bytes),
    (∀ v ∈ items, ∀ acc, writeOnto acc v = (write v).reverse ++ acc) →
      writeItems acc false items = ((items.map write).flatMap (comma :: ·)).reverse ++ acc
  | [], acc, _ => by simp [writeItems]
  | v :: rest, acc, h => by
    have hv := h v (by simp) (comma :: acc)
    have ih := fun acc => writeItems_later rest acc (fun w hw => h w (by simp [hw]))
    simp [writeItems, hv, ih]

theorem writeItems_first (items : List Json) (acc : Bytes)
    (h : ∀ v ∈ items, ∀ acc, writeOnto acc v = (write v).reverse ++ acc) :
    writeItems acc true items = (separated (items.map write)).reverse ++ acc := by
  cases items with
  | nil => simp [writeItems, separated]
  | cons v rest =>
    have hv := h v (by simp) acc
    have hrest := fun acc => writeItems_later rest acc (fun w hw => h w (by simp [hw]))
    simp [writeItems, separated, hrest, hv]

theorem writeMembers_later : ∀ (members : List (String × Json)) (acc : Bytes),
    (∀ m ∈ members, ∀ acc, writeOnto acc m.2 = (write m.2).reverse ++ acc) →
      writeMembers acc false members = ((memberTexts members).flatMap (comma :: ·)).reverse ++ acc
  | [], acc, _ => by simp [writeMembers, memberTexts]
  | (k, v) :: rest, acc, h => by
    have hv := h (k, v) (by simp)
    have ih := fun acc => writeMembers_later rest acc (fun m hm => h m (by simp [hm]))
    simp only at hv
    simp [writeMembers, memberTexts, memberText, hv] at ih ⊢
    simp [ih]

theorem writeMembers_first (members : List (String × Json)) (acc : Bytes)
    (h : ∀ m ∈ members, ∀ acc, writeOnto acc m.2 = (write m.2).reverse ++ acc) :
    writeMembers acc true members = (separated (memberTexts members)).reverse ++ acc := by
  cases members with
  | nil => simp [writeMembers, memberTexts, separated]
  | cons m rest =>
    obtain ⟨k, v⟩ := m
    have hv := h (k, v) (by simp)
    have hrest := fun acc => writeMembers_later rest acc (fun m hm => h m (by simp [hm]))
    simp only at hv
    simp [writeMembers, memberTexts, memberText, separated, hv] at hrest ⊢
    simp [hrest]

/-- What was written before stays behind the value. -/
theorem writeOnto_eq (v : Json) : ∀ acc, writeOnto acc v = (write v).reverse ++ acc := by
  induction v using induction with
  | null => intro acc; simp [write, writeOnto]
  | bool b => intro acc; cases b <;> simp [write, writeOnto]
  | int n => intro acc; simp [write, writeOnto]
  | float x => intro acc; simp [write, writeOnto]
  | str s => intro acc; simp [write, writeOnto]
  | arr items ih => intro acc; simp [write, writeOnto, writeItems_first items _ ih]
  | obj members ih => intro acc; simp [write, writeOnto, writeMembers_first members _ ih]

/-! ## 2. The text of a value -/

theorem write_null : write .null = nullWord := by simp [write, writeOnto]

theorem write_bool (b : Bool) : write (.bool b) = if b then trueWord else falseWord := by
  cases b <;> simp [write, writeOnto]

theorem write_int (n : Int) : write (.int n) = intBytes n := by simp [write, writeOnto]

theorem write_str (s : String) : write (.str s) = Literal.bytes s := by simp [write, writeOnto]

/-- A string with its marks, in front of what follows it. -/
theorem Literal.bytes_append (s : String) (r : Bytes) :
    Literal.bytes s ++ r = quote :: (Literal.inner s.toList ++ quote :: r) := by
  simp [Literal.bytes]

/-- **An array**: its items in brackets. -/
theorem write_arr (items : List Json) :
    write (.arr items) = openBracket :: (separated (items.map write) ++ [closeBracket]) := by
  simp [write, writeOnto, writeItems_first items _ (fun v _ => writeOnto_eq v)]

/-- **An object**: its members in braces. -/
theorem write_obj (members : List (String × Json)) :
    write (.obj members) = openBrace :: (separated (memberTexts members) ++ [closeBrace]) := by
  simp [write, writeOnto, writeMembers_first members _ (fun m _ => writeOnto_eq m.2)]

end MeshNode.Json
