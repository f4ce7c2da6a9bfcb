/-
# Dictionaries

Finite maps from texts, as lists of entries in the order of their keys.  A list of entries is
a dictionary when its keys are strictly increasing, which `insert` keeps, so two dictionaries
with the same entries are the same list.

* `insert` puts an entry in its place, instead of an older one under the same key;
* `get?` looks a key up, and `get?_insert` says what an insertion does to it;
* `sorted` says that the keys are strictly increasing, and `sorted_insert` that they stay so;
* `Dictionary` is a list of entries that is one.
-/

namespace MeshNode

namespace Dictionary

/-- The entries with one more; an entry under the same key is replaced. -/
def insert {α : Type} (key : String) (value : α) : List (String × α) → List (String × α)
  | [] => [(key, value)]
  | (k, v) :: rest =>
    if key < k then (key, value) :: (k, v) :: rest
    else if key = k then (key, value) :: rest
    else (k, v) :: insert key value rest

/-- The value under a key. -/
def get? {α : Type} (key : String) : List (String × α) → Option α
  | [] => none
  | (k, v) :: rest => if key = k then some v else get? key rest

/-- Whether the keys are in strictly increasing order. -/
def sorted {α : Type} : List (String × α) → Bool
  | [] => true
  | [_] => true
  | (k, _) :: (k', v') :: rest => k < k' && sorted ((k', v') :: rest)

/-- An insertion changes one key and no other. -/
theorem get?_insert {α : Type} (key k : String) (value : α) (entries : List (String × α)) :
    get? k (insert key value entries) = if k = key then some value else get? k entries := by
  induction entries with
  | nil => simp [insert, get?]
  | cons e rest ih =>
    obtain ⟨k', v'⟩ := e
    simp only [insert]
    split
    · simp [get?]
    · split
      · next h => subst h; by_cases hk : k = key <;> simp [get?, hk]
      · next h =>
        by_cases hk : k = k'
        · subst hk
          simp [get?, Ne.symm h]
        · simp [get?, hk, ih]

variable {α : Type}

/-- The keys of a dictionary are above its first key. -/
theorem sorted_cons {k : String} {v : α} : ∀ {rest : List (String × α)},
    sorted ((k, v) :: rest) = true ↔ (∀ e ∈ rest, k < e.1) ∧ sorted rest = true
  | [] => by simp [sorted]
  | (k', v') :: rest => by
    have ih : sorted ((k', v') :: rest) = true ↔ (∀ e ∈ rest, k' < e.1) ∧ sorted rest = true :=
      sorted_cons
    simp only [sorted, Bool.and_eq_true, decide_eq_true_eq]
    constructor
    · rintro ⟨hk, hs⟩
      refine ⟨?_, hs⟩
      intro e he
      rcases List.mem_cons.mp he with rfl | he
      · exact hk
      · exact String.lt_trans hk ((ih.mp hs).1 e he)
    · rintro ⟨hk, hs⟩
      exact ⟨hk (k', v') (by simp), hs⟩

/-- What an insertion leaves was inserted or was there before. -/
theorem mem_insert {key : String} {value : α} {e : String × α} : ∀ {entries : List (String × α)},
    e ∈ insert key value entries → e = (key, value) ∨ e ∈ entries
  | [], h => .inl (List.mem_singleton.mp h)
  | (k, v) :: rest, h => by
    unfold insert at h
    split at h
    · exact List.mem_cons.mp h
    · split at h
      · rcases List.mem_cons.mp h with h | h
        · exact .inl h
        · exact .inr (List.mem_cons_of_mem _ h)
      · rcases List.mem_cons.mp h with h | h
        · exact .inr (h ▸ List.mem_cons_self)
        · rcases mem_insert h with h | h
          · exact .inl h
          · exact .inr (List.mem_cons_of_mem _ h)

/-- **An insertion keeps the keys in order.** -/
theorem sorted_insert {key : String} {value : α} {entries : List (String × α)}
    (h : sorted entries = true) : sorted (insert key value entries) = true := by
  induction entries with
  | nil => rfl
  | cons e rest ih =>
    obtain ⟨k, v⟩ := e
    obtain ⟨hk, hrest⟩ := sorted_cons.mp h
    unfold insert
    split
    · next hlt =>
      refine sorted_cons.mpr ⟨?_, h⟩
      intro e he
      rcases List.mem_cons.mp he with rfl | he
      · exact hlt
      · exact String.lt_trans hlt (hk e he)
    · next hlt =>
      split
      · next heq =>
        subst heq
        exact sorted_cons.mpr ⟨hk, hrest⟩
      · next hne =>
        have hle : k ≤ key := String.not_lt.mp hlt
        have habove : k < key := by
          refine Decidable.byContradiction fun hnot => hne ?_
          exact String.le_antisymm (String.not_lt.mp hnot) hle
        refine sorted_cons.mpr ⟨?_, ih hrest⟩
        intro e he
        rcases mem_insert he with rfl | he
        · exact habove
        · exact hk e he

end Dictionary

/-- A dictionary: entries whose keys are strictly increasing. -/
structure Dictionary (α : Type) where
  entries : List (String × α)
  ordered : Dictionary.sorted entries = true
  deriving DecidableEq, Repr

namespace Dictionary

variable {α : Type}

/-- The dictionary without entries. -/
def empty : Dictionary α := ⟨[], rfl⟩

instance : Inhabited (Dictionary α) := ⟨empty⟩

/-- The dictionary with one entry more. -/
def put (d : Dictionary α) (key : String) (value : α) : Dictionary α :=
  ⟨insert key value d.entries, sorted_insert d.ordered⟩

end Dictionary
end MeshNode
