/-
# Dictionaries: order, lookups and layers

* `foldl_insert` and `foldl_put_entries`: entries in order, inserted one after the other, give
  themselves;
* `isSome_get?_iff` and `get?_eq_some_iff`: what is found in a list of entries, in order or not;
* `merge` puts entries over a dictionary, and `get?_merge` says what it then holds.
-/
import MeshNode.Dictionary

namespace MeshNode.Dictionary

variable {α : Type}

/-! ## 1. The order of the keys -/

/-- A key above all others is put at the end. -/
theorem insert_above {key : String} {value : α} : ∀ {entries : List (String × α)},
    (∀ e ∈ entries, e.1 < key) → insert key value entries = entries ++ [(key, value)]
  | [], _ => rfl
  | (k, v) :: rest, h => by
    have hk : k < key := h (k, v) (by simp)
    have hne : key ≠ k := fun he => String.lt_irrefl k (he ▸ hk)
    have ih : insert key value rest = rest ++ [(key, value)] :=
      insert_above fun e he => h e (List.mem_cons_of_mem _ he)
    rw [insert, if_neg (fun hlt => String.lt_irrefl k (String.lt_trans hk hlt)), if_neg hne, ih]
    rfl

/-- The keys in front of an entry of a dictionary are below it. -/
theorem sorted_append_cons {k : String} {v : α} : ∀ {front : List (String × α)}
    {rest : List (String × α)}, sorted (front ++ (k, v) :: rest) = true → ∀ e ∈ front, e.1 < k
  | [], _, _ => by simp
  | (k', v') :: front, rest, h => by
    obtain ⟨hk, hs⟩ := sorted_cons.mp h
    intro e he
    rcases List.mem_cons.mp he with rfl | he
    · exact hk (k, v) (by simp)
    · exact sorted_append_cons hs e he

/-- What stands under the keys does not count. -/
theorem sorted_map {β : Type} (f : α → β) : ∀ entries : List (String × α),
    sorted (entries.map fun e => (e.1, f e.2)) = sorted entries
  | [] => rfl
  | [_] => rfl
  | (_, _) :: (k', v') :: rest => congrArg _ (sorted_map f ((k', v') :: rest))

/-- Whether a list is a dictionary is told by its keys. -/
theorem sorted_congr {β : Type} : ∀ {entries : List (String × α)} {entries' : List (String × β)},
    entries.map Prod.fst = entries'.map Prod.fst → (sorted entries = true ↔ sorted entries' = true)
  | [], [], _ => Iff.rfl
  | [], _ :: _, h => nomatch h
  | _ :: _, [], h => nomatch h
  | (k, _) :: rest, (k', _) :: rest', h => by
    obtain ⟨hkey, hkeys⟩ := List.cons.inj h
    obtain rfl : k = k' := hkey
    have habove : (∀ e ∈ rest, k < e.1) ↔ ∀ e ∈ rest', k < e.1 := by
      rw [← @List.forall_mem_map _ _ Prod.fst rest (k < ·), hkeys, List.forall_mem_map]
    rw [sorted_cons, sorted_cons, habove, sorted_congr hkeys]

/-- **Entries in order give themselves**, inserted one after the other. -/
theorem foldl_insert : ∀ (entries front : List (String × α)), sorted (front ++ entries) = true →
    entries.foldl (fun d e => insert e.1 e.2 d) front = front ++ entries
  | [], front, _ => by simp
  | (k, v) :: rest, front, h => by
    have hput : insert k v front = front ++ [(k, v)] := insert_above (sorted_append_cons h)
    rw [List.foldl_cons, hput, foldl_insert rest _ (by simpa using h)]
    simp

theorem entries_foldl_put : ∀ (entries : List (String × α)) (d : Dictionary α),
    (entries.foldl (fun d e => d.put e.1 e.2) d).entries
      = entries.foldl (fun d e => insert e.1 e.2 d) d.entries
  | [], _ => rfl
  | e :: entries, d => entries_foldl_put entries (d.put e.1 e.2)

/-- **A dictionary is put together from its entries**, one after the other. -/
theorem foldl_put_entries (d : Dictionary α) :
    d.entries.foldl (fun d e => d.put e.1 e.2) empty = d := by
  have hentries := (entries_foldl_put d.entries empty).trans (foldl_insert d.entries [] d.ordered)
  cases d
  exact mk.injEq .. ▸ hentries

/-! ## 2. What is found -/

/-- A key is found if there is an entry under it. -/
theorem isSome_get?_iff (key : String) (entries : List (String × α)) :
    (get? key entries).isSome = true ↔ key ∈ entries.map Prod.fst := by
  induction entries with
  | nil => simp [get?]
  | cons e rest ih =>
    obtain ⟨k, v⟩ := e
    by_cases h : key = k
    · simp [get?, h]
    · simp [get?, h, ih]

/-- What is found stands among the entries. -/
theorem mem_of_get? {key : String} {value : α} {entries : List (String × α)}
    (h : get? key entries = some value) : (key, value) ∈ entries := by
  induction entries with
  | nil => cases h
  | cons e rest ih =>
    rw [get?] at h
    split at h
    · next hkey =>
      rw [hkey, ← Option.some.inj h]
      exact List.mem_cons_self
    · exact List.mem_cons_of_mem e (ih h)

/-- One value at most stands under the key. -/
def Single (key : String) (entries : List (String × α)) : Prop :=
  ∀ v w, (key, v) ∈ entries → (key, w) ∈ entries → v = w

theorem single_of_sorted {key : String} : ∀ {entries : List (String × α)},
    sorted entries = true → Single key entries
  | [], _ => fun _ _ h => by cases h
  | (k, x) :: rest, h => by
    obtain ⟨habove, hrest⟩ := sorted_cons.mp h
    have hnot : ∀ v, (k, v) ∉ rest := fun v hv => String.lt_irrefl k (habove _ hv)
    intro v w hv hw
    rcases List.mem_cons.mp hv with hv' | hv'
    · obtain ⟨rfl, rfl⟩ := Prod.mk.inj hv'
      rcases List.mem_cons.mp hw with hw' | hw'
      · exact (Prod.mk.inj hw').2.symm
      · exact absurd hw' (hnot w)
    · rcases List.mem_cons.mp hw with hw' | hw'
      · obtain ⟨rfl, rfl⟩ := Prod.mk.inj hw'
        exact absurd hv' (hnot v)
      · exact single_of_sorted hrest v w hv' hw'

/-- The one value under a key is found. -/
theorem get?_eq_some_iff {key : String} {value : α} {entries : List (String × α)}
    (h : Single key entries) : get? key entries = some value ↔ (key, value) ∈ entries := by
  refine ⟨mem_of_get?, fun hmem => ?_⟩
  obtain ⟨w, hw⟩ := Option.isSome_iff_exists.mp
    ((isSome_get?_iff key entries).mpr (List.mem_map_of_mem hmem))
  rw [hw, h value w hmem (mem_of_get? hw)]

/-- **The order of the entries does not count** where one value at most stands under the key. -/
theorem get?_perm {key : String} {entries entries' : List (String × α)}
    (hperm : entries.Perm entries') (h : Single key entries') :
    get? key entries = get? key entries' := by
  have hsingle : Single key entries := fun v w hv hw =>
    h v w (hperm.mem_iff.mp hv) (hperm.mem_iff.mp hw)
  refine Option.ext fun v => ?_
  rw [get?_eq_some_iff h, get?_eq_some_iff hsingle, hperm.mem_iff]

/-! ## 3. One dictionary over another -/

/-- Entries put over a dictionary, one after the other. -/
def merge (upper lower : List (String × α)) : List (String × α) :=
  upper.foldl (fun d e => insert e.1 e.2 d) lower

theorem get?_append (key : String) (front rest : List (String × α)) :
    get? key (front ++ rest) = (get? key front).or (get? key rest) := by
  induction front with
  | nil => rfl
  | cons e front ih =>
    rw [List.cons_append, get?, get?, ih]
    split <;> rfl

/-- **What a dictionary holds under a key** when others were put over it: the last of those, or
else what it held before. -/
theorem get?_merge (key : String) (upper lower : List (String × α)) :
    get? key (merge upper lower) = (get? key upper.reverse).or (get? key lower) := by
  induction upper generalizing lower with
  | nil => rfl
  | cons e upper ih =>
    have hlast : get? key (insert e.1 e.2 lower) = (get? key [e]).or (get? key lower) := by
      rw [get?_insert, get?]
      split <;> rfl
    rw [List.reverse_cons, get?_append, Option.or_assoc, ← hlast]
    exact ih (insert e.1 e.2 lower)

theorem sorted_merge : ∀ (upper : List (String × α)) {lower : List (String × α)},
    sorted lower = true → sorted (merge upper lower) = true
  | [], _, h => h
  | _ :: upper, _, h => sorted_merge upper (sorted_insert h)

end MeshNode.Dictionary
