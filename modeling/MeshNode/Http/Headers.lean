/-
# Headers

The header fields of a message in their order.  Names are in lower case and may repeat.  What
counts about headers are the values of each name: `Headers.values` is the view, and every
operation is told by what it does to it.

* `append` adds a value, `set` replaces all values of a name by one, `remove` and
  `removeAll` drop them;
* `replaceBy` lets other headers replace those of the same names;
* `withDefaults` adds those whose names are absent.
-/
import MeshNode.Http.Token

namespace MeshNode

/-- Header fields in their order, names in lower case. -/
abbrev Headers := List (String × Bytes)

namespace Headers

/-- The values of a name in their order. -/
def values (h : Headers) (name : String) : List Bytes :=
  (h.filter (·.1 == name)).map Prod.snd

/-- Whether a name has a value. -/
def has (h : Headers) (name : String) : Bool := h.any (·.1 == name)

/-- The headers without a name. -/
def remove (h : Headers) (name : String) : Headers := h.filter (·.1 != name)

/-- The headers without several names. -/
def removeAll (h : Headers) (names : List String) : Headers :=
  h.filter fun e => !names.contains e.1

/-- The headers with one value more. -/
def append (h : Headers) (name : String) (value : Bytes) : Headers := h ++ [(name, value)]

/-- The headers with one value in place of all of a name. -/
def set (h : Headers) (name : String) (value : Bytes) : Headers := (h.remove name).append name value

/-- The headers with the values of other headers in place of those of the same names. -/
def replaceBy (h others : Headers) : Headers := h.filter (fun e => !others.has e.1) ++ others

/-- The headers with the defaults of the names that are absent. -/
def withDefaults (h defaults : Headers) : Headers :=
  h ++ defaults.filter (fun d => !h.has d.1)

/-- The first value of a name as a text, if its bytes are one. -/
def text? (h : Headers) (name : String) : Option String :=
  (h.values name).head?.bind Utf8.decode?

/-! ## 1. The view -/

@[simp] theorem values_nil (n : String) : values [] n = [] := rfl

@[simp] theorem values_append (h k : Headers) (n : String) :
    values (h ++ k) n = h.values n ++ k.values n := by
  simp [values]

theorem has_iff (h : Headers) (n : String) : h.has n = true ↔ h.values n ≠ [] := by
  simp [has, values, List.filter_eq_nil_iff]

theorem has_eq_false_iff (h : Headers) (n : String) : h.has n = false ↔ h.values n = [] := by
  rw [← Bool.not_eq_true, has_iff, ne_eq, Classical.not_not]

/-- A filter that judges by names keeps all values of a name or none. -/
theorem values_filter (h : Headers) (p : String → Bool) (n : String) :
    values (h.filter (fun e => p e.1)) n = if p n then h.values n else [] := by
  induction h with
  | nil => simp
  | cons e rest ih =>
    obtain ⟨k, v⟩ := e
    by_cases hk : k = n
    · subst hk
      by_cases hp : p k <;> simp_all [values]
    · have hk' : (k == n) = false := by simpa using hk
      by_cases hp : p k <;> by_cases hn : p n <;> simp_all [values]

theorem values_remove (h : Headers) (name n : String) :
    (h.remove name).values n = if n = name then [] else h.values n := by
  rw [remove, values_filter h (· != name)]
  by_cases hn : n = name <;> simp [hn]

theorem values_removeAll (h : Headers) (names : List String) (n : String) :
    (h.removeAll names).values n = if n ∈ names then [] else h.values n := by
  rw [removeAll, values_filter h (fun k => !names.contains k)]
  by_cases hn : n ∈ names <;> simp [hn]

theorem values_set (h : Headers) (name : String) (value : Bytes) (n : String) :
    (h.set name value).values n = if n = name then [value] else h.values n := by
  rw [set, append, values_append, values_remove]
  by_cases hn : n = name
  · simp [hn, values]
  · simp [hn, values, Ne.symm hn]

theorem values_replaceBy (h others : Headers) (n : String) :
    (h.replaceBy others).values n = if others.has n then others.values n else h.values n := by
  rw [replaceBy, values_append, values_filter h (fun k => !others.has k)]
  by_cases hn : others.has n = true
  · simp [hn]
  · rw [Bool.not_eq_true] at hn
    simp [hn, (has_eq_false_iff others n).1 hn]

theorem values_withDefaults (h defaults : Headers) (n : String) :
    (h.withDefaults defaults).values n = if h.has n then h.values n else defaults.values n := by
  rw [withDefaults, values_append, values_filter defaults (fun k => !h.has k)]
  by_cases hn : h.has n = true
  · simp [hn]
  · rw [Bool.not_eq_true] at hn
    simp [hn, (has_eq_false_iff h n).1 hn]

end Headers
end MeshNode
