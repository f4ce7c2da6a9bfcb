/-
# Names that are accepted

* `checkSegment_eq_ok`: the check lets a name through as it is, or not at all;
* `ChannelName.isOk_ofString?` and `NodeName.isOk_ofString?`: which names are accepted.
-/
import MeshNode.Name

namespace MeshNode

/-- The names that are accepted, each as the text it was made of. -/
theorem checkSegment_eq_ok {s t : String} : checkSegment s = .ok t ↔
    t = s ∧ Text.isBlank s = false ∧ '/' ∉ s.toList := by
  rw [checkSegment]
  by_cases hblank : Text.isBlank s = true
  · rw [if_pos hblank]
    simp [hblank]
  · rw [if_neg hblank]
    by_cases hslash : '/' ∈ s.toList
    · rw [if_pos hslash]
      simp [hslash]
    · rw [if_neg hslash, Except.ok.injEq]
      constructor
      · rintro rfl
        exact ⟨rfl, Bool.eq_false_iff.mpr hblank, hslash⟩
      · rintro ⟨rfl, -, -⟩
        rfl

theorem isOk_checkSegment {s : String} :
    (checkSegment s).isOk = true ↔ Text.isBlank s = false ∧ '/' ∉ s.toList := by
  constructor
  · intro h
    cases hc : checkSegment s with
    | error e =>
      rw [hc] at h
      cases h
    | ok t => exact (checkSegment_eq_ok.mp hc).2
  · intro h
    rw [checkSegment_eq_ok.mpr ⟨rfl, h⟩]
    rfl

theorem ChannelName.isOk_ofString? {s : String} :
    (ChannelName.ofString? s).isOk = true ↔ Text.isBlank s = false ∧ '/' ∉ s.toList := by
  rw [ChannelName.ofString?, ← isOk_checkSegment]
  cases checkSegment s <;> rfl

theorem NodeName.isOk_ofString? {s : String} :
    (NodeName.ofString? s).isOk = true ↔ Text.isBlank s = false ∧ '/' ∉ s.toList := by
  rw [NodeName.ofString?, ← isOk_checkSegment]
  cases checkSegment s <;> rfl

theorem ChannelName.ofString?_of_isOk {s : String} (h : (ChannelName.ofString? s).isOk = true) :
    ChannelName.ofString? s = .ok ⟨s⟩ := by
  rw [ChannelName.ofString?, checkSegment_eq_ok.mpr ⟨rfl, isOk_ofString?.mp h⟩]
  rfl

theorem NodeName.ofString?_of_isOk {s : String} (h : (NodeName.ofString? s).isOk = true) :
    NodeName.ofString? s = .ok ⟨s⟩ := by
  rw [NodeName.ofString?, checkSegment_eq_ok.mpr ⟨rfl, isOk_ofString?.mp h⟩]
  rfl

/-- No channel is named by the empty text. -/
theorem ChannelName.ne_empty_of_ofString? {s : String} {name : ChannelName}
    (h : ChannelName.ofString? s = .ok name) : name.text ≠ "" := by
  have hs := ofString?_of_isOk (show (ofString? s).isOk = true by rw [h]; rfl)
  rw [h, Except.ok.injEq] at hs
  intro hempty
  rw [hs] at hempty
  cases hempty
  cases h

/-- No route has the empty path. -/
theorem RouteName.ne_empty_of_ofString? {s : String} {name : RouteName}
    (h : RouteName.ofString? s = .ok name) : name.text ≠ "" := by
  rw [RouteName.ofString?] at h
  by_cases hblank : Text.isBlank (dropLeadingSlash s) = true
  · rw [if_pos hblank] at h
    cases h
  · rw [if_neg hblank, Except.ok.injEq] at h
    intro hempty
    have hnothing : dropLeadingSlash s = "" := by
      rw [← h] at hempty
      exact hempty
    rw [hnothing] at hblank
    exact hblank rfl

theorem dropLeadingSlash_slash (path : String) :
    dropLeadingSlash (String.ofList ('/' :: path.toList)) = path := by
  rw [dropLeadingSlash, String.toList_ofList]
  exact String.ofList_toList

end MeshNode
