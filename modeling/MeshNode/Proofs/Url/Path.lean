/-
# Paths in normal form

The path of a URL that was read is in normal form: no segment has a separator or a character
that a path reserves, and none spells dots.  Such a path is written and read back unchanged.

* `NormalSegment` and `NormalPath` are the form;
* `pathFrom_normal`: every path that is read has it;
* `pathFrom_text`: a path that has it is read back.
-/
import MeshNode.Proofs.Text.Split
import MeshNode.Proofs.Url.Dots

namespace MeshNode.Url

open Percent

/-- A segment in normal form. -/
structure NormalSegment (s : List Char) : Prop where
  unreserved : Unreserved Percent.path s
  noSlash : ∀ c ∈ s, isSlash true c = false
  notDot : isDot s = false
  notDoubleDot : isDoubleDot s = false

/-- A path in normal form, which has a segment at least. -/
structure NormalPath (path : List String) : Prop where
  notEmpty : path ≠ []
  segment : ∀ s ∈ path, NormalSegment s.toList

theorem normalSegment_empty : NormalSegment "".toList :=
  ⟨by simp [Unreserved], by simp, by decide, by decide⟩

theorem not_file_of_isWeb {scheme : String} (h : isWeb scheme = true) :
    (scheme == "file") = false := by
  simp only [isWeb, Bool.or_eq_true, beq_iff_eq] at h
  rcases h with (((rfl | rfl) | rfl) | rfl) | rfl <;> decide

/-- The schemes that requests are sent by are schemes of the web. -/
theorem isWeb_of_spoken {scheme : String} (h : scheme = "http" ∨ scheme = "https") :
    isWeb scheme = true := by
  rcases h with rfl | rfl
  · decide
  · decide

theorem isSpecial_of_isWeb {scheme : String} (h : isWeb scheme = true) :
    isSpecial scheme = true := by
  rw [isSpecial, h, Bool.true_or]

/-! ## 1. What is read -/

/-- **An encoded text is a segment in normal form** if it spells no dots, and if separators that
are not reserved are not in the text. -/
theorem normalSegment_of_encode {reserved : Char → Bool} {s : List Char}
    (hpath : ∀ c, reserved c = false → Percent.path c = false)
    (hslash : ∀ c ∈ s, reserved c = false → isSlash true c = false)
    (hdot : ¬ Dots 1 (encode reserved s)) (hdouble : ¬ Dots 2 (encode reserved s)) :
    NormalSegment (encode reserved s) where
  unreserved := unreserved_encode keepsEscapes_path hpath s
  noSlash := by
    intro c hc
    rcases mem_encode hc with ⟨hmem, -, hfree⟩ | rfl | ⟨n, hn, rfl⟩
    · exact hslash c hmem hfree
    · rfl
    · have hall : ∀ n < 16, isSlash true (hexDigit n) = false := by decide
      exact hall n hn
  notDot := Bool.eq_false_iff.mpr fun h => hdot (isDot_iff.mp h)
  notDoubleDot := Bool.eq_false_iff.mpr fun h => hdouble (isDoubleDot_iff.mp h)

/-- A segment that spells no dots is brought into normal form. -/
theorem normalSegment_normalize {s : List Char} (hs : ∀ c ∈ s, isSlash true c = false)
    (hdot : isDot s = false) (hdouble : isDoubleDot s = false) :
    NormalSegment (normalizeSegment s).toList := by
  have hfree : Percent.path '.' = false := by decide
  rw [← Bool.not_eq_true, isDot_iff] at hdot
  rw [← Bool.not_eq_true, isDoubleDot_iff] at hdouble
  rw [normalizeSegment, String.toList_ofList]
  exact normalSegment_of_encode (fun _ h => h) (fun c hc _ => hs c hc)
    (fun h => hdot (h.of_encode hfree rfl)) (fun h => hdouble (h.of_encode hfree rfl))

theorem mem_shorten {path : List String} {s : String} (h : s ∈ shorten false path) : s ∈ path := by
  match path with
  | [] => exact h
  | [t] => cases h
  | t :: u :: rest => exact List.dropLast_subset _ h

/-- What one segment makes of a path, if nothing else follows (`last`) and otherwise. -/
theorem addSegments_cons (path : List String) (s : List Char) (rest : List (List Char)) :
    ∃ path', addSegments false path (s :: rest) = addSegments false path' rest ∧
      (rest = [] → path' ≠ []) ∧
      (∀ t ∈ path', t ∈ path ∨ t = "" ∨
        (t = normalizeSegment s ∧ isDot s = false ∧ isDoubleDot s = false)) := by
  have hend : ∀ t ∈ (if rest.isEmpty then [""] else []), t = "" := by
    intro t ht
    split at ht
    · exact List.mem_singleton.mp ht
    · cases ht
  have hnonempty : rest = [] → (if rest.isEmpty then [""] else []) ≠ [] := by
    rintro rfl
    simp
  rw [addSegments]
  by_cases hdouble : isDoubleDot s = true
  · refine ⟨_, by rw [if_pos hdouble], fun h => by simp [h], ?_⟩
    intro t ht
    rcases List.mem_append.mp ht with ht | ht
    · exact .inl (mem_shorten ht)
    · exact .inr (.inl (hend t ht))
  · by_cases hdot : isDot s = true
    · refine ⟨_, by rw [if_neg hdouble, if_pos hdot], fun h => by simp [h], ?_⟩
      intro t ht
      rcases List.mem_append.mp ht with ht | ht
      · exact .inl ht
      · exact .inr (.inl (hend t ht))
    · refine ⟨path ++ [normalizeSegment s], by rw [if_neg hdouble, if_neg hdot]; rfl,
        fun _ => by simp, ?_⟩
      intro t ht
      rcases List.mem_append.mp ht with ht | ht
      · exact .inl ht
      · exact .inr (.inr ⟨List.mem_singleton.mp ht, Bool.eq_false_iff.mpr hdot,
          Bool.eq_false_iff.mpr hdouble⟩)

/-- **Segments put at the end of a path** keep it in normal form. -/
theorem normalPath_addSegments : ∀ {segments : List (List Char)} {path : List String},
    segments ≠ [] → (∀ s ∈ path, NormalSegment s.toList) →
    (∀ s ∈ segments, ∀ c ∈ s, isSlash true c = false) →
    NormalPath (addSegments false path segments)
  | [], _, h, _, _ => absurd rfl h
  | s :: rest, path, _, hpath, hslash => by
    obtain ⟨path', heq, hnonempty, hmem⟩ := addSegments_cons path s rest
    have hpath' : ∀ t ∈ path', NormalSegment t.toList := by
      intro t ht
      rcases hmem t ht with ht | rfl | ⟨rfl, hdot, hdouble⟩
      · exact hpath t ht
      · exact normalSegment_empty
      · exact normalSegment_normalize (hslash s List.mem_cons_self) hdot hdouble
    rw [heq]
    by_cases hrest : rest = []
    · rw [hrest]
      exact ⟨hnonempty hrest, hpath'⟩
    · exact normalPath_addSegments hrest hpath' fun t ht =>
        hslash t (List.mem_cons_of_mem s ht)

/-- The segments of a text have no separator inside. -/
theorem noSlash_segmentsOf (cs : List Char) :
    ∀ s ∈ segmentsOf true cs, ∀ c ∈ s, isSlash true c = false := by
  intro s hs c hc
  obtain ⟨hmem, hne⟩ := Text.of_mem_splitOn _ s hs c hc
  obtain ⟨d, -, rfl⟩ := List.mem_map.mp hmem
  split at hne
  · exact absurd rfl hne
  · rename_i hd
    rw [if_neg hd]
    exact Bool.eq_false_iff.mpr hd

/-- **Every path that is read is in normal form**, in the schemes of the web. -/
theorem pathFrom_normal {scheme : String} (hs : isWeb scheme = true) {base : List String}
    (hbase : ∀ s ∈ base, NormalSegment s.toList) (cs : List Char) :
    ∃ path, pathFrom scheme base cs = .segments path ∧ NormalPath path := by
  have hfile : (scheme == "file") = false := not_file_of_isWeb hs
  refine ⟨_, by rw [pathFrom, hfile, isSpecial_of_isWeb hs], ?_⟩
  exact normalPath_addSegments (Text.splitOn_ne_nil _ _) hbase (noSlash_segmentsOf cs)

/-! ## 2. What is read back -/

/-- Segments in normal form are put at the end as they are. -/
theorem addSegments_normal : ∀ (segments path : List String),
    (∀ s ∈ segments, NormalSegment s.toList) →
    addSegments false path (segments.map String.toList) = path ++ segments
  | [], path, _ => by simp [addSegments]
  | s :: rest, path, h => by
    have hs := h s List.mem_cons_self
    have hsame : normalizeSegment s.toList = s := by
      rw [normalizeSegment, encode_of_unreserved hs.unreserved, String.ofList_toList]
    have ih := addSegments_normal rest (path ++ [s]) fun t ht =>
      h t (List.mem_cons_of_mem s ht)
    rw [List.append_cons, ← ih, List.map_cons, addSegments, hs.notDot, hs.notDoubleDot, hsame]
    rfl

/-- The text of a path. -/
def pathChars (path : List String) : List Char := (path.map String.toList).flatMap ('/' :: ·)

theorem path_text_toList (path : List String) :
    (Path.segments path).text.toList = pathChars path := by
  rw [Path.text, pathChars, String.toList_ofList, List.flatMap_map]

/-- The segments of a written path. -/
theorem segmentsOf_text {path : List String} (h : NormalPath path) :
    segmentsOf true (pathChars path) = path.map String.toList := by
  rw [pathChars]
  cases path with
  | nil => exact absurd rfl h.notEmpty
  | cons s rest =>
    have hslash : ∀ t ∈ (s :: rest).map String.toList, ∀ c ∈ t, isSlash true c = false := by
      intro t ht c hc
      obtain ⟨u, hu, rfl⟩ := List.mem_map.mp ht
      exact (h.segment u hu).noSlash c hc
    have hnot : ∀ t ∈ (s :: rest).map String.toList, '/' ∉ t := by
      intro t ht hm
      exact absurd (hslash t ht '/' hm) (by decide)
    have hkeep : ∀ c ∈ ((s :: rest).map String.toList).flatMap ('/' :: ·),
        (if isSlash true c then '/' else c) = c := by
      intro c hc
      obtain ⟨t, ht, hm⟩ := List.mem_flatMap.mp hc
      rcases List.mem_cons.mp hm with rfl | hm
      · rfl
      · rw [hslash t ht c hm]
        rfl
    rw [List.map_cons, List.flatMap_cons, List.cons_append] at hkeep ⊢
    have hsame := (List.map_congr_left fun c hc => hkeep c (List.mem_cons_of_mem '/' hc)).trans
      (List.map_id _)
    rw [segmentsOf, if_pos (show isSlash true '/' = true by decide)]
    exact (congrArg (Text.splitOn '/') hsame).trans (Text.splitOn_flatMap hnot)

/-- **A path in normal form is read back.** -/
theorem pathFrom_text {scheme : String} (hs : isWeb scheme = true) {path : List String}
    (h : NormalPath path) :
    pathFrom scheme [] (pathChars path) = .segments path := by
  have hfile : (scheme == "file") = false := not_file_of_isWeb hs
  rw [pathFrom, hfile, isSpecial_of_isWeb hs, segmentsOf_text h,
    addSegments_normal path [] h.segment]
  rfl

end MeshNode.Url
