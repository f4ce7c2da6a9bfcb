/-
# Segments behind a path

A plain segment is no dot, no two dots, and has no tabs and line ends.  Plain segments are put
behind a path each as a segment of its own, encoded; what is read back from the path are the
segments that were given.  Of any other segment something is lost.

* `normalPath_appendSegment`: a path with any segment behind it is in normal form;
* `foldl_appendSegment`: the path with plain segments behind it;
* `encodeSegment_inj`, `normalSegment_encode`: what the encoding of a segment keeps;
* `append?_ofParts`, `append?_normal`: the URL with plain segments behind its path;
* `appendSegment_dots`, `appendSegment_lineEnds`: segments that leave no trace, or not all.
-/
import MeshNode.Proofs.Url.Normal
import MeshNode.Url.Append

namespace MeshNode.Url

open Percent

/-- Whether a segment is put behind a path as it is: no dots, no tabs and no line ends. -/
def isPlainSegment (s : List Char) : Bool :=
  s != ['.'] && s != ['.', '.'] && dropLineEnds s == s

theorem isPlainSegment_iff {s : List Char} :
    isPlainSegment s = true ↔ s ≠ ['.'] ∧ s ≠ ['.', '.'] ∧ dropLineEnds s = s := by
  simp [isPlainSegment, and_assoc]

/-! ## 1. The encoding of a segment -/

theorem webSegment_mark : webSegment '%' = true := by decide

theorem encodeSegment_toList (s : List Char) :
    (encodeSegment true s).toList = encode webSegment s := by
  rw [encodeSegment, String.toList_ofList]
  rfl

/-- **No two segments are encoded the same.** -/
theorem encodeSegment_inj {s t : List Char} (h : encodeSegment true s = encodeSegment true t) :
    s = t := by
  refine encode_inj webSegment_mark ?_
  rw [← encodeSegment_toList, h, encodeSegment_toList]

/-- What a segment reserves contains what a path reserves, and the separators. -/
theorem path_of_webSegment {c : Char} (h : webSegment c = false) :
    Percent.path c = false ∧ isSlash true c = false := by
  simp only [webSegment, Percent.segment, Bool.or_eq_false_iff, beq_eq_false_iff_ne] at h
  exact ⟨h.1.1.1, by simp [isSlash, h.1.1.2, h.2]⟩

/-- **An encoded segment is in normal form**, unless it was dots. -/
theorem normalSegment_encode {s : List Char} (hdot : s ≠ ['.']) (hdouble : s ≠ ['.', '.']) :
    NormalSegment (encodeSegment true s).toList := by
  rw [encodeSegment_toList]
  refine normalSegment_of_encode (fun _ h => (path_of_webSegment h).1)
    (fun _ _ h => (path_of_webSegment h).2) ?_ ?_
  · exact fun h => hdot (h.of_encode_marked webSegment_mark)
  · exact fun h => hdouble (h.of_encode_marked webSegment_mark)

/-! ## 2. Any segments -/

variable {scheme : String} {path : List String}

theorem mem_openPath {s : String} (h : s ∈ openPath path) : s ∈ path := by
  rw [openPath] at h
  split at h
  · cases h
  · exact h

theorem mem_dropOpenEnd {s : String} (h : s ∈ dropOpenEnd path) : s ∈ path := by
  rw [dropOpenEnd] at h
  split at h
  · exact List.dropLast_subset _ h
  · exact h

theorem normalPath_dropOpenEnd (h : NormalPath path) : NormalPath (dropOpenEnd path) where
  notEmpty := by
    rw [dropOpenEnd]
    split
    · rename_i hlong
      intro hnil
      have hlength := congrArg List.length hnil
      rw [List.length_dropLast, List.length_nil] at hlength
      omega
    · exact h.notEmpty
  segment := fun s hs => h.segment s (mem_dropOpenEnd hs)

theorem normalPath_concat {s : String} (h : ∀ t ∈ path, NormalSegment t.toList)
    (hs : NormalSegment s.toList) : NormalPath (path ++ [s]) where
  notEmpty := by simp
  segment := by
    intro t ht
    rcases List.mem_append.mp ht with ht | ht
    · exact h t ht
    · exact List.mem_singleton.mp ht ▸ hs

/-- **One segment, whatever it is,** leaves a path in normal form. -/
theorem normalPath_appendSegment (hs : isWeb scheme = true) (h : NormalPath path)
    (segment : String) : NormalPath (appendSegment scheme path segment) := by
  have hopen : ∀ t ∈ openPath path, NormalSegment t.toList := fun t ht =>
    h.segment t (mem_openPath ht)
  unfold appendSegment
  rw [not_file_of_isWeb hs, isSpecial_of_isWeb hs]
  dsimp only
  split
  · exact h
  · rw [trimFile, if_neg Bool.false_ne_true]
    split
    · exact normalPath_concat (fun t ht => hopen t (mem_shorten ht)) normalSegment_empty
    · rename_i hdouble
      split
      · exact normalPath_concat hopen normalSegment_empty
      · rename_i hdot
        exact normalPath_concat hopen (normalSegment_encode hdot hdouble)

/-- So do several. -/
theorem normalPath_foldl (hs : isWeb scheme = true) : ∀ (segments : List String)
    {path : List String}, NormalPath path →
      NormalPath (segments.foldl (appendSegment scheme) path)
  | [], _, h => h
  | s :: segments, _, h =>
    normalPath_foldl hs segments (normalPath_appendSegment hs h s)

/-! ## 3. Plain segments -/

/-- A plain segment is put behind the path, encoded. -/
theorem appendSegment_plain (hs : isWeb scheme = true) {s : String}
    (h : isPlainSegment s.toList = true) :
    appendSegment scheme path s = openPath path ++ [encodeSegment true s.toList] := by
  obtain ⟨hdot, hdouble, hsame⟩ := isPlainSegment_iff.mp h
  simp only [appendSegment, hdot, hdouble, hsame, or_self, if_false, not_file_of_isWeb hs,
    isSpecial_of_isWeb hs]
  rfl

/-- Behind a segment that is there, the path is not the root any more. -/
theorem openPath_append {s : String} (h : path ≠ [] ∨ s ≠ "") :
    openPath (path ++ [s]) = path ++ [s] := by
  refine if_neg fun heq => ?_
  cases path with
  | nil =>
    rcases h with h | h
    · exact h rfl
    · exact h (List.cons.inj heq).1
  | cons t rest => simp at heq

theorem encodeSegment_ne_empty {s : String} (h : s ≠ "") : encodeSegment true s.toList ≠ "" := by
  intro heq
  have hnil : s.toList = "".toList := encodeSegment_inj heq
  exact h (String.toList_inj.mp hnil)

/-- Plain segments behind a path that is not the root. -/
theorem foldl_appendSegment_open (hs : isWeb scheme = true) : ∀ (segments path : List String)
    (t : String), (path ≠ [] ∨ t ≠ "") → (∀ s ∈ segments, isPlainSegment s.toList = true) →
    segments.foldl (appendSegment scheme) (path ++ [t])
      = path ++ [t] ++ segments.map fun s => encodeSegment true s.toList
  | [], path, t, _, _ => by simp
  | s :: rest, path, t, hopen, h => by
    have ih := foldl_appendSegment_open hs rest (path ++ [t]) (encodeSegment true s.toList)
      (.inl (by simp)) fun u hu => h u (List.mem_cons_of_mem s hu)
    rw [List.foldl_cons, appendSegment_plain hs (h s List.mem_cons_self), openPath_append hopen,
      ih]
    simp

/-- **Plain segments are put behind a path** one after the other, each encoded. -/
theorem foldl_appendSegment (hs : isWeb scheme = true) {first : String} {rest : List String}
    (hfirst : first ≠ "") (h : ∀ s ∈ first :: rest, isPlainSegment s.toList = true) :
    (first :: rest).foldl (appendSegment scheme) path
      = openPath path ++ (first :: rest).map fun s => encodeSegment true s.toList := by
  rw [List.foldl_cons, appendSegment_plain hs (h first List.mem_cons_self),
    foldl_appendSegment_open hs rest _ _ (.inr (encodeSegment_ne_empty hfirst)) fun s hs =>
      h s (List.mem_cons_of_mem first hs)]
  simp

/-- A path in normal form stays so when plain segments are put behind it. -/
theorem normalPath_append (hpath : NormalPath path) {segments : List String}
    (hne : segments ≠ []) (h : ∀ s ∈ segments, isPlainSegment s.toList = true) :
    NormalPath (openPath (dropOpenEnd path) ++
      segments.map fun s => encodeSegment true s.toList) := by
  refine ⟨by simp [hne], ?_⟩
  intro s hs
  rcases List.mem_append.mp hs with hs | hs
  · exact hpath.segment s (mem_dropOpenEnd (mem_openPath hs))
  · obtain ⟨t, ht, rfl⟩ := List.mem_map.mp hs
    obtain ⟨hdot, hdouble, -⟩ := isPlainSegment_iff.mp (h t ht)
    exact normalSegment_encode hdot hdouble

/-! ## 4. Whole URLs -/

/-- The path that segments are put behind. -/
def basePath (u : Url) : List String := openPath (dropOpenEnd u.path.list)

section

variable {first : String} {rest : List String}

/-- **Plain segments behind a URL**: nothing but its path changes. -/
theorem append?_ofParts (hs : isWeb scheme = true) (a : Authority) (path : List String)
    (query fragment : Option String) (hfirst : first ≠ "")
    (h : ∀ s ∈ first :: rest, isPlainSegment s.toList = true) :
    (ofParts scheme a path query fragment).append? (first :: rest)
      = some (ofParts scheme a (openPath (dropOpenEnd path) ++
          (first :: rest).map fun s => encodeSegment true s.toList) query fragment) :=
  congrArg (fun path => some (ofParts scheme a path query fragment))
    (foldl_appendSegment hs hfirst h)

/-- Behind a URL in normal form they keep it so. -/
theorem append?_normal {u : Url} (hu : Normal u) (hfirst : first ≠ "")
    (h : ∀ s ∈ first :: rest, isPlainSegment s.toList = true) :
    ∃ v, u.append? (first :: rest) = some v ∧ Normal v ∧ v.path =
      .segments (basePath u ++ (first :: rest).map fun s => encodeSegment true s.toList) := by
  cases hu with
  | @mk scheme a path query fragment web authority segments queried marked =>
    have hpath := normalPath_append segments (List.cons_ne_nil first rest) h
    exact ⟨_, append?_ofParts web a path query fragment hfirst h,
      .mk web authority hpath queried marked, rfl⟩

end

/-! ## 5. All other segments -/

/-- A dot and two dots leave no trace. -/
theorem appendSegment_dots {s : String} (h : s.toList = ['.'] ∨ s.toList = ['.', '.']) :
    appendSegment scheme path s = path := if_pos h

/-- Tabs and line ends leave no trace in a segment. -/
theorem appendSegment_lineEnds {s t : String} (hs : dropLineEnds s.toList ≠ s.toList)
    (ht : dropLineEnds t.toList ≠ t.toList) (h : dropLineEnds s.toList = dropLineEnds t.toList) :
    appendSegment scheme path s = appendSegment scheme path t := by
  have hdots : ∀ {u : List Char}, dropLineEnds u ≠ u → ¬(u = ['.'] ∨ u = ['.', '.']) := by
    rintro u hu (rfl | rfl)
    · exact hu rfl
    · exact hu rfl
  simp only [appendSegment, if_neg (hdots hs), if_neg (hdots ht), h]

end MeshNode.Url
