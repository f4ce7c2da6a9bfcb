/-
# A text behind a URL

What is read when a path is put behind the text of a URL of the web.  The scheme is that of the
URL.  If the text of the URL ends where it seems to end, with no white space behind it, and has
neither query nor fragment, the authority is that of the URL as well, and the path ends with what
was put behind it.

* `tidy_append`: the white space around a text with something behind it;
* `takeScheme?_append` and `afterDoubleSlash_append`: the scheme, and what is behind it;
* `scheme_behind` and `parse_behind`: whole texts.
-/
import MeshNode.Proofs.Url.Text

namespace MeshNode.Url

variable {scheme : String}

/-! ## 1. White space -/

/-- Whether a character counts for nothing at the ends of a text. -/
def isEdge (c : Char) : Bool := c.toNat ≤ 0x20

/-- Whether a character counts inside a text. -/
def isKept (c : Char) : Bool := c != '\t' && c != '\n' && c != '\r'

/-- A text without what counts for nothing in front of it and inside. -/
def tidyFront (cs : List Char) : List Char := (cs.dropWhile isEdge).filter isKept

theorem isEdge_of_high {c : Char} (h : 0x20 < c.toNat) : isEdge c = false :=
  decide_eq_false (Nat.not_le.mpr h)

theorem isKept_of_high {c : Char} (h : 0x20 < c.toNat) : isKept c = true := by
  have hne : ∀ d : Char, d.toNat ≤ 0x20 → c ≠ d := by
    rintro d hd rfl
    omega
  simp only [isKept, Bool.and_eq_true, bne_iff_ne]
  exact ⟨⟨hne _ (by decide), hne _ (by decide)⟩, hne _ (by decide)⟩

theorem filter_of_high {cs : List Char} (h : ∀ c ∈ cs, 0x20 < c.toNat) : cs.filter isKept = cs :=
  List.filter_eq_self.mpr fun c hc => isKept_of_high (h c hc)

theorem tidy_eq (cs : List Char) :
    tidy cs = (((cs.dropWhile isEdge).reverse.dropWhile isEdge).reverse).filter isKept := rfl

/-- At the end white space is taken off. -/
theorem tidyFront_eq (cs : List Char) : ∃ blank, tidyFront cs = tidy cs ++ blank := by
  refine ⟨(((cs.dropWhile isEdge).reverse.takeWhile isEdge).reverse).filter isKept, ?_⟩
  rw [tidy_eq, ← List.filter_append, ← List.reverse_append, List.takeWhile_append_dropWhile,
    List.reverse_reverse, tidyFront]

/-- A text that does not end in white space. -/
theorem tidy_eq_tidyFront {cs : List Char} (h : ∀ c ∈ cs.getLast?, 0x20 < c.toNat) :
    tidy cs = tidyFront cs := by
  have hback : ∀ c ∈ (cs.dropWhile isEdge).reverse.head?, isEdge c = false := by
    intro c hc
    rw [List.head?_reverse] at hc
    refine isEdge_of_high (h c ?_)
    rw [← List.takeWhile_append_dropWhile (p := isEdge) (l := cs), List.getLast?_append, hc,
      Option.some_or]
    rfl
  rw [tidy_eq, (Text.span_none hback).2, List.reverse_reverse, tidyFront]

/-- **Something behind a text** that is not white space as a whole. -/
theorem tidy_append {cs more : List Char} (hcs : cs.dropWhile isEdge ≠ []) (hne : more ≠ [])
    (hmore : ∀ c ∈ more, 0x20 < c.toNat) : tidy (cs ++ more) = tidyFront cs ++ more := by
  have hlast : ∀ c ∈ (cs ++ more).getLast?, 0x20 < c.toNat := by
    intro c hc
    rw [List.getLast?_append, List.getLast?_eq_some_getLast hne, Option.some_or] at hc
    obtain rfl := Option.some.inj hc
    exact hmore _ (List.getLast_mem hne)
  rw [tidy_eq_tidyFront hlast, tidyFront, tidyFront, List.dropWhile_append,
    if_neg (by simpa using hcs), List.filter_append, filter_of_high hmore]

theorem high_of_mem_slashes {n : Nat} : ∀ c ∈ List.replicate n '/', 0x20 < c.toNat := by
  intro c hc
  rw [List.eq_of_mem_replicate hc]
  decide

/-- A text that is white space but for slashes at its end has no scheme. -/
theorem takeScheme?_blank {cs : List Char} (hcs : cs.dropWhile isEdge = []) (n : Nat) :
    takeScheme? (tidy (cs ++ List.replicate n '/')) = none := by
  cases n with
  | zero =>
    rw [List.replicate_zero, List.append_nil, tidy_eq, hcs]
    rfl
  | succ n =>
    have hlast : ∀ c ∈ (cs ++ List.replicate (n + 1) '/').getLast?, 0x20 < c.toNat := by
      intro c hc
      rw [List.getLast?_append, List.getLast?_replicate] at hc
      obtain rfl : '/' = c := by simpa using hc
      decide
    have hdrop : (List.replicate (n + 1) '/').dropWhile isEdge = List.replicate (n + 1) '/' := by
      rw [List.replicate_succ, List.dropWhile_cons_of_neg (by decide)]
    rw [tidy_eq_tidyFront hlast, tidyFront, List.dropWhile_append, if_pos (by rw [hcs]; rfl), hdrop,
      filter_of_high high_of_mem_slashes]
    rfl

/-- **The white space of a text with a scheme**, with slashes at its end or with more in their
place.  Only where the text ends in white space there is some in front of what is put there. -/
theorem tidy_behind {cs : List Char} {n : Nat}
    (h : takeScheme? (tidy (cs ++ List.replicate n '/')) ≠ none) :
    ∃ front blank, tidy (cs ++ List.replicate n '/') = front ++ List.replicate n '/' ∧
      (∀ more, more ≠ [] → (∀ c ∈ more, 0x20 < c.toNat) →
        tidy (cs ++ more) = front ++ (blank ++ more)) ∧
      ((∀ c ∈ (cs ++ List.replicate n '/').getLast?, 0x20 < c.toNat) → blank = []) := by
  have hcs : cs.dropWhile isEdge ≠ [] := fun hnil => h (takeScheme?_blank hnil n)
  cases n with
  | zero =>
    simp only [List.replicate_zero, List.append_nil]
    obtain ⟨blank, hblank⟩ := tidyFront_eq cs
    refine ⟨tidy cs, blank, rfl, fun more hne hmore => ?_, fun hlast => ?_⟩
    · rw [tidy_append hcs hne hmore, hblank, List.append_assoc]
    · rw [← tidy_eq_tidyFront hlast] at hblank
      exact List.self_eq_append_right.mp hblank
  | succ n =>
    refine ⟨tidyFront cs, [], tidy_append hcs (by simp) high_of_mem_slashes, ?_, fun _ => rfl⟩
    exact fun more hne hmore => tidy_append hcs hne hmore

/-! ## 2. Schemes -/

/-- When a scheme is taken: a letter comes first, and a colon is behind it. -/
theorem takeScheme?_eq_some {cs rest : List Char} : takeScheme? cs = some (scheme, rest) ↔
    (∃ c ∈ cs.head?, c.isAlpha = true) ∧ cs.dropWhile isSchemeChar = ':' :: rest ∧
      String.ofList ((cs.takeWhile isSchemeChar).map Char.toLower) = scheme := by
  cases cs with
  | nil => simp [takeScheme?]
  | cons c ds =>
    rw [takeScheme?]
    by_cases hc : c.isAlpha = true
    · rw [if_pos hc]
      split
      · next hdrop => simp [hc, hdrop, and_comm]
      · next hdrop => exact iff_of_false (by simp) fun h => hdrop _ h.2.1
    · rw [if_neg hc]
      exact iff_of_false (by simp) (by simp [hc])

/-- **The scheme does not depend on what stands behind a text**, if it does not end there. -/
theorem takeScheme?_append {cs tail rest : List Char} (hcolon : ':' ∉ tail)
    (h : takeScheme? (cs ++ tail) = some (scheme, rest)) :
    ∃ inner, rest = inner ++ tail ∧
      ∀ more, takeScheme? (cs ++ more) = some (scheme, inner ++ more) := by
  obtain ⟨hhead, hrest, hscheme⟩ := takeScheme?_eq_some.mp h
  have hdrop : cs.dropWhile isSchemeChar ≠ [] := by
    intro hnil
    rw [List.dropWhile_append, if_pos (by rw [hnil]; rfl)] at hrest
    have hmem : ':' ∈ tail.dropWhile isSchemeChar := hrest ▸ List.mem_cons_self
    exact hcolon ((List.dropWhile_sublist _).mem hmem)
  obtain ⟨c, ds, rfl⟩ : ∃ c ds, cs = c :: ds := by
    refine List.exists_cons_of_ne_nil ?_
    rintro rfl
    exact hdrop rfl
  obtain ⟨d, inner, hd⟩ := List.exists_cons_of_ne_nil hdrop
  rw [(Text.span_append hdrop tail).2, hd] at hrest
  obtain ⟨rfl, hinner⟩ := List.cons.inj hrest
  refine ⟨inner, hinner.symm, fun more => takeScheme?_eq_some.mpr ⟨hhead, ?_, ?_⟩⟩
  · rw [(Text.span_append hdrop more).2, hd, List.cons_append]
  · rw [(Text.span_append hdrop more).1, ← hscheme, (Text.span_append hdrop tail).1]

/-! ## 3. Paths -/

/-- The last segment of a text stays the last segment of the path. -/
theorem addSegments_last {segment : String} (h : NormalSegment segment.toList) :
    ∀ (segments : List (List Char)) (path : List String),
      ∃ front, addSegments false path (segments ++ [segment.toList]) = front ++ [segment]
  | [], path =>
    ⟨path, addSegments_normal [segment] path fun s hs => List.mem_singleton.mp hs ▸ h⟩
  | s :: segments, path => by
    obtain ⟨path', heq, -⟩ := addSegments_cons path s (segments ++ [segment.toList])
    obtain ⟨front, hfront⟩ := addSegments_last h segments path'
    exact ⟨front, heq.trans hfront⟩

theorem segmentsOf_last {segment : String} (h : NormalSegment segment.toList) (cs : List Char) :
    ∃ front, segmentsOf true (cs ++ '/' :: segment.toList) = front ++ [segment.toList] := by
  have hkept : (segment.toList.map fun c => if isSlash true c then '/' else c) = segment.toList := by
    refine (List.map_congr_left fun c hc => ?_).trans (List.map_id _)
    rw [h.noSlash c hc]
    rfl
  have hnot : '/' ∉ segment.toList := fun hm => absurd (h.noSlash '/' hm) (by decide)
  have hpieces : ∀ front : List Char, Text.splitOn '/'
      ((front ++ '/' :: segment.toList).map fun c => if isSlash true c then '/' else c)
        = Text.splitOn '/' (front.map fun c => if isSlash true c then '/' else c)
          ++ [segment.toList] := by
    intro front
    rw [List.map_append, List.map_cons, hkept, ← Text.splitOn_of_not_mem hnot]
    exact Text.splitOn_append_separator _ _
  cases cs with
  | nil =>
    refine ⟨[], ?_⟩
    rw [List.nil_append, segmentsOf, if_pos (by decide), hkept, Text.splitOn_of_not_mem hnot]
    rfl
  | cons c cs =>
    rw [List.cons_append, segmentsOf]
    split
    · exact ⟨_, hpieces cs⟩
    · exact ⟨_, hpieces (c :: cs)⟩

/-- **A path with a segment at its end.** -/
theorem pathFrom_last (hs : isWeb scheme = true) {segment : String}
    (h : NormalSegment segment.toList) (cs : List Char) :
    ∃ front, pathFrom scheme [] (cs ++ '/' :: segment.toList) = .segments (front ++ [segment]) := by
  obtain ⟨pieces, hpieces⟩ := segmentsOf_last h cs
  obtain ⟨front, hfront⟩ := addSegments_last h pieces []
  refine ⟨front, ?_⟩
  rw [pathFrom, not_file_of_isWeb hs, isSpecial_of_isWeb hs, hpieces, hfront]
  rfl

/-! ## 4. What is behind the scheme -/

theorem not_mem_of_dropWhile {mark : Char} {cs : List Char} (h : cs.dropWhile (· != mark) = []) :
    mark ∉ cs := by
  intro hmem
  have hall := List.takeWhile_append_dropWhile (p := (· != mark)) (l := cs)
  rw [h, List.append_nil] at hall
  have htaken := List.all_eq_true.mp (List.all_takeWhile (p := (· != mark)) (l := cs)) mark
    (hall.symm ▸ hmem)
  simp at htaken

/-- A text with neither query nor fragment has none of their marks. -/
theorem splitMarks_none {cs path : List Char} (h : splitMarks cs = (path, none, none)) :
    ∀ c ∈ cs, c ≠ '?' ∧ c ≠ '#' := by
  rw [splitMarks] at h
  simp only [Prod.mk.injEq] at h
  obtain ⟨-, hquery, hfragment⟩ := h
  have hhash : '#' ∉ cs := by
    refine not_mem_of_dropWhile ?_
    split at hfragment
    · assumption
    · cases hfragment
  have hall : cs.takeWhile (· != '#') = cs := by
    have hself := takeWhile_behind (fun c hc (heq : c = '#') => hhash (heq ▸ hc)) none
    simpa [behind] using hself
  have hquestion : '?' ∉ cs := by
    refine not_mem_of_dropWhile ?_
    rw [hall] at hquery
    split at hquery
    · assumption
    · cases hquery
  exact fun c hc => ⟨fun heq => hquestion (heq ▸ hc), fun heq => hhash (heq ▸ hc)⟩

/-- **An authority with a path behind it**, and a segment behind that. -/
theorem afterDoubleSlash_append (hs : isWeb scheme = true) {cs : List Char} {n : Nat} {u : Url}
    (h : afterDoubleSlash scheme (cs ++ List.replicate n '/') = .ok u) (hquery : u.query = none)
    (hfragment : u.fragment = none) {segment : String} (hsegment : NormalSegment segment.toList) :
    ∃ front, afterDoubleSlash scheme (cs ++ '/' :: segment.toList)
      = .ok { u with path := .segments (front ++ [segment]) } := by
  have hslashes : ∀ c ∈ (List.replicate n '/').head?, (!endsAuthority true c) = false := by
    intro c hc
    rw [List.eq_of_mem_replicate (List.mem_of_head? hc)]
    decide
  have hslash : ∀ c ∈ ('/' :: segment.toList).head?, (!endsAuthority true c) = false := by
    rintro c hc
    obtain rfl : '/' = c := Option.some.inj hc
    decide
  obtain ⟨htake, hdrop⟩ := Text.span_ends hslashes cs
  obtain ⟨htake', hdrop'⟩ := Text.span_ends hslash cs
  rcases hmarks : splitMarks (cs.dropWhile (!endsAuthority true ·) ++ List.replicate n '/') with
    ⟨path, query, fragment⟩
  obtain ⟨segments, -, -, heq⟩ := afterDoubleSlash_eq hs (hdrop ▸ hmarks)
  rw [heq, htake] at h
  cases ha : readAuthority scheme (cs.takeWhile (!endsAuthority true ·)) with
  | error e =>
    rw [ha] at h
    cases h
  | ok a =>
    rw [ha] at h
    cases h
    obtain rfl : query = none := Option.map_eq_none_iff.mp hquery
    obtain rfl : fragment = none := Option.map_eq_none_iff.mp hfragment
    have hplain := splitMarks_none hmarks
    have hclean : ∀ c ∈ cs.dropWhile (!endsAuthority true ·) ++ '/' :: segment.toList,
        c ≠ '?' ∧ c ≠ '#' := by
      intro c hc
      rcases List.mem_append.mp hc with hc | hc
      · exact hplain c (List.mem_append_left _ hc)
      · have hpath : NormalPath [segment] :=
          ⟨by simp, fun s hs => List.mem_singleton.mp hs ▸ hsegment⟩
        exact (mem_pathChars hpath (by simpa [pathChars] using hc)).2
    have hmarks' := @splitMarks_behind _ none none hclean (by simp)
    simp only [behind, List.append_nil] at hmarks'
    obtain ⟨front, hfront⟩ := pathFrom_last hs hsegment (cs.dropWhile (!endsAuthority true ·))
    rw [← hdrop'] at hmarks' hfront
    obtain ⟨path', hpath', -, heq'⟩ := afterDoubleSlash_eq hs hmarks'
    obtain rfl : front ++ [segment] = path' := Path.segments.inj (hfront.symm.trans hpath')
    refine ⟨front, ?_⟩
    rw [heq', htake', ha]
    rfl

/-! ## 5. Whole texts -/

/-- The slashes in front of an authority end where it begins, whatever is behind it. -/
theorem dropSlashes_append {cs : List Char} (h : dropSlashes true cs ≠ []) (more : List Char) :
    dropSlashes true (cs ++ more) = dropSlashes true cs ++ more :=
  (Text.span_append h more).2

/-- Behind slashes alone there is no authority. -/
theorem dropSlashes_ne_nil (hs : isWeb scheme = true) {cs : List Char} {n : Nat} {u : Url}
    (h : afterDoubleSlash scheme (dropSlashes true (cs ++ List.replicate n '/')) = .ok u) :
    dropSlashes true cs ≠ [] := by
  intro hnil
  have hslashes : dropSlashes true (List.replicate n '/') = [] := by
    rw [dropSlashes, List.dropWhile_replicate]
    rfl
  have hall : dropSlashes true (cs ++ List.replicate n '/') = [] := by
    rw [dropSlashes, List.dropWhile_append, if_pos (by rw [← dropSlashes, hnil]; rfl)]
    exact hslashes
  have hnone := readAuthority_noHost (isSpecial_of_isWeb hs)
    (show takeUserInfo [] = (none, []) from rfl) (show takeHost false [] = ([], []) from rfl)
  rw [hall, afterDoubleSlash] at h
  simp only [List.takeWhile_nil, hnone] at h
  cases h

section

variable {base text segment : String} {cs : List Char} {n : Nat} {u : Url}

/-- **The scheme of a text with a segment behind it**, and what is read behind the scheme. -/
theorem parse_behind_scheme (hbase : base.toList = cs ++ List.replicate n '/')
    (htext : text.toList = cs ++ '/' :: segment.toList) (hparse : parse? base = .ok u)
    (hsegment : NormalSegment segment.toList) :
    ∃ inner blank, parse? base = afterScheme u.scheme (inner ++ List.replicate n '/') ∧
      parse? text = afterScheme u.scheme (inner ++ (blank ++ '/' :: segment.toList)) ∧
      ((∀ c ∈ base.toList.getLast?, 0x20 < c.toNat) → blank = []) := by
  have hmore : ∀ c ∈ '/' :: segment.toList, 0x20 < c.toNat := by
    intro c hc
    have hpath : NormalPath [segment] :=
      ⟨by simp, fun s hs => List.mem_singleton.mp hs ▸ hsegment⟩
    exact (mem_pathChars hpath (by simpa [pathChars] using hc)).1
  cases hscheme : takeScheme? (tidy base.toList) with
  | none =>
    rw [parse?, hscheme] at hparse
    cases hparse
  | some taken =>
    obtain ⟨scheme, rest⟩ := taken
    have hread : parse? base = afterScheme scheme rest := by rw [parse?, hscheme]
    obtain rfl : u.scheme = scheme := afterScheme_scheme (hread ▸ hparse)
    obtain ⟨front, blank, htidy, hbehind, hblank⟩ :=
      @tidy_behind cs n (by rw [← hbase, hscheme]; simp)
    rw [← hbase] at htidy hblank
    rw [htidy] at hscheme
    obtain ⟨inner, rfl, htake⟩ := takeScheme?_append (by simp [List.mem_replicate]) hscheme
    refine ⟨inner, blank, hread, ?_, hblank⟩
    rw [parse?, htext, hbehind _ (by simp) hmore, htake]

/-- **A segment behind the text of a URL** leaves its scheme. -/
theorem scheme_behind (hbase : base.toList = cs ++ List.replicate n '/')
    (htext : text.toList = cs ++ '/' :: segment.toList) (hparse : parse? base = .ok u)
    (hsegment : NormalSegment segment.toList) {target : Url} (htarget : parse? text = .ok target) :
    target.scheme = u.scheme := by
  obtain ⟨inner, blank, -, hread, -⟩ := parse_behind_scheme hbase htext hparse hsegment
  exact afterScheme_scheme (hread ▸ htarget)

/-- **A segment behind the text of a URL** without query and fragment, and with no white space at
its end, is put to its path, and nothing else changes. -/
theorem parse_behind (hbase : base.toList = cs ++ List.replicate n '/')
    (htext : text.toList = cs ++ '/' :: segment.toList) (hparse : parse? base = .ok u)
    (hsegment : NormalSegment segment.toList) (hs : isWeb u.scheme = true) (hquery : u.query = none)
    (hfragment : u.fragment = none) (hlast : ∀ c ∈ base.toList.getLast?, 0x20 < c.toNat) :
    ∃ front, parse? text = .ok { u with path := .segments (front ++ [segment]) } := by
  obtain ⟨inner, blank, hread, hread', hblank⟩ := parse_behind_scheme hbase htext hparse hsegment
  rw [hblank hlast, List.nil_append, afterScheme_web hs] at hread'
  rw [hread, afterScheme_web hs] at hparse
  have hne := dropSlashes_ne_nil hs hparse
  rw [dropSlashes_append hne] at hparse hread'
  rw [hread']
  exact afterDoubleSlash_append hs hparse hquery hfragment hsegment

end

end MeshNode.Url
