/-
# URLs: reading what is written

The text of a URL in normal form can be told apart again: what is read from it has the same
scheme, path, query and fragment, and an authority that is read from the authority as it was
written.

* `text_toList`: the text of a URL, part by part;
* `parse_web`: what is read from an authority and a text behind it;
* `parse_text` and `parse_authority`: what is read from the text of a URL, and from one without
  a path.
-/
import MeshNode.Proofs.Url.Normal

namespace MeshNode.Url

open Percent

variable {scheme : String}

/-! ## 1. The text of a URL -/

/-- A text behind its mark, if there is one. -/
def behind (mark : Char) : Option (List Char) → List Char
  | some text => mark :: text
  | none => []

/-- The text of a port. -/
def portText : Option Nat → List Char
  | some port => ':' :: Nat.toDigits 10 port
  | none => []

/-- The text of a user name and password. -/
def userInfoChars (username password : String) : List Char :=
  if username ≠ "" ∨ password ≠ "" then
    username.toList ++ (if password = "" then [] else ':' :: password.toList) ++ ['@']
  else []

/-- The text of an authority. -/
def Authority.chars (a : Authority) : List Char :=
  userInfoChars a.username a.password ++ a.host.text.toList ++ portText a.port

theorem userInfoText_toList (u : Url) :
    u.userInfoText.toList = userInfoChars u.username u.password := by
  have hcolon : ":".toList = [':'] := rfl
  have hat : "@".toList = ['@'] := rfl
  by_cases h : u.username ≠ "" ∨ u.password ≠ ""
  · have hthere : u.hasUserInfo = true := by simpa [hasUserInfo] using h
    rw [userInfoText, userInfoChars, if_pos hthere, if_pos h, String.toList_append,
      String.toList_append, hat]
    by_cases hword : u.password = ""
    · rw [if_pos hword, if_pos hword, String.toList_empty]
    · rw [if_neg hword, if_neg hword, String.toList_append, hcolon, List.singleton_append]
  · have hnone : u.hasUserInfo = false := by simpa [hasUserInfo] using h
    rw [userInfoText, userInfoChars, hnone, if_neg h]
    rfl

/-- **The text of a URL**, part by part. -/
theorem text_toList (a : Authority) (path : List String) (query fragment : Option String) :
    (ofParts scheme a path query fragment).text.toList
      = scheme.toList ++ ':' :: '/' :: '/' :: (a.chars ++ (pathChars path ++
          behind '?' (query.map String.toList) ++ behind '#' (fragment.map String.toList))) := by
  have hslashes : "//".toList = ['/', '/'] := rfl
  have hcolon : ":".toList = [':'] := rfl
  have hnumber : ∀ port : Nat, (toString port).toList = Nat.toDigits 10 port := fun _ =>
    Nat.toList_repr
  have hquery : (markedText "?" query).toList = behind '?' (query.map String.toList) := by
    cases query with
    | none => rfl
    | some q => exact String.toList_append
  have hfragment : (markedText "#" fragment).toList = behind '#' (fragment.map String.toList) := by
    cases fragment with
    | none => rfl
    | some f => exact String.toList_append
  have hpath : (Path.segments path).text.toList = pathChars path := path_text_toList path
  simp only [text, authorityText, ofParts, String.toList_append, hslashes, hcolon, hquery,
    hfragment, hpath, userInfoText_toList, Authority.chars, List.append_assoc, List.cons_append,
    List.nil_append]
  cases a.port with
  | none => rfl
  | some port => rw [String.toList_append, hnumber, hcolon, portText, List.singleton_append]

/-! ## 2. Reading it back -/

/-- A text without white space is tidy. -/
theorem tidy_of_high {cs : List Char} (h : ∀ c ∈ cs, 0x20 < c.toNat) : tidy cs = cs := by
  have hdrop : ∀ ds : List Char, (∀ c ∈ ds, 0x20 < c.toNat) →
      ds.dropWhile (fun c => c.toNat ≤ 0x20) = ds := fun ds hds =>
    (Text.span_none fun c hc => by simpa using hds c (List.mem_of_mem_head? hc)).2
  have hfilter : cs.filter (fun c => c != '\t' && c != '\n' && c != '\r') = cs := by
    rw [List.filter_eq_self]
    intro c hc
    have hhigh := h c hc
    have hne : ∀ d : Char, d.toNat ≤ 0x20 → c ≠ d := by
      rintro d hd rfl
      omega
    simp only [Bool.and_eq_true, bne_iff_ne]
    exact ⟨⟨hne _ (by decide), hne _ (by decide)⟩, hne _ (by decide)⟩
  have hback : ∀ c ∈ cs.reverse, 0x20 < c.toNat := fun c hc => h c (List.mem_reverse.mp hc)
  rw [tidy, hdrop cs h, hdrop cs.reverse hback, List.reverse_reverse, hfilter]

theorem takeScheme?_web (hs : isWeb scheme = true) (rest : List Char) :
    takeScheme? (scheme.toList ++ ':' :: rest) = some (scheme, rest) := by
  simp only [isWeb, Bool.or_eq_true, beq_iff_eq] at hs
  rcases hs with (((rfl | rfl) | rfl) | rfl) | rfl <;> rfl

/-- A text in front of a mark, and the text behind it. -/
theorem span_behind {mark : Char} {front : List Char} (h : ∀ c ∈ front, c ≠ mark)
    (text : Option (List Char)) :
    (front ++ behind mark text).takeWhile (· != mark) = front ∧
      (front ++ behind mark text).dropWhile (· != mark) = behind mark text := by
  refine Text.span_run (fun c hc => bne_iff_ne.mpr (h c hc)) ?_
  cases text with
  | none => simp [behind]
  | some t => simp [behind]

theorem takeWhile_behind {mark : Char} {front : List Char} (h : ∀ c ∈ front, c ≠ mark)
    (text : Option (List Char)) :
    (front ++ behind mark text).takeWhile (· != mark) = front :=
  (span_behind h text).1

theorem dropWhile_behind {mark : Char} {front : List Char} (h : ∀ c ∈ front, c ≠ mark)
    (text : Option (List Char)) :
    (front ++ behind mark text).dropWhile (· != mark) = behind mark text :=
  (span_behind h text).2

/-- Path, query and fragment are told apart by their marks. -/
theorem splitMarks_behind {path : List Char} {query fragment : Option (List Char)}
    (hpath : ∀ c ∈ path, c ≠ '?' ∧ c ≠ '#') (hquery : ∀ q ∈ query, ∀ c ∈ q, c ≠ '#') :
    splitMarks (path ++ behind '?' query ++ behind '#' fragment) = (path, query, fragment) := by
  have hfront : ∀ c ∈ path ++ behind '?' query, c ≠ '#' := by
    intro c hc
    rcases List.mem_append.mp hc with hc | hc
    · exact (hpath c hc).2
    · cases query with
      | none => cases hc
      | some q =>
        rcases List.mem_cons.mp hc with rfl | hc
        · decide
        · exact hquery q rfl c hc
  have hmark : ∀ c ∈ path, c ≠ '?' := fun c hc => (hpath c hc).1
  simp only [splitMarks, takeWhile_behind hfront, dropWhile_behind hfront, takeWhile_behind hmark,
    dropWhile_behind hmark]
  cases query <;> cases fragment <;> rfl

/-- What a fragment does not reserve is no white space. -/
theorem high_of_fragment {c : Char} (h : Percent.fragment c = false) : 0x20 < c.toNat :=
  high_of_free (fun _ => controls_of_fragment) (by decide) h

theorem high_of_webQuery {c : Char} (h : webQuery c = false) : 0x20 < c.toNat :=
  high_of_free (fun _ => controls_of_webQuery) (by decide) h

/-- The characters of a path in normal form. -/
theorem mem_pathChars {path : List String} (h : NormalPath path) {c : Char}
    (hc : c ∈ pathChars path) : 0x20 < c.toNat ∧ c ≠ '?' ∧ c ≠ '#' := by
  obtain ⟨s, hs, hc⟩ := List.mem_flatMap.mp hc
  obtain ⟨t, ht, rfl⟩ := List.mem_map.mp hs
  rcases List.mem_cons.mp hc with rfl | hc
  · decide
  · have hfree := ((h.segment t ht).unreserved c hc).2
    exact ⟨high_of_fragment (fragment_of_path hfree), ne_of_reserved hfree (by decide),
      ne_of_reserved hfree (by decide)⟩

/-- **The characters of an authority** that was read stay in it. -/
theorem Authority.Clean.inAuthority_chars {a : Authority} (h : a.Clean) :
    ∀ c ∈ a.chars, InAuthority c := by
  intro c hc
  rw [Authority.chars] at hc
  rcases List.mem_append.mp hc with hc | hc
  · rcases List.mem_append.mp hc with hc | hc
    · rw [userInfoChars] at hc
      split at hc
      · rcases List.mem_append.mp hc with hc | hc
        · rcases List.mem_append.mp hc with hc | hc
          · exact h.username c hc
          · split at hc
            · cases hc
            · rcases List.mem_cons.mp hc with rfl | hc
              · decide
              · exact h.password c hc
        · rw [List.mem_singleton.mp hc]
          decide
      · cases hc
    · exact h.host.2 c hc
  · cases hp : a.port with
    | none =>
      rw [hp] at hc
      cases hc
    | some port =>
      rw [hp] at hc
      rcases List.mem_cons.mp hc with rfl | hc
      · decide
      · exact inAuthority_toDigits (by decide) (by decide) port c hc

theorem Authority.Clean.chars_ne_nil {a : Authority} (h : a.Clean) : a.chars ≠ [] := by
  simp [Authority.chars, h.host.1]

/-- The slashes in front of an authority end where it begins. -/
theorem dropSlashes_authority {cs : List Char} (hne : cs ≠ [])
    (h : ∀ c ∈ cs, InAuthority c) (tail : List Char) :
    dropSlashes true ('/' :: '/' :: (cs ++ tail)) = cs ++ tail := by
  cases cs with
  | nil => exact absurd rfl hne
  | cons c cs =>
    have hends := (h c List.mem_cons_self).2
    simp only [endsAuthority, Bool.or_eq_false_iff] at hends
    have hslash : isSlash true '/' = true := by decide
    rw [dropSlashes, List.dropWhile_cons_of_pos hslash, List.dropWhile_cons_of_pos hslash,
      List.cons_append, List.dropWhile_cons_of_neg (by simp [hends.1.1])]

/-- An authority ends where the path begins, or with the text. -/
theorem authority_ends {cs tail : List Char} (h : ∀ c ∈ cs, InAuthority c)
    (htail : ∀ c ∈ tail.head?, endsAuthority true c = true) :
    (cs ++ tail).takeWhile (!endsAuthority true ·) = cs ∧
      (cs ++ tail).dropWhile (!endsAuthority true ·) = tail := by
  have hinside : ∀ d ∈ cs, (!endsAuthority true d) = true := by
    intro d hd
    rw [(h d hd).2]
    rfl
  exact Text.span_run hinside fun c hc => by rw [htail c hc, Bool.not_true]

theorem high_of_mem_scheme (hs : isWeb scheme = true) : ∀ c ∈ scheme.toList, 0x20 < c.toNat := by
  have hall : scheme.toList.all (fun c => decide (0x20 < c.toNat)) = true := by
    simp only [isWeb, Bool.or_eq_true, beq_iff_eq] at hs
    rcases hs with (((rfl | rfl) | rfl) | rfl) | rfl <;> decide
  intro c hc
  exact of_decide_eq_true (List.all_eq_true.mp hall c hc)

/-- **What is read from an authority with a text behind it**, in the schemes of the web. -/
theorem parse_web (hs : isWeb scheme = true) {cs tail front : List Char}
    {query fragment : Option (List Char)} (hne : cs ≠ []) (hauthority : ∀ c ∈ cs, InAuthority c)
    (htail : ∀ c ∈ tail.head?, endsAuthority true c = true) (hhigh : ∀ c ∈ tail, 0x20 < c.toNat)
    (hmarks : splitMarks tail = (front, query, fragment)) {s : String}
    (htext : s.toList = scheme.toList ++ ':' :: '/' :: '/' :: (cs ++ tail)) :
    ∃ path, pathFrom scheme [] front = .segments path ∧
      parse? s = (readAuthority scheme cs).map fun a =>
        ofParts scheme a path (query.map (encodeQuery true)) (fragment.map encodeFragment) := by
  have hall : ∀ c ∈ s.toList, 0x20 < c.toNat := by
    intro c hc
    rw [htext] at hc
    rcases List.mem_append.mp hc with hc | hc
    · exact high_of_mem_scheme hs c hc
    · simp only [List.mem_cons] at hc
      rcases hc with rfl | rfl | rfl | hc
      · decide
      · decide
      · decide
      · rcases List.mem_append.mp hc with hc | hc
        · exact (hauthority c hc).1
        · exact hhigh c hc
  obtain ⟨htake, hdrop⟩ := authority_ends hauthority htail
  obtain ⟨path, hpath, -, heq⟩ := afterDoubleSlash_eq hs (hdrop ▸ hmarks)
  refine ⟨path, hpath, ?_⟩
  rw [parse?, tidy_of_high hall, htext, takeScheme?_web hs]
  dsimp only
  rw [afterScheme_web hs, dropSlashes_authority hne hauthority, heq, htake]

/-- A text that needs no encoding is kept as it is. -/
theorem map_encodeQuery {query : Option String}
    (h : ∀ q ∈ query, Unreserved webQuery q.toList) :
    (query.map String.toList).map (encodeQuery true) = query := by
  cases query with
  | none => rfl
  | some q =>
    rw [Option.map_some, Option.map_some, encodeQuery, if_pos rfl,
      encode_of_unreserved (h q rfl), String.ofList_toList]

theorem map_encodeFragment {fragment : Option String}
    (h : ∀ f ∈ fragment, Unreserved Percent.fragment f.toList) :
    (fragment.map String.toList).map encodeFragment = fragment := by
  cases fragment with
  | none => rfl
  | some f =>
    rw [Option.map_some, Option.map_some, encodeFragment, encode_of_unreserved (h f rfl),
      String.ofList_toList]

theorem mem_behind {mark c : Char} {text : Option String}
    (h : c ∈ behind mark (text.map String.toList)) :
    c = mark ∨ ∃ t ∈ text, c ∈ t.toList := by
  cases text with
  | none => cases h
  | some t =>
    rcases List.mem_cons.mp h with rfl | h
    · exact .inl rfl
    · exact .inr ⟨t, rfl, h⟩

section

variable {a : Authority} {path : List String} {query fragment : Option String}

/-- There is no white space behind the authority of a URL. -/
theorem high_of_mem_tail (hpath : NormalPath path)
    (hquery : ∀ q ∈ query, Unreserved webQuery q.toList)
    (hfragment : ∀ f ∈ fragment, Unreserved Percent.fragment f.toList) :
    ∀ c ∈ pathChars path ++ behind '?' (query.map String.toList) ++
      behind '#' (fragment.map String.toList), 0x20 < c.toNat := by
  intro c hc
  rcases List.mem_append.mp hc with hc | hc
  · rcases List.mem_append.mp hc with hc | hc
    · exact (mem_pathChars hpath hc).1
    · rcases mem_behind hc with rfl | ⟨q, hq, hc⟩
      · decide
      · exact high_of_webQuery (hquery q hq c hc).2
  · rcases mem_behind hc with rfl | ⟨f, hf, hc⟩
    · decide
    · exact high_of_fragment (hfragment f hf c hc).2

/-- The parts behind the authority are told apart. -/
theorem splitMarks_text (fragment : Option String) (hpath : NormalPath path)
    (hquery : ∀ q ∈ query, Unreserved webQuery q.toList) :
    splitMarks (pathChars path ++ behind '?' (query.map String.toList) ++
        behind '#' (fragment.map String.toList))
      = (pathChars path, query.map String.toList, fragment.map String.toList) := by
  refine splitMarks_behind (fun c hc => (mem_pathChars hpath hc).2) ?_
  rintro q hq c hc rfl
  obtain ⟨t, ht, rfl⟩ := Option.map_eq_some_iff.mp hq
  exact absurd (hquery t ht '#' hc).2 (by decide)

/-- **What is read from the text of a URL** is that URL, but for its authority, which is read
again from its own text. -/
theorem parse_text (hs : isWeb scheme = true) (ha : a.Clean) (hpath : NormalPath path)
    (hquery : ∀ q ∈ query, Unreserved webQuery q.toList)
    (hfragment : ∀ f ∈ fragment, Unreserved Percent.fragment f.toList) :
    parse? (ofParts scheme a path query fragment).text
      = (readAuthority scheme a.chars).map fun b => ofParts scheme b path query fragment := by
  have htail : ∀ c ∈ (pathChars path ++ behind '?' (query.map String.toList) ++
      behind '#' (fragment.map String.toList)).head?, endsAuthority true c = true := by
    obtain ⟨first, rest, rfl⟩ := List.exists_cons_of_ne_nil hpath.notEmpty
    rintro c hc
    obtain rfl : '/' = c := Option.some.inj hc
    decide
  obtain ⟨path', hread, hparse⟩ := parse_web hs ha.chars_ne_nil ha.inAuthority_chars htail
    (high_of_mem_tail hpath hquery hfragment) (splitMarks_text fragment hpath hquery)
    (text_toList a path query fragment)
  obtain rfl : path = path' := Path.segments.inj ((pathFrom_text hs hpath).symm.trans hread)
  rw [hparse, map_encodeQuery hquery, map_encodeFragment hfragment]

end

/-- **A text without a path**: an authority behind the slashes, and nothing more. -/
theorem parse_authority (hs : isWeb scheme = true) {cs : List Char} (hne : cs ≠ [])
    (h : ∀ c ∈ cs, InAuthority c) {s : String}
    (htext : s.toList = scheme.toList ++ ':' :: '/' :: '/' :: cs) :
    parse? s = (readAuthority scheme cs).map fun a => ofParts scheme a [""] none none := by
  have hmarks : splitMarks [] = ([], none, none) := rfl
  obtain ⟨path, hpath, hparse⟩ := parse_web hs hne h (by simp) (by simp) hmarks
    (by rw [List.append_nil]; exact htext)
  have hroot : path = [""] := by
    rw [pathFrom, not_file_of_isWeb hs, isSpecial_of_isWeb hs] at hpath
    exact (Path.segments.inj hpath).symm
  rw [hparse, hroot]
  rfl

/-- **The path of a URL is read back**, if the URL is. -/
theorem parse_path {u target : Url} (hu : Normal u) (h : parse? u.text = .ok target) :
    target.path = u.path := by
  cases hu with
  | @mk scheme a path query fragment web authority segments queried marked =>
    rw [parse_text web authority segments queried marked] at h
    cases ha : readAuthority scheme a.chars with
    | error e =>
      rw [ha] at h
      cases h
    | ok b =>
      rw [ha] at h
      cases h
      rfl

end MeshNode.Url
