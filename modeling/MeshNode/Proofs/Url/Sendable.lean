/-
# URLs in the line of a request

A URL of http or https is written without white space and with its escapes in place, so its path and
its query can always stand in the line of a request.  What remains to be asked is whether its
authority can, and whether its text is short enough.

* `pathChar_of_free` and `queryChar_of_free`: the characters of paths and queries;
* `isUri_text`: which URLs can be asked for;
* `isUri_localhost`: those of the local machine, by their length alone.
-/
import MeshNode.Http.Uri
import MeshNode.Proofs.Url.Localhost

namespace MeshNode.Url

open Percent

/-! ## 1. Paths and queries -/

theorem toNat_ne_of_reserved {reserved : Char → Bool} {c d : Char} (hc : reserved c = false)
    (hd : reserved d = true) : c.toNat ≠ d.toNat := fun heq =>
  ne_of_reserved hc hd (Char.toNat_inj.mp heq)

/-- What a path does not reserve may stand in the path of a request. -/
theorem pathChar_of_free {c : Char} (h : Percent.path c = false) : Http.isPathChar c = true := by
  have hhigh := high_of_fragment (fragment_of_path h)
  have hmark : c.toNat ≠ 0x23 := toNat_ne_of_reserved (d := '#') h (by decide)
  have hless : c.toNat ≠ 0x3C := toNat_ne_of_reserved (d := '<') h (by decide)
  have hmore : c.toNat ≠ 0x3E := toNat_ne_of_reserved (d := '>') h (by decide)
  have hquery : c.toNat ≠ 0x3F := toNat_ne_of_reserved (d := '?') h (by decide)
  have htick : c.toNat ≠ 0x60 := toNat_ne_of_reserved (d := '`') h (by decide)
  simp only [Http.isPathChar, Bool.or_eq_true, Bool.and_eq_true, beq_iff_eq, decide_eq_true_eq]
  omega

/-- What a query does not reserve may stand in the query of a request. -/
theorem queryChar_of_free {c : Char} (h : webQuery c = false) : Http.isQueryChar c = true := by
  have hhigh := high_of_webQuery h
  have hquote : c.toNat ≠ 0x22 := toNat_ne_of_reserved (d := '"') h (by decide)
  have hmark : c.toNat ≠ 0x23 := toNat_ne_of_reserved (d := '#') h (by decide)
  have hless : c.toNat ≠ 0x3C := toNat_ne_of_reserved (d := '<') h (by decide)
  have hmore : c.toNat ≠ 0x3E := toNat_ne_of_reserved (d := '>') h (by decide)
  simp only [Http.isQueryChar, Bool.or_eq_true, Bool.and_eq_true, beq_iff_eq, decide_eq_true_eq]
  omega

variable {path : List String} {query fragment : Option String}

theorem pathChar_of_mem (hpath : NormalPath path) {c : Char} (hc : c ∈ pathChars path) :
    Http.isPathChar c = true := by
  obtain ⟨s, hs, hc⟩ := List.mem_flatMap.mp hc
  obtain ⟨t, ht, rfl⟩ := List.mem_map.mp hs
  rcases List.mem_cons.mp hc with rfl | hc
  · decide
  · exact pathChar_of_free ((hpath.segment t ht).unreserved c hc).2

/-- **A path with a query can always be asked for.** -/
theorem isPathAndQuery_tail (hpath : NormalPath path)
    (hquery : ∀ q ∈ query, Unreserved webQuery q.toList) :
    Http.isPathAndQuery (pathChars path ++ behind '?' (query.map String.toList) ++
      behind '#' (fragment.map String.toList)) = true := by
  have hnoQuery : ∀ c ∈ pathChars path, c ≠ '?' := fun c hc => (mem_pathChars hpath hc).2.1
  have hnoMark : ∀ c ∈ pathChars path ++ behind '?' (query.map String.toList), c ≠ '#' := by
    intro c hc
    rcases List.mem_append.mp hc with hc | hc
    · exact (mem_pathChars hpath hc).2.2
    · rcases mem_behind hc with rfl | ⟨q, hq, hc⟩
      · decide
      · exact ne_of_reserved (hquery q hq c hc).2 (by decide)
  have hqueried : ((behind '?' (query.map String.toList)).drop 1).all Http.isQueryChar = true := by
    cases query with
    | none => rfl
    | some q => exact List.all_eq_true.mpr fun c hc => queryChar_of_free (hquery q rfl c hc).2
  rw [Http.isPathAndQuery, takeWhile_behind hnoMark, takeWhile_behind hnoQuery,
    dropWhile_behind hnoQuery, hqueried, Bool.and_true]
  exact List.all_eq_true.mpr fun c hc => pathChar_of_mem hpath hc

/-! ## 2. Whole URLs -/

variable {scheme : String} {a : Authority}

/-- Behind the scheme stands its mark, and then the authority. -/
theorem dropScheme_spoken (h : scheme = "http" ∨ scheme = "https") (rest : List Char) :
    Http.dropScheme (scheme.toList ++ ':' :: '/' :: '/' :: rest) = some (true, rest) := by
  rcases h with rfl | rfl
  · simp [Http.dropScheme, Http.isSchemeChar, Http.schemeLimit, List.takeWhile]
  · simp [Http.dropScheme, Http.isSchemeChar, Http.schemeLimit, List.takeWhile]

/-- An authority ends with the text in front of the path, whoever reads it. -/
theorem http_authority_ends {cs tail : List Char} (h : ∀ c ∈ cs, InAuthority c)
    (htail : ∀ c ∈ tail.head?, Http.endsAuthority c = true) :
    (cs ++ tail).takeWhile (!Http.endsAuthority ·) = cs ∧
      (cs ++ tail).dropWhile (!Http.endsAuthority ·) = tail := by
  refine Text.span_run (fun c hc => ?_) fun c hc => by rw [htail c hc, Bool.not_true]
  have hinside := (h c hc).2
  simp only [endsAuthority, isSlash, Bool.or_eq_false_iff] at hinside
  simp [Http.endsAuthority, hinside]

/-- **Which URLs can be asked for**: those with an authority that can stand in the line of a request,
and a text that is not too long. -/
theorem isUri_text (hs : scheme = "http" ∨ scheme = "https") (ha : a.Clean) (hpath : NormalPath path)
    (hquery : ∀ q ∈ query, Unreserved webQuery q.toList) :
    Http.isUri (ofParts scheme a path query fragment).text = true ↔
      (Utf8.encode (ofParts scheme a path query fragment).text).length ≤ Http.uriLimit ∧
        Http.isAuthority a.chars = true := by
  have htail : ∀ c ∈ (pathChars path ++ behind '?' (query.map String.toList) ++
      behind '#' (fragment.map String.toList)).head?, Http.endsAuthority c = true := by
    obtain ⟨first, rest, rfl⟩ := List.exists_cons_of_ne_nil hpath.notEmpty
    rintro c hc
    obtain rfl : '/' = c := Option.some.inj hc
    decide
  obtain ⟨htake, hdrop⟩ := http_authority_ends ha.inAuthority_chars htail
  have hne : a.chars.isEmpty = false := by simp [ha.chars_ne_nil]
  have hscheme := dropScheme_spoken hs (a.chars ++ (pathChars path ++
    behind '?' (query.map String.toList) ++ behind '#' (fragment.map String.toList)))
  by_cases hlong : Http.uriLimit < (Utf8.encode (ofParts scheme a path query fragment).text).length
  · rw [Http.isUri, if_pos hlong]
    exact iff_of_false (by rintro ⟨⟩) fun h => absurd hlong (Nat.not_lt.mpr h.1)
  · rw [Http.isUri, if_neg hlong, text_toList]
    simp only [hscheme, htake, hdrop, hne, isPathAndQuery_tail hpath hquery]
    rcases hs with rfl | rfl
    · simp [Nat.le_of_not_lt hlong]
    · simp [Nat.le_of_not_lt hlong]

/-! ## 3. The local machine -/

/-- A letter or a digit changes nothing in an authority but what came before it. -/
theorem step_alphanum {s : Http.Scan} {c : Char} (h : c.isAlphanum = true) :
    s.step c = some { s with afterUser := false } := by
  have hne : ∀ d : Char, d.isAlphanum = false → c ≠ d := by
    rintro d hd rfl
    rw [h] at hd
    cases hd
  rw [Http.Scan.step]
  simp only [hne ':' (by decide), hne '[' (by decide), hne ']' (by decide), hne '@' (by decide),
    hne '%' (by decide), Http.isUriChar, h, if_false, Bool.true_or, if_true]

theorem foldlM_alphanum : ∀ {cs : List Char} {s : Http.Scan}, s.afterUser = false →
    (∀ c ∈ cs, c.isAlphanum = true) → cs.foldlM Http.Scan.step s = some s
  | [], s, _, _ => rfl
  | c :: cs, s, hs, h => by
    have hsame : ({ s with afterUser := false } : Http.Scan) = s := by rw [← hs]
    rw [List.foldlM_cons, step_alphanum (h c List.mem_cons_self), hsame]
    exact foldlM_alphanum hs fun d hd => h d (List.mem_cons_of_mem c hd)

/-- **The authority of the local machine** can always stand in the line of a request. -/
theorem isAuthority_localAuthority (port : Nat) :
    Http.isAuthority (localAuthority port).chars = true := by
  have hname : "localhost".toList.foldlM Http.Scan.step {} = some {} := by decide
  have hdigits : ∀ n, (portText (some n)).foldlM Http.Scan.step {} = some { colons := 1 } := by
    intro n
    rw [portText, List.foldlM_cons]
    exact foldlM_alphanum rfl (Text.of_mem_toDigits (by decide) (by decide) (by decide))
  have hchars : (localAuthority port).chars
      = "localhost".toList ++ portText (if port = 80 then none else some port) := by
    simp [Authority.chars, localAuthority, userInfoChars, Host.text]
  rw [Http.isAuthority, hchars, List.foldlM_append, hname]
  by_cases hport : port = 80
  · rw [if_pos hport]
    rfl
  · simp only [if_neg hport, Option.bind_eq_bind, Option.bind_some, hdigits]
    rfl

/-- **A URL of the local machine can be asked for** unless it is too long. -/
theorem isUri_localhost (port : UInt16) (hpath : NormalPath path) :
    Http.isUri (ofParts "http" (localAuthority port.toNat) path none none).text = true ↔
      (Utf8.encode (ofParts "http" (localAuthority port.toNat) path none none).text).length
        ≤ 65534 := by
  have hclean := (localAuthority_settled (Nat.le_of_lt_succ port.toNat_lt)).clean
  rw [isUri_text (.inl rfl) hclean hpath (by simp), isAuthority_localAuthority, and_iff_left rfl]
  rfl

end MeshNode.Url
