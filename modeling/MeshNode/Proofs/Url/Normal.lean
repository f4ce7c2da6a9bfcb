/-
# URLs in normal form

A URL of the web that was read has an authority that stays in its place, a path in normal form,
and marks that need no encoding.

* `ofParts` puts a URL together, `Normal` are the URLs of such parts;
* `afterScheme_web` and `afterDoubleSlash_eq`: how URLs of the web are read;
* `parse_parts` and `parse_normal`: every one that is read has such parts, and is in normal form.
-/
import MeshNode.Proofs.Url.Authority
import MeshNode.Proofs.Url.Path

namespace MeshNode.Url

open Percent

/-- The URL of an authority, a path and marks. -/
def ofParts (scheme : String) (a : Authority) (path : List String)
    (query fragment : Option String) : Url :=
  { scheme, username := a.username, password := a.password, host := some a.host, port := a.port,
    path := .segments path, query, fragment }

/-- A URL of the web in normal form. -/
inductive Normal : Url → Prop
  | mk {scheme : String} {a : Authority} {path : List String} {query fragment : Option String}
    (web : isWeb scheme = true) (authority : a.Clean) (segments : NormalPath path)
    (queried : ∀ q ∈ query, Unreserved webQuery q.toList)
    (marked : ∀ f ∈ fragment, Unreserved Percent.fragment f.toList) :
    Normal (ofParts scheme a path query fragment)

variable {scheme : String}

/-! ## 1. How a URL is read -/

/-- How the part behind a double slash is read in the schemes of the web. -/
theorem afterDoubleSlash_eq (hs : isWeb scheme = true) {cs front : List Char}
    {query fragment : Option (List Char)}
    (hmarks : splitMarks (cs.dropWhile (!endsAuthority true ·)) = (front, query, fragment)) :
    ∃ path, pathFrom scheme [] front = .segments path ∧ NormalPath path ∧
      afterDoubleSlash scheme cs
        = (readAuthority scheme (cs.takeWhile (!endsAuthority true ·))).map fun a =>
          ofParts scheme a path (query.map (encodeQuery true)) (fragment.map encodeFragment) := by
  have hbase : ∀ s ∈ ([] : List String), NormalSegment s.toList := by simp
  obtain ⟨path, hpath, hnormal⟩ := pathFrom_normal hs hbase front
  refine ⟨path, hpath, hnormal, ?_⟩
  have hspecial := isSpecial_of_isWeb hs
  unfold afterDoubleSlash
  simp only [hspecial, hmarks, pathAfterHost, Bool.not_true, Bool.and_false, Bool.false_eq_true,
    if_false, hpath]
  cases readAuthority scheme (cs.takeWhile (!endsAuthority true ·)) with
  | error e => rfl
  | ok a => simp only [withMarks, hspecial]; rfl

/-- A mark as it is kept reserves nothing of itself. -/
theorem unreserved_encodeQuery (cs : List Char) :
    Unreserved webQuery (encodeQuery true cs).toList := by
  rw [encodeQuery, String.toList_ofList]
  exact unreserved_encode keepsEscapes_webQuery (fun _ h => h) cs

theorem unreserved_encodeFragment (cs : List Char) :
    Unreserved Percent.fragment (encodeFragment cs).toList := by
  rw [encodeFragment, String.toList_ofList]
  exact unreserved_encode keepsEscapes_fragment (fun _ h => h) cs

/-- **The parts of a URL** that was read behind a double slash. -/
theorem afterDoubleSlash_parts (hs : isWeb scheme = true) {cs : List Char} {u : Url}
    (h : afterDoubleSlash scheme cs = .ok u) :
    ∃ front a path query fragment, readAuthority scheme front = .ok a ∧ NormalPath path ∧
      (∀ q ∈ query, Unreserved webQuery q.toList) ∧
      (∀ f ∈ fragment, Unreserved Percent.fragment f.toList) ∧
      u = ofParts scheme a path query fragment := by
  rcases hmarks : splitMarks (cs.dropWhile (!endsAuthority true ·)) with ⟨front, query, fragment⟩
  obtain ⟨path, -, hpath, heq⟩ := afterDoubleSlash_eq hs hmarks
  rw [heq] at h
  cases ha : readAuthority scheme (cs.takeWhile (!endsAuthority true ·)) with
  | error e =>
    rw [ha] at h
    cases h
  | ok a =>
    rw [ha] at h
    cases h
    refine ⟨_, a, path, _, _, ha, hpath, ?_, ?_, rfl⟩
    · intro q hq
      obtain ⟨text, -, rfl⟩ := Option.map_eq_some_iff.mp hq
      exact unreserved_encodeQuery text
    · intro f hf
      obtain ⟨text, -, rfl⟩ := Option.map_eq_some_iff.mp hf
      exact unreserved_encodeFragment text

/-- The host of a file is nothing that changes its scheme. -/
theorem afterFileScheme_scheme {cs : List Char} {u : Url} (h : afterFileScheme cs = .ok u) :
    u.scheme = "file" := by
  unfold afterFileScheme at h
  split at h
  · rename_i a b rest
    split at h
    · dsimp only at h
      split at h
      · cases h
        rfl
      · cases hhost : readFileHost (rest.takeWhile (!endsAuthority true ·)) with
        | error e =>
          rw [hhost] at h
          cases h
        | ok host =>
          rw [hhost] at h
          cases h
          rfl
    · cases h
      rfl
  · cases h
    rfl

theorem afterDoubleSlash_scheme {cs : List Char} {u : Url}
    (h : afterDoubleSlash scheme cs = .ok u) : u.scheme = scheme := by
  unfold afterDoubleSlash at h
  dsimp only at h
  cases ha : readAuthority scheme (cs.takeWhile (!endsAuthority (isSpecial scheme) ·)) with
  | error e =>
    rw [ha] at h
    cases h
  | ok a =>
    rw [ha] at h
    cases h
    rfl

theorem afterScheme_scheme {cs : List Char} {u : Url} (h : afterScheme scheme cs = .ok u) :
    u.scheme = scheme := by
  unfold afterScheme at h
  split at h
  · rename_i hfile
    exact (afterFileScheme_scheme h).trans hfile.symm
  · split at h
    · exact afterDoubleSlash_scheme h
    · split at h
      · exact afterDoubleSlash_scheme h
      · cases h
        rfl

/-- The schemes of the web read an authority, however many slashes are in front of it. -/
theorem afterScheme_web (hs : isWeb scheme = true) (cs : List Char) :
    afterScheme scheme cs = afterDoubleSlash scheme (dropSlashes true cs) := by
  have hfile : scheme ≠ "file" := by
    intro heq
    have hnot := not_file_of_isWeb hs
    rw [heq] at hnot
    cases hnot
  have hspecial := isSpecial_of_isWeb hs
  unfold afterScheme
  rw [if_neg hfile, if_pos hspecial]

/-- **The parts of a URL of the web** that was read. -/
theorem parse_parts {s : String} {u : Url} (h : parse? s = .ok u) (hs : isWeb u.scheme = true) :
    ∃ front a path query fragment, readAuthority u.scheme front = .ok a ∧ NormalPath path ∧
      (∀ q ∈ query, Unreserved webQuery q.toList) ∧
      (∀ f ∈ fragment, Unreserved Percent.fragment f.toList) ∧
      u = ofParts u.scheme a path query fragment := by
  rw [parse?] at h
  split at h
  · obtain rfl := afterScheme_scheme h
    rw [afterScheme_web hs] at h
    exact afterDoubleSlash_parts hs h
  · cases h

/-- **Every URL of the web that is read is in normal form.** -/
theorem parse_normal {s : String} {u : Url} (h : parse? s = .ok u)
    (hs : isWeb u.scheme = true) : Normal u := by
  obtain ⟨front, a, path, query, fragment, ha, hpath, hquery, hfragment, heq⟩ := parse_parts h hs
  rw [heq]
  exact .mk hs (readAuthority_clean (isSpecial_of_isWeb hs) ha) hpath hquery hfragment

end MeshNode.Url
