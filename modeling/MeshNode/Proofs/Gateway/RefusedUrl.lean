/-
# The URL that a refused call names

A call to a node whose name is refused is not sent, and its error names a URL all the same.  That
URL is put together from texts, the one of an accepted call by putting segments behind the write
address.  The two agree only behind a write address that ends in a slash: behind any other, the
first segment runs into the last one of the address.

* `text_append`: the text of a URL with plain segments behind its path;
* `refusedUrl`: the URL that a refused call names, and `call_refused` that it does;
* `endpoint_route`: how the URLs of accepted calls begin;
* `refused_url_iff`: when a refused call names the URL that it would have used, and
  `refused_url_glued` is an address with a path that does not end in a slash.
-/
import MeshNode.Proofs.Gateway.Layout

namespace MeshNode.Url

/-! ## 1. Slashes at the end -/

theorem withoutEndSlash_concat (cs : List Char) : withoutEndSlash (cs ++ ['/']) = cs := by
  rw [withoutEndSlash, if_pos List.getLast?_concat, List.dropLast_concat]

theorem withoutEndSlash_append {cs : List Char} (h : cs ≠ []) (front : List Char) :
    withoutEndSlash (front ++ cs) = front ++ withoutEndSlash cs := by
  have hlast : (front ++ cs).getLast? = cs.getLast? := List.getLast?_append_of_ne_nil front h
  rw [withoutEndSlash, withoutEndSlash, hlast]
  split
  · exact List.dropLast_append_of_ne_nil h
  · rfl

/-- A text that ends in a slash, and one that does not. -/
theorem endSlash_cases (cs : List Char) :
    (cs.getLast? = some '/' ∧ cs = withoutEndSlash cs ++ ['/']) ∨
      (cs.getLast? ≠ some '/' ∧ withoutEndSlash cs = cs) := by
  by_cases h : cs.getLast? = some '/'
  · left
    obtain ⟨front, rfl⟩ := List.getLast?_eq_some_iff.mp h
    exact ⟨h, by rw [withoutEndSlash_concat]⟩
  · exact .inr ⟨h, if_neg h⟩

/-! ## 2. Plain segments behind a URL -/

/-- The texts of segments as they stand in a path, each with a slash in front of it. -/
def segmentsText (segments : List String) : List Char :=
  segments.flatMap fun s => '/' :: Percent.encode Percent.webSegment s.toList

theorem pathChars_encoded (segments : List String) :
    pathChars (segments.map fun s => encodeSegment true s.toList) = segmentsText segments := by
  simp only [pathChars, segmentsText, List.flatMap_map, encodeSegment_toList]

variable {u : Url} {first : String} {rest : List String}

/-- **The text of a URL with plain segments behind its path.**  Without a query and a fragment there
is nothing behind the path. -/
theorem text_append (hu : Settled u) (hquery : u.query = none) (hfragment : u.fragment = none)
    (hfirst : first ≠ "") (hplain : ∀ s ∈ first :: rest, isPlainSegment s.toList = true) :
    ∃ front v, u.append? (first :: rest) = some v ∧
      u.text.toList = front ++ u.path.text.toList ∧
      v.text.toList = front ++ pathChars (basePath u) ++ segmentsText (first :: rest) := by
  cases hu with
  | @mk scheme a path query fragment web authority segments queried marked =>
    obtain rfl : query = none := hquery
    obtain rfl : fragment = none := hfragment
    have hpath : (ofParts scheme a path none none).path.text.toList = pathChars path :=
      path_text_toList path
    have hbase : basePath (ofParts scheme a path none none) = openPath (dropOpenEnd path) := rfl
    refine ⟨scheme.toList ++ ':' :: '/' :: '/' :: a.chars, _,
      append?_ofParts web a path none none hfirst hplain, ?_, ?_⟩
    · rw [text_toList, hpath]
      simp [behind]
    · rw [text_toList, hbase, pathChars_append, pathChars_encoded]
      simp [behind]

/-- The path of a URL of the web is not empty. -/
theorem Settled.path_ne_nil (hu : Settled u) : u.path.text.toList ≠ [] := by
  cases hu with
  | @mk scheme a path query fragment web authority segments queried marked =>
    have hpath : (ofParts scheme a path query fragment).path.text.toList = pathChars path :=
      path_text_toList path
    rw [hpath]
    cases path with
    | nil => exact absurd rfl segments.notEmpty
    | cons s rest => simp [pathChars]

/-- The path that segments are put behind, but for an address whose path is two slashes alone. -/
theorem Settled.pathChars_basePath (hu : Settled u) (hpath : u.path.text ≠ "//") :
    pathChars (basePath u) = withoutEndSlash u.path.text.toList := by
  cases hu with
  | @mk scheme a path query fragment web authority segments queried marked =>
    have htext : (ofParts scheme a path query fragment).path.text.toList = pathChars path :=
      path_text_toList path
    have hne : pathChars path ≠ ['/', '/'] := by
      rw [← htext]
      exact fun h => hpath (String.toList_inj.mp h)
    rw [htext]
    exact pathChars_base segments hne

/-- Behind two slashes alone, segments are put as behind no path at all. -/
theorem Settled.basePath_slashes (hu : Settled u) (hpath : u.path.text = "//") :
    basePath u = [] := by
  cases hu with
  | @mk scheme a path query fragment web authority segments queried marked =>
    have hchars : pathChars path = ['/', '/'] := by
      rw [← path_text_toList path]
      exact congrArg String.toList hpath
    have htwo : path.map String.toList = ["", ""].map String.toList := by
      rw [← segmentsOf_text segments, hchars]
      decide
    obtain rfl : path = ["", ""] :=
      List.map_injective_iff.mpr (fun _ _ h => String.toList_injective h) htwo
    have hopen : openPath (dropOpenEnd ["", ""]) = [] := by decide
    exact hopen

end MeshNode.Url

namespace MeshNode.Gateway

open Url

/-! ## 3. Refused calls -/

variable {g : Gateway} {node path : String} {e : NameError}

/-- What stands behind `/route/` in the URL that a refused call names. -/
def targetText (node path : String) : List Char :=
  node.toList ++ '/' :: (dropLeadingSlash path).toList

/-- The URL that a refused call names: texts, one behind the other. -/
def refusedUrl (g : Gateway) (node path : String) : String :=
  g.writeAddress.text ++ "route" ++ "/" ++ node ++ "/" ++ dropLeadingSlash path

theorem refusedUrl_toList (g : Gateway) (node path : String) :
    (refusedUrl g node path).toList
      = g.writeAddress.text.toList ++ ("route/".toList ++ targetText node path) := by
  have hslash : "/".toList = ['/'] := rfl
  have hroute : "route/".toList = "route".toList ++ ['/'] := rfl
  simp only [refusedUrl, targetText, String.toList_append, hslash, hroute, List.append_assoc,
    List.cons_append, List.nil_append]

/-- **A refused call** sends nothing, and names that URL. -/
theorem call_refused (h : NodeName.ofString? node = .error e) (sidecar : Sidecar) (method : Method)
    (body : Option Json) :
    (g.call sidecar node path method body).result
        = .error (.call (refusedUrl g node path) (.invalidTarget e)) ∧
      (g.call sidecar node path method body).requests = [] := by
  rw [call, h]
  exact ⟨rfl, rfl⟩

/-- An address and a route, with a slash between them: exactly if the address ends in one. -/
theorem named_iff (address more : List Char) :
    address ++ ("route/".toList ++ more) = withoutEndSlash address ++ ("/route/".toList ++ more) ↔
      address.getLast? = some '/' := by
  rcases endSlash_cases address with ⟨hend, hcut⟩ | ⟨hend, hsame⟩
  · refine iff_of_true ?_ hend
    calc
      address ++ ("route/".toList ++ more)
          = withoutEndSlash address ++ ['/'] ++ ("route/".toList ++ more) := by rw [← hcut]
      _ = withoutEndSlash address ++ ("/route/".toList ++ more) := by
          rw [List.append_assoc]
          rfl
  · refine iff_of_false ?_ hend
    rw [hsame]
    intro heq
    have htail : "route/".toList ++ more = "/route/".toList ++ more :=
      List.append_cancel_left heq
    exact absurd (List.cons.inj htail).1 (by decide)

/-- The same for what the text begins with. -/
theorem begins_iff (address more : List Char) :
    withoutEndSlash address ++ "/route/".toList <+: address ++ ("route/".toList ++ more) ↔
      address.getLast? = some '/' := by
  rcases endSlash_cases address with ⟨hend, hcut⟩ | ⟨hend, hsame⟩
  · refine iff_of_true ⟨more, ?_⟩ hend
    rw [List.append_assoc]
    exact ((named_iff address more).mpr hend).symm
  · refine iff_of_false ?_ hend
    rw [hsame, List.prefix_append_right_inj]
    intro hprefix
    exact absurd (List.cons_prefix_cons.mp hprefix).1 (by decide)

/-- **The URL of an accepted call** of plain segments, up to its route: that of the address without
a slash at its end, unless the path of that is two slashes alone. -/
theorem endpoint_route {segments : List String} (hsettled : Settled g.writeAddress)
    (hquery : g.writeAddress.query = none) (hfragment : g.writeAddress.fragment = none)
    (hplain : ∀ s ∈ segments, isPlainSegment s.toList = true) (more : List Char) :
    ∃ used front, g.endpoint (routeSegment :: segments) = .ok used ∧
      used.text.toList = front ++ "/route".toList ++ segmentsText segments ∧
      (front ++ "/route/".toList <+: g.writeAddress.text.toList ++ ("route/".toList ++ more) ↔
        g.writeAddress.text.toList.getLast? = some '/' ∧ g.writeAddress.path.text ≠ "//") := by
  have hroute : ∀ s ∈ routeSegment :: segments, isPlainSegment s.toList = true := by
    intro s hs
    rcases List.mem_cons.mp hs with rfl | hs
    · decide
    · exact hplain s hs
  obtain ⟨front, used, happend, haddress, hused⟩ :=
    text_append hsettled hquery hfragment (by decide) hroute
  have hfirst : segmentsText (routeSegment :: segments)
      = "/route".toList ++ segmentsText segments := by
    rw [segmentsText, List.flatMap_cons]
    rfl
  rw [hfirst, ← List.append_assoc] at hused
  refine ⟨used, front ++ pathChars (basePath g.writeAddress), by rw [endpoint, happend], hused, ?_⟩
  by_cases hpath : g.writeAddress.path.text = "//"
  · refine iff_of_false ?_ fun h => h.2 hpath
    have hslashes : g.writeAddress.text.toList ++ ("route/".toList ++ more)
        = front ++ ("//route/".toList ++ more) := by
      rw [haddress, hpath, List.append_assoc]
      rfl
    have hnone : pathChars [] = [] := rfl
    rw [hsettled.basePath_slashes hpath, hnone, List.append_nil, hslashes,
      List.prefix_append_right_inj]
    intro hprefix
    have hsecond := (List.cons_prefix_cons.mp hprefix).2
    exact absurd (List.cons_prefix_cons.mp hsecond).1 (by decide)
  · have hbase : front ++ pathChars (basePath g.writeAddress)
        = withoutEndSlash g.writeAddress.text.toList := by
      rw [hsettled.pathChars_basePath hpath, haddress,
        withoutEndSlash_append hsettled.path_ne_nil]
    rw [hbase, begins_iff, and_iff_left hpath]

/-- **When a refused call names the URL that it would have used.**  Behind every write address of
http or https that is read and has no query and no fragment, for every node whose name is refused
and every path: nothing is sent, and the URL that the error names is the address without a slash at
its end with `/route/`, the node, a slash and the path behind it, exactly if the address ends in a
slash.  It begins as the URLs of all calls of plain segments do, up to the slash behind `/route`,
exactly if the address ends in a slash and its path is not two slashes alone. -/
theorem refused_url_iff {address : String} (hread : parse? address = .ok g.writeAddress)
    (hspoken : Spoken g.writeAddress) (hquery : g.writeAddress.query = none)
    (hfragment : g.writeAddress.fragment = none) (hnode : NodeName.ofString? node = .error e)
    (path : String) (method : Method) (body : Option Json) :
    let written := g.writeAddress.text.toList
    ∃ url, (∀ sidecar,
        (g.call sidecar node path method body).result = .error (.call url (.invalidTarget e)) ∧
        (g.call sidecar node path method body).requests = []) ∧
      (url.toList = withoutEndSlash written ++ ("/route/".toList ++ targetText node path) ↔
        written.getLast? = some '/') ∧
      ∀ other place, (∀ s ∈ other :: pathPieces (dropLeadingSlash place),
          isPlainSegment s.toList = true) →
        ∃ used front,
          g.endpoint (Operation.call other place method body).destination.segments = .ok used ∧
          used.text.toList = front ++ "/route".toList ++
            segmentsText (other :: pathPieces (dropLeadingSlash place)) ∧
          (front ++ "/route/".toList <+: url.toList ↔
            written.getLast? = some '/' ∧ g.writeAddress.path.text ≠ "//") := by
  intro written
  have hsettled := parse_settled hread hspoken.isWeb
  refine ⟨refusedUrl g node path, fun sidecar => call_refused hnode sidecar method body, ?_, ?_⟩
  · rw [refusedUrl_toList]
    exact named_iff written (targetText node path)
  · intro other place hplain
    rw [refusedUrl_toList]
    exact endpoint_route hsettled hquery hfragment hplain (targetText node path)

/-- The gateway to the usual port, with a path in its write address. -/
def nearbyAt (path : List String) : Gateway :=
  { writeAddress := { nearby.writeAddress with path := .segments path } }

/-- Behind a path that ends in a slash: two node names, one of them refused, and one beginning. -/
theorem refused_url_behind_slash :
    let g := nearbyAt ["base", ""]
    parse? "http://localhost:3047/base/" = .ok g.writeAddress ∧
      ∃ url used front,
        (g.call (fun _ => .silent) "a/b" "//x?" .get none).result
          = .error (.call url (.invalidTarget (.notOneSegment "a/b"))) ∧
        url = "http://localhost:3047/base/route/a/b//x?" ∧
        g.endpoint ["route", "c d", "", "x?"] = .ok used ∧
        used.text.toList = front ++ "/route".toList ++ segmentsText ["c d", "", "x?"] ∧
        front ++ "/route/".toList <+: url.toList := by
  intro g
  have hread : parse? "http://localhost:3047/base/" = .ok g.writeAddress :=
    eq_ok_of_toOption (by decide +kernel)
  have hnode : NodeName.ofString? "a/b" = .error (.notOneSegment "a/b") := rfl
  obtain ⟨url, hrefused, hnamed, hothers⟩ :=
    refused_url_iff hread (.inl rfl) rfl rfl hnode "//x?" .get none
  have hend : g.writeAddress.text.toList.getLast? = some '/' := by decide +kernel
  have hurl : url = "http://localhost:3047/base/route/a/b//x?" := by
    refine String.toList_inj.mp ((hnamed.mpr hend).trans ?_)
    decide +kernel
  obtain ⟨used, front, hused, htext, hbegins⟩ := hothers "c d" "//x?" (by decide +kernel)
  exact ⟨hread, url, used, front, (hrefused fun _ => .silent).1, hurl, hused, htext,
    hbegins.mpr ⟨hend, by decide +kernel⟩⟩

/-- **Behind any other path the two are different**: the first segment runs into the last one of the
address, where an accepted call puts a slash. -/
theorem refused_url_glued :
    let g := nearbyAt ["base"]
    parse? "http://localhost:3047/base" = .ok g.writeAddress ∧
      (g.call (fun _ => .silent) "a/b" "/status" .get none).result
        = .error (.call "http://localhost:3047/baseroute/a/b/status"
            (.invalidTarget (.notOneSegment "a/b"))) ∧
      (g.endpoint ["route", "a", "status"]).toOption.map Url.text
        = some "http://localhost:3047/base/route/a/status" := by
  intro g
  have hnode : NodeName.ofString? "a/b" = .error (.notOneSegment "a/b") := rfl
  have hurl : refusedUrl g "a/b" "/status" = "http://localhost:3047/baseroute/a/b/status" := by
    decide +kernel
  refine ⟨eq_ok_of_toOption (by decide +kernel), ?_, by decide +kernel⟩
  rw [← hurl]
  exact (call_refused hnode _ .get none).1

end MeshNode.Gateway
