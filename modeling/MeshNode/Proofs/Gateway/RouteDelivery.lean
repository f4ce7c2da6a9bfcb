/-
# From a call to its handler

A node that calls a route of another writes the path of the route into a URL, piece by piece, with
the name of the other node in front of it.  The node that is called gets what stands behind its name
and reads the path from that.  Both ends mean the same route: the one that the path was registered
under, wherever it has separators.

* `joinWith_map_encode`: encoding a path piece by piece is encoding it but for its separators;
* `callTarget_path`: what stands in the URL of a call;
* `route?_performAll`: the last handler that was registered for a path;
* `call_runs_last_handler`: both ends together.
-/
import MeshNode.Proofs.Dispatch.Surface
import MeshNode.Proofs.Gateway.Local
import MeshNode.Proofs.Node.Registration

namespace MeshNode

/-! ## 1. The path in the URL -/

namespace Url

open Percent Text

/-- What is reserved in the path of a route: what is reserved in a segment, but for the separator
of segments. -/
def routeReserved (c : Char) : Bool := webSegment c && c != '/'

theorem encodeChar_routeReserved {c : Char} (h : c ≠ '/') :
    encodeChar routeReserved c = encodeChar webSegment c := by
  have hsame : routeReserved c = webSegment c := by simp [routeReserved, h]
  rw [encodeChar, encodeChar, hsame]

/-- **Encoding piece by piece** is encoding the whole but for the separators. -/
theorem joinWith_map_encode (cs : List Char) :
    joinWith ['/'] ((splitOn '/' cs).map (encode webSegment)) = encode routeReserved cs := by
  induction cs with
  | nil => rfl
  | cons c cs ih =>
    by_cases hc : c = '/'
    · have hself : encodeChar routeReserved '/' = ['/'] := by decide
      have hempty : encode webSegment [] = [] := rfl
      rw [hc, splitOn_separator, List.map_cons, joinWith_cons, hempty, encode, List.flatMap_cons,
        hself, ← encode, ← ih]
      cases hpieces : splitOn '/' cs with
      | nil => exact absurd hpieces (splitOn_ne_nil '/' cs)
      | cons piece pieces =>
        rw [List.map_cons, joinWith_cons, List.flatMap_cons]
        rfl
    · obtain ⟨piece, pieces, hpieces, hcons⟩ := splitOn_cons hc cs
      rw [hpieces, List.map_cons, joinWith_cons] at ih
      rw [hcons, List.map_cons, joinWith_cons, encode, encode, List.flatMap_cons,
        List.flatMap_cons, encodeChar_routeReserved hc, List.append_assoc]
      exact congrArg (encodeChar webSegment c ++ ·) ih

end Url

namespace Gateway

open Url Percent

/-- What stands behind the name of the node in the URL of a call. -/
def routeRest (path : String) : String := String.ofList (encode routeReserved path.toList)

theorem decodeText?_routeRest (path : String) : decodeText? (routeRest path) = some path :=
  decodeText?_encode (by decide) path

theorem routeRest_ne_nil {path : String} (h : path ≠ "") : (routeRest path).toList ≠ [] := by
  intro hnil
  have hread := decodeText?_routeRest path
  rw [String.toList_eq_nil_iff.mp hnil] at hread
  have hempty : decodeText? "" = some "" := by decide +kernel
  rw [hempty, Option.some.injEq] at hread
  exact h hread.symm

/-- **The path in the URL of a call**: the name of the node is one segment of it, and behind that
stands the path of the route. -/
theorem callTarget_path (port : UInt16) (node path : String) :
    (localTarget port (routeSegment :: node :: pathPieces path)).target.path
      = "/route/" ++ encodeSegment true node.toList ++ "/" ++ routeRest path := by
  have hroute : (encodeSegment true routeSegment.toList).toList = routeSegment.toList := by decide
  have hpieces : ((pathPieces path).map fun s => (encodeSegment true s.toList).toList)
      = (Text.splitOn '/' path.toList).map (encode webSegment) := by
    simp [pathPieces, encodeSegment_toList, Function.comp_def]
  have hrest : ((Text.splitOn '/' path.toList).map (encode webSegment)).flatMap ('/' :: ·)
      = '/' :: (routeRest path).toList := by
    rw [routeRest, String.toList_ofList, ← joinWith_map_encode]
    cases hsplit : Text.splitOn '/' path.toList with
    | nil => exact absurd hsplit (Text.splitOn_ne_nil '/' _)
    | cons piece pieces =>
      rw [List.map_cons, Text.joinWith_cons, List.flatMap_cons]
      rfl
  refine String.toList_inj.mp ?_
  simp only [localTarget_path, pathChars, List.map_map, List.map_cons, Function.comp_def, hpieces,
    List.flatMap_cons, hrest, hroute]
  simp [routeSegment]

end Gateway

/-! ## 2. The last handler -/

/-- A handler for a route is found under its path, if no later one was registered there. -/
theorem Node.route?_performAll {κ ρ : Type} (config : SidecarConfig) {path : String} {handler : ρ}
    {earlier later : List (Node.Call κ ρ)} (haccepted : (RouteName.ofString? path).isOk = true)
    (hlast : ∀ other handler', Node.Call.route other handler' ∈ later →
      dropLeadingSlash other ≠ dropLeadingSlash path) :
    ((ofConfig config : Node κ ρ).performAll
      (earlier ++ .route path handler :: later)).1.registry.route? (dropLeadingSlash path)
      = some handler := by
  have hblank : Text.isBlank (dropLeadingSlash path) = false := by
    rw [RouteName.ofString?] at haccepted
    by_cases hblank : Text.isBlank (dropLeadingSlash path) = true
    · rw [if_pos hblank] at haccepted
      cases haccepted
    · exact Bool.eq_false_iff.mpr hblank
  have hthis : (Call.route path handler : Call κ ρ).registration?
      = some (.route ⟨dropLeadingSlash path⟩ handler) := by
    rw [Call.registration?, hblank]
    rfl
  have hlater : (later.filterMap Call.registration?).filterMap
      (Registration.routeHandler? (dropLeadingSlash path)) = [] := by
    rw [List.filterMap_filterMap, List.filterMap_eq_nil_iff]
    intro call hcall
    cases call with
    | channel name handler' =>
      rw [Call.registration?]
      split <;> rfl
    | route other handler' =>
      rw [Call.registration?]
      split
      · rfl
      · exact if_neg (hlast other handler' hcall)
  have hgiven : (Registration.route ⟨dropLeadingSlash path⟩ handler : Registration κ ρ).routeHandler?
      (dropLeadingSlash path) = some handler := if_pos rfl
  rw [ofConfig_performAll, Registry.route?_ofHistory, List.filterMap_append,
    List.filterMap_cons_some hthis, List.filterMap_append, List.filterMap_cons_some hgiven,
    hlater, List.getLast?_concat]

/-! ## 3. Both ends -/

namespace Gateway

open Url Percent

/-- The pieces of a path without its leading separator are pieces of the path. -/
theorem pathPieces_dropLeadingSlash {path piece : String}
    (h : piece ∈ pathPieces (dropLeadingSlash path)) : piece ∈ pathPieces path := by
  unfold dropLeadingSlash at h
  split at h
  · next rest hpath =>
    unfold pathPieces at h ⊢
    rw [String.toList_ofList] at h
    rw [hpath, Text.splitOn_separator, List.map_cons]
    exact List.mem_cons_of_mem _ h
  · exact h

/-- Pieces of a path in which nothing is lost. -/
theorem plain_pathPieces {path : String}
    (hends : ∀ x ∈ path.toList, x ≠ '\t' ∧ x ≠ '\n' ∧ x ≠ '\r')
    (hdots : ∀ piece ∈ pathPieces path, piece ≠ "." ∧ piece ≠ "..") :
    ∀ piece ∈ pathPieces path, isPlainSegment piece.toList = true := by
  intro piece hpiece
  obtain ⟨hdot, hdouble⟩ := hdots piece hpiece
  refine isPlainSegment_of_name ?_ hdot hdouble
  intro x hx
  obtain ⟨chars, hchars, rfl⟩ := List.mem_map.mp hpiece
  rw [String.toList_ofList] at hx
  exact hends x (Text.of_mem_splitOn _ chars hchars x hx).1

/-- The segments of the URL of a call in which nothing is lost. -/
theorem plain_routeSegments {node path : String}
    (hnode : ∀ x ∈ node.toList, x ≠ '\t' ∧ x ≠ '\n' ∧ x ≠ '\r') (hdot : node ≠ ".")
    (hdouble : node ≠ "..") (hpath : ∀ x ∈ path.toList, x ≠ '\t' ∧ x ≠ '\n' ∧ x ≠ '\r')
    (hdots : ∀ piece ∈ pathPieces path, piece ≠ "." ∧ piece ≠ "..") :
    ∀ s ∈ routeSegment :: node :: pathPieces (dropLeadingSlash path),
      isPlainSegment s.toList = true := by
  intro s hs
  rcases List.mem_cons.mp hs with rfl | hs
  · decide
  rcases List.mem_cons.mp hs with rfl | hs
  · exact isPlainSegment_of_name hnode hdot hdouble
  · exact plain_pathPieces hpath hdots s (pathPieces_dropLeadingSlash hs)

theorem dropLeadingSlash_ne_empty {path : String} (h : (RouteName.ofString? path).isOk = true) :
    dropLeadingSlash path ≠ "" := by
  intro hempty
  rw [RouteName.ofString?, hempty] at h
  exact absurd h (by decide)

/-- **A call reaches the handler of its path.**  For every port of a sidecar on the local machine,
every node and path that are accepted and of which nothing is lost, and each method: the call begins
with one request, which arrives exactly if its URL has no more bytes than a request can name and it
is not refused.  The path of that request is `/route/`, one segment from which the name of the node
is read, and something behind it.  A request with that behind `/route/` runs, at every node whose
last registration for the path gave it this handler, this handler once and no other. -/
theorem call_runs_last_handler {κ ρ σ : Type} (port : UInt16) (transport : Transport)
    (config : SidecarConfig) {n p : String} {method : Method} {handler : ρ}
    {earlier later : List (Node.Call κ ρ)} (hnode : (NodeName.ofString? n).isOk = true)
    (hpath : (RouteName.ofString? p).isOk = true)
    (hmethod : method ∈ [Method.get, .post, .put, .delete])
    (hnodeEnds : ∀ x ∈ n.toList, x ≠ '\t' ∧ x ≠ '\n' ∧ x ≠ '\r') (hdot : n ≠ ".")
    (hdouble : n ≠ "..") (hpathEnds : ∀ x ∈ p.toList, x ≠ '\t' ∧ x ≠ '\n' ∧ x ≠ '\r')
    (hdots : ∀ piece ∈ pathPieces p, piece ≠ "." ∧ piece ≠ "..")
    (hlast : ∀ other handler', Node.Call.route other handler' ∈ later →
      dropLeadingSlash other ≠ dropLeadingSlash p) (body : Option Json) :
    ∃ address request, parse? (SidecarConfig.localAddress port) = .ok address ∧
      (∀ sidecar, ((Gateway.mk address transport).call sidecar n p method body).requests.head?
        = if (Utf8.encode request.url.text).length ≤ 65534 ∧ sidecar [request] ≠ .refused then
            some request
          else none) ∧
      request.method = method ∧
      ∃ segment rest, request.url.target.path = "/route/" ++ segment ++ "/" ++ rest ∧
        '/' ∉ segment.toList ∧ decodeText? segment = some n ∧
        ∀ (machine : Machine) (bound : BoundNode κ ρ),
          ((Node.ofConfig config).performAll (earlier ++ .route p handler :: later)).1.bind machine
            = .ok bound →
          ∀ (behavior : Behavior κ ρ σ) (delivered : Inbound) (state : σ),
            delivered.method = method → delivered.target.path = "/route/" ++ rest →
            (bound.dispatch behavior delivered state).invocations = [.route handler delivered] := by
  have hplain := plain_routeSegments hnodeEnds hdot hdouble hpathEnds hdots
  obtain ⟨bytes, hbytes⟩ := Operation.written_call n p method body
  refine ⟨localUrl port, _, parse_localAddress port,
    head?_local port transport (o := .call n p method body) hnode rfl (by decide) hplain hbytes,
    rfl, encodeSegment true n.toList, routeRest (dropLeadingSlash p), ?_, ?_, ?_, ?_⟩
  · rw [composed_url]
    exact callTarget_path port n (dropLeadingSlash p)
  · exact slash_not_mem_encodeSegment (hplain n (by simp))
  · exact decodeText?_encode webSegment_mark n
  · intro machine bound hbound behavior delivered state hdelivered hrest
    have hregistry : bound.registry = ((Node.ofConfig config).performAll
        (earlier ++ .route p handler :: later)).1.registry := by
      unfold Node.bind at hbound
      split at hbound
      · cases hbound
        rfl
      · cases hbound
    have hlookup : bound.registry.route? (dropLeadingSlash p) = some handler := by
      rw [hregistry]
      exact Node.route?_performAll config hpath hlast
    have hmethods : [Method.get, .post, .put, .delete]
        ⊆ [Method.get, .head, .post, .put, .delete] := by decide
    have hserved : delivered.method ∈ [Method.get, .head, .post, .put, .delete] :=
      hdelivered ▸ hmethods hmethod
    exact Dispatch.dispatch_read_route hserved hrest
      (routeRest_ne_nil (dropLeadingSlash_ne_empty hpath)) (decodeText?_routeRest _) hlookup

/-- A path with two separators in front, one at the end, and reserved characters in between, to a
node on which other handlers were registered before and afterwards. -/
theorem menu_runs_last_handler :
    let p := "//menù/%2F a//?b/"
    let earlier : List (Node.Call Nat Nat) := [.route "x" 1, .route p 2]
    let later : List (Node.Call Nat Nat) := [.channel p 4, .route "menù/%2F a//?b/" 5]
    let node := ((Node.ofConfig ⟨.localhost, 3048, localUrl 3047, none⟩).performAll
      (earlier ++ .route p 3 :: later)).1
    ∃ address request bound, parse? (SidecarConfig.localAddress 3047) = .ok address ∧
      ((Gateway.mk address {}).call (fun _ => .silent) "till #1" p .put none).requests.head?
        = some request ∧
      node.bind (fun _ => none) = .ok bound ∧
      ∃ segment rest, request.url.target.path = "/route/" ++ segment ++ "/" ++ rest ∧
        ∀ behavior : Behavior Nat Nat Unit,
          (bound.dispatch behavior ⟨.put, ⟨"", "/route/" ++ rest, none⟩, [], []⟩ ()).invocations
            = [.route 3 ⟨.put, ⟨"", "/route/" ++ rest, none⟩, [], []⟩] := by
  intro p earlier later node
  have hends : ∀ x ∈ p.toList, x ≠ '\t' ∧ x ≠ '\n' ∧ x ≠ '\r' := by simp [p]
  have hnodeEnds : ∀ x ∈ "till #1".toList, x ≠ '\t' ∧ x ≠ '\n' ∧ x ≠ '\r' := by simp
  have hdots : ∀ piece ∈ pathPieces p, piece ≠ "." ∧ piece ≠ ".." := by decide +kernel
  have hlast : ∀ other handler', Node.Call.route other handler' ∈ later →
      dropLeadingSlash other ≠ dropLeadingSlash p := by
    intro other handler' hmem
    simp only [later, List.mem_cons, List.not_mem_nil, or_false, reduceCtorEq, false_or,
      Node.Call.route.injEq] at hmem
    rw [hmem.1]
    decide +kernel
  obtain ⟨address, request, hparse, hhead, -, segment, rest, hurl, -, -, hruns⟩ :=
    call_runs_last_handler (σ := Unit) 3047 {} ⟨.localhost, 3048, localUrl 3047, none⟩
      (by decide +kernel) (by decide +kernel)
      (show Method.put ∈ [Method.get, .post, .put, .delete] by decide) hnodeEnds (by decide)
      (by decide) hends hdots hlast none
  have hbind : node.bind (fun _ => none) = .ok ⟨node.config.readAddress, node.registry⟩ := rfl
  refine ⟨address, request, _, hparse, ?_, hbind, segment, rest, hurl, fun behavior => ?_⟩
  · have hsent : ((Gateway.mk (localUrl 3047) {}).call (fun _ => .silent) "till #1" p .put
        none).requests.head?.isSome = true := by decide +kernel
    obtain rfl : localUrl 3047 = address :=
      Except.ok.inj ((parse_localAddress 3047).symm.trans hparse)
    exact (first_of_isSome (hhead fun _ => .silent) hsent).2
  · exact hruns (fun _ => none) _ hbind behavior _ () rfl rfl

end Gateway
end MeshNode
