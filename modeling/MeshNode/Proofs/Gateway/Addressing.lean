/-
# Where operations go

An operation is plain when none of its segments is a dot or two dots or has a tab or a line end.
The URL of a plain operation tells its destination.  Any other operation loses something of a
segment on the way, and shares its URL with an operation that is meant for another destination.

* `segments_inj`: the segments of a destination tell it;
* `first?_path`: the path of the URL that a plain operation goes to;
* `twin`: a segment that is lost in the same way as another one;
* `shared_of_not_plain`: an operation that is not plain cannot be told from all others;
* `url_tells_destination`: both halves, over a write address that was read.
-/
import MeshNode.Proofs.Gateway.Operation
import MeshNode.Proofs.Url.Append
import MeshNode.Proofs.Url.Text

namespace MeshNode.Gateway

open Url

/-! ## 1. Destinations and their segments -/

theorem map_ofList_inj {css dss : List (List Char)}
    (h : css.map String.ofList = dss.map String.ofList) : css = dss :=
  (List.map_inj_right fun _ _ => String.ofList_injective).mp h

/-- **The segments of a destination tell it.** -/
theorem segments_inj {d d' : Destination} (h : d.segments = d'.segments) : d = d' := by
  have hkinds : channelSegment ≠ routeSegment := by decide
  cases d with
  | channel name =>
    cases d' with
    | channel name' => rw [(List.cons.inj (List.cons.inj h).2).1]
    | route node' path' => exact absurd (List.cons.inj h).1 hkinds
  | route node path =>
    cases d' with
    | channel name' => exact absurd (List.cons.inj h).1 hkinds.symm
    | route node' path' =>
      obtain ⟨hnode, hpath⟩ := List.cons.inj (List.cons.inj h).2
      have hpath := String.toList_inj.mp (Text.splitOn_inj (map_ofList_inj hpath))
      rw [hnode, hpath]

/-- Whether nothing of the segments of an operation is lost. -/
def Operation.plain (o : Operation) : Bool :=
  o.destination.segments.all fun s => isPlainSegment s.toList

theorem segments_cons (d : Destination) :
    ∃ first rest, d.segments = first :: rest ∧ first ≠ "" := by
  cases d with
  | channel name => exact ⟨channelSegment, [name], rfl, by decide⟩
  | route node path => exact ⟨routeSegment, node :: pathPieces path, rfl, by decide⟩

/-! ## 2. The URL of a plain operation -/

variable {g : Gateway} {o : Operation} {request : Request}

/-- **The path of the first request** of a plain operation: the segments of its destination,
each encoded, behind the path of the write address. -/
theorem first?_path (hg : Normal g.writeAddress) (ho : o.plain = true)
    (h : o.first? g = some request) : request.url.path =
      .segments (basePath g.writeAddress ++
        o.destination.segments.map fun s => encodeSegment true s.toList) := by
  obtain ⟨first, rest, hsegments, hfirst⟩ := segments_cons o.destination
  rw [Operation.plain, List.all_eq_true, hsegments] at ho
  obtain ⟨url, happend, hnormal, hpath⟩ := append?_normal hg hfirst ho
  rw [Operation.first?, endpoint, hsegments, happend] at h
  obtain ⟨target, bytes, hparse, -, rfl⟩ := Transport.first?_eq_some h
  rw [hsegments, ← hpath, ← parse_path hnormal hparse]
  exact Transport.compose_url_keeps Url.path rfl

/-- Encoded segments tell the segments. -/
theorem map_encodeSegment_inj {ss ts : List String}
    (h : (ss.map fun s => encodeSegment true s.toList)
      = ts.map fun s => encodeSegment true s.toList) : ss = ts :=
  (List.map_inj_right fun _ _ he => String.toList_inj.mp (encodeSegment_inj he)).mp h

/-- Plain operations with first requests for the same URL have the same destination. -/
theorem destination_of_url (hg : Normal g.writeAddress) {o' : Operation} {request' : Request}
    (ho : o.plain = true) (ho' : o'.plain = true) (h : o.first? g = some request)
    (h' : o'.first? g = some request')
    (hurl : request.url.withoutFragment = request'.url.withoutFragment) :
    o.destination = o'.destination := by
  have hpath : request.url.path = request'.url.path := (congrArg Url.path hurl :)
  rw [first?_path hg ho h, first?_path hg ho' h'] at hpath
  exact segments_inj (map_encodeSegment_inj (List.append_cancel_left (Path.segments.inj hpath)))

/-! ## 3. Segments that are lost in the same way -/

/-- Another segment that leaves the same trace as one that is not plain. -/
def twin (s : List Char) : List Char :=
  if s = ['.'] then ['.', '.'] else if s = ['.', '.'] then ['.'] else '\t' :: s

theorem twin_ne (s : List Char) : twin s ≠ s := by
  rw [twin]
  split
  · rintro h
    simp_all
  · split
    · simp_all
    · exact List.cons_ne_self '\t' s

theorem appendSegment_twin {scheme : String} {path : List String} {s : String}
    (h : isPlainSegment s.toList = false) :
    appendSegment scheme path (String.ofList (twin s.toList)) = appendSegment scheme path s := by
  by_cases hdot : s.toList = ['.']
  · have htwin : (String.ofList (twin s.toList)).toList = ['.', '.'] := by
      rw [String.toList_ofList, twin, if_pos hdot]
    rw [appendSegment_dots (.inr htwin), appendSegment_dots (.inl hdot)]
  · by_cases hdouble : s.toList = ['.', '.']
    · have htwin : (String.ofList (twin s.toList)).toList = ['.'] := by
        rw [String.toList_ofList, twin, if_neg hdot, if_pos hdouble]
      rw [appendSegment_dots (.inl htwin), appendSegment_dots (.inr hdouble)]
    · have hends : dropLineEnds s.toList ≠ s.toList := by
        intro hsame
        rw [isPlainSegment_iff.mpr ⟨hdot, hdouble, hsame⟩] at h
        cases h
      have htwin : (String.ofList (twin s.toList)).toList = '\t' :: s.toList := by
        rw [String.toList_ofList, twin, if_neg hdot, if_neg hdouble]
      have hdrop : dropLineEnds ('\t' :: s.toList) = dropLineEnds s.toList := rfl
      have hlength : (dropLineEnds s.toList).length ≤ s.toList.length := List.length_filter_le ..
      refine appendSegment_lineEnds ?_ hends (by rw [htwin, hdrop])
      rw [htwin, hdrop]
      intro hsame
      rw [hsame, List.length_cons] at hlength
      omega

theorem slash_not_mem_twin {s : List Char} (h : '/' ∉ s) : '/' ∉ twin s := by
  rw [twin]
  split
  · decide
  · split
    · decide
    · intro hm
      rcases List.mem_cons.mp hm with hm | hm
      · exact absurd hm (by decide)
      · exact h hm

theorem twin_toList_ne (s : String) : String.ofList (twin s.toList) ≠ s := by
  intro h
  refine twin_ne s.toList ?_
  rw [← String.toList_ofList (l := twin s.toList), h]

/-- The twin of a name is accepted as the name is. -/
theorem accepted_twin {s : String} (h : Text.isBlank s = false ∧ '/' ∉ s.toList) :
    Text.isBlank (String.ofList (twin s.toList)) = false ∧
      '/' ∉ (String.ofList (twin s.toList)).toList := by
  rw [String.toList_ofList]
  refine ⟨?_, slash_not_mem_twin h.2⟩
  rw [Text.isBlank] at h ⊢
  rw [String.toList_ofList, twin]
  split
  · decide
  · split
    · decide
    · exact h.1

/-- An endpoint does not tell a segment from its twin. -/
theorem endpoint_twin (g : Gateway) (front back : List String) {s : String}
    (h : isPlainSegment s.toList = false) :
    g.endpoint (front ++ String.ofList (twin s.toList) :: back)
      = g.endpoint (front ++ s :: back) := by
  have happend : g.writeAddress.append? (front ++ String.ofList (twin s.toList) :: back)
      = g.writeAddress.append? (front ++ s :: back) := by
    rw [append?, append?]
    cases g.writeAddress.path with
    | plain text => rfl
    | segments path =>
      simp only [List.foldl_append, List.foldl_cons, appendSegment_twin h]
  rw [endpoint, endpoint, happend]

/-- **A segment that is not plain has a path to share its URL with.** -/
theorem exists_path_twin {path : String} {s : String} (hs : s ∈ pathPieces path)
    (h : isPlainSegment s.toList = false) :
    ∃ path' front back, pathPieces path = front ++ s :: back ∧
      pathPieces path' = front ++ String.ofList (twin s.toList) :: back := by
  obtain ⟨cs, hcs, rfl⟩ := List.mem_map.mp hs
  obtain ⟨front, back, hsplit⟩ := List.append_of_mem hcs
  have hpieces : ∀ p ∈ front ++ twin cs :: back, '/' ∉ p := by
    have hslash : ∀ p ∈ front ++ cs :: back, '/' ∉ p := by
      intro p hp hm
      exact (Text.of_mem_splitOn path.toList p (hsplit ▸ hp) '/' hm).2 rfl
    intro p hp
    rcases List.mem_append.mp hp with hp | hp
    · exact hslash p (List.mem_append_left _ hp)
    · rcases List.mem_cons.mp hp with rfl | hp
      · exact slash_not_mem_twin (hslash cs (by simp))
      · exact hslash p (List.mem_append_right _ (List.mem_cons_of_mem cs hp))
  refine ⟨String.ofList (Text.joinWith ['/'] (front ++ twin cs :: back)),
    front.map String.ofList, back.map String.ofList, ?_, ?_⟩
  · rw [pathPieces, hsplit, List.map_append, List.map_cons]
  · rw [pathPieces, String.toList_ofList, String.toList_ofList,
      Text.splitOn_joinWith (by simp) hpieces, List.map_append, List.map_cons]

/-- An operation that cannot be told from all others: one with another destination is accepted as
well and sends the same. -/
def Operation.Shared (g : Gateway) (o : Operation) : Prop :=
  ∃ o' : Operation, o'.accepted = true ∧ o'.destination ≠ o.destination ∧
    o'.first? g = o.first? g ∧ ∀ sidecar, o'.requests g sidecar = o.requests g sidecar

/-- **An operation to the same endpoint** with the same method and body sends the same. -/
theorem shared_of_endpoint {o o' : Operation} (hacc : o.accepted = true)
    (hacc' : o'.accepted = true) (hd : o'.destination ≠ o.destination)
    (hm : o'.method = o.method) (hb : o'.body = o.body)
    (he : g.endpoint o'.destination.segments = g.endpoint o.destination.segments) : o.Shared g := by
  refine ⟨o', hacc', hd, ?_, ?_⟩
  · rw [Operation.first?, Operation.first?, hm, hb, he]
  · intro sidecar
    rw [Operation.requests_eq hacc, Operation.requests_eq hacc', hm, hb, he]

/-- A publication on a channel whose name is lost. -/
theorem shared_publish {channel : String} {payload : Payload}
    (hacc : (Operation.publish channel payload).accepted = true)
    (h : isPlainSegment channel.toList = false) : (Operation.publish channel payload).Shared g := by
  have hacc' : (Operation.publish (String.ofList (twin channel.toList)) payload).accepted = true :=
    ChannelName.isOk_ofString?.mpr (accepted_twin (ChannelName.isOk_ofString?.mp hacc))
  refine shared_of_endpoint hacc hacc' ?_ rfl rfl (endpoint_twin g [channelSegment] [] h)
  intro hd
  exact twin_toList_ne channel (Destination.channel.inj hd)

variable {node path : String} {method : Method} {body : Option Json}

/-- A call of a node whose name is lost. -/
theorem shared_node (hacc : (Operation.call node path method body).accepted = true)
    (h : isPlainSegment node.toList = false) : (Operation.call node path method body).Shared g := by
  have hacc' : (Operation.call (String.ofList (twin node.toList)) path method body).accepted = true :=
    NodeName.isOk_ofString?.mpr (accepted_twin (NodeName.isOk_ofString?.mp hacc))
  refine shared_of_endpoint hacc hacc' ?_ rfl rfl (endpoint_twin g [routeSegment] _ h)
  intro hd
  exact twin_toList_ne node (Destination.route.inj hd).1

/-- A call of a path with a segment that is lost. -/
theorem shared_path (hacc : (Operation.call node path method body).accepted = true) {s : String}
    (hs : s ∈ pathPieces (dropLeadingSlash path)) (h : isPlainSegment s.toList = false) :
    (Operation.call node path method body).Shared g := by
  obtain ⟨path', front, back, hpieces, hpieces'⟩ := exists_path_twin hs h
  have hdrop := dropLeadingSlash_slash path'
  have hacc' : (Operation.call node (String.ofList ('/' :: path'.toList)) method body).accepted
      = true := hacc
  refine shared_of_endpoint hacc hacc' ?_ rfl rfl ?_
  · intro hd
    rw [Operation.destination, hdrop] at hd
    have heq := congrArg pathPieces (Destination.route.inj hd).2
    rw [hpieces, hpieces', List.append_cancel_left_eq, List.cons.injEq] at heq
    exact twin_toList_ne s heq.1
  · have hsame := endpoint_twin g (routeSegment :: node :: front) back h
    simp only [Operation.destination, Destination.segments, hdrop, hpieces, hpieces']
    exact hsame

/-- **An operation that is not plain** shares everything it sends with an operation that is
meant for another destination. -/
theorem shared_of_not_plain (hacc : o.accepted = true) (ho : o.plain = false) : o.Shared g := by
  rw [Operation.plain, List.all_eq_false] at ho
  obtain ⟨s, hmem, hs⟩ := ho
  rw [Bool.not_eq_true] at hs
  cases o with
  | publish channel payload =>
    simp only [Operation.destination, Destination.segments, List.mem_cons, List.not_mem_nil,
      or_false] at hmem
    rcases hmem with rfl | rfl
    · exact absurd hs (by decide)
    · exact shared_publish hacc hs
  | call node path method body =>
    simp only [Operation.destination, Destination.segments, List.mem_cons] at hmem
    rcases hmem with rfl | rfl | hmem
    · exact absurd hs (by decide)
    · exact shared_node hacc hs
    · exact shared_path hacc hmem hs

/-! ## 4. Both halves -/

/-- **How far the URL of an operation tells its destination**, for a write address of the web.
The first request to arrive is the one that `first?` says.  If two plain operations begin with
requests for the same URL, fragments aside, they have the same destination.  An operation that
is not plain can never be told from all others: one with another destination sends the same
requests to every sidecar. -/
theorem url_tells_destination {s : String} (hparse : parse? s = .ok g.writeAddress)
    (hs : g.writeAddress.scheme = "http" ∨ g.writeAddress.scheme = "https") :
    (∀ o : Operation, o.accepted = true → ∀ sidecar,
      (o.requests g sidecar).head? = (o.first? g).filter (Transport.arrives sidecar)) ∧
    (∀ (o o' : Operation) (request request' : Request), o.accepted = true → o'.accepted = true →
      o.plain = true → o'.plain = true → o.first? g = some request →
      o'.first? g = some request' →
      request.url.withoutFragment = request'.url.withoutFragment →
      o.destination = o'.destination) ∧
    (∀ o : Operation, o.accepted = true → o.plain = false →
      ∃ o' : Operation, o'.accepted = true ∧ o'.destination ≠ o.destination ∧
        o'.first? g = o.first? g ∧ ∀ sidecar, o'.requests g sidecar = o.requests g sidecar) := by
  have hweb : isWeb g.writeAddress.scheme = true := by
    rcases hs with hs | hs
    · rw [hs]
      decide
    · rw [hs]
      decide
  refine ⟨fun o ho sidecar => Operation.requests_head? ho, ?_, fun o => shared_of_not_plain⟩
  intro o o' request request' _ _ ho ho' h h' hurl
  exact destination_of_url (parse_normal hparse hweb) ho ho' h h' hurl

theorem orders_told_from_invoices :
    parse? "http://localhost:3047" = .ok nearby.writeAddress ∧ ∀ request request',
      (Operation.publish "orders" (.json .null)).first? nearby = some request →
      (Operation.publish "invoices" (.json .null)).first? nearby = some request' →
      request.url.withoutFragment ≠ request'.url.withoutFragment := by
  have hparse : parse? "http://localhost:3047" = .ok nearby.writeAddress :=
    eq_ok_of_toOption (by decide +kernel)
  refine ⟨hparse, ?_⟩
  intro request request' h h' hurl
  obtain ⟨-, htell, -⟩ := url_tells_destination hparse (.inl rfl)
  exact absurd (htell _ _ request request' (by decide) (by decide) (by decide) (by decide) h h' hurl)
    (by decide)

/-- **Three destinations with one URL**: a tab is lost from the name of a channel, and a node
whose name becomes two dots takes the call to a channel. -/
theorem url_shared :
    let u : Url := { nearby.writeAddress with path := .segments ["channel", "ab"] }
    let tab : Operation := .publish "a\tb" (.json (.int 1))
    let plain : Operation := .publish "ab" (.json (.int 1))
    let dots : Operation := .call "\t.." "channel/ab" .post (some (.int 1))
    (tab.accepted = true ∧ (tab.first? nearby).map Request.url = some u) ∧
      (plain.accepted = true ∧ (plain.first? nearby).map Request.url = some u) ∧
      (dots.accepted = true ∧ (dots.first? nearby).map Request.url = some u) ∧
      tab.destination ≠ plain.destination ∧ dots.destination ≠ plain.destination := by
  decide +kernel

end MeshNode.Gateway
