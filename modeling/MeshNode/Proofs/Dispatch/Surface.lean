/-
# The surface of a node

What a node answers to is what its registry lists.  A handler runs only on a request to the path
of something that is listed, whatever way the name in the path is escaped; a request to the path
of anything else finds nothing.

* `ofPath?_eq_channel` and `ofPath?_eq_route`: which paths are recognized, exactly;
* `invoked_channel` and `invoked_route`: what is known when a handler ran;
* `dispatch_listed_channel` and `dispatch_listed_route`: what is listed can be reached;
* `dispatch_unlisted_channel` and `dispatch_unlisted_route`: what is not listed is not found;
* `listed_cases`: what can be listed, and who serves it;
* `surface_is_listed`: all of it, behind any history of registrations.
-/
import MeshNode.Proofs.Dispatch.Outcome
import MeshNode.Proofs.Name
import MeshNode.Proofs.Registry.Endpoints
import MeshNode.Proofs.Url.Escaping

namespace MeshNode

variable {κ ρ σ : Type}

/-- A registration under a name that was checked. -/
def Registration.Named : Registration κ ρ → Prop
  | .channel name _ => ∃ s, ChannelName.ofString? s = .ok name
  | .route name _ => ∃ s, RouteName.ofString? s = .ok name

/-! ## 1. Paths -/

theorem dropFront?_eq_some : ∀ {front s rest : List Char},
    dropFront? front s = some rest ↔ s = front ++ rest
  | [], s, rest => by simp [dropFront?]
  | c :: front, [], rest => by simp [dropFront?]
  | c :: front, d :: s, rest => by
    rw [dropFront?]
    by_cases h : c = d
    · rw [if_pos h, dropFront?_eq_some, h, List.cons_append, List.cons_inj_right]
    · rw [if_neg h]
      simp [Ne.symm h]

namespace Endpoint

theorem ofChannelPath?_eq_some {path : String} {endpoint : Endpoint}
    (h : ofChannelPath? path = some endpoint) :
    ∃ segment : List Char, endpoint = .channel (String.ofList segment) ∧
      path.toList = "/channel/".toList ++ segment ∧ segment ≠ [] ∧ '/' ∉ segment := by
  obtain ⟨segment, hfront, hsome⟩ := Option.bind_eq_some_iff.mp h
  by_cases hone : (segment.isEmpty || segment.contains '/') = true
  · rw [if_pos hone] at hsome
    cases hsome
  · rw [if_neg hone] at hsome
    simp only [Bool.or_eq_true, List.isEmpty_iff, List.contains_iff_mem, not_or] at hone
    exact ⟨segment, (Option.some.inj hsome).symm, dropFront?_eq_some.mp hfront, hone.1, hone.2⟩

theorem ofRoutePath?_eq_some {path : String} {endpoint : Endpoint}
    (h : ofRoutePath? path = some endpoint) :
    ∃ rest : List Char, endpoint = .route (String.ofList rest) ∧
      path.toList = "/route/".toList ++ rest ∧ rest ≠ [] := by
  obtain ⟨rest, hfront, hsome⟩ := Option.bind_eq_some_iff.mp h
  by_cases hempty : rest.isEmpty = true
  · rw [if_pos hempty] at hsome
    cases hsome
  · rw [if_neg hempty] at hsome
    rw [List.isEmpty_iff] at hempty
    exact ⟨rest, (Option.some.inj hsome).symm, dropFront?_eq_some.mp hfront, hempty⟩

/-- **The paths of channels.** -/
theorem ofPath?_eq_channel {path segment : String} (h : ofPath? path = some (.channel segment)) :
    path.toList = "/channel/".toList ++ segment.toList ∧ segment.toList ≠ [] ∧
      '/' ∉ segment.toList := by
  rw [ofPath?] at h
  cases hc : ofChannelPath? path with
  | some endpoint =>
    rw [hc, Option.some_or] at h
    obtain ⟨s, heq, hpath, hfilled, hsingle⟩ := ofChannelPath?_eq_some hc
    rw [Option.some.inj h, Endpoint.channel.injEq] at heq
    have hs : segment.toList = s := by rw [heq, String.toList_ofList]
    rw [hs]
    exact ⟨hpath, hfilled, hsingle⟩
  | none =>
    rw [hc, Option.none_or] at h
    obtain ⟨s, heq, -, -⟩ := ofRoutePath?_eq_some h
    cases heq

/-- **The paths of routes.** -/
theorem ofPath?_eq_route {path rest : String} (h : ofPath? path = some (.route rest)) :
    path.toList = "/route/".toList ++ rest.toList ∧ rest.toList ≠ [] := by
  rw [ofPath?] at h
  cases hc : ofChannelPath? path with
  | some endpoint =>
    rw [hc, Option.some_or] at h
    obtain ⟨s, heq, -, -, -⟩ := ofChannelPath?_eq_some hc
    rw [Option.some.inj h] at heq
    cases heq
  | none =>
    rw [hc, Option.none_or] at h
    obtain ⟨s, heq, hpath, hfilled⟩ := ofRoutePath?_eq_some h
    rw [Endpoint.route.injEq] at heq
    have hs : rest.toList = s := by rw [heq, String.toList_ofList]
    rw [hs]
    exact ⟨hpath, hfilled⟩

/-- A path that begins as that of a route is no path of a channel. -/
theorem ofPath?_route {path : String} {rest : List Char}
    (hpath : path.toList = "/route/".toList ++ rest) (hfilled : rest ≠ []) :
    ofPath? path = some (.route (String.ofList rest)) := by
  have hchannel : ofChannelPath? path = none := by
    rw [ofChannelPath?, hpath]
    rfl
  have hempty : rest.isEmpty = false := by simp [hfilled]
  rw [ofPath?, hchannel, Option.none_or, ofRoutePath?, hpath, dropFront?_append, Option.bind_some,
    hempty]
  rfl

end Endpoint

/-! ## 2. When a handler runs -/

namespace Dispatch

open Url.Percent

variable {behavior : Behavior κ ρ σ} {registry : Registry κ ρ} {request : Inbound} {state : σ}

/-- A message runs no handler but that of the channel it names. -/
theorem invoked_of_dispatchChannel {segment : String} {body : Bytes} {i : Invocation κ ρ}
    (h : i ∈ (dispatchChannel behavior registry segment body state).invocations) :
    ∃ name handler data, i = .channel handler data ∧ decodeText? segment = some name ∧
      registry.channel? name = some handler := by
  cases hname : decodeText? segment with
  | none =>
    rw [dispatchChannel_unreadable hname] at h
    exact absurd h List.not_mem_nil
  | some name =>
    by_cases hlength : bodyLimit < body.length
    · rw [dispatchChannel_tooLong hname hlength] at h
      exact absurd h List.not_mem_nil
    · have hends : ∃ outcome, Ends behavior registry name body state outcome
          (dispatchChannel behavior registry segment body state) :=
        exists_ends hname (Nat.not_lt.mp hlength)
      obtain ⟨outcome, hends⟩ := hends
      generalize dispatchChannel behavior registry segment body state = d at h hends
      cases hends with
      | unknown => exact absurd h List.not_mem_nil
      | malformed => exact absurd h List.not_mem_nil
      | ok hhandler _ _ => exact ⟨name, _, _, List.mem_singleton.mp h, rfl, hhandler⟩
      | failed hhandler _ _ => exact ⟨name, _, _, List.mem_singleton.mp h, rfl, hhandler⟩
      | panicked hhandler _ _ => exact ⟨name, _, _, List.mem_singleton.mp h, rfl, hhandler⟩

/-- A request on a route runs no handler but that of the route it names. -/
theorem invoked_of_dispatchRoute {path : String} {i : Invocation κ ρ}
    (h : i ∈ (dispatchRoute behavior registry path request state).invocations) :
    ∃ name handler, i = .route handler request ∧ decodeText? path = some name ∧
      registry.route? name = some handler := by
  rw [dispatchRoute] at h
  cases hname : decodeText? path with
  | none =>
    rw [hname] at h
    exact absurd h List.not_mem_nil
  | some name =>
    rw [hname] at h
    dsimp only at h
    cases hhandler : registry.route? name with
    | none =>
      rw [hhandler] at h
      exact absurd h List.not_mem_nil
    | some handler =>
      rw [hhandler] at h
      exact ⟨name, handler, List.mem_singleton.mp h, rfl, hhandler⟩

/-- A handler runs only at an endpoint, and by one of its methods. -/
theorem invoked_of_dispatch {i : Invocation κ ρ}
    (h : i ∈ (dispatch behavior registry request state).invocations) :
    ∃ endpoint, Endpoint.ofPath? request.target.path = some endpoint ∧
      request.method ∈ endpoint.methods ∧
      i ∈ (match endpoint with
        | .channel escaped => dispatchChannel behavior registry escaped request.body state
        | .route path => dispatchRoute behavior registry path request state).invocations := by
  rw [dispatch] at h
  cases hpath : Endpoint.ofPath? request.target.path with
  | none =>
    rw [hpath] at h
    exact absurd h List.not_mem_nil
  | some endpoint =>
    rw [hpath] at h
    dsimp only at h
    rw [serve.eq_def] at h
    by_cases hmethod : endpoint.methods.contains request.method = true
    · rw [if_pos hmethod] at h
      exact ⟨endpoint, rfl, List.contains_iff_mem.mp hmethod, h⟩
    · rw [if_neg hmethod] at h
      exact absurd h List.not_mem_nil

/-- **When the handler of a channel runs**: on a POST to one segment that spells the channel. -/
theorem invoked_channel {handler : κ} {data : Json}
    (h : .channel handler data ∈ (dispatch behavior registry request state).invocations) :
    ∃ segment name : String, request.PostedTo segment.toList ∧ decodeText? segment = some name ∧
      registry.channel? name = some handler := by
  obtain ⟨endpoint, hpath, hmethod, hmem⟩ := invoked_of_dispatch h
  cases endpoint with
  | channel segment =>
    obtain ⟨name, handler', data', heq, hname, hhandler⟩ := invoked_of_dispatchChannel hmem
    obtain ⟨hp, hfilled, hsingle⟩ := Endpoint.ofPath?_eq_channel hpath
    cases heq
    exact ⟨segment, name, ⟨List.mem_singleton.mp hmethod, hp, hfilled, hsingle⟩, hname, hhandler⟩
  | route path =>
    obtain ⟨name, handler', heq, -⟩ := invoked_of_dispatchRoute hmem
    cases heq

/-- **When the handler of a route runs**: on a request with one of five methods to a path that
spells the route. -/
theorem invoked_route {handler : ρ} {received : Inbound}
    (h : .route handler received ∈ (dispatch behavior registry request state).invocations) :
    request.method ∈ [Method.get, .head, .post, .put, .delete] ∧
      ∃ rest name : String, request.target.path.toList = "/route/".toList ++ rest.toList ∧
        rest.toList ≠ [] ∧ decodeText? rest = some name ∧ registry.route? name = some handler := by
  obtain ⟨endpoint, hpath, hmethod, hmem⟩ := invoked_of_dispatch h
  cases endpoint with
  | channel segment =>
    obtain ⟨name, handler', data, heq, -⟩ := invoked_of_dispatchChannel hmem
    cases heq
  | route path =>
    obtain ⟨name, handler', heq, hname, hhandler⟩ := invoked_of_dispatchRoute hmem
    obtain ⟨hp, hfilled⟩ := Endpoint.ofPath?_eq_route hpath
    cases heq
    exact ⟨hmethod, path, name, hp, hfilled, hname, hhandler⟩

/-! ## 3. What is listed can be reached, and nothing else -/

/-- The characters of a path under a front. -/
theorem toList_of_path {path front rest : String} (h : path = front ++ rest) :
    path.toList = front.toList ++ rest.toList := by
  rw [h, String.toList_append]

/-- **A channel is reached** under every escaped form of its name. -/
theorem dispatch_listed_channel {segment name : String} {handler : κ} {e : Envelope}
    (hmethod : request.method = .post) (hpath : request.target.path = "/channel/" ++ segment)
    (hescaped : Escaping unreserved (Utf8.encode segment) (Utf8.encode name)) (hname : name ≠ "")
    (hlength : request.body.length ≤ bodyLimit) (hbody : Envelope.ofBytes request.body = .ok e)
    (hhandler : registry.channel? name = some handler) :
    (dispatch behavior registry request state).invocations = [.channel handler e.data] := by
  have hposted : request.PostedTo segment.toList :=
    ⟨hmethod, toList_of_path hpath, filled_of_escaping hname hescaped,
      single_of_escaping (by decide) hescaped⟩
  have hread : decodeText? (String.ofList segment.toList) = some name := by
    rw [String.ofList_toList]
    exact decodeText?_escaping (by decide) hescaped
  exact invocations_of_envelope hposted hread hlength hhandler hbody

/-- A request on a route. -/
theorem dispatch_routed {rest : String} (hmethod : request.method ∈ (Endpoint.route rest).methods)
    (hpath : Endpoint.ofPath? request.target.path = some (.route rest)) :
    dispatch behavior registry request state =
      { dispatchRoute behavior registry rest request state with
        answer := (dispatchRoute behavior registry rest request state).answer.trimmed
          request.method } := by
  rw [dispatch, hpath]
  dsimp only
  rw [serve.eq_def, if_pos (List.contains_iff_mem.mpr hmethod)]

/-- A request on a route whose path can be read runs the handler of the route. -/
theorem dispatch_read_route {rest name : String} {handler : ρ}
    (hmethod : request.method ∈ [Method.get, .head, .post, .put, .delete])
    (hpath : request.target.path = "/route/" ++ rest) (hfilled : rest.toList ≠ [])
    (hread : decodeText? rest = some name) (hhandler : registry.route? name = some handler) :
    (dispatch behavior registry request state).invocations = [.route handler request] := by
  have hrecognized := Endpoint.ofPath?_route (toList_of_path hpath) hfilled
  rw [String.ofList_toList] at hrecognized
  rw [dispatch_routed hmethod hrecognized, dispatchRoute, hread]
  dsimp only
  rw [hhandler]

/-- **A route is reached** under every escaped form of its path. -/
theorem dispatch_listed_route {rest name : String} {handler : ρ}
    (hmethod : request.method ∈ [Method.get, .head, .post, .put, .delete])
    (hpath : request.target.path = "/route/" ++ rest)
    (hescaped : Escaping unreservedOrSlash (Utf8.encode rest) (Utf8.encode name))
    (hname : name ≠ "") (hhandler : registry.route? name = some handler) :
    (dispatch behavior registry request state).invocations = [.route handler request] :=
  dispatch_read_route hmethod hpath (filled_of_escaping hname hescaped)
    (decodeText?_escaping (by decide) hescaped) hhandler

/-- An answer that nothing was found, and that nothing ran. -/
def NotFound (d : Dispatched κ ρ σ) : Prop :=
  d.invocations = [] ∧ ∃ response, d.answer = .response response ∧ response.status = ⟨404⟩

/-- A path that is no endpoint is not found. -/
theorem notFound_of_ofPath? (h : Endpoint.ofPath? request.target.path = none) :
    NotFound (dispatch behavior registry request state) := by
  rw [dispatch, h]
  exact ⟨rfl, _, rfl, rfl⟩

/-- **A channel without a handler is not found.** -/
theorem dispatch_unlisted_channel {rest name : String} (hmethod : request.method = .post)
    (hpath : request.target.path = "/channel/" ++ rest) (hread : decodeText? rest = some name)
    (hlength : request.body.length ≤ bodyLimit) (hunknown : registry.channel? name = none) :
    NotFound (dispatch behavior registry request state) := by
  cases hrecognized : Endpoint.ofPath? request.target.path with
  | none => exact notFound_of_ofPath? hrecognized
  | some endpoint =>
    cases endpoint with
    | channel segment =>
      obtain ⟨hsegment, hfilled, hsingle⟩ := Endpoint.ofPath?_eq_channel hrecognized
      have hsame : segment = rest := by
        rw [toList_of_path hpath, List.append_cancel_left_eq] at hsegment
        exact (String.toList_inj.mp hsegment).symm
      subst hsame
      rw [dispatch_post hmethod hrecognized, dispatchChannel_unknown hread hlength hunknown]
      exact ⟨rfl, _, rfl, rfl⟩
    | route other =>
      obtain ⟨hroute, -⟩ := Endpoint.ofPath?_eq_route hrecognized
      rw [toList_of_path hpath] at hroute
      simp at hroute

/-- **A route without a handler is not found.** -/
theorem dispatch_unlisted_route {rest name : String}
    (hmethod : request.method ∈ [Method.get, .head, .post, .put, .delete])
    (hpath : request.target.path = "/route/" ++ rest) (hread : decodeText? rest = some name)
    (hunknown : registry.route? name = none) :
    NotFound (dispatch behavior registry request state) := by
  cases hrecognized : Endpoint.ofPath? request.target.path with
  | none => exact notFound_of_ofPath? hrecognized
  | some endpoint =>
    cases endpoint with
    | channel segment =>
      obtain ⟨hsegment, -, -⟩ := Endpoint.ofPath?_eq_channel hrecognized
      rw [toList_of_path hpath] at hsegment
      simp at hsegment
    | route other =>
      obtain ⟨hroute, -⟩ := Endpoint.ofPath?_eq_route hrecognized
      have hsame : other = rest := by
        rw [toList_of_path hpath, List.append_cancel_left_eq] at hroute
        exact (String.toList_inj.mp hroute).symm
      subst hsame
      rw [dispatch_routed hmethod hrecognized, dispatchRoute, hread]
      dsimp only
      rw [hunknown]
      refine ⟨rfl, _, rfl, ?_⟩
      split <;> rfl

/-! ## 4. Behind any history -/

/-- **What is listed** is a channel or a route under a name that is not empty, and it is served by
the last handler registered for it. -/
theorem listed_cases {history : List (Registration κ ρ)} (hnamed : ∀ step ∈ history, step.Named)
    {entry : String} (hentry : entry ∈ (Registry.ofHistory history).endpoints) :
    (∃ name handler, entry = "/channel/" ++ name ∧ name ≠ "" ∧
      (Registry.ofHistory history).channel? name = some handler ∧
      (history.filterMap (Registration.channelHandler? name)).getLast? = some handler) ∨
    (∃ name handler, entry = "/route/" ++ name ∧ name ≠ "" ∧
      (Registry.ofHistory history).route? name = some handler ∧
      (history.filterMap (Registration.routeHandler? name)).getLast? = some handler) := by
  obtain ⟨step, hstep, hendpoint⟩ := Registry.exists_of_mem_endpoints hentry
  have hchecked := hnamed step hstep
  cases step with
  | channel name registered =>
    obtain ⟨s, hs⟩ := hchecked
    have hentry' : entry = "/channel/" ++ name.text := hendpoint.symm
    rw [hentry'] at hentry
    obtain ⟨handler, hhandler, hlast⟩ := Registry.last_of_channel_listed hentry
    exact .inl ⟨name.text, handler, hentry', ChannelName.ne_empty_of_ofString? hs, hhandler, hlast⟩
  | route name registered =>
    obtain ⟨s, hs⟩ := hchecked
    have hentry' : entry = "/route/" ++ name.text := by
      rw [← hendpoint, ← RouteName.endpoint_eq]
      rfl
    rw [hentry'] at hentry
    obtain ⟨handler, hhandler, hlast⟩ := Registry.last_of_route_listed hentry
    exact .inr ⟨name.text, handler, hentry', RouteName.ne_empty_of_ofString? hs, hhandler, hlast⟩

/-- **The endpoints that are listed are the surface that is served.**  Behind any history of
registrations under names that were checked, and for every request:
the handler of a channel runs only on a POST to one segment that spells a listed channel, and that
of a route only on a request by GET, HEAD, POST, PUT or DELETE to a path that spells a listed
route, and it is the last that was registered there;
conversely, at every endpoint that is listed, under every escaped form of its name, the last handler
registered for it runs, and nothing else, on every envelope that is posted to a channel and on every
request by one of those methods on a route;
and a POST to any other channel, or a request by one of those methods on any other route, finds
nothing and runs nothing. -/
theorem surface_is_listed {history : List (Registration κ ρ)}
    (hnamed : ∀ step ∈ history, step.Named) (behavior : Behavior κ ρ σ) (state : σ)
    (request : Inbound) :
    let registry := Registry.ofHistory history
    let d := dispatch behavior registry request state
    (∀ handler data, .channel handler data ∈ d.invocations →
      ∃ segment name : String, request.PostedTo segment.toList ∧ decodeText? segment = some name ∧
        "/channel/" ++ name ∈ registry.endpoints ∧
        (history.filterMap (Registration.channelHandler? name)).getLast? = some handler) ∧
    (∀ handler received, .route handler received ∈ d.invocations →
      request.method ∈ [Method.get, .head, .post, .put, .delete] ∧
      ∃ rest name : String, request.target.path.toList = "/route/".toList ++ rest.toList ∧
        rest.toList ≠ [] ∧ decodeText? rest = some name ∧
        "/route/" ++ name ∈ registry.endpoints ∧
        (history.filterMap (Registration.routeHandler? name)).getLast? = some handler) ∧
    (∀ entry ∈ registry.endpoints,
      (∃ name handler, entry = "/channel/" ++ name ∧
        (history.filterMap (Registration.channelHandler? name)).getLast? = some handler ∧
        ∀ segment e, request.method = .post → request.target.path = "/channel/" ++ segment →
          Escaping unreserved (Utf8.encode segment) (Utf8.encode name) →
          request.body.length ≤ 2 * 1024 * 1024 → Envelope.ofBytes request.body = .ok e →
          d.invocations = [.channel handler e.data]) ∨
      (∃ name handler, entry = "/route/" ++ name ∧
        (history.filterMap (Registration.routeHandler? name)).getLast? = some handler ∧
        ∀ rest, request.method ∈ [Method.get, .head, .post, .put, .delete] →
          request.target.path = "/route/" ++ rest →
          Escaping unreservedOrSlash (Utf8.encode rest) (Utf8.encode name) →
          d.invocations = [.route handler request])) ∧
    (∀ rest name, request.method = .post → request.target.path = "/channel/" ++ rest →
      decodeText? rest = some name → request.body.length ≤ 2 * 1024 * 1024 →
      "/channel/" ++ name ∉ registry.endpoints → NotFound d) ∧
    (∀ rest name, request.method ∈ [Method.get, .head, .post, .put, .delete] →
      request.target.path = "/route/" ++ rest → decodeText? rest = some name →
      "/route/" ++ name ∉ registry.endpoints → NotFound d) := by
  intro registry d
  refine ⟨?_, ?_, ?_, ?_, ?_⟩
  · intro handler data hmem
    obtain ⟨segment, name, hposted, hread, hhandler⟩ := invoked_channel hmem
    refine ⟨segment, name, hposted, hread, ?_, ?_⟩
    · rw [Registry.channel_listed_iff, hhandler]
      rfl
    · rw [← Registry.channel?_ofHistory, hhandler]
  · intro handler received hmem
    obtain ⟨hmethod, rest, name, hpath, hfilled, hread, hhandler⟩ := invoked_route hmem
    refine ⟨hmethod, rest, name, hpath, hfilled, hread, ?_, ?_⟩
    · rw [Registry.route_listed_iff, hhandler]
      rfl
    · rw [← Registry.route?_ofHistory, hhandler]
  · intro entry hentry
    rcases listed_cases hnamed hentry with
      ⟨name, handler, hchannel, hname, hhandler, hlast⟩ |
      ⟨name, handler, hroute, hname, hhandler, hlast⟩
    · refine .inl ⟨name, handler, hchannel, hlast, ?_⟩
      intro segment e hmethod hpath hescaped hlength hbody
      exact dispatch_listed_channel hmethod hpath hescaped hname hlength hbody hhandler
    · refine .inr ⟨name, handler, hroute, hlast, ?_⟩
      intro rest hmethod hpath hescaped
      exact dispatch_listed_route hmethod hpath hescaped hname hhandler
  · intro rest name hmethod hpath hread hlength hunlisted
    rw [Registry.channel_listed_iff, Bool.not_eq_true, Option.isSome_eq_false_iff,
      Option.isNone_iff_eq_none] at hunlisted
    exact dispatch_unlisted_channel hmethod hpath hread hlength hunlisted
  · intro rest name hmethod hpath hread hunlisted
    rw [Registry.route_listed_iff, Bool.not_eq_true, Option.isSome_eq_false_iff,
      Option.isNone_iff_eq_none] at hunlisted
    exact dispatch_unlisted_route hmethod hpath hread hunlisted

/-- A channel that was registered twice is reached under a name with more escapes than it needs. -/
theorem surface_under_escapes :
    let history : List (Registration Nat Nat) :=
      [.channel ⟨"a b%"⟩ 1, .route ⟨"/x"⟩ 2, .channel ⟨"a b%"⟩ 3]
    let request : Inbound :=
      ⟨.post, ⟨"", "/channel/%61%20b%25", none⟩, [], Envelope.write ⟨.int 1⟩⟩
    (∀ step ∈ history, step.Named) ∧
      ∀ behavior : Behavior Nat Nat Unit,
        (dispatch behavior (Registry.ofHistory history) request ()).invocations
          = [.channel 3 (.int 1)] := by
  intro history request
  have hnamed : ∀ step ∈ history, step.Named := by
    intro step hstep
    simp only [history, List.mem_cons, List.not_mem_nil, or_false] at hstep
    rcases hstep with rfl | rfl | rfl
    · exact ⟨"a b%", by decide⟩
    · exact ⟨"//x", by decide⟩
    · exact ⟨"a b%", by decide⟩
  refine ⟨hnamed, fun behavior => ?_⟩
  obtain ⟨-, -, hlisted, -⟩ := surface_is_listed hnamed behavior () request
  have hescaped : Escaping unreserved (Utf8.encode "%61%20b%25") (Utf8.encode "a b%") :=
    .escape (by decide) (.escape (by decide) (.self (by decide) (.escape (by decide) .nil)))
  have hbody : Envelope.ofBytes request.body = .ok ⟨.int 1⟩ := rfl
  have hlength : request.body.length ≤ 2 * 1024 * 1024 := by decide +kernel
  rcases hlisted "/channel/a b%" (by decide +kernel) with
    ⟨name, handler, hentry, hlast, hreach⟩ | ⟨name, handler, hentry, -⟩
  · have hname : name = "a b%" := (String.append_right_inj "/channel/").mp hentry.symm
    subst hname
    have hhandler : handler = 3 := by
      have hthree :
          (history.filterMap (Registration.channelHandler? "a b%")).getLast? = some 3 := by
        decide +kernel
      rw [hthree] at hlast
      exact (Option.some.inj hlast).symm
    rw [hreach "%61%20b%25" ⟨.int 1⟩ rfl rfl hescaped hlength hbody, hhandler]
  · have hchars := congrArg String.toList hentry
    rw [String.toList_append] at hchars
    simp at hchars

end Dispatch
end MeshNode
