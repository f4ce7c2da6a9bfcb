/-
# What a request counts

The counters of a node are told by what it did.  Whatever comes in leaves one of four things: no
trace; a count under the one label that all channels without a handler share; a count of a message
that is no envelope; or one run of a handler, with one count for what it serves.

* `Registry.served` are the channels and routes with a handler;
* `Inbound.IsFor` says what a request is for, and it is for one thing at most;
* `Count.runs` is how often something was run, by its counters;
* `Tallied` is what one request leaves, `dispatch_tallied` that every request leaves it;
* `Tallied.labelled`, `Tallied.messages`, `Tallied.runs_for` and `Tallied.runs_of`: what follows.
-/
import MeshNode.Proofs.Dictionary
import MeshNode.Proofs.Dispatch.Surface
import Mathlib.Algebra.BigOperators.Group.Finset.Piecewise

namespace MeshNode

variable {κ ρ σ : Type}

/-! ## 1. What there are handlers for -/

namespace Registry

/-- The handler of a channel or a route. -/
def handler? (r : Registry κ ρ) : ChannelName ⊕ RouteName → Option (κ ⊕ ρ)
  | .inl name => (r.channel? name.text).map .inl
  | .inr name => (r.route? name.text).map .inr

/-- The channels and routes with a handler. -/
def served (r : Registry κ ρ) : Finset (ChannelName ⊕ RouteName) :=
  (r.channels.map fun e => Sum.inl ⟨e.1⟩).toFinset ∪
    (r.routes.filterMap fun e =>
      (dropFront? "route/".toList e.1.toList).map fun path => Sum.inr ⟨String.ofList path⟩).toFinset

/-- **What is served** is what has a handler. -/
theorem mem_served {r : Registry κ ρ} {what : ChannelName ⊕ RouteName} :
    what ∈ r.served ↔ (r.handler? what).isSome = true := by
  rcases what with name | name
  · have hname : ∀ e : String × κ, (⟨e.1⟩ : ChannelName) = name ↔ e.1 = name.text := by
      intro e
      cases name
      simp
    simp [served, handler?, channel?, Dictionary.isSome_get?_iff, hname]
  · have hkey : ∀ e : String × ρ,
        (dropFront? "route/".toList e.1.toList).map
            (fun path => (Sum.inr ⟨String.ofList path⟩ : ChannelName ⊕ RouteName))
          = some (.inr name) ↔ e.1 = name.key := by
      intro e
      have htext : e.1 = name.key
          ↔ dropFront? "route/".toList e.1.toList = some name.text.toList := by
        rw [dropFront?_eq_some, ← String.toList_append, String.toList_inj]
        rfl
      rw [htext, Option.map_eq_some_iff]
      constructor
      · rintro ⟨path, hpath, heq⟩
        rw [← Sum.inr.inj heq, hpath, String.toList_ofList]
      · intro h
        exact ⟨name.text.toList, h, by rw [String.ofList_toList]⟩
    simp only [served, Finset.mem_union, List.mem_toFinset, List.mem_filterMap, hkey]
    simp [handler?, route?, Dictionary.isSome_get?_iff]

theorem mem_served_of_handler? {r : Registry κ ρ} {what : ChannelName ⊕ RouteName}
    {handler : κ ⊕ ρ} (h : r.handler? what = some handler) : what ∈ r.served := by
  rw [mem_served, h]
  rfl

end Registry

/-! ## 2. What a request is for -/

open Url.Percent

/-- **What a request is for**: a message that is dispatched is for the channel that its segment
spells, and a request by one of five methods is for the route that its path spells. -/
inductive Inbound.IsFor (request : Inbound) : ChannelName ⊕ RouteName → Prop
  | message {segment : List Char} {name : String} (posted : request.PostedTo segment)
      (read : decodeText? (String.ofList segment) = some name)
      (size : request.body.length ≤ 2 * 1024 * 1024) :
    IsFor request (.inl ⟨name⟩)
  | request {rest : List Char} {name : String}
      (method : request.method ∈ [Method.get, .head, .post, .put, .delete])
      (path : request.target.path.toList = "/route/".toList ++ rest) (filled : rest ≠ [])
      (read : decodeText? (String.ofList rest) = some name) :
    IsFor request (.inr ⟨name⟩)

namespace Inbound

/-- What a request is for, if it is for anything. -/
def subject? (request : Inbound) : Option (ChannelName ⊕ RouteName) :=
  match Endpoint.ofPath? request.target.path with
  | none => none
  | some (.channel escaped) =>
    if request.method = .post ∧ request.body.length ≤ Dispatch.bodyLimit then
      (decodeText? escaped).map fun name => .inl ⟨name⟩
    else none
  | some (.route rest) =>
    if request.method ∈ [Method.get, .head, .post, .put, .delete] then
      (decodeText? rest).map fun name => .inr ⟨name⟩
    else none

variable {request : Inbound} {what other : ChannelName ⊕ RouteName}

theorem subject?_of_isFor (h : request.IsFor what) : request.subject? = some what := by
  cases h with
  | message posted read size =>
    rw [subject?, Endpoint.ofPath?_channel posted.path posted.filled posted.single]
    simp [posted.method, Dispatch.bodyLimit, size, read]
  | request method path filled read =>
    rw [subject?, Endpoint.ofPath?_route path filled]
    simp only [if_pos method, read, Option.map_some]

theorem isFor_of_subject? (h : request.subject? = some what) : request.IsFor what := by
  rw [subject?] at h
  split at h
  · cases h
  · next segment hpath =>
    obtain ⟨hchars, hfilled, hsingle⟩ := Endpoint.ofPath?_eq_channel hpath
    split at h
    · next hallowed =>
      obtain ⟨name, hread, rfl⟩ := Option.map_eq_some_iff.mp h
      rw [← String.ofList_toList (s := segment)] at hread
      exact .message ⟨hallowed.1, hchars, hfilled, hsingle⟩ hread hallowed.2
    · cases h
  · next rest hpath =>
    obtain ⟨hchars, hfilled⟩ := Endpoint.ofPath?_eq_route hpath
    split at h
    · next hallowed =>
      obtain ⟨name, hread, rfl⟩ := Option.map_eq_some_iff.mp h
      rw [← String.ofList_toList (s := rest)] at hread
      exact .request hallowed hchars hfilled hread
    · cases h

/-- **What a request is for can be computed.** -/
theorem subject?_eq_some : request.subject? = some what ↔ request.IsFor what :=
  ⟨isFor_of_subject?, subject?_of_isFor⟩

instance : Decidable (request.IsFor what) := decidable_of_iff _ subject?_eq_some

/-- A request is for one thing at most. -/
theorem IsFor.unique (h : request.IsFor what) (h' : request.IsFor other) : other = what := by
  rw [← subject?_eq_some] at h h'
  exact Option.some.inj (h'.symm.trans h)

/-- A request is a message that is dispatched. -/
def IsMessage (request : Inbound) : Prop := ∃ name, request.IsFor (.inl name)

theorem isMessage_iff : request.IsMessage ↔ (request.subject?.bind Sum.getLeft?).isSome = true := by
  simp only [IsMessage, ← subject?_eq_some, Option.isSome_iff_exists, Option.bind_eq_some_iff,
    Sum.getLeft?_eq_some_iff]
  simp

instance : Decidable request.IsMessage := decidable_of_iff _ isMessage_iff.symm

end Inbound

/-! ## 3. One request -/

/-- The handler that ran. -/
def Invocation.handler : Invocation κ ρ → κ ⊕ ρ
  | .channel handler _ => .inl handler
  | .route handler _ => .inr handler

/-- A channel with another text is another channel. -/
theorem ChannelName.text_ne {name other : ChannelName} (h : other ≠ name) :
    name.text ≠ other.text := by
  intro htext
  cases name
  cases other
  exact h (congrArg ChannelName.mk htext.symm)

namespace Count

/-- How often something was run, by its counters: a channel as often as its messages were counted as
handled or failed, and a route as often as its requests were counted. -/
def runs (counts : List Count) : ChannelName ⊕ RouteName → Nat
  | .inl name => counts.count (.message name.text .ok) + counts.count (.message name.text .failed)
  | .inr name => counts.count (.request name.text)

/-- The counts of one run of a channel or a route. -/
inductive OfRun : ChannelName ⊕ RouteName → Count → Prop
  | ok (name : ChannelName) : OfRun (.inl name) (.message name.text .ok)
  | failed (name : ChannelName) : OfRun (.inl name) (.message name.text .failed)
  | request (name : RouteName) : OfRun (.inr name) (.request name.text)

variable {what other : ChannelName ⊕ RouteName}

theorem message_inj {name name' : String} {outcome outcome' : Outcome} :
    message name outcome = message name' outcome' ↔ name = name' ∧ outcome = outcome' := by
  simp [message, Dispatch.label_injective.eq_iff]

theorem message_ne_request (name path : String) (outcome : Outcome) :
    message name outcome ≠ request path := by
  simp [message, request]

theorem request_inj {path path' : String} : request path = request path' ↔ path = path' := by
  simp [request]

@[simp] theorem runs_nil : runs [] what = 0 := by
  cases what <;> rfl

theorem runs_append (counts more : List Count) :
    runs (counts ++ more) what = runs counts what + runs more what := by
  cases what with
  | inl name =>
    simp only [runs, List.count_append]
    omega
  | inr name => simp only [runs, List.count_append]

/-- A message that is neither handled nor failed is no run of anything. -/
theorem runs_of_refused {name : String} {outcome : Outcome} (hok : outcome ≠ .ok)
    (hfailed : outcome ≠ .failed) : runs [message name outcome] what = 0 := by
  cases what with
  | inl other => simp [runs, message_inj, hok, hfailed]
  | inr other => simp [runs, message_ne_request]

/-- A message that was handled or failed is a run of its channel alone. -/
theorem runs_of_message {name : ChannelName} {outcome : Outcome}
    (hran : outcome = .ok ∨ outcome = .failed) :
    runs [message name.text outcome] what = if what = .inl name then 1 else 0 := by
  rcases what with other | other
  · by_cases hname : other = name
    · rcases hran with rfl | rfl <;> simp [runs, message_inj, hname]
    · simp [runs, message_inj, hname, ChannelName.text_ne hname]
  · simp [runs, message_ne_request]

/-- A request that was counted is a run of its route alone. -/
theorem runs_of_request {name : RouteName} :
    runs [request name.text] what = if what = .inr name then 1 else 0 := by
  rcases what with other | other
  · simp [runs, Ne.symm (message_ne_request _ _ _)]
  · obtain ⟨path⟩ := name
    obtain ⟨path'⟩ := other
    by_cases hpath : path' = path
    · simp [runs, hpath]
    · simp [runs, request_inj, hpath, Ne.symm hpath]

/-- **One run counts once**, and for what was run alone. -/
theorem OfRun.runs {count : Count} (h : OfRun what count) :
    Count.runs [count] other = if other = what then 1 else 0 := by
  cases h with
  | ok name => exact runs_of_message (.inl rfl)
  | failed name => exact runs_of_message (.inr rfl)
  | request name => exact runs_of_request

end Count

namespace Dispatch

variable {behavior : Behavior κ ρ σ} {registry : Registry κ ρ} {request : Inbound} {state : σ}

/-- **What one request leaves in the tally**: nothing, if it is no message; a count for a message to
a channel without a handler, under a label that is always the same; a count for a message that is no
envelope; or a run, with its count. -/
inductive Tallied (registry : Registry κ ρ) (request : Inbound) :
    List (Invocation κ ρ) → List Count → Prop
  | nothing (hnone : ¬ request.IsMessage) : Tallied registry request [] []
  | unknown {name : ChannelName} (hfor : request.IsFor (.inl name)) :
    Tallied registry request [] [.message "unregistered" .unknown]
  | malformed {name : ChannelName} (hfor : request.IsFor (.inl name))
      (hserved : .inl name ∈ registry.served) :
    Tallied registry request [] [.message name.text .malformed]
  | ran {what : ChannelName ⊕ RouteName} {i : Invocation κ ρ} {count : Count}
      (hfor : request.IsFor what) (hhandler : registry.handler? what = some i.handler)
      (hcount : count.OfRun what) :
    Tallied registry request [i] [count]

/-- A message leaves what its end says. -/
theorem tallied_of_ends {name : String} {outcome : Count.Outcome} {d : Dispatched κ ρ σ}
    (hfor : request.IsFor (.inl ⟨name⟩))
    (h : Ends behavior registry name request.body state outcome d) :
    Tallied registry request d.invocations d.counts := by
  have hserved : ∀ {handler}, registry.channel? name = some handler →
      registry.handler? (.inl ⟨name⟩) = some (.inl handler) := by
    intro handler hhandler
    simp [Registry.handler?, hhandler]
  cases h with
  | unknown hunknown => exact .unknown hfor
  | malformed hhandler _ =>
    exact .malformed hfor (Registry.mem_served_of_handler? (hserved hhandler))
  | ok hhandler _ _ => exact .ran hfor (hserved hhandler) (.ok ⟨name⟩)
  | failed hhandler _ _ => exact .ran hfor (hserved hhandler) (.failed ⟨name⟩)
  | panicked hhandler _ _ => exact .ran hfor (hserved hhandler) (.failed ⟨name⟩)

/-- A request that nothing was done for leaves nothing. -/
theorem tallied_of_none {response : Response} (h : request.subject? = none) :
    Tallied registry request (unhandled response state : Dispatched κ ρ σ).invocations
      (unhandled response state : Dispatched κ ρ σ).counts := by
  refine .nothing ?_
  rintro ⟨name, hfor⟩
  rw [← Inbound.subject?_eq_some, h] at hfor
  cases hfor

/-- What a message leaves. -/
theorem dispatchChannel_tallied {segment : String}
    (hpath : Endpoint.ofPath? request.target.path = some (.channel segment))
    (hmethod : request.method = .post) :
    Tallied registry request
      (dispatchChannel behavior registry segment request.body state).invocations
      (dispatchChannel behavior registry segment request.body state).counts := by
  cases hread : decodeText? segment with
  | none =>
    rw [dispatchChannel_unreadable hread]
    exact tallied_of_none (by simp [Inbound.subject?, hpath, hread])
  | some name =>
    by_cases hlength : request.body.length ≤ bodyLimit
    · have hfor : request.IsFor (.inl ⟨name⟩) := by
        rw [← Inbound.subject?_eq_some]
        simp [Inbound.subject?, hpath, hmethod, hlength, hread]
      obtain ⟨outcome, hends⟩ := exists_ends hread hlength
      exact tallied_of_ends hfor hends
    · rw [dispatchChannel_tooLong hread (Nat.not_le.mp hlength)]
      exact tallied_of_none (by simp [Inbound.subject?, hpath, hlength])

/-- What a request on a route leaves. -/
theorem dispatchRoute_tallied {rest : String}
    (hpath : Endpoint.ofPath? request.target.path = some (.route rest))
    (hmethod : request.method ∈ [Method.get, .head, .post, .put, .delete]) :
    Tallied registry request (dispatchRoute behavior registry rest request state).invocations
      (dispatchRoute behavior registry rest request state).counts := by
  rw [dispatchRoute]
  cases hread : decodeText? rest with
  | none => exact tallied_of_none (by simp [Inbound.subject?, hpath, hread])
  | some name =>
    have hfor : request.IsFor (.inr ⟨name⟩) := by
      rw [← Inbound.subject?_eq_some, Inbound.subject?, hpath]
      simp only [if_pos hmethod, hread, Option.map_some]
    dsimp only
    cases hhandler : registry.route? name with
    | none =>
      refine .nothing ?_
      rintro ⟨other, hother⟩
      cases hfor.unique hother
    | some handler =>
      refine .ran hfor ?_ (.request ⟨name⟩)
      simp [Registry.handler?, hhandler, Invocation.handler]

/-- **The tally of one request**, whatever the handlers of the node do. -/
theorem dispatch_tallied (behavior : Behavior κ ρ σ) (registry : Registry κ ρ) (request : Inbound)
    (state : σ) :
    Tallied registry request (dispatch behavior registry request state).invocations
      (dispatch behavior registry request state).counts := by
  rw [dispatch]
  cases hpath : Endpoint.ofPath? request.target.path with
  | none => exact tallied_of_none (by simp [Inbound.subject?, hpath])
  | some endpoint =>
    dsimp only
    rw [serve.eq_def]
    by_cases hmethod : endpoint.methods.contains request.method = true
    · rw [if_pos hmethod]
      rw [List.contains_iff_mem] at hmethod
      cases endpoint with
      | channel segment => exact dispatchChannel_tallied hpath (List.mem_singleton.mp hmethod)
      | route rest => exact dispatchRoute_tallied hpath hmethod
    · rw [if_neg hmethod]
      rw [List.contains_iff_mem] at hmethod
      refine tallied_of_none ?_
      cases endpoint with
      | channel segment =>
        have hpost : request.method ≠ .post := fun h => hmethod (List.mem_singleton.mpr h)
        simp [Inbound.subject?, hpath, hpost]
      | route rest =>
        rw [Inbound.subject?, hpath]
        exact if_neg hmethod

/-! ## 4. One request in the balance -/

/-- **The labels there are**: the one that all channels without a handler share, and those of what
is served. -/
inductive Labelled (registry : Registry κ ρ) : Count → Prop
  | unregistered : Labelled registry (.message "unregistered" .unknown)
  | message {name : ChannelName} {outcome : Count.Outcome} (served : .inl name ∈ registry.served)
      (known : outcome ≠ .unknown) : Labelled registry (.message name.text outcome)
  | request {name : RouteName} (served : .inr name ∈ registry.served) :
    Labelled registry (.request name.text)

namespace Tallied

variable {invocations : List (Invocation κ ρ)} {counts : List Count}

/-- What is counted has one of the labels there are. -/
theorem labelled (h : Tallied registry request invocations counts) :
    ∀ count ∈ counts, Labelled registry count := by
  intro count hmem
  cases h with
  | nothing => exact absurd hmem List.not_mem_nil
  | unknown =>
    rw [List.mem_singleton.mp hmem]
    exact .unregistered
  | malformed _ hserved =>
    rw [List.mem_singleton.mp hmem]
    exact .message hserved (by decide)
  | ran _ hhandler hcount =>
    rw [List.mem_singleton.mp hmem]
    have hserved := Registry.mem_served_of_handler? hhandler
    cases hcount with
    | ok => exact .message hserved (by decide)
    | failed => exact .message hserved (by decide)
    | request => exact .request hserved

/-- A counter of channels is moved by a message, once, and by nothing else. -/
theorem messages (h : Tallied registry request invocations counts) :
    counts.countP (·.counter = "dapp_client_channel_messages_total")
      = if request.IsMessage then 1 else 0 := by
  cases h with
  | nothing hnone => simp [hnone]
  | unknown hfor =>
    rw [if_pos ⟨_, hfor⟩]
    rfl
  | malformed hfor =>
    rw [if_pos ⟨_, hfor⟩]
    rfl
  | ran hfor _ hcount =>
    cases hcount with
    | ok =>
      rw [if_pos ⟨_, hfor⟩]
      rfl
    | failed =>
      rw [if_pos ⟨_, hfor⟩]
      rfl
    | request =>
      have hnone : ¬ request.IsMessage := by
        rintro ⟨other, hother⟩
        cases hfor.unique hother
      rw [if_neg hnone]
      rfl

variable [DecidableEq κ] [DecidableEq ρ] {handler : κ ⊕ ρ}

/-- The handler of what a request is for ran as often as its counters moved. -/
theorem runs_for {what : ChannelName ⊕ RouteName}
    (h : Tallied registry request invocations counts)
    (hhandler : registry.handler? what = some handler) :
    (if request.IsFor what then invocations.countP (·.handler = handler) else 0)
      = Count.runs counts what := by
  cases h with
  | nothing => simp
  | unknown => simp [Count.runs_of_refused]
  | malformed => simp [Count.runs_of_refused]
  | ran hfor hran hcount =>
    rw [hcount.runs]
    by_cases hwhat : request.IsFor what
    · obtain rfl := hfor.unique hwhat
      rw [hran] at hhandler
      simp [hwhat, Option.some.inj hhandler]
    · have hother : what ≠ _ := fun heq => hwhat (heq ▸ hfor)
      rw [if_neg hwhat, if_neg hother]

/-- A handler ran as often as the counters moved of all that it serves. -/
theorem runs_of (h : Tallied registry request invocations counts) :
    invocations.countP (·.handler = handler)
      = ∑ what ∈ registry.served with registry.handler? what = some handler,
          Count.runs counts what := by
  cases h with
  | nothing => simp
  | unknown => simp [Count.runs_of_refused]
  | malformed => simp [Count.runs_of_refused]
  | ran hfor hran hcount =>
    have hserved := Registry.mem_served_of_handler? hran
    simp only [hcount.runs, Finset.sum_ite_eq', Finset.mem_filter, hserved, hran, true_and,
      Option.some_inj, List.countP_singleton, decide_eq_true_eq]

end Tallied

end Dispatch
end MeshNode
