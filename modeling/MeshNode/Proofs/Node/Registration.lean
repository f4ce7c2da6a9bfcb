/-
# Registrations on a node

A node takes registrations under any text and refuses a text that is no name.  What its registry
holds after any number of calls follows from those that were accepted, and from their order.

* `Call` is a call, `Call.registration?` the registration it stands for if its text is a name;
* `perform_accepted` and `perform_refused`: what one call does;
* `performAll_registry` and `performAll_logs`: what a list of calls does;
* `registry_refines_history`: lookups, endpoints and log of a new node behind any list of calls.
-/
import MeshNode.Node.Basic
import MeshNode.Proofs.Name
import MeshNode.Proofs.Registry.Endpoints

namespace MeshNode

variable {κ ρ : Type}

/-- What is logged when a registration takes the place of an earlier one: a warning that names
the endpoint. -/
def Registration.replacement : Registration κ ρ → LogEvent
  | .channel name _ =>
    ⟨.warn, "channel handler replaced by a later registration",
      [("endpoint", "/channel/" ++ name.text)]⟩
  | .route name _ =>
    ⟨.warn, "route handler replaced by a later registration",
      [("endpoint", "/route/" ++ name.text)]⟩

/-- What is logged over a history, behind registrations for what is in `earlier`: one warning for
each registration that takes the place of another. -/
def replacements (earlier : List (ChannelName ⊕ RouteName)) :
    List (Registration κ ρ) → List LogEvent
  | [] => []
  | r :: rest =>
    (if r.served ∈ earlier then [r.replacement] else []) ++
      replacements (earlier ++ [r.served]) rest

namespace Node

/-! ## 1. Calls -/

/-- A call that registers a handler, under a text that may be no name. -/
inductive Call (κ ρ : Type)
  | channel (name : String) (handler : κ)
  | route (path : String) (handler : ρ)

namespace Call

/-- The registration that a call stands for.  There is none for a blank name, nor for a channel
with a separator in its name; a route loses one leading separator. -/
def registration? : Call κ ρ → Option (Registration κ ρ)
  | .channel name handler =>
    if Text.isBlank name = true ∨ '/' ∈ name.toList then none else some (.channel ⟨name⟩ handler)
  | .route path handler =>
    if Text.isBlank (dropLeadingSlash path) = true then none
    else some (.route ⟨dropLeadingSlash path⟩ handler)

/-- Whether a call is for a channel. -/
def isChannel : Call κ ρ → Bool
  | .channel _ _ => true
  | .route _ _ => false

end Call

/-- What a call comes to. -/
def attempt (n : Node κ ρ) : Call κ ρ → Except NodeError (Node κ ρ × List LogEvent)
  | .channel name handler => n.handleChannel name handler
  | .route path handler => n.handleRoute path handler

/-- The node after a call, and what was logged.  A call that fails gives no new node. -/
def perform (n : Node κ ρ) (call : Call κ ρ) : Node κ ρ × List LogEvent :=
  match n.attempt call with
  | .ok done => done
  | .error _ => (n, [])

/-- The node after a list of calls, and what was logged. -/
def performAll (n : Node κ ρ) : List (Call κ ρ) → Node κ ρ × List LogEvent
  | [] => (n, [])
  | call :: calls =>
    let (n, logs) := n.perform call
    let (n, more) := n.performAll calls
    (n, logs ++ more)

/-! ## 2. One call -/

/-- A call is refused if it stands for no registration. -/
theorem attempt_refused (n : Node κ ρ) {call : Call κ ρ} (h : call.registration? = none) :
    ∃ e, n.attempt call = .error e := by
  cases call with
  | channel name handler =>
    have hnot : ¬ (Text.isBlank name = false ∧ '/' ∉ name.toList) := by
      rintro ⟨hblank, hslash⟩
      rw [Call.registration?, if_neg (by simp [hblank, hslash])] at h
      cases h
    cases hname : ChannelName.ofString? name with
    | error e => exact ⟨.name e, by rw [attempt, handleChannel, hname]⟩
    | ok c => exact absurd (ChannelName.isOk_ofString?.mp (by rw [hname]; rfl)) hnot
  | route path handler =>
    have hblank : Text.isBlank (dropLeadingSlash path) = true := by
      by_contra hblank
      rw [Call.registration?, if_neg hblank] at h
      cases h
    exact ⟨.name .empty, by rw [attempt, handleRoute, RouteName.ofString?, if_pos hblank]⟩

/-- What a node does with a registration for a channel. -/
theorem registered_channel (n : Node κ ρ) (name : ChannelName) (handler : κ) :
    n.registered (n.registry.registerChannel name handler)
      = ({ n with registry := n.registry.register (.channel name handler) },
          if n.registry.serves (.inl name)
          then [(Registration.channel name handler : Registration κ ρ).replacement] else []) := by
  refine Prod.ext rfl ?_
  rw [registered, Registry.registerChannel, Registry.serves]
  cases n.registry.channel? name.text <;> rfl

/-- What a node does with a registration for a route. -/
theorem registered_route (n : Node κ ρ) (route : RouteName) (handler : ρ) :
    n.registered (n.registry.registerRoute route handler)
      = ({ n with registry := n.registry.register (.route route handler) },
          if n.registry.serves (.inr route)
          then [(Registration.route route handler : Registration κ ρ).replacement] else []) := by
  refine Prod.ext rfl ?_
  rw [registered, Registry.registerRoute, Registry.serves]
  cases n.registry.route? route.text <;> rfl

/-- A call that stands for a registration is accepted: it registers, and it warns if something
was served there. -/
theorem attempt_accepted (n : Node κ ρ) {call : Call κ ρ} {r : Registration κ ρ}
    (h : call.registration? = some r) :
    n.attempt call = .ok ({ n with registry := n.registry.register r },
      if n.registry.serves r.served then [r.replacement] else []) := by
  cases call with
  | channel name handler =>
    by_cases hname : Text.isBlank name = true ∨ '/' ∈ name.toList
    · rw [Call.registration?, if_pos hname] at h
      cases h
    · rw [Call.registration?, if_neg hname] at h
      cases h
      rw [not_or, Bool.not_eq_true] at hname
      have hok := ChannelName.ofString?_of_isOk (ChannelName.isOk_ofString?.mpr hname)
      rw [attempt, handleChannel, hok]
      exact congrArg Except.ok (registered_channel n ⟨name⟩ handler)
  | route path handler =>
    by_cases hblank : Text.isBlank (dropLeadingSlash path) = true
    · rw [Call.registration?, if_pos hblank] at h
      cases h
    · rw [Call.registration?, if_neg hblank] at h
      cases h
      rw [attempt, handleRoute, RouteName.ofString?, if_neg hblank]
      exact congrArg Except.ok (registered_route n ⟨dropLeadingSlash path⟩ handler)

/-- **A refused call changes nothing**, and nothing is logged. -/
theorem perform_refused (n : Node κ ρ) {call : Call κ ρ} (h : call.registration? = none) :
    n.perform call = (n, []) := by
  obtain ⟨e, he⟩ := n.attempt_refused h
  rw [perform, he]

/-- **An accepted call** registers a handler. -/
theorem perform_accepted (n : Node κ ρ) {call : Call κ ρ} {r : Registration κ ρ}
    (h : call.registration? = some r) :
    n.perform call = ({ n with registry := n.registry.register r },
      if n.registry.serves r.served then [r.replacement] else []) := by
  rw [perform, n.attempt_accepted h]

/-! ## 3. A list of calls -/

/-- **A list of calls** registers what its accepted calls stand for, in their order. -/
theorem performAll_registry : ∀ (calls : List (Call κ ρ)) (n : Node κ ρ),
    (n.performAll calls).1.registry
      = (calls.filterMap Call.registration?).foldl Registry.register n.registry
  | [], n => rfl
  | call :: calls, n => by
    have ih := performAll_registry calls (n.perform call).1
    rw [performAll]
    dsimp only
    rw [ih]
    cases h : call.registration? with
    | none => rw [List.filterMap_cons_none h, n.perform_refused h]
    | some r => rw [List.filterMap_cons_some h, n.perform_accepted h, List.foldl_cons]

/-- What a list of calls logs, on a node whose registry has a history. -/
theorem performAll_logs : ∀ (calls : List (Call κ ρ)) (n : Node κ ρ)
    (history : List (Registration κ ρ)), n.registry = Registry.ofHistory history →
    (n.performAll calls).2
      = replacements (history.map Registration.served) (calls.filterMap Call.registration?)
  | [], n, history, _ => rfl
  | call :: calls, n, history, hn => by
    rw [performAll]
    dsimp only
    cases h : call.registration? with
    | none =>
      have ih := performAll_logs calls n history hn
      rw [List.filterMap_cons_none h, n.perform_refused h, List.nil_append, ih]
    | some r =>
      have hnext : n.registry.register r = Registry.ofHistory (history ++ [r]) := by
        rw [Registry.ofHistory_concat, hn]
      have ih := performAll_logs calls { n with registry := n.registry.register r } _ hnext
      have hserved : n.registry.serves r.served = true
          ↔ r.served ∈ history.map Registration.served := by
        rw [hn, Registry.serves_ofHistory]
      rw [List.filterMap_cons_some h, n.perform_accepted h, ih, replacements, List.map_append,
        List.map_singleton]
      simp only [hserved]

/-- The registry of a new node behind a list of calls has the history of the accepted ones. -/
theorem ofConfig_performAll (config : SidecarConfig) (calls : List (Call κ ρ)) :
    ((ofConfig config : Node κ ρ).performAll calls).1.registry
      = Registry.ofHistory (calls.filterMap Call.registration?) :=
  performAll_registry calls (ofConfig config)

/-- Calls for routes give no channel a handler. -/
theorem channelHandlers_filter (calls : List (Call κ ρ)) (c : String) :
    ((calls.filter Call.isChannel).filterMap Call.registration?).filterMap
        (Registration.channelHandler? c)
      = (calls.filterMap Call.registration?).filterMap (Registration.channelHandler? c) := by
  rw [List.filterMap_filter, List.filterMap_filterMap, List.filterMap_filterMap]
  refine List.filterMap_congr fun call _ => ?_
  cases call with
  | channel name handler => rfl
  | route path handler =>
    have hother : (Call.route path handler : Call κ ρ).registration?.bind
        (Registration.channelHandler? c) = none := by
      rw [Call.registration?]
      split <;> rfl
    exact hother.symm

/-- Calls for channels give no route a handler. -/
theorem routeHandlers_filter (calls : List (Call κ ρ)) (p : String) :
    ((calls.filter fun call => !call.isChannel).filterMap Call.registration?).filterMap
        (Registration.routeHandler? p)
      = (calls.filterMap Call.registration?).filterMap (Registration.routeHandler? p) := by
  rw [List.filterMap_filter, List.filterMap_filterMap, List.filterMap_filterMap]
  refine List.filterMap_congr fun call _ => ?_
  cases call with
  | channel name handler =>
    have hother : (Call.channel name handler : Call κ ρ).registration?.bind
        (Registration.routeHandler? p) = none := by
      rw [Call.registration?]
      split <;> rfl
    exact hother.symm
  | route path handler => rfl

/-- **The registry of a node refines the history of its calls.**  Behind any list of calls on a
new node:
a call that comes next is refused, and changes and logs nothing, if its name is blank or, for a
channel, has a separator, and is accepted otherwise;
the handler of a channel, and of a path of a route, is that of the last accepted call for it, and
calls for routes do not matter to channels, nor the other way round;
the endpoints are those of the accepted calls, each in its first place, no two the same, as many
as there are different channels and different routes among them;
and what was logged is one warning for each accepted call that took the place of another. -/
theorem registry_refines_history (config : SidecarConfig) (calls : List (Call κ ρ)) :
    let start : Node κ ρ := ofConfig config
    let node := (start.performAll calls).1
    let accepted := calls.filterMap Call.registration?
    (∀ call : Call κ ρ, match call.registration? with
      | none => (∃ e, node.attempt call = .error e) ∧ node.perform call = (node, [])
      | some _ => node.attempt call = .ok (node.perform call)) ∧
    (∀ c, node.registry.channel? c
      = (accepted.filterMap (Registration.channelHandler? c)).getLast?) ∧
    (∀ p, node.registry.route? p
      = (accepted.filterMap (Registration.routeHandler? p)).getLast?) ∧
    (∀ c, node.registry.channel? c
      = (start.performAll (calls.filter Call.isChannel)).1.registry.channel? c) ∧
    (∀ p, node.registry.route? p
      = (start.performAll (calls.filter fun call => !call.isChannel)).1.registry.route? p) ∧
    node.registry.endpoints = (accepted.map Registration.endpoint).eraseDups ∧
    node.registry.endpoints.Nodup ∧
    node.registry.endpoints.length
      = (accepted.filterMap fun r => r.served.getLeft?).toFinset.card
        + (accepted.filterMap fun r => r.served.getRight?).toFinset.card ∧
    (start.performAll calls).2 = replacements [] accepted := by
  intro start node accepted
  have hregistry : node.registry = Registry.ofHistory accepted := ofConfig_performAll config calls
  have hchannel : ∀ c, node.registry.channel? c
      = (accepted.filterMap (Registration.channelHandler? c)).getLast? := fun c => by
    rw [hregistry, Registry.channel?_ofHistory]
  have hroute : ∀ p, node.registry.route? p
      = (accepted.filterMap (Registration.routeHandler? p)).getLast? := fun p => by
    rw [hregistry, Registry.route?_ofHistory]
  refine ⟨?_, hchannel, hroute, ?_, ?_, ?_, ?_, ?_, ?_⟩
  · intro call
    cases h : call.registration? with
    | none => exact ⟨node.attempt_refused h, node.perform_refused h⟩
    | some r => rw [node.attempt_accepted h, node.perform_accepted h]
  · intro c
    rw [hchannel, ofConfig_performAll, Registry.channel?_ofHistory, channelHandlers_filter]
  · intro p
    rw [hroute, ofConfig_performAll, Registry.route?_ofHistory, routeHandlers_filter]
  · rw [hregistry, Registry.endpoints_ofHistory]
  · rw [hregistry]
    exact Registry.nodup_endpoints accepted
  · rw [hregistry, Registry.length_endpoints]
  · exact performAll_logs calls start [] rfl

end Node
end MeshNode
