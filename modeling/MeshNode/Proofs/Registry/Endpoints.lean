/-
# The endpoints of a registry

A registry keeps its handlers in two dictionaries and its endpoints in a list, and changes them
apart.  Over a history they stay in step: an endpoint is listed if, and only if, a lookup finds a
handler for it.

* `Registration.served` is what a registration is for, `endpointOf` the path of that;
* `endpointOf_injective`: no two channels or routes share a path;
* `endpoints_register`: what one registration does to the list;
* `endpoints_ofHistory`, `nodup_endpoints` and `length_endpoints`: the list behind a history;
* `mem_endpoints_iff`, `channel_listed_iff`, `route_listed_iff`: the list agrees with the lookups.
-/
import MeshNode.Proofs.Registry.History
import Mathlib.Data.Finset.Sum

namespace MeshNode

variable {κ ρ : Type}

/-! ## 1. What is served, and where -/

/-- Membership in a list of channels and routes can be decided. -/
instance lawfulBEq_sum {α β : Type} [BEq α] [BEq β] [LawfulBEq α] [LawfulBEq β] :
    LawfulBEq (α ⊕ β) where
  eq_of_beq {a b} h := by
    cases a <;> cases b
    · exact congrArg Sum.inl (eq_of_beq h)
    · cases h
    · cases h
    · exact congrArg Sum.inr (eq_of_beq h)
  rfl {a} := by
    cases a with
    | inl a => exact beq_self_eq_true a
    | inr b => exact beq_self_eq_true b

/-- What a registration is for: a channel or a route. -/
def Registration.served : Registration κ ρ → ChannelName ⊕ RouteName
  | .channel name _ => .inl name
  | .route name _ => .inr name

/-- The path of a channel or a route. -/
def endpointOf : ChannelName ⊕ RouteName → String :=
  Sum.elim ChannelName.endpoint RouteName.endpoint

/-- The path of what a registration is for. -/
def Registration.endpoint (r : Registration κ ρ) : String := endpointOf r.served

theorem map_endpoint (history : List (Registration κ ρ)) :
    history.map Registration.endpoint = (history.map Registration.served).map endpointOf :=
  (List.map_map).symm

theorem ChannelName.endpoint_inj {c d : ChannelName} (h : c.endpoint = d.endpoint) : c = d := by
  obtain ⟨c⟩ := c
  obtain ⟨d⟩ := d
  rw [ChannelName.endpoint, ChannelName.endpoint, String.append_right_inj] at h
  exact congrArg ChannelName.mk h

theorem RouteName.endpoint_eq (r : RouteName) : r.endpoint = "/route/" ++ r.text := by
  rw [RouteName.endpoint, RouteName.key, ← String.append_assoc]
  rfl

theorem RouteName.endpoint_inj {r s : RouteName} (h : r.endpoint = s.endpoint) : r = s := by
  obtain ⟨r⟩ := r
  obtain ⟨s⟩ := s
  rw [RouteName.endpoint_eq, RouteName.endpoint_eq, String.append_right_inj] at h
  exact congrArg RouteName.mk h

/-- The paths of channels and those of routes differ in their second character. -/
theorem ChannelName.endpoint_ne (c : ChannelName) (r : RouteName) : c.endpoint ≠ r.endpoint := by
  intro h
  have hchars := congrArg String.toList h
  simp [ChannelName.endpoint, RouteName.endpoint, RouteName.key] at hchars

/-- **No two channels or routes share a path.** -/
theorem endpointOf_injective : Function.Injective endpointOf := by
  rintro (c | r) (d | s) h
  · exact congrArg Sum.inl (ChannelName.endpoint_inj h)
  · exact absurd h (c.endpoint_ne s)
  · exact absurd h.symm (d.endpoint_ne r)
  · exact congrArg Sum.inr (RouteName.endpoint_inj h)

namespace Registry

/-! ## 2. One registration -/

/-- Whether a lookup finds a handler for a channel or a route. -/
def serves (r : Registry κ ρ) : ChannelName ⊕ RouteName → Bool
  | .inl name => (r.channel? name.text).isSome
  | .inr name => (r.route? name.text).isSome

/-- What is served behind a registration: what was served before, and what it is for. -/
theorem serves_register (r : Registry κ ρ) (step : Registration κ ρ)
    (what : ChannelName ⊕ RouteName) :
    (r.register step).serves what = true ↔ step.served = what ∨ r.serves what = true := by
  rcases what with name | name
  · rw [serves, serves, channel?_register, Option.isSome_or, Bool.or_eq_true]
    refine or_congr_left ?_
    cases step with
    | channel c handler =>
      by_cases h : c.text = name.text
      · have hname : c = name := by cases c; cases name; exact congrArg ChannelName.mk h
        simp [Registration.channelHandler?, Registration.served, hname]
      · have hname : c ≠ name := fun heq => h (congrArg ChannelName.text heq)
        simp [Registration.channelHandler?, Registration.served, h, hname]
    | route p handler => simp [Registration.channelHandler?, Registration.served]
  · rw [serves, serves, route?_register, Option.isSome_or, Bool.or_eq_true]
    refine or_congr_left ?_
    cases step with
    | channel c handler => simp [Registration.routeHandler?, Registration.served]
    | route p handler =>
      by_cases h : p.text = name.text
      · have hname : p = name := by cases p; cases name; exact congrArg RouteName.mk h
        simp [Registration.routeHandler?, Registration.served, hname]
      · have hname : p ≠ name := fun heq => h (congrArg RouteName.text heq)
        simp [Registration.routeHandler?, Registration.served, h, hname]

/-- What one registration does to the list of endpoints. -/
theorem endpoints_register (r : Registry κ ρ) (step : Registration κ ρ) :
    (r.register step).endpoints
      = if r.serves step.served then r.endpoints else r.endpoints ++ [step.endpoint] := by
  cases step with
  | channel name handler =>
    rw [register, registerChannel, Registration.served, serves]
    cases r.channel? name.text <;> rfl
  | route name handler =>
    rw [register, registerRoute, Registration.served, serves]
    cases r.route? name.text <;> rfl

/-! ## 3. A history -/

/-- **What is served behind a history** is what its registrations are for. -/
theorem serves_ofHistory (history : List (Registration κ ρ)) (what : ChannelName ⊕ RouteName) :
    (ofHistory history).serves what = true ↔ what ∈ history.map Registration.served := by
  induction history using List.reverseRecOn with
  | nil =>
    rcases what with name | name <;>
      simp [ofHistory, serves, channel?, route?, Dictionary.get?]
  | append_singleton history step ih =>
    rw [ofHistory_concat, serves_register, ih, List.map_append, List.mem_append, List.map_singleton,
      List.mem_singleton, or_comm, eq_comm]

/-- One more text in front of which the repeats are left out. -/
theorem eraseDups_concat (l : List String) (s : String) :
    (l ++ [s]).eraseDups = if s ∈ l then l.eraseDups else l.eraseDups ++ [s] := by
  have hone : [s].eraseDups = [s] := by rw [List.eraseDups_cons]; rfl
  rw [List.eraseDups_append]
  by_cases h : s ∈ l <;> simp [List.removeAll, h, hone]

/-- **The endpoints behind a history** are those of its registrations in their order, each in its
first place. -/
theorem endpoints_ofHistory (history : List (Registration κ ρ)) :
    (ofHistory history).endpoints = (history.map Registration.endpoint).eraseDups := by
  induction history using List.reverseRecOn with
  | nil => rfl
  | append_singleton history step ih =>
    have hmem : step.endpoint ∈ history.map Registration.endpoint
        ↔ (ofHistory history).serves step.served = true := by
      rw [serves_ofHistory, map_endpoint, Registration.endpoint,
        List.mem_map_of_injective endpointOf_injective]
    rw [ofHistory_concat, endpoints_register, List.map_append, List.map_singleton, eraseDups_concat,
      ih]
    by_cases h : (ofHistory history).serves step.served = true
    · rw [if_pos h, if_pos (hmem.mpr h)]
    · rw [if_neg h, if_neg (mt hmem.mp h)]

/-- **An endpoint is listed if something is served there.** -/
theorem mem_endpoints_iff (history : List (Registration κ ρ)) (what : ChannelName ⊕ RouteName) :
    endpointOf what ∈ (ofHistory history).endpoints ↔ (ofHistory history).serves what = true := by
  rw [endpoints_ofHistory, List.mem_eraseDups, serves_ofHistory, map_endpoint,
    List.mem_map_of_injective endpointOf_injective]

/-- A channel is listed if a lookup finds a handler for it. -/
theorem channel_listed_iff (history : List (Registration κ ρ)) (name : String) :
    "/channel/" ++ name ∈ (ofHistory history).endpoints
      ↔ ((ofHistory history).channel? name).isSome = true :=
  mem_endpoints_iff history (.inl ⟨name⟩)

/-- A route is listed if a lookup finds a handler for it. -/
theorem route_listed_iff (history : List (Registration κ ρ)) (path : String) :
    "/route/" ++ path ∈ (ofHistory history).endpoints
      ↔ ((ofHistory history).route? path).isSome = true := by
  rw [← RouteName.endpoint_eq ⟨path⟩]
  exact mem_endpoints_iff history (.inr ⟨path⟩)

/-- A channel that is listed is served by the last handler registered for it. -/
theorem last_of_channel_listed {history : List (Registration κ ρ)} {name : String}
    (h : "/channel/" ++ name ∈ (ofHistory history).endpoints) :
    ∃ handler, (ofHistory history).channel? name = some handler ∧
      (history.filterMap (Registration.channelHandler? name)).getLast? = some handler := by
  rw [channel_listed_iff, Option.isSome_iff_exists] at h
  obtain ⟨handler, hhandler⟩ := h
  exact ⟨handler, hhandler, by rw [← channel?_ofHistory, hhandler]⟩

/-- A route that is listed is served by the last handler registered for it. -/
theorem last_of_route_listed {history : List (Registration κ ρ)} {path : String}
    (h : "/route/" ++ path ∈ (ofHistory history).endpoints) :
    ∃ handler, (ofHistory history).route? path = some handler ∧
      (history.filterMap (Registration.routeHandler? path)).getLast? = some handler := by
  rw [route_listed_iff, Option.isSome_iff_exists] at h
  obtain ⟨handler, hhandler⟩ := h
  exact ⟨handler, hhandler, by rw [← route?_ofHistory, hhandler]⟩

/-- Whatever is listed is a channel or a route for which something was registered. -/
theorem exists_of_mem_endpoints {history : List (Registration κ ρ)} {entry : String}
    (h : entry ∈ (ofHistory history).endpoints) : ∃ step ∈ history, step.endpoint = entry := by
  rw [endpoints_ofHistory, List.mem_eraseDups] at h
  exact List.mem_map.mp h

/-- **No endpoint is listed twice.** -/
theorem nodup_endpoints (history : List (Registration κ ρ)) :
    (ofHistory history).endpoints.Nodup := by
  induction history using List.reverseRecOn with
  | nil => exact List.nodup_nil
  | append_singleton history step ih =>
    rw [ofHistory_concat, endpoints_register]
    by_cases h : (ofHistory history).serves step.served = true
    · rw [if_pos h]
      exact ih
    · rw [if_neg h]
      refine List.nodup_append'.mpr ⟨ih, List.nodup_singleton _, ?_⟩
      rw [List.disjoint_singleton]
      exact mt (mem_endpoints_iff history step.served).mp h

/-- **There are as many endpoints as channels and routes.** -/
theorem length_endpoints (history : List (Registration κ ρ)) :
    (ofHistory history).endpoints.length
      = (history.filterMap fun r => r.served.getLeft?).toFinset.card
        + (history.filterMap fun r => r.served.getRight?).toFinset.card := by
  have hleft : (history.map Registration.served).toFinset.toLeft
      = (history.filterMap fun r => r.served.getLeft?).toFinset := by
    ext name
    simp [Sum.getLeft?_eq_some_iff]
  have hright : (history.map Registration.served).toFinset.toRight
      = (history.filterMap fun r => r.served.getRight?).toFinset := by
    ext name
    simp [Sum.getRight?_eq_some_iff]
  have hfinset : (ofHistory history).endpoints.toFinset
      = (history.map Registration.served).toFinset.image endpointOf := by
    ext path
    rw [endpoints_ofHistory, map_endpoint]
    simp
  rw [← List.toFinset_card_of_nodup (nodup_endpoints history), hfinset,
    Finset.card_image_of_injective _ endpointOf_injective, ← Finset.card_toLeft_add_card_toRight,
    hleft, hright]

end Registry
end MeshNode
