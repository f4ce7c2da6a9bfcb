/-
# The history of a registry

A registry is built by registrations, one after the other.  What its lookups find follows from
the history alone: the handler of the last registration under the name.

* `Registration` is one step, `Registry.ofHistory` the registry behind a list of steps;
* `channel?_ofHistory` and `route?_ofHistory`: the handler of a channel or a route is the last one
  that was registered for it.
-/
import MeshNode.Registry
import Mathlib.Data.List.Induction

namespace MeshNode

/-- One registration. -/
inductive Registration (κ ρ : Type)
  | channel (name : ChannelName) (handler : κ)
  | route (name : RouteName) (handler : ρ)

variable {κ ρ : Type}

namespace Registration

/-- The handler that a registration gives to a channel. -/
def channelHandler? (name : String) : Registration κ ρ → Option κ
  | .channel c handler => if c.text = name then some handler else none
  | .route _ _ => none

/-- The handler that a registration gives to a route, by its path without a leading separator. -/
def routeHandler? (path : String) : Registration κ ρ → Option ρ
  | .channel _ _ => none
  | .route r handler => if r.text = path then some handler else none

end Registration

namespace Registry

/-- The registry after a registration. -/
def register (r : Registry κ ρ) : Registration κ ρ → Registry κ ρ
  | .channel name handler => (r.registerChannel name handler).1
  | .route name handler => (r.registerRoute name handler).1

/-- The registry that a list of registrations builds. -/
def ofHistory (history : List (Registration κ ρ)) : Registry κ ρ := history.foldl register {}

theorem ofHistory_concat (history : List (Registration κ ρ)) (step : Registration κ ρ) :
    ofHistory (history ++ [step]) = (ofHistory history).register step := by
  rw [ofHistory, List.foldl_append]
  rfl

/-! ## 1. One registration -/

/-- **What one registration does** to the lookup of a channel. -/
theorem channel?_register (r : Registry κ ρ) (step : Registration κ ρ) (name : String) :
    (r.register step).channel? name = (step.channelHandler? name).or (r.channel? name) := by
  cases step with
  | channel c handler =>
    rw [register, channel?_registerChannel, Registration.channelHandler?]
    by_cases h : name = c.text
    · rw [if_pos h, if_pos h.symm]
      rfl
    · rw [if_neg h, if_neg (Ne.symm h)]
      rfl
  | route name handler => rfl

/-- What one registration does to the lookup of a route. -/
theorem route?_register (r : Registry κ ρ) (step : Registration κ ρ) (path : String) :
    (r.register step).route? path = (step.routeHandler? path).or (r.route? path) := by
  cases step with
  | channel name handler => rfl
  | route p handler =>
    rw [register, route?_registerRoute, Registration.routeHandler?]
    by_cases h : path = p.text
    · rw [if_pos h, if_pos h.symm]
      rfl
    · rw [if_neg h, if_neg (Ne.symm h)]
      rfl

/-! ## 2. A history -/

/-- **The last one wins.**  A lookup that every registration either overrides or leaves alone
finds, behind a history, what the last overriding registration gave. -/
theorem lookup_ofHistory {α : Type} (find : Registry κ ρ → Option α)
    (given : Registration κ ρ → Option α) (hempty : find {} = none)
    (hstep : ∀ r step, find (r.register step) = (given step).or (find r))
    (history : List (Registration κ ρ)) :
    find (ofHistory history) = (history.filterMap given).getLast? := by
  induction history using List.reverseRecOn with
  | nil => exact hempty
  | append_singleton history step ih =>
    rw [ofHistory_concat, hstep, ih, List.filterMap_append, List.getLast?_append]
    cases hs : given step with
    | none => rw [List.filterMap_cons_none hs, Option.none_or]; rfl
    | some handler => rw [List.filterMap_cons_some hs]; rfl

/-- **The handler of a channel** is the last one that was registered for it. -/
theorem channel?_ofHistory (history : List (Registration κ ρ)) (name : String) :
    (ofHistory history).channel? name
      = (history.filterMap (Registration.channelHandler? name)).getLast? :=
  lookup_ofHistory (fun r => r.channel? name) (Registration.channelHandler? name) rfl
    (fun r step => channel?_register r step name) history

/-- **The handler of a route** is the last one that was registered for it. -/
theorem route?_ofHistory (history : List (Registration κ ρ)) (path : String) :
    (ofHistory history).route? path
      = (history.filterMap (Registration.routeHandler? path)).getLast? :=
  lookup_ofHistory (fun r => r.route? path) (Registration.routeHandler? path) rfl
    (fun r step => route?_register r step path) history

end Registry
end MeshNode
