/-
# How a message ends

A message whose name can be read and whose size is allowed ends in one of four ways, and each of
them says everything that can be seen: the answer, what ran, what was counted and what was logged.
The four exclude one another.

* `PostedTo` says that a request is a message to the channel with an escaped name;
* `Ends` are the four ways, with all that is seen of them;
* `dispatchChannel_unreadable`, `dispatchChannel_tooLong`: a message that ends before any of them;
* `exists_ends` and `Ends.unique`: every other message ends in exactly one of them;
* `message_outcome`: all messages.
-/
import MeshNode.Proofs.Dispatch.Channel
import Mathlib.Logic.ExistsUnique

namespace MeshNode

/-- A request is a POST to the path of the channel with the escaped name `segment`, which is one
segment and not empty. -/
structure Inbound.PostedTo (request : Inbound) (segment : List Char) : Prop where
  method : request.method = .post
  path : request.target.path.toList = "/channel/".toList ++ segment
  filled : segment ≠ []
  single : '/' ∉ segment

namespace Dispatch

open Url.Percent

variable {κ ρ σ : Type}

/-! ## 1. The four ends -/

/-- The answer to a message that a handler did not take: a JSON object that says what kind of error
it was, and nothing about its cause. -/
def refusal (status : Nat) (text : String) : Response :=
  .ofJson ⟨status⟩ (.obj [("error", .str text)])

/-- **The ends of a message** to the channel `name`, as they are counted, with all that is seen.
The channel is unknown; or its message is malformed; or its handler ran, once, on the payload, and
did its work; or it ran and failed, by an error or by breaking down. -/
inductive Ends (behavior : Behavior κ ρ σ) (registry : Registry κ ρ) (name : String) (body : Bytes)
    (state : σ) : Count.Outcome → Dispatched κ ρ σ → Prop
  | unknown (hunknown : registry.channel? name = none) :
    Ends behavior registry name body state .unknown
      { answer := .response (refusal 404 "No handler registered")
        state := state
        invocations := []
        counts := [.message "unregistered" .unknown]
        logs := [⟨.warn, "no handler registered", [("error", "Channel not found: " ++ name)]⟩] }
  | malformed {handler : κ} {e : Json.Error} (hhandler : registry.channel? name = some handler)
      (hbody : Envelope.ofBytes body = .error e) :
    Ends behavior registry name body state .malformed
      { answer := .response (refusal 400 "Malformed message")
        state := state
        invocations := []
        counts := [.message name .malformed]
        logs := [⟨.warn, "rejecting message",
          [("error", "Malformed envelope on channel " ++ name ++ ": " ++ e.message)]⟩] }
  | ok {handler : κ} {d : Json} {after : σ} (hhandler : registry.channel? name = some handler)
      (hbody : Envelope.ofBytes body = .ok ⟨d⟩)
      (hdone : behavior.channel handler d state = (.done, after)) :
    Ends behavior registry name body state .ok
      { answer := .response { status := ⟨200⟩, headers := [], body := [] }
        state := after
        invocations := [.channel handler d]
        counts := [.message name .ok]
        logs := [] }
  | failed {handler : κ} {d : Json} {after : σ} {cause : HandlerError}
      (hhandler : registry.channel? name = some handler) (hbody : Envelope.ofBytes body = .ok ⟨d⟩)
      (hfailed : behavior.channel handler d state = (.failed cause, after)) :
    Ends behavior registry name body state .failed
      { answer := .response (refusal 500 "Error handling message")
        state := after
        invocations := [.channel handler d]
        counts := [.message name .failed]
        logs := [⟨.error, "channel handler failed",
          [("error", "Handler for channel " ++ name ++ " failed: " ++ cause.message)]⟩] }
  | panicked {handler : κ} {d : Json} {after : σ} {cause : Panic}
      (hhandler : registry.channel? name = some handler) (hbody : Envelope.ofBytes body = .ok ⟨d⟩)
      (hpanicked : behavior.channel handler d state = (.panicked cause, after)) :
    Ends behavior registry name body state .failed
      { answer := .response (refusal 500 "Error handling message")
        state := after
        invocations := [.channel handler d]
        counts := [.message name .failed]
        logs := [⟨.error, "channel handler failed",
          [("error", "Handler for channel " ++ name ++ " failed: "
            ++ ("handler panicked: " ++ cause.text?.getD "unknown panic payload"))]⟩] }

variable {behavior : Behavior κ ρ σ} {registry : Registry κ ρ} {name : String} {body : Bytes}
  {state : σ}

/-- Each end moves one counter, by one, under its own label. -/
theorem Ends.counts {outcome : Count.Outcome} {d : Dispatched κ ρ σ}
    (h : Ends behavior registry name body state outcome d) :
    ∃ channel, d.counts = [.message channel outcome] := by
  cases h with
  | unknown => exact ⟨_, rfl⟩
  | malformed => exact ⟨_, rfl⟩
  | ok => exact ⟨_, rfl⟩
  | failed => exact ⟨_, rfl⟩
  | panicked => exact ⟨_, rfl⟩

/-- No two outcomes share a label. -/
theorem label_injective : Function.Injective Count.Outcome.label := by
  intro outcome outcome' h
  cases outcome <;> cases outcome' <;> simp_all [Count.Outcome.label]

/-- **The ends exclude one another.** -/
theorem Ends.unique {outcome outcome' : Count.Outcome} {d : Dispatched κ ρ σ}
    (h : Ends behavior registry name body state outcome d)
    (h' : Ends behavior registry name body state outcome' d) : outcome = outcome' := by
  obtain ⟨channel, hcounts⟩ := h.counts
  obtain ⟨channel', hcounts'⟩ := h'.counts
  rw [hcounts] at hcounts'
  simp only [Count.message, List.cons.injEq, Count.mk.injEq, Prod.mk.injEq, true_and, and_true]
    at hcounts'
  exact label_injective hcounts'.2

/-! ## 2. Every message -/

theorem dispatch_posted {request : Inbound} {segment : List Char} (h : request.PostedTo segment) :
    dispatch behavior registry request state
      = dispatchChannel behavior registry (String.ofList segment) request.body state :=
  dispatch_post h.method (Endpoint.ofPath?_channel h.path h.filled h.single)

/-- A message to a channel with a handler runs it, on the payload, and nothing else. -/
theorem invocations_of_envelope {request : Inbound} {segment : List Char} {handler : κ}
    {e : Envelope} (hposted : request.PostedTo segment)
    (hname : decodeText? (String.ofList segment) = some name)
    (hlength : request.body.length ≤ bodyLimit) (hhandler : registry.channel? name = some handler)
    (hbody : Envelope.ofBytes request.body = .ok e) :
    (dispatch behavior registry request state).invocations = [.channel handler e.data] := by
  rw [dispatch_posted hposted]
  exact (dispatchChannel_handled hname hlength hhandler hbody).1

/-- A message with a name that spells no text ends there. -/
theorem dispatchChannel_unreadable {segment : String} (hname : decodeText? segment = none) :
    dispatchChannel behavior registry segment body state
      = unhandled (unreadableName "name") state := by
  rw [dispatchChannel, hname]

/-- A message beyond the size limit ends before its channel is looked up. -/
theorem dispatchChannel_tooLong {segment : String} (hname : decodeText? segment = some name)
    (hlength : bodyLimit < body.length) :
    dispatchChannel behavior registry segment body state = unhandled bodyTooLong state := by
  rw [dispatchChannel, hname]
  exact if_pos hlength

/-- What happens to a message to a channel without a handler, whatever its body is. -/
theorem dispatchChannel_unknown {segment : String} (hname : decodeText? segment = some name)
    (hlength : body.length ≤ bodyLimit) (hunknown : registry.channel? name = none) :
    dispatchChannel behavior registry segment body state
      = failed (.unknownChannel name) [.message Count.unregistered .unknown] [] state := by
  rw [dispatchChannel, hname]
  dsimp only
  rw [if_neg (Nat.not_lt.mpr hlength), hunknown]

/-- A message with a handler ends as its handler ends. -/
theorem ends_of_run {segment : String} {handler : κ} {data : Json}
    (hname : decodeText? segment = some name) (hlength : body.length ≤ bodyLimit)
    (hhandler : registry.channel? name = some handler)
    (hbody : Envelope.ofBytes body = .ok ⟨data⟩) :
    ∃ outcome, Ends behavior registry name body state outcome
      (dispatchChannel behavior registry segment body state) := by
  rw [dispatchChannel_run hname hlength hhandler hbody]
  cases hrun : behavior.channel handler data state with
  | mk outcome after =>
    cases outcome with
    | done => exact ⟨.ok, .ok hhandler hbody hrun⟩
    | failed cause => exact ⟨.failed, .failed hhandler hbody hrun⟩
    | panicked cause => exact ⟨.failed, .panicked hhandler hbody hrun⟩

/-- **Every other message ends in one of the four ways.** -/
theorem exists_ends {segment : String} (hname : decodeText? segment = some name)
    (hlength : body.length ≤ bodyLimit) :
    ∃ outcome, Ends behavior registry name body state outcome
      (dispatchChannel behavior registry segment body state) := by
  cases hhandler : registry.channel? name with
  | none =>
    refine ⟨.unknown, ?_⟩
    rw [dispatchChannel_unknown hname hlength hhandler]
    exact .unknown hhandler
  | some handler =>
    cases hbody : Envelope.ofBytes body with
    | error e =>
      refine ⟨.malformed, ?_⟩
      rw [dispatchChannel_malformed hname hlength hhandler hbody]
      exact .malformed hhandler hbody
    | ok envelope => exact ends_of_run hname hlength hhandler hbody

/-- **The outcome of every message.**  Whatever the handlers of a node do, a POST to the path of a
channel, with any segment and any body:
ends with nothing run, counted or logged if the segment spells no text or the body is beyond the
limit;
and otherwise ends in exactly one of the four ways, each of which moves one counter by one. -/
theorem message_outcome (behavior : Behavior κ ρ σ) (registry : Registry κ ρ) (state : σ)
    {request : Inbound} {segment : List Char} (h : request.PostedTo segment) :
    let d := dispatch behavior registry request state
    (decodeText? (String.ofList segment) = none ∨ 2 * 1024 * 1024 < request.body.length →
      d.invocations = [] ∧ d.counts = [] ∧ d.logs = [] ∧ d.state = state) ∧
    ∀ name, decodeText? (String.ofList segment) = some name →
      request.body.length ≤ 2 * 1024 * 1024 →
      ∃! outcome, Ends behavior registry name request.body state outcome d := by
  intro d
  have hd : d = dispatchChannel behavior registry (String.ofList segment) request.body state :=
    dispatch_posted h
  constructor
  · intro hrefused
    cases hname : decodeText? (String.ofList segment) with
    | none =>
      rw [hd, dispatchChannel_unreadable hname]
      exact ⟨rfl, rfl, rfl, rfl⟩
    | some name =>
      rcases hrefused with hnone | hlength
      · rw [hname] at hnone
        cases hnone
      · rw [hd, dispatchChannel_tooLong hname hlength]
        exact ⟨rfl, rfl, rfl, rfl⟩
  · intro name hname hlength
    obtain ⟨outcome, hends⟩ := exists_ends hname hlength
    rw [← hd] at hends
    exact ⟨outcome, hends, fun other hother => hother.unique hends⟩

/-- A message under an escaped name, to a handler that breaks down. -/
theorem breakdown_outcome :
    let behavior : Behavior Nat Nat Nat :=
      ⟨fun _ _ n => (.panicked (.text "boom"), n + 1), fun _ _ n => (.panicked .other, n)⟩
    let registry : Registry Nat Nat := (({} : Registry Nat Nat).registerChannel ⟨"a b"⟩ 7).1
    let request : Inbound := ⟨.post, ⟨"", "/channel/a%20b", none⟩, [], Envelope.write ⟨.int 1⟩⟩
    request.PostedTo "a%20b".toList ∧
      ∃! outcome, Ends behavior registry "a b" request.body 0 outcome
        (dispatch behavior registry request 0) := by
  intro behavior registry request
  have hposted : request.PostedTo "a%20b".toList := ⟨rfl, by decide, by decide, by decide⟩
  have hname : decodeText? (String.ofList "a%20b".toList) = some "a b" := by decide +kernel
  have hlength : request.body.length ≤ 2 * 1024 * 1024 := by decide +kernel
  exact ⟨hposted, (message_outcome behavior registry 0 hposted).2 "a b" hname hlength⟩

end Dispatch
end MeshNode
