/-
# Messages that come in

A POST to the path of a channel is a message.  Where its name can be read, its size is allowed,
the channel has a handler and the body is an envelope, that handler runs, on the payload, and
the answer follows from how it ends.

* `ofPath?_channel`: which path is that of a channel;
* `dispatch_post`: a message goes to its channel;
* `dispatchChannel_run` and `dispatchChannel_handled`: the handler that runs, and the answer;
* `dispatchChannel_invocations`: what runs, whatever the body is.
-/
import MeshNode.Dispatch.Basic

namespace MeshNode

/-! ## 1. The path of a channel -/

theorem dropFront?_append : ∀ front rest : List Char, dropFront? front (front ++ rest) = some rest
  | [], rest => rfl
  | c :: front, rest => by
    have ih := dropFront?_append front rest
    rw [List.cons_append, dropFront?, if_pos rfl, ih]

/-- **The path of a channel** has one segment behind its front. -/
theorem Endpoint.ofPath?_channel {path : String} {segment : List Char}
    (hpath : path.toList = "/channel/".toList ++ segment) (hne : segment ≠ [])
    (hslash : '/' ∉ segment) : ofPath? path = some (.channel (String.ofList segment)) := by
  have hone : (segment.isEmpty || segment.contains '/') = false := by simp [hne, hslash]
  have hchannel : ofChannelPath? path = some (.channel (String.ofList segment)) := by
    rw [ofChannelPath?, hpath, dropFront?_append, Option.bind_some, hone]
    rfl
  rw [ofPath?, hchannel, Option.some_or]

namespace Dispatch

variable {κ ρ σ : Type} {behavior : Behavior κ ρ σ} {registry : Registry κ ρ} {segment : String}
  {state : σ}

/-- An answer to a POST is left as it is. -/
theorem trimmed_post (answer : Answer) : answer.trimmed .post = answer := by
  cases answer with
  | response r => exact congrArg Answer.response (if_neg (by decide))
  | panicked cause => rfl

/-- **A message goes to its channel.** -/
theorem dispatch_post {request : Inbound} (hm : request.method = .post)
    (hpath : Endpoint.ofPath? request.target.path = some (.channel segment)) :
    dispatch behavior registry request state
      = dispatchChannel behavior registry segment request.body state := by
  have hallowed : (Endpoint.channel segment).methods.contains .post = true := rfl
  rw [dispatch, hpath]
  dsimp only
  rw [hm, trimmed_post, serve, hm, if_pos hallowed]

/-! ## 2. The handler and the answer -/

/-- The answer to a message that was handled. -/
def channelAnswer (name : String) (outcome : ChannelOutcome) : Response :=
  match outcome.failure? with
  | none => { status := .ok }
  | some reason => (DispatchError.handlerFailed name reason).response

@[simp] theorem channelAnswer_done (name : String) :
    channelAnswer name .done = { status := .ok } := rfl

/-- A handler that did not do its work is the node's own fault. -/
theorem channelAnswer_status {outcome : ChannelOutcome} (name : String) (h : outcome ≠ .done) :
    (channelAnswer name outcome).status = .internalServerError := by
  cases outcome with
  | done => exact absurd rfl h
  | failed cause => rfl
  | panicked cause => rfl

/-- **What happens to a message with a handler**: it runs, once, on the payload, and how it ends
decides the rest. -/
theorem dispatchChannel_run {name : String} {body : Bytes} {handler : κ} {e : Envelope}
    (hname : Url.Percent.decodeText? segment = some name) (hlength : body.length ≤ bodyLimit)
    (hhandler : registry.channel? name = some handler) (he : Envelope.ofBytes body = .ok e) :
    dispatchChannel behavior registry segment body state =
      match (behavior.channel handler e.data state).1.failure? with
      | none =>
        { answer := .response { status := .ok }, state := (behavior.channel handler e.data state).2
          invocations := [.channel handler e.data], counts := [.message name .ok] }
      | some reason =>
        failed (.handlerFailed name reason) [.message name .failed] [.channel handler e.data]
          (behavior.channel handler e.data state).2 := by
  rw [dispatchChannel, hname]
  dsimp only
  rw [if_neg (Nat.not_lt.mpr hlength), hhandler]
  dsimp only
  generalize Envelope.ofBytes body = result at he ⊢
  subst he
  rfl

/-- The handler of a message is the only one that runs, and the answer says how it ended. -/
theorem dispatchChannel_handled {name : String} {body : Bytes} {handler : κ} {e : Envelope}
    (hname : Url.Percent.decodeText? segment = some name) (hlength : body.length ≤ bodyLimit)
    (hhandler : registry.channel? name = some handler) (he : Envelope.ofBytes body = .ok e) :
    (dispatchChannel behavior registry segment body state).invocations
        = [.channel handler e.data] ∧
      (dispatchChannel behavior registry segment body state).answer
        = .response (channelAnswer name (behavior.channel handler e.data state).1) := by
  rw [dispatchChannel_run hname hlength hhandler he, channelAnswer]
  cases (behavior.channel handler e.data state).1.failure? with
  | none => exact ⟨rfl, rfl⟩
  | some reason => exact ⟨rfl, rfl⟩

/-- What happens to a message that is no envelope. -/
theorem dispatchChannel_malformed {name : String} {body : Bytes} {handler : κ} {e : Json.Error}
    (hname : Url.Percent.decodeText? segment = some name) (hlength : body.length ≤ bodyLimit)
    (hhandler : registry.channel? name = some handler) (hbody : Envelope.ofBytes body = .error e) :
    dispatchChannel behavior registry segment body state
      = failed (.malformedEnvelope name e) [.message name .malformed] [] state := by
  rw [dispatchChannel, hname]
  dsimp only
  rw [if_neg (Nat.not_lt.mpr hlength), hhandler]
  dsimp only
  rw [hbody]

/-- **What runs on a message with a handler**: that handler, on what the body is read as, and nothing
if it is read as no envelope. -/
theorem dispatchChannel_invocations {name : String} {body : Bytes} {handler : κ}
    (hname : Url.Percent.decodeText? segment = some name) (hlength : body.length ≤ bodyLimit)
    (hhandler : registry.channel? name = some handler) :
    (dispatchChannel behavior registry segment body state).invocations
      = match Envelope.ofBytes body with
        | .error _ => []
        | .ok e => [.channel handler e.data] := by
  cases hread : Envelope.ofBytes body with
  | error e => rw [dispatchChannel_malformed hname hlength hhandler hread, failed]
  | ok e => exact (dispatchChannel_handled hname hlength hhandler hread).1

end Dispatch
end MeshNode
