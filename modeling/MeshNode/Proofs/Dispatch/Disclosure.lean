/-
# What the answer to a message discloses

The sidecar is told how a message ended, and nothing else: not the name of the channel, not what was
wrong with the body, not the error that a handler gave or what it left behind when it broke down.
Two nodes whose handlers do their work on the same messages give the same answers, however the other
messages fail.

* `fate` is how a message ends, said without its answer, and `told` what the sidecar is told of it;
* `dispatchChannel_answer`: the answer follows from the fate alone;
* `dispatch_answer_agrees`: one request, to two nodes;
* `channelAnswers_agree`: a run of requests, to two nodes;
* `answers_tell_fate`: both for all nodes.
-/
import MeshNode.Proofs.Dispatch.Outcome

namespace MeshNode
namespace Dispatch

open Url.Percent

variable {κ ρ σ κ' ρ' σ' : Type}

/-! ## 1. One message -/

/-- How a message to the channel `name` ends: its channel has no handler, or its body is no
envelope, or its handler does its work, or fails at it in one way or another. -/
def fate (behavior : Behavior κ ρ σ) (registry : Registry κ ρ) (name : String) (body : Bytes)
    (state : σ) : Count.Outcome :=
  match registry.channel? name with
  | none => .unknown
  | some handler =>
    match Envelope.ofBytes body with
    | .error _ => .malformed
    | .ok envelope =>
      match (behavior.channel handler envelope.data state).1 with
      | .done => .ok
      | .failed _ => .failed
      | .panicked _ => .failed

/-- What the sidecar is told of the end of a message. -/
def told : Count.Outcome → Response
  | .ok => { status := ⟨200⟩ }
  | .failed => refusal 500 "Error handling message"
  | .malformed => refusal 400 "Malformed message"
  | .unknown => refusal 404 "No handler registered"

/-- Different ends are told by different answers. -/
theorem told_injective : Function.Injective told := by
  intro outcome outcome' h
  have hstatus : (told outcome).status = (told outcome').status := by rw [h]
  cases outcome <;> cases outcome' <;> first | rfl | exact absurd hstatus (by decide)

variable {behavior : Behavior κ ρ σ} {registry : Registry κ ρ} {state : σ}
  {behavior' : Behavior κ' ρ' σ'} {registry' : Registry κ' ρ'} {state' : σ'}
  {name segment : String} {body : Bytes} {request : Inbound}

/-- **The answer to a message** follows from its fate: nothing else of it is told. -/
theorem dispatchChannel_answer (hname : decodeText? segment = some name)
    (hlength : body.length ≤ bodyLimit) :
    (dispatchChannel behavior registry segment body state).answer
      = .response (told (fate behavior registry name body state)) := by
  unfold fate
  cases hhandler : registry.channel? name with
  | none =>
    rw [dispatchChannel_unknown hname hlength hhandler]
    rfl
  | some handler =>
    cases hbody : Envelope.ofBytes body with
    | error e =>
      rw [dispatchChannel_malformed hname hlength hhandler hbody]
      rfl
    | ok envelope =>
      rw [dispatchChannel_run hname hlength hhandler hbody]
      dsimp only
      cases (behavior.channel handler envelope.data state).1 with
      | done => rfl
      | failed cause => rfl
      | panicked cause => rfl

/-! ## 2. Two nodes -/

/-- Two registries have handlers for the same channels, though not the same handlers. -/
def SameChannels (registry : Registry κ ρ) (registry' : Registry κ' ρ') : Prop :=
  ∀ name, (registry.channel? name).isSome = (registry'.channel? name).isSome

/-- Where a request runs a channel handler at both nodes, on one payload, both handlers do their
work or neither does.  How they fail is left open: one may give an error and the other break
down. -/
def SucceedAlike (behavior : Behavior κ ρ σ) (registry : Registry κ ρ)
    (behavior' : Behavior κ' ρ' σ') (registry' : Registry κ' ρ') (request : Inbound) (state : σ)
    (state' : σ') : Prop :=
  ∀ handler handler' data,
    .channel handler data ∈ (dispatch behavior registry request state).invocations →
    .channel handler' data ∈ (dispatch behavior' registry' request state').invocations →
      ((behavior.channel handler data state).1 = .done ↔
        (behavior'.channel handler' data state').1 = .done)

/-- Whether a request is to the path of a channel, by whatever method. -/
def onChannel (request : Inbound) : Bool :=
  match Endpoint.ofPath? request.target.path with
  | some (.channel _) => true
  | _ => false

theorem onChannel_iff : onChannel request = true ↔
    ∃ segment, Endpoint.ofPath? request.target.path = some (.channel segment) := by
  unfold onChannel
  constructor
  · intro h
    split at h
    · next segment hpath => exact ⟨segment, hpath⟩
    · cases h
  · rintro ⟨segment, hpath⟩
    rw [hpath]

/-- The fates of one message at two nodes are the same, if the handlers that it runs succeed
alike. -/
theorem fate_agrees (hname : decodeText? segment = some name) (hlength : body.length ≤ bodyLimit)
    (hchannels : SameChannels registry registry')
    (halike : ∀ handler handler' data,
      .channel handler data ∈ (dispatchChannel behavior registry segment body state).invocations →
      .channel handler' data
          ∈ (dispatchChannel behavior' registry' segment body state').invocations →
        ((behavior.channel handler data state).1 = .done ↔
          (behavior'.channel handler' data state').1 = .done)) :
    fate behavior registry name body state = fate behavior' registry' name body state' := by
  have hsame := hchannels name
  unfold fate
  cases hhandler : registry.channel? name with
  | none =>
    rw [hhandler, Option.isSome_none, eq_comm, Option.isSome_eq_false_iff,
      Option.isNone_iff_eq_none] at hsame
    rw [hsame]
  | some handler =>
    rw [hhandler, Option.isSome_some, eq_comm, Option.isSome_iff_exists] at hsame
    obtain ⟨handler', hhandler'⟩ := hsame
    rw [hhandler']
    cases hbody : Envelope.ofBytes body with
    | error e => rfl
    | ok envelope =>
      have hran : (dispatchChannel behavior registry segment body state).invocations
          = [.channel handler envelope.data] :=
        (dispatchChannel_handled hname hlength hhandler hbody).1
      have hran' : (dispatchChannel behavior' registry' segment body state').invocations
          = [.channel handler' envelope.data] :=
        (dispatchChannel_handled hname hlength hhandler' hbody).1
      have hdone := halike handler handler' envelope.data (hran ▸ List.mem_singleton_self _)
        (hran' ▸ List.mem_singleton_self _)
      dsimp only
      generalize (behavior.channel handler envelope.data state).1 = outcome at hdone ⊢
      generalize (behavior'.channel handler' envelope.data state').1 = outcome' at hdone ⊢
      cases outcome with
      | done => rw [hdone.mp rfl]
      | failed cause =>
        cases outcome' with
        | done => cases hdone.mpr rfl
        | failed cause' => rfl
        | panicked cause' => rfl
      | panicked cause =>
        cases outcome' with
        | done => cases hdone.mpr rfl
        | failed cause' => rfl
        | panicked cause' => rfl

/-- **One request to two nodes.**  Whatever reaches the path of a channel gets the same answer from
both. -/
theorem dispatch_answer_agrees (hon : onChannel request = true)
    (hchannels : SameChannels registry registry')
    (halike : SucceedAlike behavior registry behavior' registry' request state state') :
    (dispatch behavior registry request state).answer
      = (dispatch behavior' registry' request state').answer := by
  obtain ⟨segment, hpath⟩ := onChannel_iff.mp hon
  by_cases hpost : request.method = .post
  · unfold SucceedAlike at halike
    rw [dispatch_post hpost hpath, dispatch_post hpost hpath] at halike ⊢
    cases hname : decodeText? segment with
    | none =>
      rw [dispatchChannel_unreadable hname, dispatchChannel_unreadable hname]
      rfl
    | some name =>
      by_cases hlength : request.body.length ≤ bodyLimit
      · rw [dispatchChannel_answer hname hlength, dispatchChannel_answer hname hlength,
          fate_agrees hname hlength hchannels halike]
      · rw [dispatchChannel_tooLong hname (by omega), dispatchChannel_tooLong hname (by omega)]
        rfl
  · -- the path of a channel has no other method
    have hmethods : (Endpoint.channel segment).methods = [.post] := rfl
    have hrefused : (Endpoint.channel segment).methods.contains request.method = false := by
      rw [hmethods, List.contains_cons, List.contains_nil, Bool.or_false]
      exact beq_eq_false_iff_ne.mpr hpost
    simp only [dispatch, hpath, serve, hrefused]
    rfl

/-! ## 3. Runs -/

/-- The answers to those requests of a run that are on the path of a channel.  The others run too,
and may change the state. -/
def channelAnswers (behavior : Behavior κ ρ σ) (registry : Registry κ ρ) :
    List Inbound → σ → List Answer
  | [], _ => []
  | request :: requests, state =>
    let d := dispatch behavior registry request state
    if onChannel request then d.answer :: channelAnswers behavior registry requests d.state
    else channelAnswers behavior registry requests d.state

/-- Two runs of the same requests in which handlers succeed alike, each run in the states that its
own handlers leave behind. -/
def RunsSucceedAlike (behavior : Behavior κ ρ σ) (registry : Registry κ ρ)
    (behavior' : Behavior κ' ρ' σ') (registry' : Registry κ' ρ') : List Inbound → σ → σ' → Prop
  | [], _, _ => True
  | request :: requests, state, state' =>
    SucceedAlike behavior registry behavior' registry' request state state' ∧
      RunsSucceedAlike behavior registry behavior' registry' requests
        (dispatch behavior registry request state).state
        (dispatch behavior' registry' request state').state

/-- **The same requests to two nodes.**  By induction on the requests: each answer agrees, and what
the handlers leave behind may differ. -/
theorem channelAnswers_agree (hchannels : SameChannels registry registry')
    {requests : List Inbound}
    (halike : RunsSucceedAlike behavior registry behavior' registry' requests state state') :
    channelAnswers behavior registry requests state
      = channelAnswers behavior' registry' requests state' := by
  induction requests generalizing state state' with
  | nil => rfl
  | cons request requests ih =>
    obtain ⟨hfirst, hlater⟩ := halike
    unfold channelAnswers
    by_cases hon : onChannel request = true
    · simp only [hon, if_true]
      rw [dispatch_answer_agrees hon hchannels hfirst, ih hlater]
    · simp only [hon]
      exact ih hlater

/-- **The causes of failures stay inside.**  Two nodes with handlers for the same channels give the
same answers to the channel requests of a run, in which their handlers succeed alike, whatever
errors the others give and whatever they leave behind where they break down.  And of two messages
that are dispatched, to any two channels of any two nodes, the answers are the same if and only if
both are unknown, or both malformed, or both failed, or both handled. -/
theorem answers_tell_fate (behavior : Behavior κ ρ σ) (registry : Registry κ ρ)
    (behavior' : Behavior κ' ρ' σ') (registry' : Registry κ' ρ') :
    ((∀ name, (registry.channel? name).isSome = (registry'.channel? name).isSome) →
      ∀ requests state state',
        RunsSucceedAlike behavior registry behavior' registry' requests state state' →
        channelAnswers behavior registry requests state
          = channelAnswers behavior' registry' requests state') ∧
    ∀ (request request' : Inbound) (segment segment' : List Char) (name name' : String)
      (state : σ) (state' : σ'),
      request.PostedTo segment → request'.PostedTo segment' →
      decodeText? (String.ofList segment) = some name →
      decodeText? (String.ofList segment') = some name' →
      request.body.length ≤ 2 * 1024 * 1024 → request'.body.length ≤ 2 * 1024 * 1024 →
      ((dispatch behavior registry request state).answer
          = (dispatch behavior' registry' request' state').answer ↔
        fate behavior registry name request.body state
          = fate behavior' registry' name' request'.body state') := by
  refine ⟨fun hchannels requests state state' halike => channelAnswers_agree hchannels halike, ?_⟩
  intro request request' segment segment' name name' state state' hposted hposted' hname hname'
    hlength hlength'
  rw [dispatch_posted hposted, dispatch_posted hposted', dispatchChannel_answer hname hlength,
    dispatchChannel_answer hname' hlength', Answer.response.injEq]
  exact told_injective.eq_iff

/-- One handler gives an error where the other breaks down, and both do their work afterwards.  The
bodies of two more messages, to two channels, are no envelopes in two ways. -/
theorem error_told_as_breakdown :
    let behavior : Behavior Nat Nat Nat :=
      ⟨fun _ _ n => (if n = 0 then .failed (.text "disk full") else .done, n + 1),
        fun _ _ n => (.panicked .other, n)⟩
    let behavior' : Behavior String Nat (List Nat) :=
      ⟨fun _ _ seen => (if seen = [] then .panicked (.text "index 3") else .done, 3 :: seen),
        fun _ _ seen => (.panicked .other, seen)⟩
    let registry : Registry Nat Nat := (({} : Registry Nat Nat).registerChannel ⟨"a"⟩ 7).1
    let registry' : Registry String Nat :=
      (({} : Registry String Nat).registerChannel ⟨"a"⟩ "seven").1
    let message (body : Bytes) : Inbound := ⟨.post, ⟨"", "/channel/a", none⟩, [], body⟩
    let requests := [message (Envelope.write ⟨.int 1⟩), message (Envelope.write ⟨.int 2⟩)]
    RunsSucceedAlike behavior registry behavior' registry' requests 0 [] ∧
      channelAnswers behavior registry requests 0 = channelAnswers behavior' registry' requests [] ∧
      (dispatch behavior registry (message (Utf8.encode "\x7b")) 5).answer
        = (dispatch behavior' registry' (message []) [1]).answer := by
  intro behavior behavior' registry registry' message requests
  have hchannels : SameChannels registry registry' := by
    intro name
    rw [Registry.channel?_registerChannel, Registry.channel?_registerChannel]
    split <;> rfl
  have hstate : (dispatch behavior registry (message (Envelope.write ⟨.int 1⟩)) 0).state = 1 := by
    decide +kernel
  have hstate' : (dispatch behavior' registry' (message (Envelope.write ⟨.int 1⟩)) []).state
      = [3] := by
    decide +kernel
  have halike : RunsSucceedAlike behavior registry behavior' registry' requests 0 [] := by
    refine ⟨fun _ _ _ _ _ => ⟨nofun, nofun⟩, ?_, trivial⟩
    rw [hstate, hstate']
    exact fun _ _ _ _ _ => ⟨fun _ => rfl, fun _ => rfl⟩
  have hposted : ∀ body, (message body).PostedTo "a".toList :=
    fun body => ⟨rfl, show "/channel/a".toList = "/channel/".toList ++ "a".toList by decide,
      by decide, by decide⟩
  have hname : decodeText? (String.ofList "a".toList) = some "a" := by decide +kernel
  obtain ⟨hruns, hmessages⟩ := answers_tell_fate behavior registry behavior' registry'
  refine ⟨halike, hruns hchannels requests 0 [] halike, ?_⟩
  refine (hmessages _ _ _ _ _ _ _ _ (hposted _) (hposted _) hname hname (by decide +kernel)
    (by decide +kernel)).mpr ?_
  rfl

end Dispatch
end MeshNode
