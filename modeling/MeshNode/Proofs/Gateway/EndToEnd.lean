/-
# From a publication to its handler

What one node publishes, another node on the local machine handles.  The request that leaves
the gateway is the one that the dispatcher takes apart: its path spells the name of the channel,
its body the payload, and the registry answers the name with the last handler for it.  The payload
is lost on the way only if one of its objects begins with the mark: it is written as it is, and read
as something else.

* `channelUrl`: the URL of a channel behind the local write address;
* `publish_head?`: the request that a publication begins with;
* `dispatch_published` and `dispatch_published_iff`: what becomes of that request;
* `publish_runs_last_handler`: both ends together;
* `publish_marked_lost`: a payload that no handler gets.
-/
import MeshNode.Proofs.Dispatch.Channel
import MeshNode.Proofs.Envelope.RoundTrip
import MeshNode.Proofs.Gateway.Local
import MeshNode.Proofs.Registry.History

namespace MeshNode.Gateway

open Url

/-! ## 1. The URL of a channel -/

/-- The URL of a channel behind the write address on the local machine. -/
def channelUrl (port : UInt16) (channel : String) : Url :=
  ofParts "http" (localAuthority port.toNat) [channelSegment, encodeSegment true channel.toList]
    none none

variable (port : UInt16) (transport : Transport) {channel : String}

theorem plain_segments (h : isPlainSegment channel.toList = true) :
    ∀ s ∈ [channelSegment, channel], isPlainSegment s.toList = true := by
  intro s hs
  rcases List.mem_cons.mp hs with rfl | hs
  · decide
  · rw [List.mem_singleton.mp hs]
    exact h

theorem channelUrl_eq : channelUrl port channel = localTarget port [channelSegment, channel] := by
  have hself : encodeSegment true channelSegment.toList = channelSegment := by decide
  rw [localTarget, List.map_cons, List.map_singleton, hself]
  rfl

/-! ## 2. The first request -/

/-- The request that a publication begins with. -/
def published (port : UInt16) (transport : Transport) (channel : String) (payload : Json) :
    Request :=
  transport.compose .post (channelUrl port channel) (some (Envelope.write ⟨payload⟩)) []

theorem published_url (payload : Json) :
    (published port transport channel payload).url = channelUrl port channel :=
  Transport.compose_url_anonymous rfl

/-- **What a publication begins with.** -/
theorem publish_head? (haccepted : (ChannelName.ofString? channel).isOk = true)
    (h : isPlainSegment channel.toList = true) (payload : Json) (sidecar : Sidecar) :
    ((Gateway.mk (localUrl port) transport).publish sidecar channel (.json payload)).requests.head?
      = if (Utf8.encode (published port transport channel payload).url.text).length ≤ 65534 ∧
            sidecar [published port transport channel payload] ≠ .refused then
          some (published port transport channel payload)
        else none := by
  have hhead := head?_local port transport
    (show (Operation.publish channel (.json payload)).accepted = true from haccepted)
    rfl (by decide) (plain_segments h) rfl sidecar
  simp only [← channelUrl_eq] at hhead
  exact hhead

/-! ## 3. What becomes of it -/

/-- The path of a channel that is there is recognized. -/
theorem ofPath?_channelUrl (hname : channel ≠ "") (h : isPlainSegment channel.toList = true) :
    Endpoint.ofPath? (channelUrl port channel).target.path
      = some (.channel (encodeSegment true channel.toList)) := by
  have hpath : (channelUrl port channel).target.path.toList
      = "/channel/".toList ++ (encodeSegment true channel.toList).toList := by
    have htext := path_text_toList [channelSegment, encodeSegment true channel.toList]
    rw [pathChars, List.map_cons, List.map_singleton, List.flatMap_cons, List.flatMap_singleton]
      at htext
    exact htext
  have hne : (encodeSegment true channel.toList).toList ≠ [] := fun hnil =>
    encodeSegment_ne_empty hname (String.toList_inj.mp hnil)
  rw [Endpoint.ofPath?_channel hpath hne (slash_not_mem_encodeSegment h), String.ofList_toList]

/-- The name of a channel is read from its URL. -/
theorem decodeText?_channel : Percent.decodeText? (encodeSegment true channel.toList)
    = some channel := Percent.decodeText?_encode webSegment_mark channel

section

variable {κ ρ σ : Type} (behavior : Behavior κ ρ σ) {registry : Registry κ ρ} {handler : κ}
  {payload : Json.Document}

/-- What is published goes to its channel. -/
theorem dispatch_published (hname : channel ≠ "") (h : isPlainSegment channel.toList = true)
    (payload : Json) (headers : Headers) (state : σ) :
    let request := published port transport channel payload
    Dispatch.dispatch behavior registry ⟨request.method, request.url.target, headers, request.body⟩
        state
      = Dispatch.dispatchChannel behavior registry (encodeSegment true channel.toList)
          (Envelope.write ⟨payload⟩) state := by
  intro request
  have hpath : Endpoint.ofPath? request.url.target.path
      = some (.channel (encodeSegment true channel.toList)) := by
    rw [published_url port transport payload]
    exact ofPath?_channelUrl port hname h
  exact Dispatch.dispatch_post rfl hpath

/-- **What becomes of a payload that was published**: it is handled exactly if none of its objects
begins with the mark. -/
theorem dispatch_published_iff (hf : payload.value.floatFree = true)
    (hdepth : payload.value.depth ≤ Envelope.payloadDepth)
    (hlength : (Envelope.write ⟨payload⟩).length ≤ Dispatch.bodyLimit)
    (hhandler : registry.channel? channel = some handler) (state : σ) :
    let dispatched := Dispatch.dispatchChannel behavior registry
      (encodeSegment true channel.toList) (Envelope.write ⟨payload⟩) state
    dispatched.invocations = [.channel handler payload] ↔ payload.value.rawFree = true := by
  intro dispatched
  have hinvocations : dispatched.invocations = _ :=
    Dispatch.dispatchChannel_invocations decodeText?_channel hlength hhandler
  rw [hinvocations, ← (Envelope.ofBytes_write_iff payload hf).trans (and_iff_right hdepth)]
  cases Envelope.ofBytes (Envelope.write ⟨payload⟩) with
  | error e => exact iff_of_false (by rintro ⟨⟩) (by rintro ⟨⟩)
  | ok e =>
    obtain ⟨data⟩ := e
    simp

end

/-! ## 4. Both ends -/

theorem ne_empty_of_accepted {c : String} (h : (ChannelName.ofString? c).isOk = true) :
    c ≠ "" := by
  rintro rfl
  exact absurd h (by decide)

/-- **What is published is handled**, unless it carries the mark.  For every port of a sidecar on the
local machine, every channel with an accepted name that nothing is lost of, and every payload without
floating-point numbers that the reader and the size limit admit: the publication begins with a POST,
which arrives exactly if its URL has no more bytes than a request can name and it is not refused.
The dispatcher of any node whose history has a handler for the channel runs the last one of them on
that payload, once, and no other handler, exactly if no object of the payload begins with the mark.
It then answers success with an empty body if the handler did its work, and an internal error
otherwise. -/
theorem publish_runs_last_handler {κ ρ σ : Type} (port : UInt16) (transport : Transport)
    {c : String} {payload : Json.Document} {history : List (Registration κ ρ)} {handler : κ}
    (haccepted : (ChannelName.ofString? c).isOk = true)
    (hends : ∀ x ∈ c.toList, x ≠ '\t' ∧ x ≠ '\n' ∧ x ≠ '\r') (hdot : c ≠ ".") (hdouble : c ≠ "..")
    (hf : payload.value.floatFree = true) (hdepth : payload.value.depth ≤ 126)
    (hlength : (Envelope.write ⟨payload⟩).length ≤ 2 * 1024 * 1024)
    (hhandler : (history.filterMap (Registration.channelHandler? c)).getLast? = some handler) :
    ∃ address request, parse? (SidecarConfig.localAddress port) = .ok address ∧
      (∀ sidecar, ((Gateway.mk address transport).publish sidecar c (.json payload)).requests.head?
        = if (Utf8.encode request.url.text).length ≤ 65534 ∧ sidecar [request] ≠ .refused then
            some request
          else none) ∧
      request.method = .post ∧
      ∀ (behavior : Behavior κ ρ σ) (headers : Headers) (state : σ),
        let dispatched := Dispatch.dispatch behavior (Registry.ofHistory history)
          ⟨request.method, request.url.target, headers, request.body⟩ state
        (dispatched.invocations = [.channel handler payload] ↔ payload.value.rawFree = true) ∧
        (payload.value.rawFree = true → (behavior.channel handler payload state).1 = .done →
          ∃ response, dispatched.answer = .response response ∧
            response.status = ⟨200⟩ ∧ response.body = []) ∧
        (payload.value.rawFree = true → (behavior.channel handler payload state).1 ≠ .done →
          ∃ response, dispatched.answer = .response response ∧ response.status = ⟨500⟩) := by
  have hplain := isPlainSegment_of_name hends hdot hdouble
  have hname := ne_empty_of_accepted haccepted
  have hlookup : (Registry.ofHistory history).channel? c = some handler := by
    rw [Registry.channel?_ofHistory, hhandler]
  refine ⟨localUrl port, published port transport c payload, parse_localAddress port,
    publish_head? port transport haccepted hplain payload, rfl, ?_⟩
  intro behavior headers state dispatched
  have hdispatched : dispatched = _ :=
    dispatch_published port transport behavior hname hplain payload headers state
  have hanswer : payload.value.rawFree = true → dispatched.answer = .response
      (Dispatch.channelAnswer c (behavior.channel handler payload state).1) := by
    intro hmark
    have hread := (Envelope.ofBytes_write_iff payload hf).mpr ⟨hdepth, hmark⟩
    rw [hdispatched]
    exact (Dispatch.dispatchChannel_handled decodeText?_channel hlength hlookup hread).2
  refine ⟨?_, ?_, ?_⟩
  · rw [hdispatched]
    exact dispatch_published_iff behavior hf hdepth hlength hlookup state
  · intro hmark hdone
    rw [hanswer hmark, hdone, Dispatch.channelAnswer_done]
    exact ⟨_, rfl, rfl, rfl⟩
  · intro hmark hfailed
    exact ⟨_, hanswer hmark, Dispatch.channelAnswer_status c hfailed⟩

/-- With other handlers before, between and behind them, the last one for the channel runs. -/
theorem coffee_runs_last_handler :
    let c := "caffè ?#%"
    let payload : Json.Document :=
      ⟨.obj [("cups", .arr [.int (-1), .str "due\n"]), ("sugar", .null)], by decide⟩
    let history : List (Registration Nat Nat) :=
      [.channel ⟨"tea"⟩ 1, .channel ⟨c⟩ 2, .route ⟨c⟩ 3, .channel ⟨c⟩ 4, .channel ⟨"tea"⟩ 5]
    ∃ address request, parse? (SidecarConfig.localAddress 3047) = .ok address ∧
      ((Gateway.mk address {}).publish (fun _ => .silent) c (.json payload)).requests.head?
        = some request ∧
      ∀ behavior : Behavior Nat Nat Unit,
        (Dispatch.dispatch behavior (Registry.ofHistory history)
          ⟨request.method, request.url.target, [], request.body⟩ ()).invocations
          = [.channel 4 payload] := by
  intro c payload history
  have hends : ∀ x ∈ c.toList, x ≠ '\t' ∧ x ≠ '\n' ∧ x ≠ '\r' := by simp [c]
  have hlength : (Envelope.write ⟨payload⟩).length ≤ 2 * 1024 * 1024 := by decide +kernel
  have hhandler : (history.filterMap (Registration.channelHandler? c)).getLast? = some 4 := by
    decide +kernel
  obtain ⟨address, request, hparse, hhead, -, hdispatch⟩ :=
    publish_runs_last_handler (σ := Unit) 3047 {} (by decide) hends (by decide) (by decide)
      (by decide) (by decide) hlength hhandler
  refine ⟨address, request, hparse, ?_, ?_⟩
  · have hsent : ((Gateway.mk (localUrl 3047) {}).publish (fun _ => .silent) c
        (.json payload)).requests.head?.isSome = true := by decide +kernel
    obtain rfl : localUrl 3047 = address :=
      Except.ok.inj ((parse_localAddress 3047).symm.trans hparse)
    exact (first_of_isSome (hhead fun _ => .silent) hsent).2
  · intro behavior
    exact (hdispatch behavior [] ()).1.mpr (by decide)

/-- **A payload that no handler gets**: it is published, and refused where it arrives. -/
theorem publish_marked_lost :
    let payload : Json.Document := ⟨.obj [(Json.rawMark, .int 5), ("a", .int 0)], by decide⟩
    payload.value.floatFree = true ∧ payload.value.depth ≤ 126 ∧
      (Envelope.write ⟨payload⟩).length ≤ 2 * 1024 * 1024 ∧
      ∃ address request, parse? (SidecarConfig.localAddress 3047) = .ok address ∧
        ((Gateway.mk address {}).publish (fun _ => .silent) "c" (.json payload)).requests.head?
          = some request ∧
        ∀ behavior : Behavior Nat Nat Unit,
          let dispatched := Dispatch.dispatch behavior (Registry.ofHistory [.channel ⟨"c"⟩ 1])
            ⟨request.method, request.url.target, [], request.body⟩ ()
          dispatched.invocations = [] ∧
            ∃ response, dispatched.answer = .response response ∧ response.status = ⟨400⟩ := by
  intro payload
  have hlength : (Envelope.write ⟨payload⟩).length ≤ 2 * 1024 * 1024 := by decide +kernel
  have hrefused : Envelope.ofBytes (Envelope.write ⟨payload⟩)
      = .error (.mismatch (.wrongType (.int 5) .raw)) := by
    rw [Envelope.ofBytes_write_eq (by decide), Envelope.reread_marked_int]
    rfl
  have hplain : isPlainSegment "c".toList = true := by decide
  have hhead := publish_head? 3047 {} (show (ChannelName.ofString? "c").isOk = true by decide)
    hplain payload fun _ => .silent
  have hshort : (Utf8.encode (published 3047 {} "c" payload).url.text).length ≤ 65534 := by
    decide +kernel
  rw [if_pos ⟨hshort, by rintro ⟨⟩⟩] at hhead
  refine ⟨by decide, by decide, hlength, localUrl 3047, _, parse_localAddress 3047, hhead, ?_⟩
  intro behavior dispatched
  have hlookup : (Registry.ofHistory [(.channel ⟨"c"⟩ 1 : Registration Nat Nat)]).channel? "c"
      = some 1 := by decide
  have hdispatched : dispatched = _ :=
    (dispatch_published 3047 {} behavior (by decide) hplain payload [] ()).trans
      (Dispatch.dispatchChannel_malformed decodeText?_channel hlength hlookup hrefused)
  rw [hdispatched]
  exact ⟨rfl, _, rfl, rfl⟩

end MeshNode.Gateway
