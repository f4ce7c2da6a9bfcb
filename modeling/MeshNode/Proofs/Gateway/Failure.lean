/-
# How an operation fails

An operation looks for trouble in a fixed order: the name of its target, the write address, the
body, and only then the exchange.  What it finds first is what it fails with, and before the
exchange nothing is sent.  A publication fails with a response that is no success as well; a call
gives every response back.  Whatever the failure is, it is logged once.

* `Classified` and `Conveyed` say which failure there is, and when;
* `Proceeds` is what both operations do in common, `publish_proceeds` and `call_proceeds`;
* `Proceeds.classified`: the classification follows from that, behind a write address whose URLs are
  read back and behind one that can have no segments;
* `PublishTold` and `CallTold`: what an error names, and what is logged;
* `operations_classified`: both operations.
-/
import MeshNode.Proofs.Gateway.Sending

namespace MeshNode

/-- The failure of an attempt, if it failed. -/
def Attempt.failure? {α : Type} (a : Attempt GatewayError α) : Option DeliveryFailure :=
  match a.result with
  | .ok _ => none
  | .error e => some e.failure

namespace Gateway

open Url

variable {α : Type} {g : Gateway} {sidecar : Sidecar} {o : Operation}

/-! ## 1. The classification -/

/-- Why a name is refused, if it is. -/
def refusalOf {β : Type} : Except NameError β → Option NameError
  | .ok _ => none
  | .error e => some e

/-- Why the target of an operation is refused, if it is. -/
def Operation.refusal? : Operation → Option NameError
  | .publish channel _ => refusalOf (ChannelName.ofString? channel)
  | .call node _ _ _ => refusalOf (NodeName.ofString? node)

/-- What the client makes of a request: a response, or what went wrong; and the exchanges. -/
abbrev ClientOutcome := Except ExchangeError Response × List Exchange

/-- **An operation that was handed to the client.**  What it makes of a response is `taken`: its
result, or the status and the text that it fails with. -/
structure Conveyed (client : ClientOutcome) (taken : Response → Except (Status × String) α)
    (a : Attempt GatewayError α) : Prop where
  /-- What is sent is what the client sends. -/
  exchanges : a.exchanges = client.2
  /-- There is a result if there is a response that is taken for one. -/
  ok : ∀ v, a.result = .ok v ↔ ∃ r, client.1 = .ok r ∧ taken r = .ok v
  /-- It fails with a status if there is a response that is not. -/
  status : ∀ status text, a.failure? = some (.status status text) ↔
    ∃ r, client.1 = .ok r ∧ taken r = .error (status, text)
  /-- It fails in transport if there is no response. -/
  transport : (∃ e, a.failure? = some (.transport e)) ↔ ∀ r, client.1 ≠ .ok r
  /-- It fails by the time if the time ran out. -/
  timeout : (∃ e, a.failure? = some (.transport e) ∧ e.isTimeout = true) ↔
    client.1 = .error .timedOut

/-- **Which failure an operation has**, in the order in which it looks for one. -/
structure Classified (g : Gateway) (sidecar : Sidecar) (o : Operation)
    (taken : Response → Except (Status × String) α) (a : Attempt GatewayError α) : Prop where
  /-- It fails for its target if, and only if, the name of that is refused. -/
  invalidTarget : ∀ e, a.failure? = some (.invalidTarget e) ↔ o.refusal? = some e
  /-- Then nothing is sent. -/
  refused : ∀ e, o.refusal? = some e → a.exchanges = []
  /-- Otherwise it fails if the write address can have no segments, and nothing is sent. -/
  noBase : ∀ text, o.refusal? = none → g.writeAddress.path = .plain text →
    a.failure? = some (.transport
      (.invalidUrl g.writeAddress.text "write address cannot be a base")) ∧ a.exchanges = []
  /-- Otherwise it fails if the body cannot be written, and nothing is sent. -/
  unwritable : ∀ path cause, o.refusal? = none → g.writeAddress.path = .segments path →
    o.body.mapM Payload.write = .error cause →
    ∃ url, g.endpoint o.destination.segments = .ok url ∧
      a.failure? = some (.transport (.encode url.text cause)) ∧ a.exchanges = []
  /-- Otherwise its request is handed to the client. -/
  conveyed : ∀ path bytes, o.refusal? = none → g.writeAddress.path = .segments path →
    o.body.mapM Payload.write = .ok bytes →
    ∃ request, o.first? g = some request ∧ request.method = o.method ∧
      request.body = bytes.getD [] ∧ Conveyed (g.transport.chainFrom sidecar request) taken a

/-- A publication takes a success, and fails with anything else. -/
def takenByPublish (r : Response) : Except (Status × String) Unit :=
  if 200 ≤ r.status.code ∧ r.status.code < 300 then .ok ()
  else .error (r.status, Utf8.decodeLossy r.body)

/-- A call takes every response. -/
def takenByCall (r : Response) : Except (Status × String) Response := .ok r

/-! ## 2. What the operations have in common -/

/-- The failure with a status and a text. -/
def statusFailure (answer : Status × String) : DeliveryFailure := .status answer.1 answer.2

/-- **How an operation proceeds**: its name, its URL, and then one call of the transport. -/
structure Proceeds (g : Gateway) (sidecar : Sidecar) (o : Operation)
    (taken : Response → Except (Status × String) α) (a : Attempt GatewayError α) : Prop where
  refused : ∀ e, o.refusal? = some e → a.failure? = some (.invalidTarget e) ∧ a.exchanges = []
  noUrl : ∀ e, o.refusal? = none → g.endpoint o.destination.segments = .error e →
    a.failure? = some (.transport e) ∧ a.exchanges = []
  sent : ∀ url, o.refusal? = none → g.endpoint o.destination.segments = .ok url →
    a.exchanges = (g.transport.send sidecar o.method url.text o.body []).exchanges ∧
    a.result.mapError GatewayError.failure
      = match (g.transport.send sidecar o.method url.text o.body []).result with
        | .error e => .error (.transport e)
        | .ok r => (taken r).mapError statusFailure

theorem refusalOf_eq_some {β : Type} {x : Except NameError β} {e : NameError} :
    refusalOf x = some e ↔ x = .error e := by
  cases x with
  | error e' => simp [refusalOf]
  | ok name => simp [refusalOf]

theorem isOk_of_refusalOf {β : Type} {x : Except NameError β} (h : refusalOf x = none) :
    x.isOk = true := by
  cases x with
  | error e => cases h
  | ok name => rfl

theorem publish_proceeds (channel : String) (payload : Payload) :
    Proceeds g sidecar (.publish channel payload) takenByPublish
      (g.publish sidecar channel payload) where
  refused := by
    intro e h
    rw [publish, refusalOf_eq_some.mp h]
    exact ⟨rfl, rfl⟩
  noUrl := by
    intro e h hurl
    have hsegments : g.endpoint [channelSegment, channel] = .error e := hurl
    rw [publish, ChannelName.ofString?_of_isOk (isOk_of_refusalOf h)]
    dsimp only
    rw [hsegments]
    exact ⟨rfl, rfl⟩
  sent := by
    intro url h hurl
    have hsegments : g.endpoint [channelSegment, channel] = .ok url := hurl
    rw [publish, ChannelName.ofString?_of_isOk (isOk_of_refusalOf h)]
    dsimp only [Transport.post, Operation.method, Operation.body]
    rw [hsegments]
    dsimp only
    generalize g.transport.send sidecar .post url.text (some payload.wrapped) [] = sent
    cases sent.result with
    | error e => exact ⟨rfl, rfl⟩
    | ok response =>
      dsimp only
      have hsuccess : response.isSuccess = true
          ↔ 200 ≤ response.status.code ∧ response.status.code < 300 := by
        simp [Response.isSuccess, Status.isSuccess]
      by_cases hok : response.isSuccess = true
      · rw [if_pos hok, takenByPublish, if_pos (hsuccess.mp hok)]
        exact ⟨rfl, rfl⟩
      · rw [if_neg hok, takenByPublish, if_neg (mt hsuccess.mpr hok)]
        exact ⟨rfl, rfl⟩

theorem call_proceeds (node path : String) (method : Method) (body : Option Json) :
    Proceeds g sidecar (.call node path method body) takenByCall
      (g.call sidecar node path method body) where
  refused := by
    intro e h
    rw [call, refusalOf_eq_some.mp h]
    exact ⟨rfl, rfl⟩
  noUrl := by
    intro e h hurl
    have hsegments : g.endpoint (routeSegments ⟨node⟩ (dropLeadingSlash path)) = .error e := hurl
    rw [call, NodeName.ofString?_of_isOk (isOk_of_refusalOf h)]
    dsimp only
    rw [hsegments]
    exact ⟨rfl, rfl⟩
  sent := by
    intro url h hurl
    have hsegments : g.endpoint (routeSegments ⟨node⟩ (dropLeadingSlash path)) = .ok url := hurl
    rw [call, NodeName.ofString?_of_isOk (isOk_of_refusalOf h)]
    dsimp only [Operation.method, Operation.body]
    rw [hsegments]
    dsimp only
    generalize g.transport.send sidecar method url.text (body.map .json) [] = sent
    cases sent.result with
    | error e => exact ⟨rfl, rfl⟩
    | ok response => exact ⟨rfl, rfl⟩

/-! ## 3. The classification follows -/

theorem failure?_eq_some {a : Attempt GatewayError α} {f : DeliveryFailure} :
    a.failure? = some f ↔ a.result.mapError GatewayError.failure = .error f := by
  rw [Attempt.failure?]
  cases a.result with
  | error e => simp [Except.mapError]
  | ok v => simp [Except.mapError]

/-- The time ran out exactly if the error of the exchange says so. -/
theorem isTimeout_ofExchange {url : String} {e : ExchangeError} :
    (TransportError.ofExchange url e).isTimeout = true ↔ e = .timedOut := by
  cases e with
  | timedOut => exact iff_of_true rfl rfl
  | failed fault target => exact iff_of_false (by rintro ⟨⟩) (by rintro ⟨⟩)

/-- A response that is taken is the result, and there is no failure. -/
theorem conveyed_of_ok {r : Response} {v : α} {exchanges : List Exchange}
    {taken : Response → Except (Status × String) α} {a : Attempt GatewayError α}
    (hexchanges : a.exchanges = exchanges) (htaken : taken r = .ok v) (hresult : a.result = .ok v) :
    Conveyed (.ok r, exchanges) taken a := by
  have hnone : a.failure? = none := by rw [Attempt.failure?, hresult]
  constructor
  · exact hexchanges
  · simp [hresult, htaken]
  · simp [hnone, htaken]
  · simp [hnone]
  · simp [hnone]

/-- A response that is not taken is the failure. -/
theorem conveyed_of_status {r : Response} {status : Status} {text : String}
    {exchanges : List Exchange} {taken : Response → Except (Status × String) α}
    {a : Attempt GatewayError α} (hexchanges : a.exchanges = exchanges)
    (htaken : taken r = .error (status, text))
    (hfailed : a.failure? = some (.status status text)) :
    Conveyed (.ok r, exchanges) taken a := by
  have hresult : ∀ v, a.result ≠ .ok v := by
    intro v hok
    rw [Attempt.failure?, hok] at hfailed
    cases hfailed
  constructor
  · exact hexchanges
  · simp [hresult, htaken]
  · simp [hfailed, htaken]
  · simp [hfailed]
  · simp [hfailed]

/-- Without a response the failure is one of the transport. -/
theorem conveyed_of_error {e : ExchangeError} {url : String} {exchanges : List Exchange}
    {taken : Response → Except (Status × String) α} {a : Attempt GatewayError α}
    (hexchanges : a.exchanges = exchanges)
    (hfailed : a.failure? = some (.transport (.ofExchange url e))) :
    Conveyed (.error e, exchanges) taken a := by
  have hresult : ∀ v, a.result ≠ .ok v := by
    intro v hok
    rw [Attempt.failure?, hok] at hfailed
    cases hfailed
  constructor
  · exact hexchanges
  · simp [hresult]
  · simp [hfailed]
  · simp [hfailed]
  · simp [hfailed, isTimeout_ofExchange]

/-- **A response or an error of the client tells the end** of the operation. -/
theorem conveyed_of_result {client : ClientOutcome} {url : String}
    {taken : Response → Except (Status × String) α} {a : Attempt GatewayError α}
    (hexchanges : a.exchanges = client.2)
    (hresult : a.result.mapError GatewayError.failure
      = match client.1.mapError (.ofExchange url) with
        | .error e => .error (.transport e)
        | .ok r => (taken r).mapError statusFailure) :
    Conveyed client taken a := by
  obtain ⟨result, exchanges⟩ := client
  cases result with
  | error e => exact conveyed_of_error hexchanges (failure?_eq_some.mpr hresult)
  | ok r =>
    dsimp only [Except.mapError] at hresult
    cases htaken : taken r with
    | error answer =>
      rw [htaken] at hresult
      exact conveyed_of_status hexchanges htaken (failure?_eq_some.mpr hresult)
    | ok v =>
      rw [htaken] at hresult
      exact conveyed_of_ok hexchanges htaken (Transport.mapError_eq_ok.mp hresult)

namespace Proceeds

variable {taken : Response → Except (Status × String) α} {a : Attempt GatewayError α}

/-- What is sent to a URL that is read back, with a body that cannot be written. -/
theorem unwritable (h : Proceeds g sidecar o taken a) {url : Url} {cause : EncodeError}
    (haccepted : o.refusal? = none) (hurl : g.endpoint o.destination.segments = .ok url)
    (hread : parse? url.text = .ok url) (hbody : o.body.mapM Payload.write = .error cause) :
    a.failure? = some (.transport (.encode url.text cause)) ∧ a.exchanges = [] := by
  have hsend : g.transport.send sidecar o.method url.text o.body []
      = { result := .error (.encode url.text cause) } := by
    rw [Transport.send, hread, hbody]
  obtain ⟨hexchanges, hresult⟩ := h.sent url haccepted hurl
  rw [hsend] at hexchanges hresult
  exact ⟨failure?_eq_some.mpr hresult, hexchanges⟩

/-- And with one that can. -/
theorem conveyed (h : Proceeds g sidecar o taken a) {url : Url} {bytes : Option Bytes}
    (haccepted : o.refusal? = none) (hurl : g.endpoint o.destination.segments = .ok url)
    (hread : parse? url.text = .ok url) (hbody : o.body.mapM Payload.write = .ok bytes) :
    Conveyed (g.transport.chainFrom sidecar (g.transport.compose o.method url bytes [])) taken
      a := by
  obtain ⟨hexchanges, hresult⟩ := h.sent url haccepted hurl
  rw [Transport.send_eq hread hbody] at hexchanges hresult
  exact conveyed_of_result hexchanges hresult

/-- No operation fails for its target but one whose target is refused. -/
theorem invalidTarget (h : Proceeds g sidecar o taken a) {e : NameError} :
    a.failure? = some (.invalidTarget e) ↔ o.refusal? = some e := by
  constructor
  · intro hfailed
    cases hrefusal : o.refusal? with
    | some e' =>
      have hsame := (h.refused e' hrefusal).1
      rw [hfailed] at hsame
      cases hsame
      rfl
    | none =>
      cases hurl : g.endpoint o.destination.segments with
      | error cause =>
        have hother := (h.noUrl cause hrefusal hurl).1
        rw [hfailed] at hother
        cases hother
      | ok url =>
        obtain ⟨-, hresult⟩ := h.sent url hrefusal hurl
        rw [failure?_eq_some] at hfailed
        rw [hfailed] at hresult
        split at hresult
        · cases hresult
        · next r hr =>
          cases htaken : taken r with
          | ok v =>
            rw [htaken] at hresult
            cases hresult
          | error answer =>
            rw [htaken] at hresult
            cases hresult
  · exact fun hrefusal => (h.refused e hrefusal).1

/-- A write address of the web that can have segments is settled; every other one has none. -/
theorem settled_of_segments {path : List String}
    (hbase : (∃ address, parse? address = .ok g.writeAddress ∧ Spoken g.writeAddress) ∨
      ∃ text, g.writeAddress.path = .plain text)
    (hpath : g.writeAddress.path = .segments path) : Settled g.writeAddress := by
  rcases hbase with ⟨address, hread, hspoken⟩ | ⟨text, hplain⟩
  · exact parse_settled hread hspoken.isWeb
  · rw [hplain] at hpath
    cases hpath

/-- **What proceeds so is classified**, behind a write address of the web and behind one that can
have no segments. -/
theorem classified (h : Proceeds g sidecar o taken a)
    (hbase : (∃ address, parse? address = .ok g.writeAddress ∧ Spoken g.writeAddress) ∨
      ∃ text, g.writeAddress.path = .plain text) : Classified g sidecar o taken a where
  invalidTarget e := h.invalidTarget
  refused e hrefusal := (h.refused e hrefusal).2
  noBase := by
    intro text haccepted hplain
    refine h.noUrl _ haccepted ?_
    rw [endpoint, append?, hplain]
  unwritable := by
    intro path cause haccepted hpath hbody
    have hsettled := settled_of_segments hbase hpath
    obtain ⟨url, hurl⟩ := exists_endpoint hsettled o.destination.segments
    have hread := (settled_endpoint hsettled hurl).1.read_back
    exact ⟨url, hurl, h.unwritable haccepted hurl hread hbody⟩
  conveyed := by
    intro path bytes haccepted hpath hbody
    have hsettled := settled_of_segments hbase hpath
    obtain ⟨url, hurl⟩ := exists_endpoint hsettled o.destination.segments
    have hread := (settled_endpoint hsettled hurl).1.read_back
    exact ⟨g.transport.compose o.method url bytes [], first?_settled hsettled hurl hbody, rfl, rfl,
      h.conveyed haccepted hurl hread hbody⟩

end Proceeds

/-! ## 4. What an error names, and the log -/

/-- **What is told of a publication**: every error names the channel as it was given, and is logged
once, with the channel and the text of the failure; nothing is logged otherwise. -/
structure PublishTold (channel : String) (a : Attempt GatewayError Unit) : Prop where
  done : ∀ v, a.result = .ok v → a.logs = []
  failed : ∀ e, a.result = .error e → e = .publish channel e.failure ∧
    a.logs = [⟨.error, "failed to publish message",
      [("channel", channel), ("error", e.failure.message)]⟩]

/-- The text that is logged of a call that failed, and the URL that it names. -/
inductive CallNamed (g : Gateway) (node path : String) : String → String → Prop
  | refused {e : NameError} (h : NodeName.ofString? node = .error e) :
    CallNamed g node path "refusing to send request"
      (g.writeAddress.text ++ "route" ++ "/" ++ node ++ "/" ++ dropLeadingSlash path)
  | noBase {text : String} (h : (NodeName.ofString? node).isOk = true)
      (hplain : g.writeAddress.path = .plain text) :
    CallNamed g node path "refusing to send request" g.writeAddress.text
  | sent {url : Url} (h : (NodeName.ofString? node).isOk = true)
      (hurl : g.endpoint ("route" :: node :: pathPieces (dropLeadingSlash path)) = .ok url) :
    CallNamed g node path "failed to send request" url.text

/-- **What is told of a call**: every error names a URL, and is logged once, with the URL and the
text of the failure; nothing is logged otherwise. -/
structure CallTold (g : Gateway) (node path : String) (a : Attempt GatewayError Response) :
    Prop where
  done : ∀ r, a.result = .ok r → a.logs = []
  failed : ∀ e, a.result = .error e → ∃ log url, CallNamed g node path log url ∧
    e = .call url e.failure ∧
    a.logs = [⟨.error, log, [("url", url), ("error", e.failure.message)]⟩]

theorem publishFailed_told (channel : String) (failure : DeliveryFailure)
    (exchanges : List Exchange) :
    PublishTold channel (publishFailed channel failure exchanges) where
  done := by
    rintro v ⟨⟩
  failed := by
    rintro e ⟨⟩
    exact ⟨rfl, rfl⟩

theorem callFailed_told {node path log url : String} (h : CallNamed g node path log url)
    (failure : DeliveryFailure) (exchanges : List Exchange) :
    CallTold g node path (callFailed log url failure exchanges) where
  done := by
    rintro r ⟨⟩
  failed := by
    rintro e ⟨⟩
    exact ⟨log, url, h, rfl, rfl⟩

theorem publish_told (g : Gateway) (sidecar : Sidecar) (channel : String) (payload : Payload) :
    PublishTold channel (g.publish sidecar channel payload) := by
  rw [publish]
  cases ChannelName.ofString? channel with
  | error e => exact publishFailed_told channel _ _
  | ok name =>
    dsimp only
    cases g.endpoint [channelSegment, name.text] with
    | error e => exact publishFailed_told channel _ _
    | ok url =>
      dsimp only
      cases (g.transport.post sidecar url.text payload.wrapped []).result with
      | error e => exact publishFailed_told channel _ _
      | ok response =>
        dsimp only
        by_cases hok : response.isSuccess = true
        · rw [if_pos hok]
          exact ⟨fun _ _ => rfl, by rintro e ⟨⟩⟩
        · rw [if_neg hok]
          exact publishFailed_told channel _ _

/-- Only behind a path that can have no segments there is no URL. -/
theorem plain_of_endpoint {segments : List String} {e : TransportError}
    (h : g.endpoint segments = .error e) : ∃ text, g.writeAddress.path = .plain text := by
  cases hpath : g.writeAddress.path with
  | plain text => exact ⟨text, rfl⟩
  | segments path =>
    rw [endpoint, append?, hpath] at h
    cases h

theorem call_told (g : Gateway) (sidecar : Sidecar) (node path : String) (method : Method)
    (body : Option Json) :
    CallTold g node path (g.call sidecar node path method body) := by
  rw [call]
  cases hname : NodeName.ofString? node with
  | error e => exact callFailed_told (.refused hname) _ _
  | ok name =>
    have haccepted : (NodeName.ofString? node).isOk = true := by rw [hname]; rfl
    have hsame := NodeName.ofString?_of_isOk haccepted
    rw [hname] at hsame
    cases hsame
    dsimp only
    cases hurl : g.endpoint (routeSegments ⟨node⟩ (dropLeadingSlash path)) with
    | error e =>
      obtain ⟨text, hplain⟩ := plain_of_endpoint hurl
      exact callFailed_told (.noBase haccepted hplain) _ _
    | ok url =>
      dsimp only
      cases (g.transport.send sidecar method url.text (body.map .json) []).result with
      | error e => exact callFailed_told (.sent haccepted hurl) _ _
      | ok response => exact ⟨fun _ _ => rfl, by rintro e ⟨⟩⟩

/-! ## 5. Both operations -/

/-- **Every failure is the one that is looked for first, and is told once.**  Behind every write
address of http or https, and behind every one that can have no segments, whatever the channel and
the payload, the node, the path, the method and the body are, and whatever the sidecar does. -/
theorem operations_classified
    (hbase : (∃ address, parse? address = .ok g.writeAddress ∧ Spoken g.writeAddress) ∨
      ∃ text, g.writeAddress.path = .plain text) (sidecar : Sidecar) :
    (∀ channel payload,
      Classified g sidecar (.publish channel payload) takenByPublish
          (g.publish sidecar channel payload) ∧
        PublishTold channel (g.publish sidecar channel payload)) ∧
    (∀ node path method body,
      Classified g sidecar (.call node path method body) takenByCall
          (g.call sidecar node path method body) ∧
        CallTold g node path (g.call sidecar node path method body)) := by
  constructor
  · intro channel payload
    exact ⟨(publish_proceeds channel payload).classified hbase,
      publish_told g sidecar channel payload⟩
  · intro node path method body
    exact ⟨(call_proceeds node path method body).classified hbase,
      call_told g sidecar node path method body⟩

/-- A response that is no success, with a body that is no text: the publication fails with it, and
the call gives it back. -/
theorem unavailable_classified :
    let sidecar : Sidecar := fun _ => .complete ⟨⟨503⟩, [], [0x62, 0xFF]⟩
    let published := nearby.publish sidecar "orders" (.json (.int 1))
    let called := nearby.call sidecar "nodeB" "/status" .get none
    parse? "http://localhost:3047" = .ok nearby.writeAddress ∧
      published.failure? = some (.status ⟨503⟩ "b\ufffd") ∧
      called.result = .ok ⟨⟨503⟩, [], [0x62, 0xFF]⟩ := by
  intro sidecar published called
  have hread : parse? "http://localhost:3047" = .ok nearby.writeAddress :=
    eq_ok_of_toOption (by decide +kernel)
  obtain ⟨hpublish, hcall⟩ := operations_classified (.inl ⟨_, hread, .inl rfl⟩) sidecar
  have hanswer : ∀ {o : Operation} {request : Request}, o.first? nearby = some request →
      ((o.first? nearby).map fun r => (nearby.transport.chainFrom sidecar r).1.toOption)
        = some (some ⟨⟨503⟩, [], [0x62, 0xFF]⟩) →
      (nearby.transport.chainFrom sidecar request).1 = .ok ⟨⟨503⟩, [], [0x62, 0xFF]⟩ := by
    intro o request hfirst hclient
    rw [hfirst, Option.map_some, Option.some_inj] at hclient
    exact eq_ok_of_toOption hclient
  refine ⟨hread, ?_, ?_⟩
  · obtain ⟨request, hfirst, -, -, hconveyed⟩ :=
      (hpublish "orders" (.json (.int 1))).1.conveyed [""] (some (Envelope.write ⟨.int 1⟩))
        (by decide +kernel) rfl rfl
    refine (hconveyed.status ⟨503⟩ "b\ufffd").mpr ⟨_, hanswer hfirst (by decide +kernel), ?_⟩
    have hlossy : Utf8.decodeLossy [0x62, 0xFF] = "b\ufffd" := by decide +kernel
    rw [takenByPublish, if_neg (by decide), hlossy]
  · obtain ⟨request, hfirst, -, -, hconveyed⟩ :=
      (hcall "nodeB" "/status" .get none).1.conveyed [""] none (by decide +kernel) rfl rfl
    exact (hconveyed.ok _).mpr ⟨_, hanswer hfirst (by decide +kernel), rfl⟩

end Gateway
end MeshNode
