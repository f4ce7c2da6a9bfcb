/-
# Calls

A call composes its first request and runs the chain behind it.

* `compose_url`, and the method and body of a composed request;
* `compose_values`: its headers, name by name, and `compose_header` for one that the caller gave;
* `send_eq`: a call with a URL and a body that can be written is a chain;
* `send_ok`: what stands behind a call that brought a response;
* `first?` is the request that a call begins with, `send_head?` and `arrives_iff`: when it arrives;
* `chainFrom_verbatim`: when a chain is one request and its answer.
-/
import MeshNode.Proofs.Transport.Chain

namespace MeshNode

theorem eq_ok_of_toOption {ε α : Type} {x : Except ε α} {a : α} (h : x.toOption = some a) :
    x = .ok a := by
  cases x with
  | error e => cases h
  | ok b => exact congrArg Except.ok (Option.some.inj h)

/-- A request that was the first to arrive is the one that was to be sent. -/
theorem first_of_isSome {p : Prop} [Decidable p] {first : Option Request} {request : Request}
    (h : first = if p then some request else none) (hsome : first.isSome = true) :
    p ∧ first = some request := by
  by_cases hp : p
  · exact ⟨hp, h.trans (if_pos hp)⟩
  · rw [h, if_neg hp] at hsome
    cases hsome

theorem Url.isSpoken_iff {u : Url} :
    u.isSpoken = true ↔ u.scheme = "http" ∨ u.scheme = "https" := by
  simp [isSpoken]

/-- In the schemes that are spoken it is the form of its URL alone that keeps a request from being
sent. -/
theorem Request.obstacle?_eq_none {r : Request} (h : r.url.scheme = "http" ∨ r.url.scheme = "https") :
    r.obstacle? = none ↔ Http.isUri r.url.text = true := by
  rw [obstacle?, Url.isSpoken_iff.mpr h]
  cases Http.isUri r.url.text with
  | false => exact iff_of_false (by rintro ⟨⟩) (by rintro ⟨⟩)
  | true => exact iff_of_true rfl rfl

namespace Transport

variable {t : Transport} {sidecar : Sidecar} {method : Method} {url : String} {target : Url}
  {body : Option Payload} {bytes : Option Bytes} {headers : Headers} {response : Response}

/-! ## 1. The first request -/

@[simp] theorem compose_method :
    (t.compose method target bytes headers).method = method := rfl

@[simp] theorem compose_body :
    (t.compose method target bytes headers).body = bytes.getD [] := rfl

/-- The URL of a request is the target; credentials in it become a header. -/
theorem compose_url : (t.compose method target bytes headers).url = target ∨
    (t.compose method target bytes headers).url = target.withoutUserInfo := by
  cases hc : target.credentials? with
  | none => exact .inl (by simp [compose, hc])
  | some credentials => exact .inr (by simp [compose, hc])

/-- Without credentials it is the target itself. -/
theorem compose_url_anonymous (h : target.hasUserInfo = false) :
    (t.compose method target bytes headers).url = target := by
  simp [compose, Url.credentials?, h]

/-- What does not depend on the credentials is that of the target. -/
theorem compose_url_keeps {β : Type} (f : Url → β) (h : f target.withoutUserInfo = f target) :
    f (t.compose method target bytes headers).url = f target := by
  have hcases : (t.compose method target bytes headers).url = target ∨
      (t.compose method target bytes headers).url = target.withoutUserInfo := compose_url
  rcases hcases with hurl | hurl
  · rw [hurl]
  · rw [hurl, h]

/-- The headers that the URL itself brings: those of its credentials. -/
def headersOfUrl (target : Url) : Headers :=
  match target.credentials? with
  | some (name, word) => [authorization name word]
  | none => []

/-- The declaration of a body, if there is one. -/
def declaration (bytes : Option Bytes) : Headers :=
  if bytes.isSome then [(contentType, Utf8.encode "application/json")] else []

/-- **The headers of a request**, layer by layer. -/
theorem compose_headers : (t.compose method target bytes headers).headers
    = (((headersOfUrl target).replaceBy headers ++ declaration bytes).withDefaults t.headers) := by
  have hdeclared : ∀ own : Headers,
      (if bytes.isSome then own.append contentType (Utf8.encode "application/json") else own)
        = own ++ declaration bytes := by
    intro own
    cases bytes with
    | none => exact (List.append_nil own).symm
    | some b => rfl
  rw [compose, headersOfUrl]
  cases target.credentials? with
  | none => exact congrArg (Headers.withDefaults · t.headers) (hdeclared _)
  | some credentials => exact congrArg (Headers.withDefaults · t.headers) (hdeclared _)

/-- The values of a name that a request has before the transport fills in its own. -/
def ownValues (target : Url) (bytes : Option Bytes) (headers : Headers) (name : String) :
    List Bytes :=
  (if headers.has name then headers.values name else (headersOfUrl target).values name)
    ++ (declaration bytes).values name

/-- **The values of a name** are those, or else the transport's own. -/
theorem compose_values (name : String) :
    (t.compose method target bytes headers).headers.values name
      = if ownValues target bytes headers name = [] then t.headers.values name
        else ownValues target bytes headers name := by
  have hown : ((headersOfUrl target).replaceBy headers ++ declaration bytes).values name
      = ownValues target bytes headers name := by
    rw [Headers.values_append, Headers.values_replaceBy, ownValues]
  rw [compose_headers, Headers.values_withDefaults, hown]
  by_cases hnone : ownValues target bytes headers name = []
  · rw [if_pos hnone, if_neg]
    rw [Headers.has_iff, hown]
    exact fun h => h hnone
  · rw [if_neg hnone, if_pos]
    rwa [Headers.has_iff, hown]

/-- Nothing but the type of a body is declared. -/
theorem declaration_values {name : String} (hname : name ≠ contentType) :
    (declaration bytes).values name = [] := by
  unfold declaration
  split
  · simp [Headers.values, Ne.symm hname]
  · rfl

/-- **The caller's value of a header** is the only one, whatever the transport's own headers are. -/
theorem compose_header {name : String} {value : Bytes} (hname : name ≠ contentType) :
    (t.compose method target bytes [(name, value)]).headers.values name = [value] := by
  have hown : ownValues target bytes [(name, value)] name = [value] := by
    rw [ownValues, declaration_values hname]
    simp [Headers.has, Headers.values]
  rw [compose_values, hown]
  exact if_neg (List.cons_ne_nil value [])

/-- A body that is there and can be written. -/
theorem written_some {payload : Payload} (h : (some payload).mapM Payload.write = .ok bytes) :
    payload.write = .ok (bytes.getD []) := by
  rw [Option.mapM_some] at h
  cases hw : payload.write with
  | error e =>
    rw [hw] at h
    cases h
  | ok b =>
    rw [hw] at h
    cases h
    rfl

/-! ## 2. The chain behind a call -/

theorem chainFrom_unsent {request : Request} {fault : Fault}
    (h : request.obstacle? = some fault) :
    t.chainFrom sidecar request = (.error (.failed fault request.url), []) := by
  rw [chainFrom, h]

theorem chainFrom_sent {request : Request} (h : request.obstacle? = none) :
    t.chainFrom sidecar request
      = follow t.timeout.isSome sidecar request.url redirections [] request := by
  rw [chainFrom, h]

/-- **A response is the end of a chain** that begins with a request that can be sent. -/
theorem chainFrom_chain {request : Request} {exchanges : List Exchange}
    (h : t.chainFrom sidecar request = (.ok response, exchanges)) :
    ∃ hops last, Chain request hops last ∧ exchanges = hops ++ [last] ∧
      receive t.timeout.isSome request.url last.request last.reply = .ok response := by
  cases ho : request.obstacle? with
  | some fault =>
    rw [chainFrom_unsent ho] at h
    cases h
  | none =>
    rw [chainFrom_sent ho] at h
    exact follow_chain h

/-- **A call is a chain**, once there is a URL to call and a body to send. -/
theorem send_eq (hu : Url.parse? url = .ok target) (hb : body.mapM Payload.write = .ok bytes) :
    t.send sidecar method url body headers =
      { result := (t.chainFrom sidecar (t.compose method target bytes headers)).1.mapError
          (.ofExchange url)
        exchanges := (t.chainFrom sidecar (t.compose method target bytes headers)).2 } := by
  rw [send, hu, hb]

theorem mapError_eq_ok {ε ε' α : Type} {f : ε → ε'} {x : Except ε α} {a : α} :
    x.mapError f = .ok a ↔ x = .ok a := by
  cases x with
  | error e => exact iff_of_false (by rintro ⟨⟩) (by rintro ⟨⟩)
  | ok b =>
    constructor
    · rintro ⟨⟩
      rfl
    · rintro ⟨⟩
      rfl

/-- Without a URL to call or a body to send there is no exchange and no response. -/
theorem send_parts {response : Response}
    (h : (t.send sidecar method url body headers).result = .ok response ∨
      (t.send sidecar method url body headers).exchanges ≠ []) :
    ∃ target bytes, Url.parse? url = .ok target ∧ body.mapM Payload.write = .ok bytes := by
  rw [send] at h
  cases hu : Url.parse? url with
  | error e =>
    rw [hu] at h
    rcases h with h | h
    · cases h
    · exact absurd rfl h
  | ok target =>
    cases hb : body.mapM Payload.write with
    | error e =>
      rw [hu, hb] at h
      rcases h with h | h
      · cases h
      · exact absurd rfl h
    | ok bytes => exact ⟨target, bytes, rfl, rfl⟩

/-- **Behind a response** is a chain from the composed request to an exchange with the status
of the response. -/
theorem send_ok (h : (t.send sidecar method url body headers).result = .ok response) :
    ∃ target bytes hops last, Url.parse? url = .ok target ∧
      body.mapM Payload.write = .ok bytes ∧
      Chain (t.compose method target bytes headers) hops last ∧
      (t.send sidecar method url body headers).exchanges = hops ++ [last] ∧
      last.reply.status? = some response.status := by
  obtain ⟨target, bytes, hu, hb⟩ := send_parts (.inl h)
  rw [send_eq hu hb] at h ⊢
  rcases hf : t.chainFrom sidecar (t.compose method target bytes headers) with ⟨result, exchanges⟩
  rw [hf] at h
  cases result with
  | error e => cases h
  | ok r =>
    obtain rfl : r = response := Except.ok.inj h
    obtain ⟨hops, last, hchain, hexchanges, hlast⟩ := chainFrom_chain hf
    exact ⟨target, bytes, hops, last, hu, hb, hchain, hexchanges, receive_status hlast⟩

/-! ## 3. The first request of a call -/

/-- The request that a call begins with, if there is a URL to call and a body to send. -/
def first? (t : Transport) (method : Method) (url : String) (body : Option Payload)
    (headers : Headers) : Option Request :=
  match Url.parse? url, body.mapM Payload.write with
  | .ok target, .ok bytes => some (t.compose method target bytes headers)
  | _, _ => none

theorem first?_eq_some {request : Request} (h : t.first? method url body headers = some request) :
    ∃ target bytes, Url.parse? url = .ok target ∧ body.mapM Payload.write = .ok bytes ∧
      request = t.compose method target bytes headers := by
  rw [first?] at h
  split at h
  · exact ⟨_, _, ‹_›, ‹_›, (Option.some.inj h).symm⟩
  · cases h

/-- Whether the first request of a call arrives. -/
def arrives (sidecar : Sidecar) (request : Request) : Bool :=
  request.obstacle?.isNone && sidecar [request] != .refused

/-- A request in a scheme that is spoken arrives if its URL can stand in the line of a request, and
it is not refused. -/
theorem arrives_iff {request : Request}
    (h : request.url.scheme = "http" ∨ request.url.scheme = "https") :
    arrives sidecar request = true ↔
      Http.isUri request.url.text = true ∧ sidecar [request] ≠ .refused := by
  rw [arrives, Bool.and_eq_true, Option.isNone_iff_eq_none, Request.obstacle?_eq_none h, bne_iff_ne]

/-- The first exchange of a chain, if its request arrives. -/
theorem chainFrom_head? (t : Transport) (sidecar : Sidecar) (request : Request) :
    (t.chainFrom sidecar request).2.head?
      = if arrives sidecar request then some ⟨request, sidecar [request]⟩ else none := by
  have hreply : replyTo sidecar [] request = sidecar [request] := rfl
  cases ho : request.obstacle? with
  | some fault =>
    rw [chainFrom_unsent ho]
    simp [arrives, ho]
  | none =>
    rw [chainFrom_sent ho]
    by_cases hr : sidecar [request] = .refused
    · rw [follow_refused (hreply.trans hr)]
      simp [arrives, hr]
    · rcases hf : follow t.timeout.isSome sidecar request.url redirections [] request
        with ⟨result, exchanges⟩
      have hhere : arrives sidecar request = true := by simp [arrives, ho, hr]
      rw [if_pos hhere]
      obtain ⟨later, hcons⟩ := follow_first (hreply ▸ hr) hf
      rw [hcons]
      rfl

/-- **The first request of a call to arrive** is the one it begins with. -/
theorem send_head? (t : Transport) (sidecar : Sidecar) (method : Method) (url : String)
    (body : Option Payload) (headers : Headers) :
    (t.send sidecar method url body headers).requests.head?
      = (t.first? method url body headers).filter (arrives sidecar) := by
  rw [first?]
  cases hu : Url.parse? url with
  | error e =>
    rw [send, hu]
    rfl
  | ok target =>
    cases hb : body.mapM Payload.write with
    | error e =>
      rw [send, hu, hb]
      rfl
    | ok bytes =>
      rw [send_eq hu hb, Attempt.requests, List.head?_map, chainFrom_head?, Option.filter_some]
      split <;> rfl

/-! ## 4. One exchange -/

/-- **One request and its answer** is all there is of a chain, exactly if the request can be sent and
the answer does not send the client on. -/
theorem chainFrom_verbatim {request : Request} {answer : Response}
    (hanswer : sidecar [request] = .complete answer)
    (hbody : carriesBody request.method answer.status = false → answer.body = []) :
    ((t.chainFrom sidecar request).2.map Exchange.request = [request] ∧
        (t.chainFrom sidecar request).1 = .ok answer) ↔
      request.obstacle? = none ∧ redirection? request.url answer.status answer.headers = none := by
  have hreply : replyTo sidecar [] request = .complete answer := hanswer
  have hkept : replyTo sidecar [] request ≠ .refused := by
    rw [hreply]
    rintro ⟨⟩
  have hnext : (replyTo sidecar [] request).redirection? request.url
      = (redirection? request.url answer.status answer.headers).map (answer.status, ·) := by
    rw [hreply, Reply.redirection?]
  cases ho : request.obstacle? with
  | some fault =>
    rw [chainFrom_unsent ho]
    exact iff_of_false (by rintro ⟨⟨⟩, -⟩) (by rintro ⟨⟨⟩, -⟩)
  | none =>
    rw [chainFrom_sent ho]
    constructor
    · rintro ⟨hrequests, hresult⟩
      rcases hchain : follow t.timeout.isSome sidecar request.url redirections [] request
        with ⟨result, exchanges⟩
      rw [hchain] at hrequests hresult
      subst hresult
      rcases follow_cases hchain with ⟨hfailed, -⟩ | ⟨hd, -, -⟩ | ⟨-, ⟨e, hfailed⟩, -⟩ |
        ⟨rest, status, target, url, -, -, -, honward⟩
      · cases hfailed
      · exact ⟨rfl, Option.map_eq_none_iff.mp (hnext.symm.trans hd)⟩
      · cases hfailed
      · -- behind the redirection at least one more request was answered
        obtain ⟨hops, last, -, hexchanges, -⟩ := follow_chain honward
        have hlength := congrArg List.length hrequests
        rw [hexchanges] at hlength
        simp at hlength
    · rintro ⟨-, hd⟩
      rw [hd, Option.map_none] at hnext
      rw [follow_arrived hkept, hnext, hreply]
      dsimp only
      rw [receive_complete hbody]
      exact ⟨rfl, rfl⟩

end Transport
end MeshNode
