/-
# Responses that are sent on

A response that came over one connection can be sent on over another.  Its status and its body stay
as they are.  Of its headers, those that describe the connection it came over are dropped, however
many values they have, and a body that is not declared is declared as bytes; every other name keeps
its values in their order.

* `KeptIn`: what of a response there is in the one that is sent on, and `keptIn_relayed` that it is;
* `relayed_eq_self`: where there is nothing to drop and nothing to declare;
* `AnswersWithCall`: a handler of a route that answers with the response to a call of its own;
* `call_relayed_by_route`: what a request on such a route is answered with.
-/
import MeshNode.Proofs.Dispatch.Surface
import MeshNode.Proofs.Gateway.Verbatim

namespace MeshNode

namespace Response

/-! ## 1. What is kept -/

/-- The declaration of a body as bytes of no particular type. -/
def bytesType : Bytes := Utf8.encode "application/octet-stream"

/-- **What of a response there is in the one that is sent on.** -/
structure KeptIn (r sent : Response) : Prop where
  status : sent.status = r.status
  body : sent.body = r.body
  /-- What describes the first connection is dropped, however many values it has. -/
  framing : ∀ name ∈ ["connection", "content-length", "transfer-encoding"],
    sent.headers.values name = []
  /-- A body that is declared stays so, with all its declarations in their order. -/
  declared : r.headers.values "content-type" ≠ [] →
    sent.headers.values "content-type" = r.headers.values "content-type"
  /-- A body that is not declared is declared once, as bytes. -/
  undeclared : r.headers.values "content-type" = [] →
    sent.headers.values "content-type" = [bytesType]
  /-- Any other name has the values that it had, in their order. -/
  others : ∀ name ∉ ["connection", "content-length", "transfer-encoding", "content-type"],
    sent.headers.values name = r.headers.values name
  /-- No name is added to those that were there, but for the declaration. -/
  names : ∀ name, sent.headers.has name = true → name = "content-type" ∨ r.headers.has name = true

/-- The values of a name in a response that is sent on. -/
theorem values_relayed (r : Response) (name : String) :
    r.relayed.headers.values name
      = if name ∈ framing then []
        else if name = contentType ∧ r.headers.values contentType = [] then [bytesType]
        else r.headers.values name := by
  have htype : contentType ∉ framing := by decide
  have hdefault : Headers.values [(contentType, bytesType)] name
      = if name = contentType then [bytesType] else [] := by
    by_cases hname : contentType = name
    · simp [Headers.values, hname]
    · simp [Headers.values, hname, Ne.symm hname]
  rw [relayed, Headers.values_withDefaults, Headers.values_removeAll]
  by_cases hframing : name ∈ framing
  · have hother : name ≠ contentType := fun h => htype (h ▸ hframing)
    rw [if_pos hframing, if_pos hframing, ← bytesType, hdefault, if_neg hother, ite_self]
  rw [if_neg hframing, if_neg hframing, ← bytesType, hdefault]
  by_cases hhas : (r.headers.removeAll framing).has name = true
  · have hvalues : r.headers.values name ≠ [] := by
      have hleft := (Headers.has_iff _ _).mp hhas
      rwa [Headers.values_removeAll, if_neg hframing] at hleft
    have hkept : ¬ (name = contentType ∧ r.headers.values contentType = []) := by
      rintro ⟨rfl, hnone⟩
      exact hvalues hnone
    rw [if_pos hhas, if_neg hkept]
  · have hvalues : r.headers.values name = [] := by
      rw [Bool.not_eq_true, Headers.has_eq_false_iff, Headers.values_removeAll,
        if_neg hframing] at hhas
      exact hhas
    rw [if_neg hhas, hvalues]
    by_cases hname : name = contentType
    · rw [if_pos hname, if_pos ⟨hname, hname ▸ hvalues⟩]
    · rw [if_neg hname, if_neg fun h => hname h.1]

/-- **A response that is sent on** keeps all that is to be kept. -/
theorem keptIn_relayed (r : Response) : r.KeptIn r.relayed where
  status := rfl
  body := rfl
  framing name hname := by rw [values_relayed, if_pos (show name ∈ framing from hname)]
  declared hsome := by
    rw [values_relayed, if_neg (by decide), if_neg]
    exact fun h => hsome h.2
  undeclared hnone := by
    rw [values_relayed, if_neg (by decide), if_pos]
    exact ⟨rfl, hnone⟩
  others name hname := by
    simp only [List.mem_cons, List.not_mem_nil, or_false, not_or] at hname
    obtain ⟨hconnection, hlength, hencoding, htype⟩ := hname
    have hframing : name ∉ framing := by simp [framing, hconnection, hlength, hencoding]
    rw [values_relayed, if_neg hframing, if_neg]
    exact fun h => htype h.1
  names name hname := by
    rw [Headers.has_iff, values_relayed] at hname
    by_cases htype : name = contentType
    · exact .inl htype
    · right
      rw [Headers.has_iff]
      split at hname
      · exact absurd rfl hname
      · rwa [if_neg fun h => htype h.1] at hname

/-- **Where there is nothing to drop and nothing to declare**, the response is sent on as it is. -/
theorem relayed_eq_self {r : Response} (hframing : ∀ name ∈ framing, r.headers.has name = false)
    (htype : r.headers.has contentType = true) : r.relayed = r := by
  have hkept : r.headers.removeAll framing = r.headers := by
    refine List.filter_eq_self.mpr fun field hfield => ?_
    rw [Bool.not_eq_true', ← Bool.not_eq_true, List.contains_iff_mem]
    intro hmem
    have habsent := hframing field.1 hmem
    rw [Headers.has, List.any_eq_false] at habsent
    exact habsent field hfield (beq_self_eq_true _)
  rw [relayed, hkept, Headers.withDefaults, List.filter_cons_of_neg (by simp [htype]),
    List.filter_nil, List.append_nil]

end Response

/-! ## 2. Through a route -/

namespace Gateway

open Dispatch

variable {κ ρ σ : Type}

/-- A call that a handler makes while it answers a request, with the sidecar as it is by then. -/
structure OutgoingCall where
  sidecar : Sidecar
  node : String
  path : String
  method : Method
  body : Option Json

/-- What comes of a call. -/
def OutgoingCall.result (c : OutgoingCall) (g : Gateway) : Except GatewayError Response :=
  (g.call c.sidecar c.node c.path c.method c.body).result

/-- A handler of a route that answers a request with the response to a call of its own. -/
def AnswersWithCall (g : Gateway) (behavior : Behavior κ ρ σ) (handler : ρ)
    (outgoing : Inbound → σ → OutgoingCall) : Prop :=
  ∀ request state r, (outgoing request state).result g = .ok r →
    (behavior.route handler request state).1 = .responded r.relayed

variable {behavior : Behavior κ ρ σ} {registry : Registry κ ρ} {request : Inbound} {state : σ}

/-- A route answers as its handler does. -/
theorem dispatchRoute_answer {rest path : String} {handler : ρ} {r : Response}
    (hread : Url.Percent.decodeText? rest = some path)
    (hhandler : registry.route? path = some handler)
    (hanswer : (behavior.route handler request state).1 = .responded r) :
    (dispatchRoute behavior registry rest request state).answer = .response r := by
  rw [dispatchRoute, hread]
  dsimp only
  rw [hhandler]
  dsimp only
  rw [hanswer]

/-- An answer with a body is left as it is where a body is wanted. -/
theorem trimmed_of_mem {method : Method} (h : method ∈ [Method.get, .post, .put, .delete])
    (r : Response) : (Answer.response r).trimmed method = .response r := by
  have hhead : method ≠ .head := by
    rintro rfl
    exact absurd h (by decide)
  exact congrArg Answer.response (if_neg hhead)

/-- **A response that is relayed through a route is kept.**  Whatever response is sent on keeps its
status, its body and all its headers but those of the connection it came over.  Where a handler of a
route answers with the response to a call of its own, every request on the route that wants a body
is answered with that response as it is sent on.  A response that has none of the headers of a
connection, and declares its body, is sent on as it is. -/
theorem call_relayed_by_route (r : Response) :
    r.KeptIn r.relayed ∧
    (∀ (g : Gateway) (behavior : Behavior κ ρ σ) (registry : Registry κ ρ) (handler : ρ)
        (outgoing : Inbound → σ → OutgoingCall), AnswersWithCall g behavior handler outgoing →
      ∀ rest path, Url.Percent.decodeText? rest = some path → registry.route? path = some handler →
      ∀ request state, request.method ∈ [Method.get, .post, .put, .delete] →
        (outgoing request state).result g = .ok r →
          (dispatchRoute behavior registry rest request state).answer = .response r.relayed ∧
          (request.target.path = "/route/" ++ rest → rest ≠ "" →
            (dispatch behavior registry request state).answer = .response r.relayed)) ∧
    ((∀ name ∈ ["connection", "content-length", "transfer-encoding"],
        r.headers.values name = []) → r.headers.values "content-type" ≠ [] → r.relayed = r) := by
  refine ⟨r.keptIn_relayed, ?_, ?_⟩
  · intro g behavior registry handler outgoing hcalls rest path hread hhandler request state hmethod
      hresult
    have hroute := dispatchRoute_answer hread hhandler (hcalls request state r hresult)
    refine ⟨hroute, fun hpath hfilled => ?_⟩
    have hmethods : [Method.get, .post, .put, .delete]
        ⊆ [Method.get, .head, .post, .put, .delete] := by decide
    have hrest : rest.toList ≠ [] := fun h => hfilled (String.toList_eq_nil_iff.mp h)
    have hrecognized := Endpoint.ofPath?_route (toList_of_path hpath) hrest
    rw [String.ofList_toList] at hrecognized
    rw [dispatch_routed (hmethods hmethod) hrecognized]
    dsimp only
    rw [hroute, trimmed_of_mem hmethod]
  · intro hframing htype
    refine Response.relayed_eq_self (fun name hname => ?_) ((Headers.has_iff _ _).mpr htype)
    exact (Headers.has_eq_false_iff _ _).mpr (hframing name hname)

/-- A response with two cookies around a header of the connection, in a chain of two nodes: the
second one passes on what the first one has passed on. -/
theorem cookies_relayed :
    let first : Response := ⟨⟨418⟩, [("set-cookie", Utf8.encode "a=1"), ("content-length", [0x32]),
      ("set-cookie", Utf8.encode "b=2"), ("connection", Utf8.encode "close")], [0xFF, 0x00]⟩
    let relayed : Response := ⟨⟨418⟩, [("set-cookie", Utf8.encode "a=1"),
      ("set-cookie", Utf8.encode "b=2"), ("content-type", Response.bytesType)], [0xFF, 0x00]⟩
    let outgoing : Inbound → Unit → OutgoingCall := fun request _ =>
      ⟨fun _ => .complete first, "nodeB", "status", request.method, none⟩
    let behavior : Behavior Unit Unit Unit :=
      ⟨fun _ _ _ => (.done, ()), fun _ request state =>
        (match (outgoing request state).result nearby with
          | .ok r => .responded r.relayed
          | .error _ => .panicked .other, ())⟩
    let registry : Registry Unit Unit := ⟨[], [("route/a b", ())], ["/route/a b"]⟩
    let request : Inbound := ⟨.put, ⟨"", "/route/a%20b", none⟩, [], []⟩
    AnswersWithCall nearby behavior () outgoing ∧
      (dispatch behavior registry request ()).answer = .response relayed ∧
      relayed.relayed = relayed := by
  intro first relayed outgoing behavior registry request
  have hcalls : AnswersWithCall nearby behavior () outgoing := by
    intro request state r hr
    simp only [behavior, hr]
  have hresult : (outgoing request ()).result nearby = .ok first :=
    eq_ok_of_toOption (by decide +kernel)
  obtain ⟨-, hrouted, -⟩ := call_relayed_by_route (κ := Unit) (ρ := Unit) (σ := Unit) first
  obtain ⟨-, hanswer⟩ := hrouted nearby behavior registry () outgoing hcalls "a%20b" "a b"
    (by decide +kernel) (by decide +kernel) request () (by decide) hresult
  obtain ⟨-, -, hself⟩ := call_relayed_by_route (κ := Unit) (ρ := Unit) (σ := Unit) relayed
  exact ⟨hcalls, hanswer rfl (by decide), hself (by decide +kernel) (by decide +kernel)⟩

end Gateway
end MeshNode
