/-
# What a call gives back

A call is meant to give back the answer of the sidecar as it is, whatever its status, after one
request.  So it does with every answer that the client keeps; but the client follows redirections,
and the answer to a redirected request comes in the place of the one that redirected it.  A location
is followed only if it is a reference by the letter, and so is the URL of the request.

* `call_chain`: the chain behind a call;
* `call_verbatim_iff`: when a call gives back the answer to its request, for every write address of
  the web;
* `teapot_given_back` and `call_redirected_by_found`: an answer that is given back, and one that is
  not.
-/
import MeshNode.Proofs.Gateway.Delivery
import MeshNode.Proofs.Gateway.Sending

namespace MeshNode.Gateway

open Url

variable {g : Gateway}

/-- **A call is a chain** that begins with the request to the URL of its segments. -/
theorem call_chain (hg : Settled g.writeAddress) {node path : String} {method : Method}
    {body : Option Json} {url : Url} {bytes : Option Bytes}
    (hnode : (NodeName.ofString? node).isOk = true)
    (hurl : g.endpoint (Operation.call node path method body).destination.segments = .ok url)
    (hbytes : (Operation.call node path method body).body.mapM Payload.write = .ok bytes)
    (sidecar : Sidecar) (answer : Response) :
    let chain := g.transport.chainFrom sidecar (g.transport.compose method url bytes [])
    (g.call sidecar node path method body).requests = chain.2.map Exchange.request ∧
      ((g.call sidecar node path method body).result = .ok answer ↔ chain.1 = .ok answer) := by
  intro chain
  have hread := (settled_endpoint hg hurl).1.read_back
  constructor
  · have hrequests : (Operation.call node path method body).requests g sidecar = _ :=
      Operation.requests_eq hnode
    rw [hurl] at hrequests
    exact hrequests.trans (congrArg Attempt.requests (Transport.send_eq hread hbytes))
  · have hsent : (g.transport.send sidecar method url.text (body.map .json) []).result
        = chain.1.mapError (.ofExchange url.text) :=
      congrArg Attempt.result (Transport.send_eq hread hbytes)
    rw [Operation.call_result hnode hurl, hsent, Transport.mapError_eq_ok]

/-- **When a call gives back the answer as it is.**  For every write address of the web, every node
that is accepted, every path and body, and each method: a call begins with one request, which
arrives if its URL can stand in the line of a request and it is not refused.  If the answer to that
is complete, with a body only where there can be one, then the call sends this one request and gives
back this answer, exactly if the URL is one to send and the answer is no redirection to a location
that stands for a URI behind it. -/
theorem call_verbatim_iff {address : String} (hread : parse? address = .ok g.writeAddress)
    (hspoken : g.writeAddress.scheme = "http" ∨ g.writeAddress.scheme = "https") {node : String}
    (hnode : (NodeName.ofString? node).isOk = true) (path : String) {method : Method}
    (hmethod : method ∈ [Method.get, .post, .put, .delete]) (body : Option Json) :
    ∃ request, request.method = method ∧
      (∀ sidecar, (g.call sidecar node path method body).requests.head?
        = if Http.isUri request.url.text = true ∧ sidecar [request] ≠ .refused then some request
          else none) ∧
      ∀ (sidecar : Sidecar) (answer : Response), sidecar [request] = .complete answer →
        (answer.status = .noContent ∨ answer.status = .notModified → answer.body = []) →
        (((g.call sidecar node path method body).requests = [request] ∧
            (g.call sidecar node path method body).result = .ok answer) ↔
          Http.isUri request.url.text = true ∧
            ¬ ∃ location target, answer.status.isRedirection = true ∧
              answer.headers.text? "location" = some location ∧
              Reference.resolve? request.url.withoutFragment.text location = some target) := by
  have hsettled := parse_settled hread (Spoken.isWeb hspoken)
  obtain ⟨bytes, hbytes⟩ := Operation.written_call node path method body
  obtain ⟨url, hurl⟩ :=
    exists_endpoint hsettled (Operation.call node path method body).destination.segments
  have hscheme : Spoken (g.transport.compose method url bytes []).url :=
    spoken_compose hsettled hspoken hurl
  refine ⟨g.transport.compose method url bytes [], rfl, ?_, ?_⟩
  · exact head?_settled (o := .call node path method body) hsettled hspoken hnode hurl hbytes
  · intro sidecar answer hanswer hempty
    have hbody : carriesBody method answer.status = false → answer.body = [] := by
      intro hnone
      refine hempty ?_
      have hhead : method ≠ .head := by
        rintro rfl
        exact absurd hmethod (by decide)
      simpa [carriesBody, hhead, or_iff_not_imp_left] using hnone
    obtain ⟨hrequests, hresult⟩ := call_chain hsettled hnode hurl hbytes sidecar answer
    rw [hrequests, hresult, ← redirection?_eq_none, ← Request.obstacle?_eq_none hscheme]
    exact Transport.chainFrom_verbatim hanswer hbody

/-- An answer with a location that is no redirection is given back, from behind a write address with
a user name, an address of version 6, a path and a query. -/
theorem teapot_given_back :
    let g : Gateway := ⟨ofParts "http" ⟨"us%3Aer", "", .ipv6 ⟨0, 0, 0, 0, 0, 0, 0, 1⟩, some 9⟩
      ["a%20b"] (some "q=1") none, {}⟩
    let answer : Response := ⟨⟨418⟩, [("location", Utf8.encode "/done")], [0xFF, 0x00]⟩
    let call := g.call (fun _ => .complete answer) "node B" "/x//./y" .delete (some (.int 1))
    parse? "http://us%3Aer@[0:0::1]:09/a b/../a b?q=1" = .ok g.writeAddress ∧
      call.result = .ok answer ∧ ∃ request, call.requests = [request] ∧ request.method = .delete := by
  intro g answer call
  have hread : parse? "http://us%3Aer@[0:0::1]:09/a b/../a b?q=1" = .ok g.writeAddress :=
    eq_ok_of_toOption (by decide +kernel)
  obtain ⟨request, hmethod, hhead, hgives⟩ := call_verbatim_iff hread (.inl rfl)
    (show (NodeName.ofString? "node B").isOk = true by decide +kernel) "/x//./y"
    (show Method.delete ∈ [Method.get, .post, .put, .delete] by decide) (some (.int 1))
  have hsent : call.requests.head?.isSome = true := by decide +kernel
  have huri : Http.isUri request.url.text = true :=
    (first_of_isSome (hhead fun _ => .complete answer) hsent).1.1
  have hkept : ¬ ∃ location target, answer.status.isRedirection = true ∧
      answer.headers.text? "location" = some location ∧
      Reference.resolve? request.url.withoutFragment.text location = some target := by
    rintro ⟨-, -, hstatus, -⟩
    exact absurd hstatus (by decide)
  obtain ⟨hrequests, hresult⟩ :=
    (hgives (fun _ => .complete answer) answer rfl (by decide)).mpr ⟨huri, hkept⟩
  exact ⟨hread, hresult, request, hrequests, hmethod⟩

/-- **A redirection is not given back**: a second request was sent, and its answer came back. -/
theorem call_redirected_by_found :
    let call := nearby.call (detour ⟨302⟩) "nodeB" "status" .get none
    parse? "http://localhost:3047" = .ok nearby.writeAddress ∧
      (NodeName.ofString? "nodeB").isOk = true ∧
      (∀ request, detour ⟨302⟩ [request]
        = .complete ⟨⟨302⟩, [("location", Utf8.encode "/done")], []⟩) ∧
      call.requests.length = 2 ∧ call.result = .ok ⟨.ok, [], []⟩ := by
  refine ⟨eq_ok_of_toOption (by decide +kernel), by decide +kernel, fun _ => rfl,
    by decide +kernel, eq_ok_of_toOption (by decide +kernel)⟩

end MeshNode.Gateway
