/-
# What an operation sends first

Behind a write address of the web every list of segments has a URL, and the URL is read back from
its text.  So an accepted operation whose body can be written begins with one request, which is the
same whatever the sidecar does, if the URL can stand in the line of a request.

* `exists_endpoint` and `settled_endpoint`: the URL of an operation;
* `first?_settled`: the request to it;
* `head?_settled`: when it arrives.
-/
import MeshNode.Proofs.Gateway.Operation
import MeshNode.Proofs.Url.ReadBack

namespace MeshNode.Gateway

open Url

variable {g : Gateway} {url : Url} {segments : List String}

/-! ## 1. The URL -/

/-- **Every list of segments has a URL** behind a write address of the web. -/
theorem exists_endpoint (hg : Settled g.writeAddress) (segments : List String) :
    ∃ url, g.endpoint segments = .ok url := by
  obtain ⟨url, happend, -, -⟩ := hg.append segments
  exact ⟨url, by rw [endpoint, happend]⟩

/-- It is settled as the write address is, and has its scheme. -/
theorem settled_endpoint (hg : Settled g.writeAddress) (h : g.endpoint segments = .ok url) :
    Settled url ∧ url.scheme = g.writeAddress.scheme := by
  obtain ⟨v, happend, hsettled, hscheme⟩ := hg.append segments
  rw [endpoint, happend] at h
  obtain rfl := Except.ok.inj h
  exact ⟨hsettled, hscheme⟩

/-! ## 2. The request -/

/-- The schemes that requests are sent by. -/
def Spoken (u : Url) : Prop := u.scheme = "http" ∨ u.scheme = "https"

theorem Spoken.isWeb {u : Url} (h : Spoken u) : isWeb u.scheme = true := isWeb_of_spoken h

variable {transport : Transport} {method : Method} {bytes : Option Bytes}

variable {o : Operation}

/-- **What an operation begins with**: the request to the URL of its segments. -/
theorem first?_settled (hg : Settled g.writeAddress)
    (hurl : g.endpoint o.destination.segments = .ok url)
    (hbody : o.body.mapM Payload.write = .ok bytes) :
    o.first? g = some (g.transport.compose o.method url bytes []) := by
  rw [Operation.first?, hurl]
  dsimp only
  rw [Transport.first?, (settled_endpoint hg hurl).1.read_back, hbody]

/-- The scheme of a request is that of the write address. -/
theorem spoken_compose (hg : Settled g.writeAddress) (hspoken : Spoken g.writeAddress)
    (hurl : g.endpoint segments = .ok url) :
    Spoken (transport.compose method url bytes []).url := by
  rw [Spoken, Transport.compose_url_keeps Url.scheme rfl, (settled_endpoint hg hurl).2]
  exact hspoken

/-- **The first request to arrive** is that one, if its URL can stand in the line of a request and
the sidecar does not refuse it. -/
theorem head?_settled (hg : Settled g.writeAddress) (hspoken : Spoken g.writeAddress)
    (haccepted : o.accepted = true) (hurl : g.endpoint o.destination.segments = .ok url)
    (hbody : o.body.mapM Payload.write = .ok bytes) (sidecar : Sidecar) :
    let request := g.transport.compose o.method url bytes []
    (o.requests g sidecar).head?
      = if Http.isUri request.url.text = true ∧ sidecar [request] ≠ .refused then some request
        else none := by
  intro request
  have hscheme : Spoken request.url := spoken_compose hg hspoken hurl
  simp only [Operation.requests_head? haccepted, first?_settled hg hurl hbody, Option.filter_some,
    Transport.arrives_iff hscheme, request]

end MeshNode.Gateway
