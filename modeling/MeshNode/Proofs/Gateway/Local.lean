/-
# Operations through a sidecar on the local machine

The write address of such a sidecar has no path of its own.  Plain segments behind it are the whole
path of the URL that an operation with these segments begins with.

* `endpoint_local`: the URL of plain segments;
* `head?_local`: the request that an operation begins with, and when it arrives.
-/
import MeshNode.Proofs.Gateway.Sending
import MeshNode.Proofs.Url.Sendable

namespace MeshNode.Gateway

open Url

/-- The URL of segments behind the write address on the local machine. -/
def localTarget (port : UInt16) (segments : List String) : Url :=
  ofParts "http" (localAuthority port.toNat) (segments.map fun s => encodeSegment true s.toList)
    none none

variable (port : UInt16) (transport : Transport) {first : String} {rest : List String}

theorem localTarget_path (segments : List String) : (localTarget port segments).target.path.toList
    = pathChars (segments.map fun s => encodeSegment true s.toList) :=
  path_text_toList _

/-- **The URL of plain segments.** -/
theorem endpoint_local (hfirst : first ≠ "")
    (h : ∀ s ∈ first :: rest, isPlainSegment s.toList = true) :
    (Gateway.mk (localUrl port) transport).endpoint (first :: rest)
      = .ok (localTarget port (first :: rest)) := by
  have hroot : openPath (dropOpenEnd [""]) = [] := by decide
  have hweb : isWeb "http" = true := by decide
  have happend := append?_ofParts hweb (localAuthority port.toNat) [""] none none hfirst h
  rw [hroot, List.nil_append] at happend
  rw [endpoint, localUrl, happend]
  rfl

theorem composed_url (method : Method) (segments : List String) (bytes : Option Bytes) :
    (transport.compose method (localTarget port segments) bytes []).url
      = localTarget port segments :=
  Transport.compose_url_anonymous rfl

/-- Plain segments are segments in normal form. -/
theorem normalPath_local (h : ∀ s ∈ first :: rest, isPlainSegment s.toList = true) :
    NormalPath ((first :: rest).map fun s => encodeSegment true s.toList) where
  notEmpty := by simp
  segment := by
    intro s hs
    obtain ⟨t, ht, rfl⟩ := List.mem_map.mp hs
    obtain ⟨hdot, hdouble, -⟩ := isPlainSegment_iff.mp (h t ht)
    exact normalSegment_encode hdot hdouble

/-- **The first request** arrives if its URL is not too long and the sidecar does not refuse it. -/
theorem head?_local {o : Operation} {bytes : Option Bytes} (haccepted : o.accepted = true)
    (hsegments : o.destination.segments = first :: rest) (hfirst : first ≠ "")
    (h : ∀ s ∈ first :: rest, isPlainSegment s.toList = true)
    (hbody : o.body.mapM Payload.write = .ok bytes) (sidecar : Sidecar) :
    let request := transport.compose o.method (localTarget port (first :: rest)) bytes []
    (o.requests ⟨localUrl port, transport⟩ sidecar).head?
      = if (Utf8.encode request.url.text).length ≤ 65534 ∧ sidecar [request] ≠ .refused then
          some request
        else none := by
  intro request
  have hurl := endpoint_local port transport hfirst h
  rw [← hsegments] at hurl
  have hhead := head?_settled (localUrl_settled port) (.inl rfl) haccepted hurl hbody sidecar
  rw [hsegments] at hhead
  have hshort : Http.isUri request.url.text = true ↔
      (Utf8.encode request.url.text).length ≤ 65534 := by
    rw [composed_url]
    exact isUri_localhost port (normalPath_local h)
  simp only [← hshort]
  exact hhead

/-- A name that is accepted, is no dots and has no tab and no line end. -/
theorem isPlainSegment_of_name {c : String}
    (hends : ∀ x ∈ c.toList, x ≠ '\t' ∧ x ≠ '\n' ∧ x ≠ '\r') (hdot : c ≠ ".") (hdouble : c ≠ "..") :
    isPlainSegment c.toList = true := by
  refine isPlainSegment_iff.mpr ⟨?_, ?_, ?_⟩
  · exact fun h => hdot (String.toList_inj.mp h)
  · exact fun h => hdouble (String.toList_inj.mp h)
  · rw [dropLineEnds, List.filter_eq_self]
    intro x hx
    obtain ⟨htab, hfeed, hreturn⟩ := hends x hx
    simp [htab, hfeed, hreturn]

/-- A plain segment is one segment of the path. -/
theorem slash_not_mem_encodeSegment {s : String} (h : isPlainSegment s.toList = true) :
    '/' ∉ (encodeSegment true s.toList).toList := by
  obtain ⟨hdot, hdouble, -⟩ := isPlainSegment_iff.mp h
  intro hmem
  exact absurd ((normalSegment_encode hdot hdouble).noSlash '/' hmem) (by decide)

end MeshNode.Gateway
