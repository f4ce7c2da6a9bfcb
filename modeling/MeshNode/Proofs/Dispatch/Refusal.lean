/-
# Messages without an envelope

A message to a channel with a handler has to be an envelope: the text of an object with a member
named `data`.  The node refuses what is none, with two exceptions that no sender is told of: an
array of one item is taken for an envelope of that item, and bytes that are no text are not noticed
in a member that is passed over.

* `Enveloped` says what an envelope is, without a reader;
* `refused_without_data`: every other message is refused, the two exceptions apart;
* `array_taken` and `byte_taken`: a message of either kind runs the handler.
-/
import MeshNode.Proofs.Dispatch.Outcome
import MeshNode.Proofs.Envelope.Shape

namespace MeshNode.Dispatch

open Json Url.Percent

variable {κ ρ σ : Type}

/-- The text of an object that has a member named `data`. -/
def Enveloped (body : Bytes) : Prop :=
  (∃ text : String, body = Utf8.encode text) ∧ ObjectWith "data" body

/-- **A message without a payload is refused.**  A POST to the path of a channel that has a handler,
with a body within the limit that is not the text of an object with a member named `data`:
is answered with 400, runs no handler, and counts one malformed message to the channel,
unless the body is an array of one item, or such an object by its bytes though not a text. -/
theorem refused_without_data (behavior : Behavior κ ρ σ) (registry : Registry κ ρ) (state : σ)
    {request : Inbound} {segment : List Char} {name : String} {handler : κ}
    (hposted : request.PostedTo segment) (hname : decodeText? (String.ofList segment) = some name)
    (hhandler : registry.channel? name = some handler)
    (hlength : request.body.length ≤ 2 * 1024 * 1024) (hdata : ¬ Enveloped request.body)
    (harray : ¬ ArrayOfOne request.body)
    (htext : ObjectWith "data" request.body → ∃ text : String, request.body = Utf8.encode text) :
    let d := dispatch behavior registry request state
    (∃ response, d.answer = .response response ∧ response.status = ⟨400⟩) ∧
      d.invocations = [] ∧ d.counts = [.message name .malformed] ∧ d.state = state := by
  intro d
  cases hbody : Envelope.ofBytes request.body with
  | ok e =>
    rcases Envelope.shape_of_ofBytes hbody with hobject | hone
    · exact absurd ⟨htext hobject, hobject⟩ hdata
    · exact absurd hone harray
  | error e =>
    have hd : d = failed (.malformedEnvelope name e) [.message name .malformed] [] state := by
      rw [← dispatchChannel_malformed hname hlength hhandler hbody]
      exact dispatch_posted hposted
    rw [hd]
    exact ⟨⟨_, rfl, rfl⟩, rfl, rfl, rfl⟩

/-- A message that has its payload under another name. -/
theorem payload_refused :
    let registry : Registry Nat Nat := (({} : Registry Nat Nat).registerChannel ⟨"orders"⟩ 7).1
    let body : Bytes := Utf8.encode "\x7b\"payload\": 1\x7d"
    let request : Inbound := ⟨.post, ⟨"", "/channel/orders", none⟩, [], body⟩
    ¬ Enveloped body ∧ ¬ ArrayOfOne body ∧
      ∀ behavior : Behavior Nat Nat Unit,
        (dispatch behavior registry request ()).invocations = [] := by
  intro registry body request
  have hdata : ¬ Enveloped body := by
    intro h
    have ht : (0x74 : UInt8) ∈ body := h.2.mem (by decide) 0x74 (by decide)
    exact absurd ht (by decide)
  have harray : ¬ ArrayOfOne body := fun h => absurd h.mem (by decide)
  have hposted : request.PostedTo "orders".toList := ⟨rfl, by decide, by decide, by decide⟩
  have hname : decodeText? (String.ofList "orders".toList) = some "orders" := by decide +kernel
  have hhandler : registry.channel? "orders" = some 7 := by decide +kernel
  have hlength : body.length ≤ 2 * 1024 * 1024 := by decide +kernel
  refine ⟨hdata, harray, fun behavior => ?_⟩
  exact (refused_without_data behavior registry () hposted hname hhandler hlength hdata harray
    fun _ => ⟨_, rfl⟩).2.1

/-- **An array of one item is taken for an envelope**, and its item for the payload. -/
theorem array_taken :
    let registry : Registry Nat Nat := (({} : Registry Nat Nat).registerChannel ⟨"orders"⟩ 7).1
    let request : Inbound := ⟨.post, ⟨"", "/channel/orders", none⟩, [], Utf8.encode "[1]"⟩
    ¬ Enveloped request.body ∧
      ∀ behavior : Behavior Nat Nat Unit,
        (dispatch behavior registry request ()).invocations = [.channel 7 (.int 1)] := by
  intro registry request
  have hposted : request.PostedTo "orders".toList := ⟨rfl, by decide, by decide, by decide⟩
  have hname : decodeText? (String.ofList "orders".toList) = some "orders" := by decide +kernel
  have hhandler : registry.channel? "orders" = some 7 := by decide +kernel
  have hbody : Envelope.ofBytes request.body = .ok ⟨.int 1⟩ := rfl
  refine ⟨fun h => ?_, fun behavior => ?_⟩
  · have ht : (0x74 : UInt8) ∈ request.body := h.2.mem (by decide) 0x74 (by decide)
    exact absurd ht (by decide)
  · exact invocations_of_envelope hposted hname (by decide +kernel) hhandler hbody

/-- An object is taken in which a member that is passed over holds a byte that is no text. -/
theorem byte_taken :
    let registry : Registry Nat Nat := (({} : Registry Nat Nat).registerChannel ⟨"orders"⟩ 7).1
    let body : Bytes := Utf8.encode "\x7b\"x\":\"" ++ [0xFF] ++ Utf8.encode "\",\"data\":1\x7d"
    let request : Inbound := ⟨.post, ⟨"", "/channel/orders", none⟩, [], body⟩
    ¬ Enveloped request.body ∧
      ∀ behavior : Behavior Nat Nat Unit,
        (dispatch behavior registry request ()).invocations = [.channel 7 (.int 1)] := by
  intro registry body request
  have hposted : request.PostedTo "orders".toList := ⟨rfl, by decide, by decide, by decide⟩
  have hname : decodeText? (String.ofList "orders".toList) = some "orders" := by decide +kernel
  have hhandler : registry.channel? "orders" = some 7 := by decide +kernel
  have hbytes : body = [0x7B, 0x22, 0x78, 0x22, 0x3A, 0x22, 0xFF, 0x22, 0x2C,
      0x22, 0x64, 0x61, 0x74, 0x61, 0x22, 0x3A, 0x31, 0x7D] := by decide
  have hbody : Envelope.ofBytes body = .ok ⟨.int 1⟩ := by rw [hbytes]; rfl
  refine ⟨?_, fun behavior => ?_⟩
  · rintro ⟨⟨text, htext⟩, -⟩
    have hnone : Utf8.decode? request.body = none := by decide +kernel
    rw [htext, Utf8.decode?_encode] at hnone
    cases hnone
  · exact invocations_of_envelope hposted hname (by decide +kernel) hhandler hbody

end MeshNode.Dispatch
