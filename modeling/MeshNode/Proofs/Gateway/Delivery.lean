/-
# Delivery of publications

A publication is delivered when a POST with the enveloped payload was answered with success.
The gateway looks at the last answer alone, and on the way to it the client may have turned the
POST into a GET; so the word of the gateway is good for some chains of redirections only.

* `Delivered` says what a caller may expect of a publication that did not fail;
* `publish_ok`: the chain behind a publication that did not fail;
* `delivered_iff`: when it was delivered indeed.
-/
import MeshNode.Proofs.Gateway.Operation

namespace MeshNode.Gateway

variable {g : Gateway} {sidecar : Sidecar} {channel : String} {payload : Payload}

/-! ## 1. Publications that did not fail -/

/-- Among the exchanges is a POST with the payload in its envelope, and it succeeded. -/
def Delivered (payload : Payload) (exchanges : List Exchange) : Prop :=
  ∃ e ∈ exchanges, e.request.method = .post ∧ payload.wrapped.write = .ok e.request.body ∧
    e.succeeded = true

/-- **Behind a publication that did not fail** is a chain that began with the POST of the
payload and ended with a success. -/
theorem publish_ok (h : (g.publish sidecar channel payload).result = .ok ()) :
    ∃ request hops last, Chain request hops last ∧ request.method = .post ∧
      payload.wrapped.write = .ok request.body ∧ last.succeeded = true ∧
      (g.publish sidecar channel payload).exchanges = hops ++ [last] := by
  rw [publish] at h ⊢
  cases hname : ChannelName.ofString? channel with
  | error e =>
    rw [hname] at h
    cases h
  | ok name =>
    cases hurl : g.endpoint [channelSegment, name.text] with
    | error e =>
      simp only [hname, hurl] at h
      cases h
    | ok url =>
      cases hsent : (g.transport.post sidecar url.text payload.wrapped []).result with
      | error e =>
        simp only [hname, hurl, hsent] at h
        cases h
      | ok response =>
        simp only [hname, hurl, hsent] at h ⊢
        by_cases hok : response.isSuccess = true
        · obtain ⟨target, bytes, hops, last, -, hb, hchain, hexchanges, hlast⟩ :=
            Transport.send_ok hsent
          rw [if_pos hok]
          exact ⟨_, hops, last, hchain, Transport.compose_method, Transport.written_some hb,
            by rw [Exchange.succeeded, hlast]; exact hok, hexchanges⟩
        · rw [if_neg hok] at h
          cases h

/-- **When a publication that did not fail was delivered**: when every reply on the way to the
last one asked for the same request once more.  Any other redirection loses the payload. -/
theorem delivered_iff (h : (g.publish sidecar channel payload).result = .ok ()) :
    Delivered payload (g.publish sidecar channel payload).exchanges ↔
      ∀ e ∈ (g.publish sidecar channel payload).exchanges.dropLast, e.repeats = true := by
  obtain ⟨request, hops, last, hchain, hpost, hbody, hlast, hexchanges⟩ := publish_ok h
  rw [hexchanges, List.dropLast_concat]
  rcases hchain.post_last hpost with ⟨hall, hmethod, hsame⟩ | ⟨hnot, hget⟩
  · refine iff_of_true ⟨last, by simp, hmethod, hsame ▸ hbody, hlast⟩ hall
  · refine iff_of_false ?_ hnot
    rintro ⟨e, he, hmethod, -, hok⟩
    rcases List.mem_append.mp he with he | he
    · rw [hchain.hops_not_succeeded e he] at hok
      cases hok
    · rw [List.mem_singleton.mp he, hget] at hmethod
      exact absurd hmethod (by decide)

/-! ## 2. One redirection -/

/-- A sidecar that redirects the first request and is content with any other. -/
def detour (status : Status) : Sidecar
  | [_] => .complete ⟨status, [("location", Utf8.encode "/done")], []⟩
  | _ => .complete ⟨.ok, [], []⟩

/-- After a redirection that repeats the request, the payload is there. -/
theorem delivered_after_repeat :
    (nearby.publish (detour ⟨307⟩) "orders" (.json (.int 1))).result = .ok () ∧
      Delivered (.json (.int 1))
        (nearby.publish (detour ⟨307⟩) "orders" (.json (.int 1))).exchanges := by
  have hok : (nearby.publish (detour ⟨307⟩) "orders" (.json (.int 1))).result = .ok () :=
    eq_ok_of_toOption (by decide +kernel)
  exact ⟨hok, (delivered_iff hok).mpr (by decide +kernel)⟩

/-- **After one that does not, it is lost**: the POST was redirected, a GET was sent in its
place, and the gateway takes the answer to the GET for the answer to the publication. -/
theorem not_delivered_after_found :
    (nearby.publish (detour ⟨302⟩) "orders" (.json (.int 1))).result = .ok () ∧
      ¬ Delivered (.json (.int 1))
        (nearby.publish (detour ⟨302⟩) "orders" (.json (.int 1))).exchanges := by
  refine ⟨eq_ok_of_toOption (by decide +kernel), ?_⟩
  rintro ⟨e, he, hmethod, -, hok⟩
  have hall : ∀ e ∈ (nearby.publish (detour ⟨302⟩) "orders" (.json (.int 1))).exchanges,
      e.request.method = .post → e.succeeded = false := by decide +kernel
  rw [hall e he hmethod] at hok
  cases hok

end MeshNode.Gateway
