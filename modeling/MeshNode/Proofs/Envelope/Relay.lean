/-
# Envelopes that are passed on

A node that publishes what it receives passes a message on.  The message may have come in any form
that the reader takes: with white space and escapes, with members that are passed over, with keys
that are repeated, or as an array of the payload.  Behind the first node it has the form of the
writer, and that it keeps, over any number of nodes, unless this form is one that is not read back:
an object of the payload begins with the mark, or the payload was the text of another one and opens
more containers than an envelope leaves room for.

* `ofBytes_readable`: what is known of a payload that was taken;
* `relay` and `relayed`: what one node, and what several nodes make of a message;
* `relayed_unchanged`: when the message arrives as it was, if it holds no double;
* `relayed_marked`: a message that is taken and gets lost on its way.
-/
import Mathlib
import MeshNode.Proofs.Envelope.RoundTrip
import MeshNode.Proofs.Json.Readable
import MeshNode.Transport.Payload

namespace MeshNode.Envelope

open Json Token

variable {body : Bytes} {e : Envelope}

/-! ## 1. Payloads that were taken -/

/-- Every member leaves a payload that can be carried, or none. -/
theorem member_keeps : Keeps member fun held => ∀ v ∈ held, Readable v := by
  intro key held hheld limit s rest held' hread
  unfold member at hread
  split at hread
  · exact (value_readable payloadDepth).fieldOnce dataField held hread
  · obtain ⟨⟨v, s'⟩, -, heq⟩ := ok_of_map hread
    cases heq
    exact hheld

theorem fromObject_gives : Gives fromObject fun e => Readable e.data := by
  intro limit s rest e hread
  unfold fromObject at hread
  split at hread
  · cases hread
  · next hmembers =>
    cases hread
    exact member_keeps.members (by simp) hmembers _ rfl
  · cases hread

theorem fromArray_gives : Gives fromArray fun e => Readable e.data := by
  intro limit s rest e hread
  unfold fromArray at hread
  split at hread
  · cases hread
  · next hitem =>
    cases hread
    exact (value_readable payloadDepth).optionalItem true hitem _ rfl
  · cases hread

/-- **A payload that was taken** is readable. -/
theorem ofBytes_readable (h : ofBytes body = .ok e) : Readable e.data :=
  (fromObject_gives.record fromArray_gives "Envelope").fromBytes h

/-- When its envelope is read back, if it holds no double. -/
theorem ofBytes_write_of_ofBytes (h : ofBytes body = .ok e)
    (hfloat : ∀ x, ¬ Contains (.float x) e.data) :
    ofBytes e.write = .ok e ↔ e.data.depth ≤ 126 ∧ e.data.rawFree = true := by
  have hread := ofBytes_readable h
  have hfree : e.data.floatFree = true := (floatFree_iff e.data).mpr ⟨hfloat, hread.words⟩
  exact ofBytes_write_iff ⟨e.data, hread.ordered⟩ hfree

/-! ## 2. Nodes in a row -/

/-- What a node sends that publishes the payload of the message it received. -/
def relay (body : Bytes) : Except EncodeError Bytes :=
  match ofBytes body with
  | .ok e => (Payload.json e.data).wrapped.write
  | .error cause => .error (.json cause)

/-- What comes of a message behind several such nodes. -/
def relayed : Nat → Bytes → Except EncodeError Bytes
  | 0, body => .ok body
  | n + 1, body => (relay body).bind (relayed n)

/-- A node that takes a message writes its envelope. -/
theorem relay_eq (h : ofBytes body = .ok e) : relay body = .ok e.write := by
  unfold relay
  rw [h]
  rfl

/-- A message in the form of the writer keeps it. -/
theorem relayed_write (h : ofBytes e.write = .ok e) (n : Nat) :
    relayed n e.write = .ok e.write := by
  induction n with
  | zero => rfl
  | succ n ih =>
    rw [relayed, relay_eq h]
    exact ih

/-- **When a message is passed on unchanged.**  Whatever text a message was taken from, if it holds
no double, then its envelope as it is written gives the same message just when it opens no more
containers than an envelope leaves room for and no object in it begins with the mark.  Then it is
written the same way again, so behind every node in a row stands that one text, and each of them
takes it.  Messages with equal payloads have the same text in any case. -/
theorem relayed_unchanged (h : ofBytes body = .ok e)
    (hfloat : ∀ x, ¬ Contains (.float x) e.data) :
    (ofBytes e.write = .ok e ↔ e.data.depth ≤ 126 ∧ e.data.rawFree = true) ∧
    (e.data.depth ≤ 126 ∧ e.data.rawFree = true →
      (∀ e', ofBytes e.write = .ok e' → e'.write = e.write) ∧
      ∀ n, relayed (n + 1) body = .ok e.write) ∧
    (∀ body' e', ofBytes body' = .ok e' → (e.data == e'.data) = true → e'.write = e.write) := by
  have hback := ofBytes_write_of_ofBytes h hfloat
  refine ⟨hback, fun hfits => ⟨?_, ?_⟩, ?_⟩
  · intro e' he'
    rw [hback.mpr hfits] at he'
    cases he'
    rfl
  · intro n
    rw [relayed, relay_eq h]
    exact relayed_write (hback.mpr hfits) n
  · intro body' e' _ hsame
    obtain ⟨v⟩ := e
    obtain ⟨w⟩ := e'
    rw [eq_of_same v hfloat w hsame]

/-- A message in the form of an array, with white space, an escaped character beyond the first
plane, a key that is repeated and keys out of order. -/
theorem relayed_array :
    let body := Utf8.encode "\n[ \x7b \"b\" : 1, \"a\":[-7 ,\"\\ud83d\\ude00\"] ,\"b\": null \x7d ]"
    let e : Envelope := ⟨.obj [("a", .arr [.int (-7), .str "😀"]), ("b", .null)]⟩
    ofBytes body = .ok e ∧ (∀ x, ¬ Contains (.float x) e.data) ∧
      relayed 3 body = .ok (Utf8.encode "\x7b\"data\":\x7b\"a\":[-7,\"😀\"],\"b\":null\x7d\x7d") := by
  intro body e
  have h : ofBytes body = .ok e := by
    unfold body
    cbv
  have hfloat : ∀ x, ¬ Contains (.float x) e.data := ((floatFree_iff e.data).mp (by decide)).1
  have htext : e.write = Utf8.encode "\x7b\"data\":\x7b\"a\":[-7,\"😀\"],\"b\":null\x7d\x7d" := by
    decide +kernel
  obtain ⟨-, hrelayed, -⟩ := relayed_unchanged h hfloat
  exact ⟨h, hfloat, htext ▸ (hrelayed ⟨by decide, by decide⟩).2 2⟩

/-- **A message that gets lost.**  Its object begins with another key, and so it is taken; with its
keys in order the mark comes first, and the text that is sent is refused. -/
theorem relayed_marked :
    let body := Utf8.encode "\x7b\"data\":\x7b\"a\":1,\"$serde_json::private::RawValue\":5\x7d\x7d"
    let e : Envelope := ⟨.obj [(rawMark, .int 5), ("a", .int 1)]⟩
    ofBytes body = .ok e ∧ (∀ x, ¬ Contains (.float x) e.data) ∧ ofBytes e.write ≠ .ok e := by
  intro body e
  have hfloat : ∀ x, ¬ Contains (.float x) e.data := ((floatFree_iff e.data).mp (by decide)).1
  have hsame : ((ofBytes body).toOption.all fun e' => e.data == e'.data) = true ∧
      (ofBytes body).toOption.isSome = true := by
    decide +kernel
  have h : ofBytes body = .ok e := by
    cases hread : ofBytes body with
    | error err => simp [hread, Except.toOption] at hsame
    | ok e' =>
      rw [hread] at hsame
      obtain ⟨w⟩ := e'
      have hdata : e.data = w := eq_of_same e.data hfloat w hsame.1
      rw [← hdata]
  exact ⟨h, hfloat, fun hback =>
    absurd ((ofBytes_write_of_ofBytes h hfloat).mp hback).2 (by decide)⟩

end MeshNode.Envelope
