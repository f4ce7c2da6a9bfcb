/-
# Envelopes: which texts are taken

The reader of envelopes takes two shapes of text.  One is what the writer gives: an object with the
payload under its key.  The other is an array of the payload alone, which nobody writes: the reader
of a record takes its fields in their order, without their names.

* `shape_of_ofBytes`: no other text is taken;
* `ofBytes_array`: the second shape is taken for every payload that the first would carry.
-/
import MeshNode.Proofs.Envelope.RoundTrip
import MeshNode.Proofs.Json.Skipped

namespace MeshNode.Envelope

open Json Token

variable {s rest body : Bytes} {limit : Nat} {e : Envelope} {v : Json}

/-! ## 1. No other text -/

theorem payload_sound : Sound payload := value_sound (nesting - 1)

/-- A member is read or passed over, and only the key of the payload changes what is held. -/
theorem member_sound : SoundMembers (· = dataField) member := by
  intro key held held' limit s rest h
  rw [member.eq_def] at h
  split at h
  · next hkey =>
    rw [fieldOnce.eq_def] at h
    dsimp only at h
    split at h
    · cases h
    · obtain ⟨⟨v, s'⟩, hvalue, heq⟩ := ok_of_map h
      cases heq
      exact ⟨payload_sound.memberValue hvalue, .inl hkey⟩
  · obtain ⟨⟨v, s'⟩, hvalue, heq⟩ := ok_of_map h
    cases heq
    exact ⟨skip_sound.memberValue hvalue, .inr rfl⟩

/-- An object that is taken has a member with the key of the payload. -/
theorem objectEnd_of_fromObject (h : fromObject limit s = .ok (e, rest)) :
    ∃ members, ObjectEnd members s rest ∧ ∃ m ∈ members, m.Named dataField := by
  rw [fromObject] at h
  split at h
  · cases h
  · next data s' hmembers =>
    cases h
    obtain ⟨members, hend, hsame | ⟨m, hm, name, rfl, hnamed⟩⟩ := member_sound.objectEnd hmembers
    · cases hsame
    · exact ⟨members, hend, m, hm, hnamed⟩
  · cases h

/-- An array that is taken begins with a value. -/
theorem valueAt_of_fromArray (h : fromArray limit s = .ok (e, rest)) : ValueAt s rest := by
  rw [fromArray] at h
  split at h
  · cases h
  · next data s' hitem =>
    cases h
    exact payload_sound.firstItem hitem
  · cases h

theorem objectWith_of_end {name : String} {members : List Member} {ws : Bytes} (hws : Blank ws)
    (hend : ObjectEnd members s rest) (hrest : Blank rest) (hnamed : ∃ m ∈ members, m.Named name) :
    ObjectWith name (ws ++ openBrace :: s) := by
  obtain ⟨hmembers, ⟨rfl, -⟩ | rfl⟩ := hend
  · obtain ⟨m, hm, -⟩ := hnamed
    cases hm
  · exact ⟨ws, rest, members, hws, hrest, hmembers, hnamed, rfl⟩

/-- **A text that is taken** is an object with a member named `data`, or an array of one item. -/
theorem shape_of_ofBytes (h : ofBytes body = .ok e) : ObjectWith "data" body ∨ ArrayOfOne body := by
  obtain ⟨rest, hread, hrest⟩ := fromBytes_eq_ok_iff.mp h
  rw [reader, record] at hread
  split at hread
  · cases hread
  next b more hmore =>
  obtain ⟨ws, hws, rfl⟩ := blank_of_skipSpaces hmore
  split at hread
  · next hbrace =>
    obtain ⟨members, hend, hnamed⟩ := objectEnd_of_fromObject hread
    rw [hbrace]
    exact .inl (objectWith_of_end hws hend hrest hnamed)
  split at hread
  · next hbracket =>
    split at hread
    · cases hread
    next e' s' hitem =>
    split at hread
    · cases hread
    next s'' hclose =>
    cases hread
    obtain ⟨after, hafter, hs'⟩ := blank_of_closeArray hclose
    obtain ⟨item, hvalue, rfl⟩ := (valueAt_of_fromArray hitem).item hafter hs'
    rw [hbracket]
    exact .inr ⟨ws, rest, item, hws, hrest, hvalue, rfl⟩
  · rw [unexpected] at hread
    split at hread
    · cases hread
    · cases hread

/-! ## 2. The second shape -/

/-- **An array of a payload alone** comes through as the envelope of the payload would. -/
theorem ofBytes_array (hf : v.floatFree = true) :
    ofBytes (openBracket :: (v.write ++ [closeBracket]))
      = (reread payloadDepth v).map Envelope.mk := by
  have hpayload := value_yields v hf payloadDepth
    ((openBracket :: (v.write ++ [closeBracket])).length + 1) [closeBracket]
    (delimited_closeBracket []) (by rw [List.length_cons]; omega)
  have hnext := nextItem_first (starts_write v hf) [closeBracket]
  rw [ofBytes, fromBytes, reader, record]
  generalize (openBracket :: (v.write ++ [closeBracket])).length + 1 = limit at hpayload ⊢
  rw [skipSpaces_cons (by decide)]
  have hitem : optionalItem true payload limit (v.write ++ [closeBracket])
      = (reread payloadDepth v).map fun v => (some v, [closeBracket]) := by
    rw [optionalItem, hnext]
    dsimp only
    rw [show payload = value payloadDepth from rfl, hpayload]
    cases reread payloadDepth v <;> rfl
  simp only [if_neg (show openBracket ≠ openBrace by decide), if_pos, fromArray, hitem]
  cases reread payloadDepth v <;> rfl

end MeshNode.Envelope
