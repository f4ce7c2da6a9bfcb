/-
# Envelopes: from the writer to the reader

A payload is wrapped, written, read and taken out again.  The envelope takes one container of
the budget of the reader, so the deepest payload to come through has one container less than
the deepest value that can be read.  And a payload comes through only if none of its objects begins
with the mark: such an object is written as any other, but it is read as the text of another value.

* `member_yields` and `fromObject_write`: the one member, and the object around it;
* `ofBytes_write_append`: what the reader makes of a written envelope, the refusal and what follows
  the envelope included;
* `ofBytes_write`: which payloads come through, and that they come through unchanged;
* `ofBytes_write_marked`: payloads that do not.
-/
import MeshNode.Envelope
import MeshNode.Proofs.Json.RoundTrip

namespace MeshNode.Envelope

open Json Token

/-- How many containers a payload may open. -/
def payloadDepth : Nat := nesting - 1

variable {v : Json}

/-! ## 1. The one member -/

/-- What the member of an envelope does to the payload held so far. -/
def hold (v : Json) : Option Json → Except Error (Option Json)
  | none => (reread payloadDepth v).map some
  | some _ => .error (.mismatch (.duplicateField dataField))

theorem member_yields (hf : v.floatFree = true) (held : Option Json) :
    Yields (member dataField held) (colon :: v.write) (hold v held) := by
  intro limit r hr hl
  have hv := (value_yields v hf payloadDepth).memberValue limit r hr hl
  have hpayload : payload = value payloadDepth := rfl
  rw [member, if_pos rfl, hpayload]
  cases held with
  | none =>
    rw [fieldOnce, hv, hold]
    cases reread payloadDepth v <;> rfl
  | some _ => rfl

/-- **The text of an envelope** is an object of one member. -/
theorem write_eq (v : Json) :
    write ⟨v⟩ = openBrace :: (separated [memberText dataField v.write] ++ [closeBrace]) :=
  write_obj [(dataField, v)]

theorem fromObject_write (hf : v.floatFree = true) (limit : Nat) (r : Bytes)
    (hl : (separated [memberText dataField v.write] ++ closeBrace :: r).length < limit) :
    fromObject limit (separated [memberText dataField v.write] ++ closeBrace :: r)
      = (reread payloadDepth v).map fun v => (⟨v⟩, r) := by
  have hmembers : members member none limit
        (separated [memberText dataField v.write] ++ closeBrace :: r)
      = ([v].foldlM (fun held v => hold v held) none).map (·, r) :=
    members_separated member (fun _ => dataField) [v]
      (fun w hw held => List.mem_singleton.mp hw ▸ member_yields hf held) none hl
  rw [fromObject, hmembers, List.foldlM_cons, hold]
  cases reread payloadDepth v <;> rfl

/-! ## 2. The whole text -/

/-- The envelope is read off the front of a text, and what follows it is left. -/
theorem reader_write (hf : v.floatFree = true) {limit : Nat} (r : Bytes)
    (hl : (write ⟨v⟩ ++ r).length < limit) :
    reader limit (write ⟨v⟩ ++ r) = (reread payloadDepth v).map fun v => (⟨v⟩, r) := by
  have htext : write ⟨v⟩ ++ r
      = openBrace :: (separated [memberText dataField v.write] ++ closeBrace :: r) := by
    simp [write_eq]
  rw [htext] at hl ⊢
  rw [List.length_cons] at hl
  rw [reader, record, skipSpaces_cons (by decide)]
  exact fromObject_write hf limit r (by omega)

/-- What the reader makes of a written envelope with something behind it: only white space is not
held against it. -/
theorem ofBytes_write_append (hf : v.floatFree = true) (r : Bytes) :
    ofBytes (write ⟨v⟩ ++ r)
      = (reread payloadDepth v).bind fun v =>
          if skipSpaces r = [] then .ok ⟨v⟩ else .error .malformed := by
  rw [ofBytes, fromBytes, reader_write hf r (Nat.lt_succ_self _)]
  cases reread payloadDepth v with
  | error e => rfl
  | ok w =>
    simp only [Except.map, Except.bind]
    split
    · next hr => rw [if_pos hr]
    · next hr => rw [if_neg (by rw [hr]; exact List.cons_ne_nil _ _)]

/-- What the reader makes of a written envelope: it is as with the payload alone, in a budget
of one container less. -/
theorem ofBytes_write_eq (hf : v.floatFree = true) :
    ofBytes (write ⟨v⟩) = (reread payloadDepth v).map Envelope.mk := by
  have hread := ofBytes_write_append hf []
  rw [List.append_nil] at hread
  rw [hread]
  cases reread payloadDepth v <;> rfl

/-- **When an envelope comes through** with its payload. -/
theorem ofBytes_write_iff (v : Document) (hf : v.value.floatFree = true) :
    ofBytes (write ⟨v⟩) = .ok ⟨v⟩ ↔ v.value.depth ≤ payloadDepth ∧ v.value.rawFree = true := by
  rw [ofBytes_write_eq hf, ← reread_eq_ok_iff v hf]
  cases reread payloadDepth v.value with
  | error e => exact iff_of_false nofun nofun
  | ok w => simp [Except.map]

/-- **The round trip of an envelope**, and where it ends.

* A payload comes through as it was if, and only if, it opens no more than `payloadDepth` containers
  at once and none of its objects begins with the mark.
* Where none does, there is nothing between coming through and a refusal: with one container more
  the text is refused as no JSON at all. -/
theorem ofBytes_write (v : Document) (hf : v.value.floatFree = true) :
    (ofBytes (write ⟨v⟩) = .ok ⟨v⟩ ↔ v.value.depth ≤ 126 ∧ v.value.rawFree = true) ∧
    (v.value.rawFree = true →
      ((∃ e, ofBytes (write ⟨v⟩) = .ok e) ↔ v.value.depth ≤ 126) ∧
      (∀ e, ofBytes (write ⟨v⟩) = .ok e → e.data = v) ∧
      (127 ≤ v.value.depth →
        ∃ err, ofBytes (write ⟨v⟩) = .error err ∧ err.category = "syntax")) := by
  refine ⟨ofBytes_write_iff v hf, fun hfree => ?_⟩
  rw [ofBytes_write_eq hf, reread_document v hf hfree]
  by_cases h : v.value.depth ≤ 126
  · rw [within_of_le (show v.value.depth ≤ payloadDepth from h)]
    refine ⟨⟨fun _ => h, fun _ => ⟨⟨v⟩, rfl⟩⟩, ?_, fun hdeep => absurd h (by omega)⟩
    intro e he
    cases he
    rfl
  · rw [within_of_lt (show payloadDepth < v.value.depth from Nat.lt_of_not_le h)]
    refine ⟨⟨?_, fun hle => absurd hle h⟩, ?_, fun _ => ⟨.malformed, rfl, rfl⟩⟩
    · rintro ⟨e, he⟩
      cases he
    · intro e he
      cases he

theorem ofBytes_write_nested :
    let v : Document := ⟨.obj [("a", .arr [.int (-1), .str "é"]), ("b", .null)], by decide⟩
    v.value.floatFree = true ∧ v.value.rawFree = true ∧ ofBytes (write ⟨v⟩) = .ok ⟨v⟩ := by
  intro v
  have hf : v.value.floatFree = true := by decide
  have hm : v.value.rawFree = true := by decide
  exact ⟨hf, hm, (ofBytes_write v hf).1.mpr ⟨by decide, hm⟩⟩

/-- What is read where a number stands behind the mark: no text that could be another value. -/
theorem reread_marked_int : reread payloadDepth (.obj [(rawMark, .int 5), ("a", .int 0)])
    = .error (.mismatch (.wrongType (.int 5) .raw)) :=
  (raw_yields (by decide) [("a", .int 0)]).outcome_eq

/-- A payload that comes through as another one, and a payload that is refused although it opens no
more than one container. -/
theorem ofBytes_write_marked :
    let number : Document := ⟨.obj [(rawMark, .str "1")], by decide⟩
    let refused : Document := ⟨.obj [(rawMark, .int 5), ("a", .int 0)], by decide⟩
    (number.value.floatFree = true ∧ number.value.depth ≤ 126 ∧
      ofBytes (write ⟨number⟩) = .ok ⟨.int 1⟩) ∧
    (refused.value.floatFree = true ∧ refused.value.depth ≤ 126 ∧
      ∃ err, ofBytes (write ⟨refused⟩) = .error err ∧
        err.message = "invalid type: integer `5`, expected raw value") := by
  intro number refused
  have hnumber : reread payloadDepth number.value = .ok (.int 1) := by
    refine (raw_yields (by decide) []).outcome_eq.trans ?_
    rfl
  have hmessage : (Error.mismatch (.wrongType (.int 5) .raw)).message
      = "invalid type: integer `5`, expected raw value" := by decide
  refine ⟨⟨by decide, by decide, ?_⟩, by decide, by decide, _, ?_, hmessage⟩
  · rw [ofBytes_write_eq (by decide), hnumber]
    rfl
  · rw [ofBytes_write_eq (by decide), reread_marked_int]
    rfl

end MeshNode.Envelope
