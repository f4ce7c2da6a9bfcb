/-
# Written values delimit themselves

A reader needs no mark behind a written value to find its end.  A string ends at its closing mark,
whatever follows; so do arrays and objects, and a word ends with its last letter.  Only a number goes
on as long as it can, so what follows a value must not go on a number.  And the reader is left as it
was: however many values were read before, the next one may open as many containers as the first.

* `literal_written_string`: strings, beside `text_written_string` and `value_written_string`;
* `items_within`: values one behind the other, each with the whole budget;
* `written_read_off`: what is read off the front of a text, and what is left of it.
-/
import MeshNode.Proofs.Json.Codec

namespace MeshNode.Json

open Token

variable {r : Bytes} {limit : Nat}

/-- A written string as a key is read: its opening mark first, and the string from behind it. -/
theorem literal_written_string (s : String) (hl : (Literal.bytes s ++ r).length < limit) :
    ∃ behind, Literal.bytes s ++ r = quote :: behind ∧ literal limit behind = .ok (s, r) := by
  rw [Literal.bytes_append] at hl ⊢
  rw [List.length_cons] at hl
  exact ⟨_, rfl, literal_inner s (by omega)⟩

/-- **Values one behind the other** are all read if the budget is enough for each of them, and else
refused: what was read before takes nothing from the budget and adds nothing to it. -/
theorem items_within {vs : List Document}
    (h : ∀ v ∈ vs, v.value.floatFree = true ∧ v.value.rawFree = true) (budget : Nat)
    (hl : (separated (vs.map fun v => v.value.write) ++ closeBracket :: r).length < limit) :
    items (value budget) limit (separated (vs.map fun v => v.value.write) ++ closeBracket :: r)
      = if ∀ v ∈ vs, v.value.depth ≤ budget then .ok (vs.map Document.value, r)
        else .error .malformed := by
  have hread := items_separated vs (fun v hv => value_yields v.value (h v hv).1 budget)
    (fun v hv => starts_write v.value (h v hv).1) hl
  have heach : ∀ v ∈ vs, reread budget v.value
      = if v.value.depth ≤ budget then .ok v.value else .error .malformed :=
    fun v hv => reread_document v (h v hv).1 (h v hv).2 budget
  rw [hread, mapM_eq_ite heach]
  split <;> rfl

/-- **What is written is read off the front of a text, and nothing else.**

* A string is read from its literal, by the readers of strings, of values and of keys, and exactly
  what follows is left, whatever it is.
* A value without doubles is read from its text, unless what follows begins with a byte that goes on
  a number, if the budget is enough for it and none of its objects begins with the mark, and in no
  other case.  Where another value is read in its place, it ends where the written one does.
* The budget is whole again behind a value: of values one behind the other, each is read or refused
  as if it came first. -/
theorem written_read_off (budget : Nat) (r : Bytes) (limit : Nat) :
    (∀ s : String, (Literal.bytes s ++ r).length < limit →
      text limit (Literal.bytes s ++ r) = .ok (s, r) ∧
      value budget limit (Literal.bytes s ++ r) = .ok (.str s, r) ∧
      ∃ behind, Literal.bytes s ++ r = quote :: behind ∧ literal limit behind = .ok (s, r)) ∧
    (∀ v : Document, v.value.floatFree = true →
      (∀ b ∈ r.head?, isDigit b = false ∧ b ≠ point ∧ isExponentMark b = false) →
      (v.value.write ++ r).length < limit →
        (value budget limit (v.value.write ++ r) = .ok (v.value, r) ↔
          v.value.depth ≤ budget ∧ v.value.rawFree = true) ∧
        ∀ w rest, value budget limit (v.value.write ++ r) = .ok (w, rest) → rest = r) ∧
    (∀ vs : List Document, (∀ v ∈ vs, v.value.floatFree = true ∧ v.value.rawFree = true) →
      (separated (vs.map fun v => v.value.write) ++ closeBracket :: r).length < limit →
        items (value budget) limit (separated (vs.map fun v => v.value.write) ++ closeBracket :: r)
          = if ∀ v ∈ vs, v.value.depth ≤ budget then .ok (vs.map Document.value, r)
            else .error .malformed) := by
  refine ⟨fun s hl => ?_, fun v hf hr hl => ?_, fun vs hvs hl => items_within hvs budget hl⟩
  · exact ⟨text_written_string s hl, value_written_string budget s hl, literal_written_string s hl⟩
  · have hread := value_yields v.value hf budget limit r hr hl
    rw [hread, ← reread_eq_ok_iff v hf]
    cases reread budget v.value with
    | error e => exact ⟨iff_of_false nofun nofun, nofun⟩
    | ok w =>
      refine ⟨by simp [Except.map], fun w' rest h => ?_⟩
      cases h
      rfl

/-- A string in front of a digit, the least number in front of a minus, and two containers one behind
the other in a budget of one. -/
theorem written_read_off_adjacent :
    let n : Document := ⟨.int (-9223372036854775808), rfl⟩
    let vs : List Document := [⟨.obj [("n", n)], by decide⟩, ⟨.arr [], rfl⟩]
    text 100 (Literal.bytes "a\"\n€" ++ ascii "7") = .ok ("a\"\n€", ascii "7") ∧
    (n.value.floatFree = true ∧ n.value.depth ≤ 0 ∧ n.value.rawFree = true ∧
      value 0 100 (n.value.write ++ ascii "-") = .ok (n.value, ascii "-")) ∧
    (∀ v ∈ vs, v.value.floatFree = true ∧ v.value.rawFree = true) ∧
    (∀ v ∈ vs, v.value.depth ≤ 1) ∧
    items (value 1) 100 (separated (vs.map fun v => v.value.write) ++ closeBracket :: ascii "7")
      = .ok (vs.map Document.value, ascii "7") := by
  intro n vs
  obtain ⟨hstrings, -, hitems⟩ := written_read_off 1 (ascii "7") 100
  obtain ⟨-, hvalues, -⟩ := written_read_off 0 (ascii "-") 100
  have hn : n.value.floatFree = true ∧ n.value.depth ≤ 0 ∧ n.value.rawFree = true := by decide
  have hvs : ∀ v ∈ vs, v.value.floatFree = true ∧ v.value.rawFree = true := by
    simp only [vs, List.forall_mem_cons, List.not_mem_nil, false_implies, implies_true, and_true]
    decide
  have hdepth : ∀ v ∈ vs, v.value.depth ≤ 1 := by
    simp only [vs, List.forall_mem_cons, List.not_mem_nil, false_implies, implies_true, and_true]
    decide
  refine ⟨(hstrings _ (by decide +kernel)).1, ⟨hn.1, hn.2.1, hn.2.2, ?_⟩, hvs, hdepth, ?_⟩
  · have hminus : ∀ b ∈ (ascii "-").head?,
        isDigit b = false ∧ b ≠ point ∧ isExponentMark b = false := by
      rintro _ ⟨⟩
      decide
    exact (hvalues n hn.1 hminus (by decide +kernel)).1.mpr hn.2
  · rw [hitems vs hvs (by decide +kernel), if_pos hdepth]

/-- An object that begins with the mark is not read off the front of its text: in its place comes the
value whose text it holds. -/
theorem written_read_off_marked :
    let v : Document := ⟨.obj [(rawMark, .str "1")], by decide⟩
    v.value.floatFree = true ∧ v.value.depth ≤ nesting ∧
      value nesting 100 (v.value.write ++ [comma]) = .ok (.int 1, [comma]) := by
  intro v
  have hread : reread nesting v.value = .ok (.int 1) := by
    refine (raw_yields (by decide) []).outcome_eq.trans ?_
    rfl
  have hyields := value_yields v.value (by decide) nesting 100 [comma] (delimited_comma [])
    (by decide +kernel)
  rw [hread] at hyields
  exact ⟨by decide, by decide, hyields⟩

end MeshNode.Json
