/-
# Envelopes with other members

An envelope may say more than its reader asks for.  Members with other names are passed over,
wherever they stand and however often their names are repeated; their values may be deeper than any
budget, and may hold numbers beyond every range and halves of characters.  None of this changes what
is made of the payload, for its value is read in the same budget and comes to the same wherever it
stands.

* `step` is what one member does to what is held, `member_stepsOver` the reader doing it;
* `fold_others`: members with other names leave what is held as it is;
* `ofBytes_object`: what the reader makes of an object with one member for the payload;
* `ofBytes_beside_others`: it is what it makes of that member alone.
-/
import Mathlib
import MeshNode.Envelope
import MeshNode.Proofs.Json.Steady

namespace MeshNode.Envelope

open Json Token

variable {ws ws' t : Bytes} {before after : List Member} {d m : Member}

/-! ## 1. One member -/

/-- What a member of the given name does to the payload that is held. -/
def step (name : String) (held : Option Json) (m : Member) : Except Error (Option Json) :=
  if name = dataField then
    match held with
    | some _ => .error (.mismatch (.duplicateField dataField))
    | none => (outcome payload m.item.value).map some
  else .ok held

/-- **The reader of members takes that step**, whatever the value of the member is. -/
theorem member_stepsOver (h : ValueText m.item.value) : StepsOver member step m := by
  intro name _ held limit r hr hl
  rw [member.eq_def, step.eq_def]
  by_cases hname : name = dataField
  · rw [if_pos hname, if_pos hname, fieldOnce.eq_def]
    cases held with
    | some v => rfl
    | none =>
      have hpayload : Steady payload m.item.value := value_steady h (nesting - 1)
      exact (hpayload.field.map some) limit r hr hl
  · rw [if_neg hname, if_neg hname]
    dsimp only
    rw [skip_field h limit r hr hl]
    rfl

/-- A member with a name that is not the payload's. -/
def Other (m : Member) : Prop := ∃ name, m.Named name ∧ name ≠ dataField

/-- **Members with other names** leave what is held as it is. -/
theorem fold_others {ms : List Member} (h : ∀ m ∈ ms, Other m) (held : Option Json) :
    ms.foldlM (memberStep step) held = .ok held := by
  induction ms with
  | nil => rfl
  | cons m ms ih =>
    obtain ⟨name, hnamed, hname⟩ := h m List.mem_cons_self
    have hstep : memberStep step held m = .ok held := by
      rw [memberStep, hnamed.spelled, Except.bind, step.eq_def, if_neg hname]
    rw [List.foldlM_cons, hstep]
    exact ih fun x hx => h x (List.mem_cons_of_mem m hx)

/-- The member of the payload, among others, leaves what its value comes to. -/
theorem fold_payload (hd : d.Named dataField) (hbefore : ∀ m ∈ before, Other m)
    (hafter : ∀ m ∈ after, Other m) :
    (before ++ d :: after).foldlM (memberStep step) none
      = (outcome payload d.item.value).map some := by
  have hstep : memberStep step none d = (outcome payload d.item.value).map some := by
    rw [memberStep, hd.spelled, Except.bind, step, if_pos rfl]
  rw [List.foldlM_append, fold_others hbefore]
  simp only [bind, Except.bind, List.foldlM_cons, hstep]
  cases outcome payload d.item.value with
  | error e => rfl
  | ok v => exact fold_others hafter (some v)

/-! ## 2. The whole text -/

theorem reader_skipsBlank : SkipsBlank reader := by
  intro ws hws limit s
  rw [reader, record, skipSpaces_blank hws]
  rfl

/-- What the reader makes of an object with one member for the payload. -/
theorem ofBytes_object (before after : List Member) (hws : Blank ws) (hws' : Blank ws')
    (hd : d.Named dataField)
    (ht : ValueText d.item.value)
    (hothers : ∀ m ∈ before ++ after, ValueText m.item.value ∧ Other m) :
    ofBytes (ws ++ openBrace :: (separated ((before ++ d :: after).map Member.text)
        ++ closeBrace :: ws'))
      = (outcome payload d.item.value).map Envelope.mk := by
  have hsteps : ∀ m ∈ before ++ d :: after, StepsOver member step m := by
    intro m hm
    refine member_stepsOver ?_
    rcases List.mem_append.mp hm with hm | hm
    · exact (hothers m (List.mem_append_left _ hm)).1
    rcases List.mem_cons.mp hm with rfl | hm
    · exact ht
    · exact (hothers m (List.mem_append_right _ hm)).1
  have hfold := fold_payload hd (fun m hm => (hothers m (List.mem_append_left _ hm)).2)
    fun m hm => (hothers m (List.mem_append_right _ hm)).2
  have hobject : Yields reader
      (openBrace :: (separated ((before ++ d :: after).map Member.text) ++ [closeBrace]))
      ((outcome payload d.item.value).map Envelope.mk) := by
    intro limit r _ hl
    simp only [List.cons_append, List.append_assoc, List.nil_append] at hl ⊢
    rw [List.length_cons] at hl
    have hmembers := members_spaced (r := r) hsteps none blank_nil (Nat.lt_of_succ_lt hl)
    rw [hfold, List.nil_append] at hmembers
    rw [reader, record, skipSpaces_cons (by decide)]
    dsimp only
    rw [if_pos rfl, fromObject, hmembers]
    cases outcome payload d.item.value <;> rfl
  have hwhole := (reader_skipsBlank.steady hobject).fromBytes hws hws'
  rw [hobject.outcome_eq] at hwhole
  rw [ofBytes]
  simpa only [List.cons_append, List.append_assoc, List.nil_append] using hwhole

/-- The text of an envelope that says nothing but its payload. -/
def bare (t : Bytes) : Bytes := openBrace :: (memberText dataField t ++ [closeBrace])

theorem ofBytes_bare (ht : ValueText t) :
    ofBytes (bare t) = (outcome payload t).map Envelope.mk := by
  have hobject := ofBytes_object [] [] blank_nil blank_nil (Member.written_named dataField t) ht
    (by simp)
  simp only [List.nil_append, List.map_cons, List.map_nil, separated, List.flatMap_nil,
    List.append_nil, Member.written_text] at hobject
  exact hobject

/-- **Other members change nothing.**  Whatever stands in an object beside the member of the
payload, in front of it or behind it, the envelope is taken if it would be taken with that member
alone, and with the same payload; and if not, it is refused for the same reason. -/
theorem ofBytes_beside_others (hws : Blank ws) (hws' : Blank ws') (hd : d.Named "data")
    (ht : ValueText d.item.value)
    (hothers : ∀ m ∈ before ++ after, ValueText m.item.value ∧
      ∃ name, m.Named name ∧ name ≠ "data") :
    ofBytes (ws ++ openBrace :: (separated ((before ++ d :: after).map Member.text)
        ++ closeBrace :: ws'))
      = ofBytes (bare d.item.value) := by
  rw [ofBytes_object before after hws hws' hd ht hothers, ofBytes_bare ht]

/-- Brackets inside brackets, however deep. -/
theorem valueText_brackets (n : Nat) :
    ValueText (List.replicate (n + 1) openBracket ++ List.replicate (n + 1) closeBracket) := by
  induction n with
  | zero => exact .emptyArray blank_nil
  | succ n ih =>
    have harray := @ValueText.array [.written _] (by simpa [Item.written] using ih)
    rw [List.replicate_succ, List.replicate_succ' (n := n + 1)]
    simpa [separated, Item.written_text] using harray

/-- In front of the payload a value of two hundred brackets and, under the same name, a number
beyond every range; behind it half a character. -/
theorem ofBytes_beside_others_deep :
    let before := [Member.written "x"
        (List.replicate 200 openBracket ++ List.replicate 200 closeBracket),
      Member.written "x" (Utf8.encode "1e999")]
    let d := Member.written "data" (Utf8.encode "[7]")
    let after := [Member.written "" (Utf8.encode "\"\\ud800\"")]
    ofBytes (openBrace :: (separated ((before ++ d :: after).map Member.text) ++ [closeBrace]))
      = .ok ⟨.arr [.int 7]⟩ := by
  intro before d after
  have hnumber : ValueText (Utf8.encode "1e999") := by
    refine .number (.inl ⟨[0x31], [], [0x65, 0x39, 0x39, 0x39], by decide, ?_, .inl rfl, ?_⟩)
    · exact .inr ⟨⟨by decide, List.all_eq_true.mp rfl⟩, by decide⟩
    · exact .inr ⟨0x65, [], [0x39, 0x39, 0x39], rfl, rfl, by simp, by decide,
        List.all_eq_true.mp rfl⟩
  have hhalf : ValueText (Utf8.encode "\"\\ud800\"") :=
    .string (t := Utf8.encode "\\ud800") (.number (n := 0xD800) (by decide) .nil)
  have hpayload : ValueText (Utf8.encode "[7]") := by
    have hseven : ValueText [0x37] :=
      .number (.inl ⟨[0x37], [], [], rfl, .inr ⟨⟨by decide, List.all_eq_true.mp rfl⟩, by decide⟩,
        .inl rfl, .inl rfl⟩)
    exact @ValueText.array [.written [0x37]] (by simpa [Item.written] using hseven)
  have hothers : ∀ m ∈ before ++ after, ValueText m.item.value ∧
      ∃ name, m.Named name ∧ name ≠ "data" := by
    simp only [before, after, List.cons_append, List.nil_append, List.forall_mem_cons]
    exact ⟨⟨valueText_brackets 199, "x", Member.written_named _ _, by decide⟩,
      ⟨hnumber, "x", Member.written_named _ _, by decide⟩,
      ⟨hhalf, "", Member.written_named _ _, by decide⟩, by simp⟩
  have hread := ofBytes_beside_others blank_nil blank_nil
    (Member.written_named "data" (Utf8.encode "[7]")) hpayload hothers
  refine hread.trans ?_
  unfold bare
  cbv

end MeshNode.Envelope
