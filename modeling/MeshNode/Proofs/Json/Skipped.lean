/-
# Values: what is passed over is JSON

The reader that passes over a value keeps the containers that are open in a list, so what it has
taken is no value of the grammar before the last of them is closed.  What the text must go on with
from each of its states is told here, for all the open containers at once, and every step is shown
to take what its state demands.

* `Closes` and `Demands`: what a state still asks of the text;
* `demands_of_valueStep`, `demands_of_keyStep`, `closes_of_afterStep`: the steps;
* `skip_sound`: the run.
-/
import MeshNode.Proofs.Json.Soundness

namespace MeshNode.Json

open Token

variable {frames : List Frame} {b : UInt8} {s rest ws : Bytes} {next : Skipping}

/-! ## 1. What is still asked for -/

/-- Behind a value, each open container asks for the rest of itself, the innermost one first. -/
def Closes : List Frame → Bytes → Bytes → Prop
  | [], s, rest => s = rest
  | .array :: frames, s, rest => ∃ items s', ItemsEnd items s s' ∧ Closes frames s' rest
  | .object :: frames, s, rest => ∃ members s', MembersEnd members s s' ∧ Closes frames s' rest

/-- What a phase asks for, and after it the open containers. -/
def Demands (frames : List Frame) (s rest : Bytes) : Phase → Prop
  | .value => ∃ s', ValueAt s s' ∧ Closes frames s' rest
  | .key => ∃ key s', MemberAt key s s' ∧ Closes frames s' rest
  | .after => Closes frames s rest

/-- An array that is opened asks for an item first, and then for the rest of itself. -/
theorem demands_of_openArray (hws : Blank ws) (h : Demands (.array :: frames) s rest .value) :
    Demands frames (openBracket :: (ws ++ s)) rest .value := by
  obtain ⟨s', hvalue, items, s'', hitems, hcloses⟩ := h
  exact ⟨s'', hitems.array (hvalue.behind hws), hcloses⟩

/-- An object that is opened asks for a member first, and then for the rest of itself. -/
theorem demands_of_openObject (hws : Blank ws) (h : Demands (.object :: frames) s rest .key) :
    Demands frames (openBrace :: (ws ++ s)) rest .value := by
  obtain ⟨key, s', hmember, members, s'', hmembers, hcloses⟩ := h
  obtain ⟨m, -, hobject⟩ := hmembers.object (hmember.behind hws)
  exact ⟨s'', hobject.valueAt, hcloses⟩

/-! ## 2. The steps -/

/-- A scalar is a value. -/
theorem demands_of_scalar {r : Except Error Bytes} (hscalar : ∀ s', r = .ok s' → ValueAt s s')
    (h : r.map (⟨.after, frames, ·⟩) = .ok next)
    (hnext : Demands next.frames next.rest rest next.phase) :
    Demands frames s rest .value := by
  obtain ⟨s', hr, rfl⟩ := ok_of_map h
  exact ⟨s', hscalar s' hr, hnext⟩

/-- The step at the start of a value. -/
theorem demands_of_valueStep (h : skipValueStep frames b s = .ok next)
    (hnext : Demands next.frames next.rest rest next.phase) :
    Demands frames (b :: s) rest .value := by
  rw [skipValueStep] at h
  dsimp only at h
  split at h
  · next hbracket =>
    rw [hbracket]
    split at h
    · cases h
    next c more hmore =>
    obtain ⟨ws, hws, rfl⟩ := blank_of_skipSpaces hmore
    split at h
    · next hclose =>
      cases h
      rw [hclose]
      exact ⟨more, ValueAt.emptyArray hws, hnext⟩
    · cases h
      exact demands_of_openArray hws hnext
  split at h
  · next hbrace =>
    rw [hbrace]
    split at h
    · cases h
    next c more hmore =>
    obtain ⟨ws, hws, rfl⟩ := blank_of_skipSpaces hmore
    split at h
    · next hclose =>
      cases h
      rw [hclose]
      exact ⟨more, (ObjectEnd.close hws).valueAt, hnext⟩
    · cases h
      exact demands_of_openObject hws hnext
  split at h
  · next hquote =>
    refine demands_of_scalar (fun s' hs' => ?_) h hnext
    obtain ⟨t, ht, hs⟩ := inner_of_skipString hs'
    rw [hquote, hs]
    exact valueAt_of_inner ht
  split at h
  · exact demands_of_scalar (fun s' hs' => valueAt_of_expectWord (by simp) hs') h hnext
  split at h
  · exact demands_of_scalar (fun s' hs' => valueAt_of_expectWord (by simp) hs') h hnext
  split at h
  · exact demands_of_scalar (fun s' hs' => valueAt_of_expectWord (by simp) hs') h hnext
  split at h
  · next hminus =>
    refine demands_of_scalar (fun s' hs' => ?_) h hnext
    obtain ⟨t, ht, hs⟩ := unsignedText_of_skipNumber hs'
    rw [hminus, hs]
    exact (ValueText.number (.inr ⟨t, rfl, ht⟩)).valueAt s'
  split at h
  · refine demands_of_scalar (fun s' hs' => ?_) h hnext
    obtain ⟨t, ht, hs⟩ := unsignedText_of_skipNumber hs'
    rw [hs]
    exact (ValueText.number (.inl ht)).valueAt s'
  · cases h

/-- The step over a key and its colon. -/
theorem demands_of_keyStep (h : skipKeyStep frames b s = .ok next)
    (hnext : Demands next.frames next.rest rest next.phase) :
    Demands frames (b :: s) rest .key := by
  rw [skipKeyStep] at h
  split at h
  · next hquote =>
    split at h
    · cases h
    next s₁ hstring =>
    obtain ⟨s₂, hcolon, rfl⟩ := ok_of_map h
    obtain ⟨key, hkey, rfl⟩ := inner_of_skipString hstring
    obtain ⟨gap, hgap, rfl⟩ := blank_of_skipColon hcolon
    obtain ⟨s', hvalue, hcloses⟩ := hnext
    rw [hquote]
    exact ⟨key, s', ⟨[], _, blank_nil, hkey, rfl, gap, s₂, hgap, rfl, hvalue⟩, hcloses⟩
  · cases h

/-- The step behind a value in a container, with the white space before it. -/
theorem closes_of_afterStep {frame : Frame} (hws : Blank ws)
    (h : skipAfterStep frame frames b s = .ok next)
    (hnext : Demands next.frames next.rest rest next.phase) :
    Closes (frame :: frames) (ws ++ b :: s) rest := by
  cases frame with
  | array =>
    rw [skipAfterStep] at h
    split at h
    · next hcomma =>
      cases h
      obtain ⟨s', hvalue, items, s'', hitems, hcloses⟩ := hnext
      obtain ⟨items', hitems'⟩ := hitems.comma hws hvalue
      rw [hcomma]
      exact ⟨items', s'', hitems', hcloses⟩
    split at h
    · next hclose =>
      cases h
      rw [hclose]
      exact ⟨[], s, ItemsEnd.close hws, hnext⟩
    · cases h
  | object =>
    rw [skipAfterStep] at h
    split at h
    · next hcomma =>
      cases h
      obtain ⟨key, s', hmember, members, s'', hmembers, hcloses⟩ := hnext
      obtain ⟨m, -, hmembers'⟩ := hmembers.comma hws hmember
      rw [hcomma]
      exact ⟨m :: members, s'', hmembers', hcloses⟩
    split at h
    · next hclose =>
      cases h
      rw [hclose]
      exact ⟨[], s, MembersEnd.close hws, hnext⟩
    · cases h

/-! ## 3. The run -/

/-- **Every run takes what its state demands.** -/
theorem demands_of_skipFrom {limit : Nat} {phase : Phase}
    (h : skipFrom limit phase frames s = .ok rest) : Demands frames s rest phase := by
  fun_induction skipFrom limit phase frames s with
  | case1 limit s => exact Except.ok.inj h
  | case5 limit phase frames s _ b more hmore step next hstep ih =>
    obtain ⟨ws, hws, rfl⟩ := blank_of_skipSpaces hmore
    cases phase with
    | value =>
      obtain ⟨s', hvalue, hcloses⟩ := demands_of_valueStep hstep (ih h)
      exact ⟨s', hvalue.behind hws, hcloses⟩
    | key =>
      obtain ⟨key, s', hmember, hcloses⟩ := demands_of_keyStep hstep (ih h)
      exact ⟨key, s', hmember.behind hws, hcloses⟩
    | after =>
      cases frames with
      | nil => exact nomatch (show Except.error Error.malformed = .ok next from hstep)
      | cons frame frames => exact closes_of_afterStep hws hstep (ih h)
  | _ => cases h

/-- **A value that is passed over** is a value of the grammar. -/
theorem skip_sound : Sound skip := by
  intro limit s rest _ h
  obtain ⟨rest', hskip, heq⟩ := ok_of_map h
  obtain ⟨s', hvalue, hcloses⟩ := demands_of_skipFrom hskip
  cases heq
  rw [← hcloses]
  exact hvalue

end MeshNode.Json
