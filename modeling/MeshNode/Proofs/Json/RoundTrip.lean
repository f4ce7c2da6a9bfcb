/-
# Values: reading what is written

A value without doubles is read back if its containers fit the budget of the reader and none of its
objects begins with the mark; and in no other case.  One container too many anywhere inside, and the
text is refused as malformed.  An object with the mark in front is never read back: the reader takes
it for the text of another value.

* `reread_of_rawFree`: what is read is the value with its keys in order, or it is refused, if it
  holds no mark;
* `reread_marked` and `rawFree_of_reread`: what is read back holds none;
* `reread_eq_ok_iff`: when a document is read back.
-/
import MeshNode.Proofs.Json.Arranged
import MeshNode.Proofs.Json.Readable
import MeshNode.Proofs.Json.Reread

namespace MeshNode.Json

open Token

variable {α : Type}

/-! ## 1. Lists and members -/

/-- A list comes to itself if, and only if, each of its parts does. -/
theorem mapM_eq_self_iff {f : α → Except Error α} : ∀ {l : List α},
    l.mapM f = .ok l ↔ ∀ x ∈ l, f x = .ok x
  | [] => iff_of_true rfl (by simp)
  | x :: l => by
    have ih := @mapM_eq_self_iff f l
    rw [List.mapM_cons, List.forall_mem_cons, ← ih]
    cases hx : f x with
    | error e => exact iff_of_false nofun fun h => nomatch h.1
    | ok y =>
      cases hl : l.mapM f with
      | error e => exact iff_of_false nofun fun h => nomatch h.2
      | ok ys => simp [bind, Except.bind, pure, Except.pure]

/-- A list comes to its parts if all of them are taken, and else to the one refusal there is. -/
theorem mapM_eq_ite {β : Type} {f : α → Except Error β} {p : α → Prop} [DecidablePred p] {g : α → β} :
    ∀ {l : List α}, (∀ x ∈ l, f x = if p x then .ok (g x) else .error .malformed) →
      l.mapM f = if ∀ x ∈ l, p x then .ok (l.map g) else .error .malformed
  | [], _ => rfl
  | x :: l, h => by
    have hl := mapM_eq_ite fun y hy => h y (List.mem_cons_of_mem x hy)
    rw [List.mapM_cons, h x List.mem_cons_self, hl]
    simp only [List.forall_mem_cons]
    by_cases hx : p x
    · by_cases hrest : ∀ y ∈ l, p y
      · rw [if_pos hx, if_pos hrest, if_pos ⟨hx, hrest⟩]
        rfl
      · have hboth : ¬ (p x ∧ ∀ y ∈ l, p y) := fun h => hrest h.2
        rw [if_pos hx, if_neg hrest, if_neg hboth]
        rfl
    · have hboth : ¬ (p x ∧ ∀ y ∈ l, p y) := fun h => hx h.1
      rw [if_neg hx, if_neg hboth]
      rfl

/-- A member with what comes of its value. -/
def memberResult (result : Json → Except Error Json) (m : String × Json) :
    Except Error (String × Json) :=
  (result m.2).map fun v => (m.1, v)

/-- The members of an object are read first, and then put to each other. -/
theorem foldlM_putResult (result : Json → Except Error Json) :
    ∀ (members front : List (String × Json)), members.foldlM (putResult result) front
      = (members.mapM (memberResult result)).map fun ms =>
          ms.foldl (fun d e => Dictionary.insert e.1 e.2 d) front
  | [], _ => rfl
  | m :: rest, front => by
    rw [List.foldlM_cons, List.mapM_cons, putResult, memberResult]
    cases result m.2 with
    | error e => rfl
    | ok v =>
      have ih := foldlM_putResult result rest (Dictionary.insert m.1 v front)
      simp only [Except.map, bind, Except.bind] at ih ⊢
      rw [ih]
      cases rest.mapM (memberResult result) <;> rfl

/-- Members keep their keys. -/
theorem keys_of_memberResults {result : Json → Except Error Json} :
    ∀ {members ms : List (String × Json)}, members.mapM (memberResult result) = .ok ms →
      ms.map Prod.fst = members.map Prod.fst
  | [], _, h => by
    cases h
    rfl
  | m :: rest, ms, h => by
    rw [List.mapM_cons] at h
    obtain ⟨m', hm, h⟩ := ok_of_bind h
    obtain ⟨ms', hrest, h⟩ := ok_of_bind h
    obtain ⟨v, -, rfl⟩ := ok_of_map hm
    cases h
    rw [List.map_cons, List.map_cons, keys_of_memberResults hrest]

/-! ## 2. Values without the mark -/

variable {items : List Json} {members : List (String × Json)} {v : Json}

theorem reread_arr (hf : ∀ v ∈ items, v.floatFree = true) (budget : Nat) :
    reread (budget + 1) (.arr items) = (items.mapM (reread budget)).map .arr :=
  (arr_yields hf fun v hv => value_yields v (hf v hv) budget).outcome_eq

theorem reread_obj (hf : ∀ m ∈ members, m.2.floatFree = true) (hmark : marked members = false)
    (budget : Nat) : reread (budget + 1) (.obj members)
      = (members.mapM (memberResult (reread budget))).map fun ms =>
          .obj (ms.foldl (fun d e => Dictionary.insert e.1 e.2 d) []) := by
  have hread : reread (budget + 1) (.obj members)
      = (members.foldlM (putResult (reread budget)) []).map .obj :=
    (obj_yields hmark fun m hm => value_yields m.2 (hf m hm) budget).outcome_eq
  rw [hread, foldlM_putResult]
  cases members.mapM (memberResult (reread budget)) <;> rfl

/-- **A value that holds no mark** is read back, with its keys in order, if the budget is enough for
it, and else it is refused. -/
theorem reread_of_rawFree (v : Json) : v.floatFree = true → v.rawFree = true → ∀ budget,
    reread budget v = if v.depth ≤ budget then .ok v.arranged else .error .malformed := by
  induction v using induction with
  | null => exact fun _ _ budget => (null_yields budget).outcome_eq
  | bool b => exact fun _ _ budget => (bool_yields budget b).outcome_eq
  | int n => exact fun hf _ budget => (int_yields budget hf).outcome_eq
  | float x => exact fun hf => absurd hf (by simp [floatFree])
  | str s => exact fun _ _ budget => (str_yields budget s).outcome_eq
  | arr items ih =>
    intro hf hm budget
    cases budget with
    | zero => rw [reread_zero_container (by rw [depth]; omega), if_neg (by rw [depth]; omega)]
    | succ budget =>
      have hitems := mapM_eq_ite fun v hv =>
        ih v hv (floatFree_arr.mp hf v hv) (rawFree_arr.mp hm v hv) budget
      rw [reread_arr (floatFree_arr.mp hf), hitems, arranged, arrangedItems_eq_map]
      simp only [depth_arr_le]
      split <;> rfl
  | obj members ih =>
    intro hf hm budget
    obtain ⟨hmark, hfree⟩ := rawFree_obj.mp hm
    cases budget with
    | zero => rw [reread_zero_container (by rw [depth]; omega), if_neg (by rw [depth]; omega)]
    | succ budget =>
      have hmember : ∀ m ∈ members, memberResult (reread budget) m
          = if m.2.depth ≤ budget then .ok (m.1, m.2.arranged) else .error .malformed := by
        intro m hm
        rw [memberResult, ih m hm (floatFree_obj.mp hf m hm) (hfree m hm)]
        split <;> rfl
      rw [reread_obj (floatFree_obj.mp hf) hmark, mapM_eq_ite hmember, arranged,
        arrangedMembers_eq_foldl]
      simp only [depth_obj_le]
      split <;> rfl

/-- **A whole text** that was written for a value gives it back with its keys in order. -/
theorem ofBytes_write_arranged (hf : v.floatFree = true) (hm : v.rawFree = true)
    (hd : v.depth ≤ nesting) : ofBytes v.write = .ok v.arranged := by
  have hread := (value_yields v hf nesting).alone (Nat.lt_succ_self v.write.length)
  rw [reread_of_rawFree v hf hm, if_pos hd] at hread
  rw [ofBytes, fromBytes, hread]
  rfl

/-- A value, if a budget of open containers is enough for it. -/
def within (budget : Nat) (v : Json) : Except Error Json :=
  if v.depth ≤ budget then .ok v else .error .malformed

theorem within_of_le {budget : Nat} (h : v.depth ≤ budget) : within budget v = .ok v := if_pos h

theorem within_of_lt {budget : Nat} (h : budget < v.depth) :
    within budget v = .error .malformed := if_neg (Nat.not_le.mpr h)

/-- **A document that holds no mark** is read back within the budget, and else refused. -/
theorem reread_document (v : Document) (hf : v.value.floatFree = true) (hm : v.value.rawFree = true)
    (budget : Nat) : reread budget v = within budget v := by
  rw [reread_of_rawFree v.value hf hm, arranged_of_ordered v.value v.ordered, within]

/-! ## 3. Values with the mark -/

/-- A scalar is no object. -/
theorem scalar_gives_other : Gives scalar fun v => ∀ members, v ≠ .obj members := by
  intro limit s rest v h
  rw [scalar] at h
  split at h
  · cases h
  next what s' hfound =>
  cases what with
  | array => cases h
  | object => cases h
  | _ =>
    cases h
    rintro _ ⟨⟩

/-- An object that is read as one has a key that is not the mark, if it has any. -/
theorem key_of_members {inner : Reader Json} {limit : Nat} {s rest : Bytes}
    {entries : List (String × Json)} (hkey : rawKey? limit s = none)
    (h : Json.members (entryWith inner) [] limit s = .ok (entries, rest)) :
    entries = [] ∨ ∃ key, key ≠ rawMark ∧ (Dictionary.get? key entries).isSome = true := by
  rw [Json.members, membersFrom.eq_def] at h
  split at h
  · cases h
  split at h
  · cases h
  · cases h
    exact .inl rfl
  next s₁ hnext =>
  split at h
  · cases h
  next key s₂ hliteral =>
  split at h
  · cases h
  next first s₃ hfirst =>
  refine .inr ⟨key, ?_, ?_⟩
  · -- with the mark in front the object would have been taken for a text
    rintro rfl
    simp [rawKey?, hnext, hliteral, isMark_iff.mpr] at hkey
  · obtain ⟨⟨w, s'⟩, -, heq⟩ := ok_of_map hfirst
    have hkeeps : Keeps (entryWith inner) fun entries =>
        (Dictionary.get? key entries).isSome = true := by
      intro key' entries hentries limit s rest entries' hread
      obtain ⟨⟨w, s'⟩, -, heq⟩ := ok_of_map hread
      cases heq
      rw [Dictionary.get?_insert]
      split
      · rfl
      · exact hentries
    refine hkeeps.membersFrom h ?_
    cases heq
    rw [Dictionary.get?_insert, if_pos rfl]
    rfl

/-- **Nothing is read as an object that holds the mark alone.** -/
theorem value_gives_other (budget : Nat) :
    Gives (value budget) fun v => ∀ w, v ≠ .obj [(rawMark, w)] := by
  refine Gives.value (fun inner hinner budget => ?_) budget
  cases budget with
  | zero => exact fun _ _ _ _ h w => scalar_gives_other h _
  | succ budget =>
    intro limit s rest v h w
    obtain ⟨b, more, -, hcases⟩ := valueWith_cases h
    rcases hcases with ⟨-, vs, rfl, -⟩ | ⟨-, s', -, hraw⟩ | ⟨-, hkey, ms, rfl, hmembers⟩ |
      ⟨-, -, hscalar⟩
    · exact nofun
    · obtain ⟨t, s'', -, hread, -⟩ := rawValue_cases hraw
      exact hinner hread w
    · rintro ⟨⟩
      rcases key_of_members hkey hmembers with hnil | ⟨key, hne, hsome⟩
      · cases hnil
      · simp [Dictionary.get?, hne] at hsome
    · exact scalar_gives_other hscalar _

/-- An object that begins with the mark is not read back. -/
theorem reread_marked {others : List (String × Json)} (hf : v.floatFree = true) (budget : Nat) :
    reread budget (.obj ((rawMark, v) :: others)) ≠ .ok (.obj ((rawMark, v) :: others)) := by
  cases budget with
  | zero =>
    rw [reread_zero_container (by rw [depth]; omega)]
    rintro ⟨⟩
  | succ budget =>
    have hraw : reread (budget + 1) (.obj ((rawMark, v) :: others))
        = rawResult (asText .raw v) others.isEmpty := (raw_yields hf others).outcome_eq
    intro h
    rw [hraw, rawResult] at h
    obtain ⟨t, -, h⟩ := ok_of_bind h
    obtain ⟨inside, hinside, h⟩ := ok_of_bind h
    cases others with
    | cons m others => cases h
    | nil =>
      obtain rfl : inside = .obj [(rawMark, v)] := Except.ok.inj h
      have hread : ofBytes (Utf8.encode t) = .ok (.obj [(rawMark, v)]) := by
        cases hbytes : ofBytes (Utf8.encode t) with
        | error e => simp [hbytes, Except.mapError] at hinside
        | ok w => rw [hbytes] at hinside; exact hinside
      exact (value_gives_other nesting).fromBytes hread v rfl

/-- What is read back holds no mark. -/
theorem rawFree_of_reread (v : Json) : v.floatFree = true → v.ordered = true →
    ∀ budget, reread budget v = .ok v → v.rawFree = true := by
  induction v using induction with
  | arr items ih =>
    intro hf ho budget h
    cases budget with
    | zero =>
      rw [reread_zero_container (by rw [depth]; omega)] at h
      cases h
    | succ budget =>
      rw [reread_arr (floatFree_arr.mp hf)] at h
      obtain ⟨items', hitems, heq⟩ := ok_of_map h
      obtain rfl : items' = items := Json.arr.inj heq
      exact rawFree_arr.mpr fun v hv => ih v hv (floatFree_arr.mp hf v hv)
        (ordered_arr.mp ho v hv) budget (mapM_eq_self_iff.mp hitems v hv)
  | obj members ih =>
    intro hf ho budget h
    obtain ⟨hsorted, hordered⟩ := ordered_obj.mp ho
    have hfree := floatFree_obj.mp hf
    cases hmark : marked members with
    | true =>
      obtain ⟨v, others, rfl⟩ := eq_of_marked hmark
      exact absurd h (reread_marked (hfree _ List.mem_cons_self) budget)
    | false =>
      cases budget with
      | zero =>
        rw [reread_zero_container (by rw [depth]; omega)] at h
        cases h
      | succ budget =>
        rw [reread_obj hfree hmark] at h
        obtain ⟨members', hmembers, heq⟩ := ok_of_map h
        -- the keys are in order as they were, so the members are put one behind the other
        have hsorted' : Dictionary.sorted members' = true :=
          (Dictionary.sorted_congr (keys_of_memberResults hmembers)).mpr hsorted
        rw [Dictionary.foldl_insert members' [] hsorted', List.nil_append] at heq
        obtain rfl : members' = members := Json.obj.inj heq
        refine rawFree_obj.mpr ⟨hmark, fun m hm => ih m hm (hfree m hm) (hordered m hm) budget ?_⟩
        obtain ⟨w, hw, heq⟩ := ok_of_map (mapM_eq_self_iff.mp hmembers m hm)
        rw [hw, ← heq]
  | _ => exact fun _ _ _ _ => rfl

/-- **When a document is read back**: its containers fit the budget, and none of its objects begins
with the mark. -/
theorem reread_eq_ok_iff (v : Document) (hf : v.value.floatFree = true) (budget : Nat) :
    reread budget v = .ok v.value ↔ v.value.depth ≤ budget ∧ v.value.rawFree = true := by
  constructor
  · intro h
    have hfree := rawFree_of_reread v.value hf v.ordered budget h
    rw [reread_document v hf hfree] at h
    rcases Nat.lt_or_ge budget v.value.depth with hdeep | hdepth
    · rw [within_of_lt hdeep] at h
      cases h
    · exact ⟨hdepth, hfree⟩
  · rintro ⟨hdepth, hfree⟩
    rw [reread_document v hf hfree, within_of_le hdepth]

end MeshNode.Json
