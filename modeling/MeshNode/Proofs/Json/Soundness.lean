/-
# Values: what is read is JSON

Where the reader of a value succeeds, it took a value of the grammar off the front, with the white
space before it, and left the rest.  Arrays and objects are covered for items and members of any
kind, so that readers of one shape are covered too.

* `Sound` says this of a reader;
* `Sound.items` and `Sound.optionalItem`: the readers of arrays;
* `SoundMembers.objectEnd`: the reader of objects, and which of the members can have changed what it
  collects;
* `valueWith_cases`: what a value that was read is;
* `valueWith_sound` and `value_sound`: the reader of values of any shape.
-/
import MeshNode.Json.Read
import MeshNode.Proofs.Json.Scalar

namespace MeshNode.Json

open Token

variable {α σ : Type} {s rest : Bytes}

/-- A reader takes nothing but values off the front of a text. -/
def Sound (read : Reader α) : Prop :=
  ∀ ⦃limit : Nat⦄ ⦃s rest : Bytes⦄ ⦃a : α⦄, read limit s = .ok (a, rest) → ValueAt s rest

/-! ## 1. Scalars -/

theorem valueAt_of_expectWord {word : Bytes} (hword : word ∈ [nullWord, trueWord, falseWord])
    (h : expectWord word s = .ok rest) : ValueAt s rest := by
  rw [eq_of_expectWord h]
  exact (ValueText.word hword).valueAt rest

theorem valueAt_of_foundWord {word : Bytes} {meant what : Found}
    (hword : word ∈ [nullWord, trueWord, falseWord])
    (h : (expectWord word s).map (fun s => (meant, s)) = .ok (what, rest)) : ValueAt s rest := by
  obtain ⟨s', hs', heq⟩ := ok_of_map h
  cases heq
  exact valueAt_of_expectWord hword hs'

theorem valueAt_of_inner {t : Bytes} (h : Inner t) :
    ValueAt (quote :: (t ++ quote :: rest)) rest := by
  have hstring := (ValueText.string h).valueAt rest
  simpa only [List.append_assoc, List.cons_append, List.nil_append] using hstring

/-- What is found at the start of a text is a value, unless it opens a container. -/
theorem valueAt_of_found {limit : Nat} {what : Found} (h : found limit s = .ok (what, rest))
    (harray : what ≠ .array) (hobject : what ≠ .object) : ValueAt s rest := by
  rw [found] at h
  split at h
  · cases h
  next b more hmore =>
  obtain ⟨ws, hws, rfl⟩ := blank_of_skipSpaces hmore
  refine ValueAt.behind hws ?_
  split at h
  · next hquote =>
    obtain ⟨⟨t, s'⟩, hliteral, heq⟩ := ok_of_map h
    obtain ⟨t, hs, hspells⟩ := spells_of_literal hliteral
    cases heq
    rw [hquote, hs]
    exact valueAt_of_inner hspells.inner
  split at h
  · cases h
    exact absurd rfl harray
  split at h
  · cases h
    exact absurd rfl hobject
  split at h
  · exact valueAt_of_foundWord (by simp) h
  split at h
  · exact valueAt_of_foundWord (by simp) h
  split at h
  · exact valueAt_of_foundWord (by simp) h
  split at h
  · obtain ⟨⟨v, s'⟩, hnumber, heq⟩ := ok_of_map h
    obtain ⟨t, ht, hs⟩ := numberText_of_readNumber hnumber
    cases heq
    rw [hs]
    exact (ValueText.number ht).valueAt rest
  · cases h

/-! ## 2. Arrays -/

theorem nextItem_first_some {s' : Bytes} (h : nextItem true s = .ok (some s')) :
    ∃ ws, Blank ws ∧ s = ws ++ s' := by
  rw [nextItem] at h
  split at h
  · cases h
  next b more hmore =>
  split at h
  · cases h
  · cases h
    exact blank_of_skipSpaces hmore

theorem nextItem_later_some {s' : Bytes} (h : nextItem false s = .ok (some s')) :
    ∃ ws ws', Blank ws ∧ Blank ws' ∧ s = ws ++ comma :: (ws' ++ s') := by
  rw [nextItem] at h
  split at h
  · cases h
  next b more hmore =>
  obtain ⟨ws, hws, hs⟩ := blank_of_skipSpaces hmore
  split at h
  · cases h
  rw [if_neg (by decide)] at h
  split at h
  · next hcomma =>
    split at h
    · cases h
    next c more' hmore' =>
    obtain ⟨ws', hws', hs'⟩ := blank_of_skipSpaces hmore'
    split at h
    · cases h
    · cases h
      exact ⟨ws, ws', hws, hws', by rw [hs, hcomma, hs']⟩
  · cases h

theorem blank_of_closeArray (h : closeArray s = .ok rest) :
    ∃ ws, Blank ws ∧ s = ws ++ closeBracket :: rest := by
  rw [closeArray] at h
  split at h
  · cases h
  next b more hmore =>
  obtain ⟨ws, hws, hs⟩ := blank_of_skipSpaces hmore
  split at h
  · next hb =>
    cases h
    exact ⟨ws, hws, by rw [hs, hb]⟩
  · cases h

variable {item : Reader α} {limit : Nat}

/-- What a reader of items took: an item that is there, or nothing. -/
theorem optionalItem_cases {first : Bool} {found : Option α}
    (h : optionalItem first item limit s = .ok (found, rest)) :
    (found = none ∧ rest = s) ∨
      ∃ v s', found = some v ∧ nextItem first s = .ok (some s') ∧
        item limit s' = .ok (v, rest) := by
  rw [optionalItem] at h
  split at h
  · cases h
  · cases h
    exact .inl ⟨rfl, rfl⟩
  next s' hnext =>
  split at h
  · cases h
  next v s'' hitem =>
  cases h
  exact .inr ⟨v, s', rfl, hnext, hitem⟩

/-- The first item of an array. -/
theorem Sound.firstItem (hsound : Sound item) {v : α}
    (h : optionalItem true item limit s = .ok (some v, rest)) : ValueAt s rest := by
  rcases optionalItem_cases h with ⟨hnone, -⟩ | ⟨v', s', -, hnext, hitem⟩
  · cases hnone
  · obtain ⟨ws, hws, rfl⟩ := nextItem_first_some hnext
    exact (hsound hitem).behind hws

/-- An item behind others. -/
theorem Sound.laterItem (hsound : Sound item) {v : α}
    (h : optionalItem false item limit s = .ok (some v, rest)) :
    ∃ ws s', Blank ws ∧ s = ws ++ comma :: s' ∧ ValueAt s' rest := by
  rcases optionalItem_cases h with ⟨hnone, -⟩ | ⟨v', s', -, hnext, hitem⟩
  · cases hnone
  · obtain ⟨ws, ws', hws, hws', hs⟩ := nextItem_later_some hnext
    exact ⟨ws, ws' ++ s', hws, hs, (hsound hitem).behind hws'⟩

theorem Sound.itemsEnd (hsound : Sound item) : ∀ {rounds : Nat} {acc vs : List α} {s : Bytes},
    itemsFrom item limit rounds false acc s = .ok (vs, rest) → ∃ items, ItemsEnd items s rest
  | 0, _, _, _, h => nomatch h
  | rounds + 1, acc, vs, s, h => by
    rw [itemsFrom] at h
    split at h
    · cases h
    · next v s' hitem =>
      obtain ⟨items, hitems⟩ := hsound.itemsEnd h
      obtain ⟨ws, s'', hws, rfl, hvalue⟩ := hsound.laterItem hitem
      exact hitems.comma hws hvalue
    next s' hnone =>
    split at h
    · cases h
    next s'' hclose =>
    cases h
    obtain ⟨ws, hws, rfl⟩ := blank_of_closeArray hclose
    rcases optionalItem_cases hnone with ⟨-, hs⟩ | ⟨v, _, hsome, -⟩
    · rw [← hs]
      exact ⟨[], ItemsEnd.close hws⟩
    · cases hsome

/-- **An array that is read** is an array of the grammar. -/
theorem Sound.items (hsound : Sound item) {vs : List α} (h : items item limit s = .ok (vs, rest)) :
    ValueAt (openBracket :: s) rest := by
  rw [Json.items, itemsFrom.eq_def] at h
  split at h
  · cases h
  split at h
  · cases h
  · next v s' hitem =>
    obtain ⟨items, hitems⟩ := hsound.itemsEnd h
    exact hitems.array (hsound.firstItem hitem)
  next s' hnone =>
  split at h
  · cases h
  next s'' hclose =>
  cases h
  obtain ⟨ws, hws, rfl⟩ := blank_of_closeArray hclose
  rcases optionalItem_cases hnone with ⟨-, hs⟩ | ⟨v, _, hsome, -⟩
  · rw [← hs]
    exact ValueAt.emptyArray hws
  · cases hsome

/-! ## 3. Objects -/

theorem nextKey_close_sound {first : Bool} (h : nextKey first s = .ok (.inr rest)) :
    ∃ ws, Blank ws ∧ s = ws ++ closeBrace :: rest := by
  rw [nextKey] at h
  split at h
  · cases h
  next b more hmore =>
  obtain ⟨ws, hws, hs⟩ := blank_of_skipSpaces hmore
  split at h
  · next hb =>
    cases h
    exact ⟨ws, hws, by rw [hs, hb]⟩
  split at h
  · split at h
    · cases h
    · cases h
  split at h
  · split at h
    · cases h
    · split at h
      · cases h
      · cases h
  · cases h

theorem nextKey_first_some {s' : Bytes} (h : nextKey true s = .ok (.inl s')) :
    ∃ ws, Blank ws ∧ s = ws ++ quote :: s' := by
  rw [nextKey] at h
  split at h
  · cases h
  next b more hmore =>
  obtain ⟨ws, hws, hs⟩ := blank_of_skipSpaces hmore
  split at h
  · cases h
  rw [if_pos rfl] at h
  split at h
  · next hb =>
    cases h
    exact ⟨ws, hws, by rw [hs, hb]⟩
  · cases h

theorem nextKey_later_some {s' : Bytes} (h : nextKey false s = .ok (.inl s')) :
    ∃ ws ws', Blank ws ∧ Blank ws' ∧ s = ws ++ comma :: (ws' ++ quote :: s') := by
  rw [nextKey] at h
  split at h
  · cases h
  next b more hmore =>
  obtain ⟨ws, hws, hs⟩ := blank_of_skipSpaces hmore
  split at h
  · cases h
  rw [if_neg (by decide)] at h
  split at h
  · next hcomma =>
    split at h
    · cases h
    next c more' hmore' =>
    obtain ⟨ws', hws', hs'⟩ := blank_of_skipSpaces hmore'
    split at h
    · next hc =>
      cases h
      exact ⟨ws, ws', hws, hws', by rw [hs, hcomma, hs', hc]⟩
    · cases h
  · cases h

theorem blank_of_skipColon (h : skipColon s = .ok rest) :
    ∃ ws, Blank ws ∧ s = ws ++ colon :: rest := by
  rw [skipColon] at h
  split at h
  · cases h
  next b more hmore =>
  obtain ⟨ws, hws, hs⟩ := blank_of_skipSpaces hmore
  split at h
  · next hb =>
    cases h
    exact ⟨ws, hws, by rw [hs, hb]⟩
  · cases h

/-- The value of a member. -/
theorem Sound.memberValue {value : Reader α} (hsound : Sound value) {v : α}
    (h : memberValue value limit s = .ok (v, rest)) : FieldAt s rest := by
  rw [Json.memberValue] at h
  split at h
  · cases h
  next s' hcolon =>
  obtain ⟨gap, hgap, hs⟩ := blank_of_skipColon hcolon
  exact ⟨gap, s', hgap, hs, hsound h⟩

/-- A reader of members takes the colon and the value of each, and changes what was collected only
at keys that matter. -/
def SoundMembers (matters : String → Prop) (member : String → σ → Reader σ) : Prop :=
  ∀ ⦃key : String⦄ ⦃state state' : σ⦄ ⦃limit : Nat⦄ ⦃s rest : Bytes⦄,
    member key state limit s = .ok (state', rest) → FieldAt s rest ∧ (matters key ∨ state' = state)

variable {matters : String → Prop} {member : String → σ → Reader σ}

/-- What was collected from these members is as before, unless one of them has a key that
matters. -/
def Kept (matters : String → Prop) (members : List Member) (state state' : σ) : Prop :=
  state' = state ∨ ∃ m ∈ members, ∃ name, matters name ∧ m.Named name

theorem Kept.cons {m : Member} {members : List Member} {state state₁ state' : σ}
    (h : Kept matters [m] state state₁) (hlater : Kept matters members state₁ state') :
    Kept matters (m :: members) state state' := by
  rcases hlater with hsame | ⟨m', hm', hnamed⟩
  · rcases h with hfirst | ⟨m', hm', hnamed⟩
    · exact .inl (hsame.trans hfirst)
    · rw [List.mem_singleton.mp hm'] at hnamed
      exact .inr ⟨m, List.mem_cons_self, hnamed⟩
  · exact .inr ⟨m', List.mem_cons_of_mem m hm', hnamed⟩

/-- One member, from its opening quotation mark. -/
theorem SoundMembers.oneMember (hsound : SoundMembers matters member) {key : String}
    {state state' : σ} {ws s' : Bytes} (hws : Blank ws) (hkey : literal limit s = .ok (key, s'))
    (hmember : member key state limit s' = .ok (state', rest)) :
    ∃ t, MemberAt t (ws ++ quote :: s) rest ∧
      ∀ m : Member, m.key = t → Kept matters [m] state state' := by
  obtain ⟨hfield, hstate⟩ := hsound hmember
  obtain ⟨t, hs, hspells⟩ := spells_of_literal hkey
  refine ⟨t, ⟨ws, s', hws, hspells.inner, by rw [hs], hfield⟩, fun m hm => ?_⟩
  rcases hstate with hmatters | hsame
  · have hnamed : m.Named key := by
      rw [Member.Named, hm]
      exact hspells
    exact .inr ⟨m, List.mem_singleton_self m, key, hmatters, hnamed⟩
  · exact .inl hsame

/-- The members behind the first one. -/
theorem SoundMembers.membersEnd (hsound : SoundMembers matters member) :
    ∀ {rounds : Nat} {state state' : σ} {s : Bytes},
      membersFrom member limit rounds false state s = .ok (state', rest) →
        ∃ members, MembersEnd members s rest ∧ Kept matters members state state'
  | 0, _, _, _, h => nomatch h
  | rounds + 1, state, state', s, h => by
    rw [membersFrom] at h
    split at h
    · cases h
    · next s' hclose =>
      cases h
      obtain ⟨ws, hws, rfl⟩ := nextKey_close_sound hclose
      exact ⟨[], MembersEnd.close hws, .inl rfl⟩
    next s₁ hnext =>
    split at h
    · cases h
    next key s₂ hkey =>
    split at h
    · cases h
    next state₁ s₃ hmember =>
    obtain ⟨ws, ws', hws, hws', rfl⟩ := nextKey_later_some hnext
    obtain ⟨t, hat, hone⟩ := hsound.oneMember hws' hkey hmember
    obtain ⟨members, hmembers, hlater⟩ := hsound.membersEnd h
    obtain ⟨m, hm, hend⟩ := hmembers.comma hws hat
    exact ⟨m :: members, hend, (hone m hm).cons hlater⟩

/-- **An object that is read** is an object of the grammar, and what was collected is as before
unless a key that matters is among its members. -/
theorem SoundMembers.objectEnd (hsound : SoundMembers matters member) {state state' : σ}
    (h : members member state limit s = .ok (state', rest)) :
    ∃ members, ObjectEnd members s rest ∧ Kept matters members state state' := by
  rw [Json.members, membersFrom.eq_def] at h
  split at h
  · cases h
  split at h
  · cases h
  · next s' hclose =>
    cases h
    obtain ⟨ws, hws, rfl⟩ := nextKey_close_sound hclose
    exact ⟨[], ObjectEnd.close hws, .inl rfl⟩
  next s₁ hnext =>
  split at h
  · cases h
  next key s₂ hkey =>
  split at h
  · cases h
  next state₁ s₃ hmember =>
  obtain ⟨ws, hws, rfl⟩ := nextKey_first_some hnext
  obtain ⟨t, hat, hone⟩ := hsound.oneMember hws hkey hmember
  obtain ⟨members, hmembers, hlater⟩ := hsound.membersEnd h
  obtain ⟨m, hm, hend⟩ := hmembers.object hat
  exact ⟨m :: members, hend, (hone m hm).cons hlater⟩

/-! ## 4. Any value -/

/-- A scalar that is read is a value of the grammar. -/
theorem scalar_sound : Sound scalar := by
  intro limit s rest v h
  rw [scalar] at h
  split at h
  · cases h
  next what s' hfound =>
  have hrest : what ≠ .array ∧ what ≠ .object ∧ s' = rest := by
    cases what with
    | array => cases h
    | object => cases h
    | _ => cases h; exact ⟨nofun, nofun, rfl⟩
  obtain ⟨harray, hobject, rfl⟩ := hrest
  exact valueAt_of_found hfound harray hobject

/-- A string that is read is a string of the grammar. -/
theorem textFor_sound (expected : Expected) : Sound (textFor expected) := by
  intro limit s rest t h
  rw [textFor] at h
  split at h
  · cases h
  next b more hmore =>
  obtain ⟨ws, hws, rfl⟩ := blank_of_skipSpaces hmore
  refine ValueAt.behind hws ?_
  split at h
  · next hquote =>
    obtain ⟨t, hs, hspells⟩ := spells_of_literal h
    rw [hquote, hs]
    exact valueAt_of_inner hspells.inner
  · rw [unexpected] at h
    split at h <;> cases h

/-- An object whose first key is the mark. -/
theorem eq_of_rawKey? {s' : Bytes} (h : rawKey? limit s = some s') :
    ∃ ws t, Blank ws ∧ Spells t (Utf8.encode rawMark) ∧ s = ws ++ quote :: (t ++ quote :: s') := by
  rw [rawKey?] at h
  split at h
  · next s₁ hnext =>
    split at h
    · next key s₂ hkey =>
      cases hmark : isMark key with
      | false =>
        rw [hmark] at h
        cases h
      | true =>
        rw [hmark] at h
        cases h
        obtain ⟨ws, hws, rfl⟩ := nextKey_first_some hnext
        obtain ⟨t, rfl, hspells⟩ := spells_of_literal hkey
        exact ⟨ws, t, hws, isMark_iff.mp hmark ▸ hspells, rfl⟩
    · cases h
  · cases h

theorem blank_of_closeObject (h : closeObject s = .ok rest) :
    ∃ ws, Blank ws ∧ s = ws ++ closeBrace :: rest := by
  rw [closeObject] at h
  split at h
  · cases h
  next b more hmore =>
  obtain ⟨ws, hws, hs⟩ := blank_of_skipSpaces hmore
  split at h
  · next hb =>
    cases h
    exact ⟨ws, hws, by rw [hs, hb]⟩
  · cases h

variable {inner : Nat → Bytes → Except Error Json} {budget : Nat} {v : Json}

/-- A value that stands in a text of its own: the text, and what is made of it. -/
theorem rawValue_cases (h : rawValue inner limit s = .ok (v, rest)) :
    ∃ t s', memberValue (textFor .raw) limit s = .ok (t, s') ∧
      inner limit (Utf8.encode t) = .ok v ∧ closeObject s' = .ok rest := by
  rw [rawValue] at h
  split at h
  · cases h
  next t s' hmember =>
  split at h
  · cases h
  next v' hinner =>
  split at h
  · cases h
  next hclose =>
  cases h
  exact ⟨t, s', hmember, hinner, hclose⟩

/-- **What a value that was read is**: an array, a value with a text of its own, an object, or a
scalar. -/
theorem valueWith_cases (h : valueWith inner (budget + 1) limit s = .ok (v, rest)) :
    ∃ b more, skipSpaces s = b :: more ∧
      ((b = openBracket ∧ ∃ vs, v = .arr vs ∧
          items (valueWith inner budget) limit more = .ok (vs, rest)) ∨
        (b = openBrace ∧ ∃ s', rawKey? limit more = some s' ∧
          rawValue inner limit s' = .ok (v, rest)) ∨
        (b = openBrace ∧ rawKey? limit more = none ∧ ∃ ms, v = .obj ms ∧
          members (entryWith (valueWith inner budget)) [] limit more = .ok (ms, rest)) ∨
        (b ≠ openBracket ∧ b ≠ openBrace ∧ scalar limit (b :: more) = .ok (v, rest))) := by
  rw [valueWith] at h
  dsimp only at h
  split at h
  · cases h
  next b more hmore =>
  refine ⟨b, more, hmore, ?_⟩
  split at h
  · next hbracket =>
    obtain ⟨⟨vs, s'⟩, hitems, heq⟩ := ok_of_map h
    cases heq
    exact .inl ⟨hbracket, vs, rfl, hitems⟩
  next hbracket =>
  split at h
  · next hbrace =>
    split at h
    · next s' hkey => exact .inr (.inl ⟨hbrace, s', hkey, h⟩)
    · next hkey =>
      obtain ⟨⟨ms, s'⟩, hmembers, heq⟩ := ok_of_map h
      cases heq
      exact .inr (.inr (.inl ⟨hbrace, hkey, ms, rfl, hmembers⟩))
  · next hbrace => exact .inr (.inr (.inr ⟨hbracket, hbrace, h⟩))

/-- A value with a text of its own stands in an object of the grammar, of one member with the mark
as its name. -/
theorem rawObject_sound {s' : Bytes} (hkey : rawKey? limit s = some s')
    (h : rawValue inner limit s' = .ok (v, rest)) :
    ∃ m : Member, m.Named rawMark ∧ ObjectEnd [m] s rest := by
  obtain ⟨ws, t, hws, hspells, rfl⟩ := eq_of_rawKey? hkey
  obtain ⟨_, s'', hmember, -, hclose⟩ := rawValue_cases h
  obtain ⟨ws', hws', rfl⟩ := blank_of_closeObject hclose
  have hat : MemberAt t (ws ++ quote :: (t ++ quote :: s')) (ws' ++ closeBrace :: rest) :=
    ⟨ws, s', hws, hspells.inner, rfl, (textFor_sound .raw).memberValue hmember⟩
  obtain ⟨m, hm, hend⟩ := (MembersEnd.close hws').object hat
  refine ⟨m, ?_, hend⟩
  rw [Member.Named, hm]
  exact hspells

/-- The reader of a member takes a value behind the key. -/
theorem entryWith_sound {value : Reader Json} (hsound : Sound value) :
    SoundMembers (fun _ => True) (entryWith value) := by
  intro key entries entries' limit s rest h
  obtain ⟨⟨v, s'⟩, hvalue, heq⟩ := ok_of_map h
  cases heq
  exact ⟨hsound.memberValue hvalue, .inl trivial⟩

/-- **A value that is read** is a value of the grammar, whatever the budget of the reader is and
whatever is made of the texts inside. -/
theorem valueWith_sound (inner : Nat → Bytes → Except Error Json) :
    ∀ budget, Sound (valueWith inner budget)
  | 0 => scalar_sound
  | budget + 1 => by
    have ih := valueWith_sound inner budget
    intro limit s rest v h
    obtain ⟨b, more, hmore, hcases⟩ := valueWith_cases h
    obtain ⟨ws, hws, rfl⟩ := blank_of_skipSpaces hmore
    refine ValueAt.behind hws ?_
    rcases hcases with ⟨rfl, vs, -, hitems⟩ | ⟨rfl, s', hkey, hraw⟩ | ⟨rfl, -, ms, -, hmembers⟩ |
      ⟨-, -, hscalar⟩
    · exact ih.items hitems
    · obtain ⟨m, -, hend⟩ := rawObject_sound hkey hraw
      exact hend.valueAt
    · -- every key may matter: what is collected is not asked for
      obtain ⟨members, hend, -⟩ := (entryWith_sound ih).objectEnd hmembers
      exact hend.valueAt
    · exact scalar_sound hscalar

theorem value_sound (budget : Nat) : Sound (value budget) := valueWith_sound ofText budget

end MeshNode.Json
