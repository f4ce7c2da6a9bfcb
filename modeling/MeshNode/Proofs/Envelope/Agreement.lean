/-
# Envelopes: the two readers of one text

The text of an envelope can be read in two ways: by the reader of envelopes, which passes over the
members that it does not know, or as a value of any shape, out of which the payload is then taken.
Both come to the same, for every text that is JSON, as long as the object of the envelope has no
two members named `data`.  Only an object with the mark in front is told apart: it is no envelope, and
it is read as the value of the text inside, which may well be the value of one.

* `carried?`: the payload as it is taken out of a value;
* `membersFrom_agrees` and `array_agrees`: the two readers over the members of one object, and over
  the items of one array;
* `reader_agrees` and `reader_marked`: over one value;
* `ofBytes_iff_of_json`: over a whole text.
-/
import Mathlib
import MeshNode.Proofs.Envelope.Shape
import MeshNode.Proofs.Json.Passing

namespace MeshNode.Envelope

open Json Token

variable {s rest body : Bytes} {limit : Nat} {v : Json}

/-- The payload in the value of an envelope: a member of an object, or the only item of an
array. -/
def carried? : Json → Option Json
  | .obj members => Dictionary.get? dataField members
  | .arr [data] => some data
  | _ => none

theorem carried?_eq_some_iff {data : Json} :
    carried? v = some data ↔
      (∃ members, v = .obj members ∧ Dictionary.get? dataField members = some data) ∨
        v = .arr [data] := by
  rw [carried?.eq_def]
  split
  · next members => simp
  · next data' => simp
  · next hobj harr =>
    refine ⟨nofun, ?_⟩
    rintro (⟨members, rfl, -⟩ | rfl)
    · exact absurd rfl (hobj members)
    · exact absurd rfl (harr data)

/-! ## 1. Objects -/

/-- No two of these members are named `data`. -/
def NamedOnce (members : List Member) : Prop :=
  members.Pairwise fun m m' => ¬ (m.Named dataField ∧ m'.Named dataField)

/-- What stands behind a member does not go on a number. -/
theorem delimited_of_membersEnd {members : List Member} (h : MembersEnd members s rest) :
    Delimited s := by
  obtain ⟨-, after, hafter, rfl⟩ := h
  exact hafter.delimited (delimited_flatMap delimited_closeBrace (members.map Member.text) rest)

theorem memberValue_skip (h : FieldAt s rest) (hrest : Delimited rest) (hl : s.length < limit) :
    memberValue skip limit s = .ok ((), rest) := by
  obtain ⟨gap, s', hgap, rfl, hvalue⟩ := h
  rw [List.length_append, List.length_cons] at hl
  rw [memberValue, skipColon_blank hgap]
  exact skip_value hvalue hrest (by omega)

/-- **One member.**  Where the reader of values puts a member to the others, the reader of envelopes
holds on to what they have under `data`, unless it comes to that key for the second time. -/
theorem member_agrees {key : String} {entries entries' : List (String × Json)}
    (h : entryWith (value (nesting - 1)) key entries limit s = .ok (entries', rest))
    (hrest : Delimited rest) (hl : s.length < limit)
    (honce : key = dataField → Dictionary.get? dataField entries = none) :
    member key (Dictionary.get? dataField entries) limit s
      = .ok (Dictionary.get? dataField entries', rest) := by
  obtain ⟨⟨v, s'⟩, hvalue, heq⟩ := ok_of_map h
  cases heq
  rw [Dictionary.get?_insert]
  by_cases hkey : key = dataField
  · rw [member, if_pos hkey, if_pos hkey.symm, honce hkey, fieldOnce]
    dsimp only
    rw [payload, hvalue]
    rfl
  · have hskip := memberValue_skip ((value_sound _).memberValue hvalue) hrest hl
    rw [member, if_neg hkey, if_neg (Ne.symm hkey)]
    dsimp only
    rw [hskip]
    rfl

/-- A member that was read, from its opening quotation mark. -/
theorem memberAt_of_entry {key : String} {entries entries' : List (String × Json)} {s' : Bytes}
    (hkey : literal limit s = .ok (key, s'))
    (h : entryWith (value (nesting - 1)) key entries limit s' = .ok (entries', rest)) :
    s'.length < s.length ∧ rest.length ≤ s'.length ∧ ∃ t, Spells t (Utf8.encode key) ∧
      ∀ {ws : Bytes}, Blank ws → MemberAt t (ws ++ quote :: s) rest := by
  obtain ⟨⟨v, _⟩, hvalue, heq⟩ := ok_of_map h
  cases heq
  obtain ⟨t, rfl, hspells⟩ := spells_of_literal hkey
  have hfield : FieldAt s' rest := (value_sound _).memberValue hvalue
  refine ⟨?_, hfield.length_le, t, hspells, fun hws => ⟨_, s', hws, hspells.inner, rfl, hfield⟩⟩
  simp only [List.length_append, List.length_cons]
  omega

/-- What the reader of envelopes makes of members, where `entries` is what the reader of values has
put together before them, and `entries'` behind them. -/
def HeldAfter (limit rounds : Nat) (first : Bool) (members : List Member) (s rest : Bytes)
    (entries entries' : List (String × Json)) : Prop :=
  NamedOnce members →
    ((Dictionary.get? dataField entries).isSome → ∀ m ∈ members, ¬ m.Named dataField) →
      membersFrom member limit rounds first (Dictionary.get? dataField entries) s
        = .ok (Dictionary.get? dataField entries', rest)

/-- Behind the closing brace. -/
theorem HeldAfter.close {rounds : Nat} {first : Bool} {entries : List (String × Json)}
    (hnext : nextKey first s = .ok (.inr rest)) :
    HeldAfter limit (rounds + 1) first [] s rest entries entries := by
  intro _ _
  rw [membersFrom, hnext]

/-- One more member in front of others. -/
theorem HeldAfter.cons {rounds : Nat} {first : Bool} {s₁ s₂ s₃ : Bytes} {key : String}
    {m : Member} {members : List Member} {entries entries₁ entries' : List (String × Json)}
    (hnext : nextKey first s = .ok (.inl s₁)) (hkey : literal limit s₁ = .ok (key, s₂))
    (hentry : entryWith (value (nesting - 1)) key entries limit s₂ = .ok (entries₁, s₃))
    (hs₃ : Delimited s₃) (hl : s₂.length < limit) (hm : m.Named key)
    (hlater : HeldAfter limit rounds false members s₃ rest entries₁ entries') :
    HeldAfter limit (rounds + 1) first (m :: members) s rest entries entries' := by
  intro honce hheld
  have hfirst : key = dataField → Dictionary.get? dataField entries = none := by
    intro hdata
    cases hget : Dictionary.get? dataField entries with
    | none => rfl
    | some data =>
      rw [hget] at hheld
      exact absurd (hdata ▸ hm) (hheld rfl m List.mem_cons_self)
  have hmember := member_agrees hentry hs₃ hl hfirst
  obtain ⟨hothers, hrest⟩ := List.pairwise_cons.mp honce
  have hnow : (Dictionary.get? dataField entries₁).isSome →
      ∀ m' ∈ members, ¬ m'.Named dataField := by
    intro hsome m' hm' hnamed
    -- what is held now is the value of this member, or was held before it
    obtain ⟨⟨v, _⟩, -, heq⟩ := ok_of_map hentry
    cases heq
    rw [Dictionary.get?_insert] at hsome
    split at hsome
    · next hdata => exact hothers m' hm' ⟨hdata ▸ hm, hnamed⟩
    · exact hheld hsome m' (List.mem_cons_of_mem m hm') hnamed
  simp only [membersFrom, hnext, hkey, hmember]
  exact hlater hrest hnow

/-- **The members behind the first one.** -/
theorem membersFrom_agrees : ∀ {rounds : Nat} {s : Bytes} {entries entries' : List (String × Json)},
    s.length < limit →
    membersFrom (entryWith (value (nesting - 1))) limit rounds false entries s = .ok (entries', rest) →
      ∃ members, MembersEnd members s rest ∧
        HeldAfter limit rounds false members s rest entries entries'
  | 0, _, _, _, _, h => nomatch h
  | rounds + 1, s, entries, entries', hl, h => by
    rw [membersFrom] at h
    split at h
    · cases h
    · next s' hclose =>
      cases h
      obtain ⟨ws, hws, hs⟩ := nextKey_close_sound hclose
      exact ⟨[], hs ▸ MembersEnd.close hws, .close hclose⟩
    next s₁ hnext =>
    split at h
    · cases h
    next key s₂ hkey =>
    split at h
    · cases h
    next entries₁ s₃ hentry =>
    obtain ⟨ws, ws', hws, hws', hs⟩ := nextKey_later_some hnext
    obtain ⟨hkeyLength, hvalueLength, t, hspells, hat⟩ := memberAt_of_entry hkey hentry
    have hs₁ : s₁.length < s.length := by
      simp only [hs, List.length_append, List.length_cons]
      omega
    obtain ⟨members, hend, hheld⟩ := membersFrom_agrees (by omega) h
    obtain ⟨m, rfl, hend'⟩ := hend.comma hws (hat hws')
    exact ⟨m :: members, hs ▸ hend', HeldAfter.cons hnext hkey hentry (delimited_of_membersEnd hend)
      (by omega) hspells hheld⟩

/-- All the members of an object. -/
theorem membersFrom_first_agrees {rounds : Nat} {entries : List (String × Json)}
    (hl : s.length < limit)
    (h : membersFrom (entryWith (value (nesting - 1))) limit rounds true [] s = .ok (entries, rest)) :
    ∃ members, ObjectEnd members s rest ∧ HeldAfter limit rounds true members s rest [] entries := by
  cases rounds with
  | zero => cases h
  | succ rounds =>
    rw [membersFrom] at h
    split at h
    · cases h
    · next s' hclose =>
      cases h
      obtain ⟨ws, hws, hs⟩ := nextKey_close_sound hclose
      exact ⟨[], hs ▸ ObjectEnd.close hws, .close hclose⟩
    next s₁ hnext =>
    split at h
    · cases h
    next key s₂ hkey =>
    split at h
    · cases h
    next entries₁ s₃ hentry =>
    obtain ⟨ws, hws, hs⟩ := nextKey_first_some hnext
    obtain ⟨hkeyLength, hvalueLength, t, hspells, hat⟩ := memberAt_of_entry hkey hentry
    have hs₁ : s₁.length < s.length := by
      simp only [hs, List.length_append, List.length_cons]
      omega
    obtain ⟨members, hend, hheld⟩ := membersFrom_agrees (by omega) h
    obtain ⟨m, rfl, hend'⟩ := hend.object (hat hws)
    exact ⟨m :: members, hs ▸ hend', HeldAfter.cons hnext hkey hentry (delimited_of_membersEnd hend)
      (by omega) hspells hheld⟩

/-- **An object.**  The reader of envelopes takes what stands under `data`, and fails if there is
no such member. -/
theorem fromObject_agrees {entries : List (String × Json)} (hl : s.length < limit)
    (h : members (entryWith (value (nesting - 1))) [] limit s = .ok (entries, rest)) :
    ∃ members, ObjectEnd members s rest ∧ (NamedOnce members →
      (fromObject limit s).toOption
        = (Dictionary.get? dataField entries).map fun data => (⟨data⟩, rest)) := by
  obtain ⟨members, hend, hheld⟩ := membersFrom_first_agrees hl h
  refine ⟨members, hend, fun honce => ?_⟩
  have hread : Json.members member none limit s = .ok (Dictionary.get? dataField entries, rest) :=
    hheld honce nofun
  unfold fromObject
  rw [hread]
  cases Dictionary.get? dataField entries with
  | none => rfl
  | some data => rfl

/-! ## 2. Arrays -/

/-- Items are put behind those that were read before. -/
theorem itemsFrom_extends {α : Type} {item : Reader α} : ∀ {rounds : Nat} {first : Bool}
    {acc vs : List α} {s : Bytes}, itemsFrom item limit rounds first acc s = .ok (vs, rest) →
      ∃ more, vs = acc.reverse ++ more
  | 0, _, _, _, _, h => nomatch h
  | rounds + 1, first, acc, vs, s, h => by
    rw [itemsFrom] at h
    split at h
    · cases h
    · next v s' hitem =>
      obtain ⟨more, hmore⟩ := itemsFrom_extends h
      exact ⟨v :: more, by rw [hmore, List.reverse_cons, List.append_assoc, List.singleton_append]⟩
    · split at h
      · cases h
      · cases h
        exact ⟨[], (List.append_nil _).symm⟩

/-- A comma does not close an array. -/
theorem closeArray_comma {ws : Bytes} (hws : Blank ws) (s : Bytes) :
    closeArray (ws ++ comma :: s) = .error .malformed := by
  rw [closeArray, skipSpaces_blank_cons hws (by decide)]
  rfl

/-- **Behind the first item**, an array is closed if that item is the only one. -/
theorem closeArray_agrees {α : Type} {item : Reader α} {rounds : Nat} {first : α} {vs : List α}
    (h : itemsFrom item limit rounds false [first] s = .ok (vs, rest)) :
    vs = [first] ∧ closeArray s = .ok rest ∨
      (∃ second more, vs = first :: second :: more) ∧ closeArray s = .error .malformed := by
  cases rounds with
  | zero => cases h
  | succ rounds =>
    rw [itemsFrom] at h
    split at h
    · cases h
    · next second s' hitem =>
      right
      rcases optionalItem_cases hitem with ⟨hnone, -⟩ | ⟨_, s'', -, hnext, -⟩
      · cases hnone
      obtain ⟨ws, ws', hws, -, rfl⟩ := nextItem_later_some hnext
      obtain ⟨more, hmore⟩ := itemsFrom_extends h
      exact ⟨⟨second, more, hmore⟩, closeArray_comma hws _⟩
    next s' hnone =>
    split at h
    · cases h
    next s'' hclose =>
    cases h
    left
    rcases optionalItem_cases hnone with ⟨-, rfl⟩ | ⟨_, _, hsome, -⟩
    · exact ⟨rfl, hclose⟩
    · cases hsome

theorem reader_openBracket (limit : Nat) (s : Bytes) :
    reader limit (openBracket :: s)
      = (fromArray limit s).bind fun (e, s) => (closeArray s).map (e, ·) := by
  rw [reader, record, skipSpaces_cons (by decide)]
  dsimp only
  rw [if_neg (by decide), if_pos rfl]
  cases fromArray limit s with
  | error e => rfl
  | ok read =>
    obtain ⟨e, s'⟩ := read
    dsimp only [Except.bind]
    cases closeArray s' <;> rfl

/-- **An array.**  The reader of envelopes takes its only item, and fails if there is another number
of them. -/
theorem array_agrees {rounds : Nat} {vs : List Json}
    (h : itemsFrom (value (nesting - 1)) limit rounds true [] s = .ok (vs, rest)) :
    (reader limit (openBracket :: s)).toOption
      = (carried? (.arr vs)).map fun data => (⟨data⟩, rest) := by
  rw [reader_openBracket]
  cases rounds with
  | zero => cases h
  | succ rounds =>
    rw [itemsFrom] at h
    split at h
    · cases h
    · next first s' hitem =>
      have hread : fromArray limit s = .ok (⟨first⟩, s') := by
        rw [fromArray, payload, hitem]
      rw [hread]
      dsimp only [Except.bind]
      rcases closeArray_agrees h with ⟨rfl, hclose⟩ | ⟨⟨second, more, rfl⟩, hclose⟩
      · rw [hclose]
        rfl
      · rw [hclose]
        rfl
    next s' hnone =>
    have hread : fromArray limit s = .error (.mismatch (.tooShort 0 "Envelope" 1)) := by
      rw [fromArray, payload, hnone]
    rw [hread]
    split at h
    · cases h
    · cases h
      rfl

/-! ## 3. Any value -/

theorem reader_openBrace (limit : Nat) (s : Bytes) :
    reader limit (openBrace :: s) = fromObject limit s := rfl

theorem reader_behind {ws : Bytes} (hws : Blank ws) (limit : Nat) (s : Bytes) :
    reader limit (ws ++ s) = reader limit s := by
  rw [reader, record, record, skipSpaces_blank hws]

/-- A text that opens no container is no envelope. -/
theorem reader_scalar (limit : Nat) {b : UInt8} (hb : skipSpaces s = b :: rest)
    (harray : b ≠ openBracket) (hobject : b ≠ openBrace) : ∃ e, reader limit s = .error e := by
  rw [reader, record, hb]
  dsimp only
  rw [if_neg hobject, if_neg harray, unexpected]
  split
  · exact ⟨_, rfl⟩
  · exact ⟨_, rfl⟩

/-- A scalar carries nothing. -/
theorem carried?_scalar (h : scalar limit s = .ok (v, rest)) : carried? v = none := by
  rw [scalar] at h
  split at h
  · cases h
  next what s' hfound =>
  cases what with
  | array => cases h
  | object => cases h
  | _ =>
    cases h
    rfl

/-- At the start of a text stands an object in which two members are named `data`. -/
def RepeatsData (s rest : Bytes) : Prop :=
  ∃ ws s' members, Blank ws ∧ s = ws ++ openBrace :: s' ∧ ObjectEnd members s' rest ∧
    ¬ NamedOnce members

/-- The text begins with an object whose first key is the mark. -/
def BeginsMarked (limit : Nat) (s : Bytes) : Prop :=
  ∃ more s', skipSpaces s = openBrace :: more ∧ rawKey? limit more = some s'

/-- **An object for the value of another text** is no envelope: its one member is not named `data`. -/
theorem reader_marked (hl : s.length < limit) (h : value nesting limit s = .ok (v, rest))
    (hmarked : BeginsMarked limit s) :
    reader limit s = .error (.mismatch (.missingField dataField)) := by
  obtain ⟨more, s', hmore, hkey⟩ := hmarked
  have hraw : rawValue ofText limit s' = .ok (v, rest) := by
    rw [show nesting = nesting - 1 + 1 from rfl, value, valueWith] at h
    dsimp only at h
    rw [hmore] at h
    dsimp only at h
    rwa [if_neg (by decide), if_pos rfl, hkey] at h
  obtain ⟨ws, hws, rfl⟩ := blank_of_skipSpaces hmore
  obtain ⟨ws₁, t, hws₁, hspells, rfl⟩ := eq_of_rawKey? hkey
  obtain ⟨_, s'', hmember, -, hclose⟩ := rawValue_cases hraw
  obtain ⟨ws', hws', rfl⟩ := blank_of_closeObject hclose
  simp only [List.length_append, List.length_cons] at hl
  have hskip := memberValue_skip ((textFor_sound .raw).memberValue hmember)
    (hws'.delimited (delimited_closeBrace rest)) (show s'.length < limit by omega)
  have hname : literal limit (t ++ quote :: s') = .ok (rawMark, s') := by
    rw [literal_inner_text hspells.inner
      (by simp only [List.length_append, List.length_cons]; omega), hspells.spelled]
    rfl
  have hother : member rawMark none limit s' = .ok (none, ws' ++ closeBrace :: rest) := by
    rw [member, if_neg (by decide)]
    dsimp only
    rw [hskip]
    rfl
  obtain ⟨rounds, rfl⟩ : ∃ rounds, limit = rounds + 2 := ⟨limit - 2, by omega⟩
  have hmembers : members member none (rounds + 2) (ws₁ ++ quote :: (t ++ quote :: s'))
      = .ok (none, rest) := by
    rw [members, membersFrom, nextKey_first_blank hws₁]
    dsimp only
    rw [hname]
    dsimp only
    rw [hother]
    exact membersFrom_close_blank member _ rounds false none hws' rest
  rw [reader_behind hws, reader_openBrace, fromObject, hmembers]

/-- **The two readers over one value**, if it does not stand for the value of another text. -/
theorem reader_agrees (hl : s.length < limit) (h : value nesting limit s = .ok (v, rest))
    (hunmarked : ¬ BeginsMarked limit s) (honce : ¬ RepeatsData s rest) :
    (reader limit s).toOption = (carried? v).map fun data => (⟨data⟩, rest) := by
  rw [show nesting = nesting - 1 + 1 from rfl, value] at h
  obtain ⟨b, s', hs', hcases⟩ := valueWith_cases h
  obtain ⟨ws, hws, hs⟩ := blank_of_skipSpaces hs'
  have hs'Length : s'.length < limit := by
    rw [hs, List.length_append, List.length_cons] at hl
    omega
  rcases hcases with ⟨rfl, vs, rfl, hitems⟩ | ⟨rfl, s₁, hkey, -⟩ | ⟨rfl, -, entries, rfl, hmembers⟩ |
    ⟨hbracket, hbrace, hscalar⟩
  · rw [hs, reader_behind hws]
    exact array_agrees hitems
  · exact absurd ⟨s', s₁, hs', hkey⟩ hunmarked
  · obtain ⟨members, hend, hread⟩ := fromObject_agrees hs'Length hmembers
    have hnamed : NamedOnce members := Classical.not_not.mp fun hrepeats =>
      honce ⟨ws, s', members, hws, hs, hend, hrepeats⟩
    rw [hs, reader_behind hws, reader_openBrace]
    exact hread hnamed
  · obtain ⟨e, he⟩ := reader_scalar limit hs' hbracket hbrace
    rw [he, carried?_scalar hscalar]
    rfl

/-! ## 4. Whole texts -/

/-- A whole text with two members named `data` repeats that name. -/
theorem objectRepeating_of_repeatsData (h : RepeatsData body rest) (hrest : Blank rest) :
    ObjectRepeating dataField body := by
  obtain ⟨ws, s, members, hws, rfl, ⟨hvalues, htext⟩, hrepeats⟩ := h
  have htwice : ∃ m m', [m, m'].Sublist members ∧ m.Named dataField ∧ m'.Named dataField := by
    rw [NamedOnce, List.pairwise_iff_forall_sublist] at hrepeats
    refine Classical.byContradiction fun hnone => hrepeats fun hsub hboth => ?_
    exact hnone ⟨_, _, hsub, hboth.1, hboth.2⟩
  rcases htext with ⟨rfl, -⟩ | rfl
  · obtain ⟨m, m', hsub, -⟩ := htwice
    cases hsub
  · exact ⟨ws, rest, members, hws, hrest, hvalues, htwice, rfl⟩

/-- A whole text that is read stands for the value of another text if, and only if, it is an object
with the mark in front. -/
theorem beginsMarked_iff (hl : body.length < limit) (h : value nesting limit body = .ok (v, rest))
    (hrest : Blank rest) : BeginsMarked limit body ↔ ObjectLed rawMark body := by
  constructor
  · rintro ⟨more, s', hmore, hkey⟩
    rw [show nesting = nesting - 1 + 1 from rfl, value] at h
    obtain ⟨b, more', hmore', hcases⟩ := valueWith_cases h
    obtain ⟨rfl, rfl⟩ : b = openBrace ∧ more' = more := by
      rw [hmore, List.cons.injEq] at hmore'
      exact ⟨hmore'.1.symm, hmore'.2.symm⟩
    rcases hcases with ⟨hb, -⟩ | ⟨-, s₁, hkey₁, hraw⟩ | ⟨-, hnone, -⟩ | ⟨-, hb, -⟩
    · exact absurd hb (by decide)
    · obtain ⟨m, hnamed, hvalues, hnil | htext⟩ := rawObject_sound hkey₁ hraw
      · cases hnil.1
      · obtain ⟨ws, hws, hbody⟩ := blank_of_skipSpaces hmore
        exact ⟨ws, rest, m, [], hws, hrest, hvalues, hnamed, by rw [hbody, htext]⟩
    · rw [hkey] at hnone
      cases hnone
    · exact absurd rfl hb
  · rintro ⟨before, after, first, members, hbefore, -, -, hnamed, rfl⟩
    refine ⟨_, first.field ++ (first.item.after ++ ((members.map Member.text).flatMap (comma :: ·)
      ++ closeBrace :: after)), skipSpaces_blank_cons hbefore (by decide) _, ?_⟩
    simp only [List.map_cons, separated, List.append_assoc, List.cons_append, Member.text_append,
      List.length_append, List.length_cons] at hl ⊢
    rw [rawKey?_spelled first.before_blank first.key_inner
      (by simp only [List.length_append, List.length_cons]; omega), hnamed.spelled]
    dsimp only
    rw [isMark_iff.mpr rfl, cond_true]

/-- **The two readers over one text**: what the reader of envelopes takes is what the value of the
text carries, unless it is the value of another text. -/
theorem ofBytes_agrees (h : Json.ofBytes body = .ok v) (hunmarked : ¬ ObjectLed rawMark body)
    (honce : ¬ ObjectRepeating dataField body) :
    (ofBytes body).toOption = (carried? v).map Envelope.mk := by
  obtain ⟨rest, hread, hrest⟩ := fromBytes_eq_ok_iff.mp h
  have hagrees := reader_agrees (Nat.lt_succ_self _) hread
    (fun hmarked => hunmarked ((beginsMarked_iff (Nat.lt_succ_self _) hread hrest).mp hmarked))
    fun hrepeats => honce (objectRepeating_of_repeatsData hrepeats hrest)
  cases hresult : reader (body.length + 1) body with
  | error e =>
    have hnone : carried? v = none := by
      rw [hresult] at hagrees
      exact Option.map_eq_none_iff.mp hagrees.symm
    rw [ofBytes, fromBytes, hresult, hnone]
    rfl
  | ok read =>
    obtain ⟨data, hdata, hread⟩ : ∃ data, carried? v = some data ∧ (⟨data⟩, rest) = read := by
      rw [hresult] at hagrees
      exact Option.map_eq_some_iff.mp hagrees.symm
    have hbytes : ofBytes body = .ok ⟨data⟩ :=
      fromBytes_eq_ok_iff.mpr ⟨rest, hread ▸ hresult, hrest⟩
    rw [hbytes, hdata]
    rfl

/-- An object with the mark in front is no envelope. -/
theorem ofBytes_of_led (h : Json.ofBytes body = .ok v) (hled : ObjectLed rawMark body) :
    ofBytes body = .error (.mismatch (.missingField dataField)) := by
  obtain ⟨rest, hread, hrest⟩ := fromBytes_eq_ok_iff.mp h
  have hl := Nat.lt_succ_self body.length
  have hmarked := (beginsMarked_iff hl hread hrest).mpr hled
  rw [ofBytes, fromBytes, reader_marked hl hread hmarked]

/-- **Reading an envelope is reading a value and taking the payload out of it.**  For a text that is
JSON and has no two members `data` in its object, the envelope of a payload is read if and only if
the value is an object with that payload under `data`, or an array of that payload alone, and the text
is the text of this value.  In every other case reading the envelope fails: so it does for an object
with the mark in front, which is read as the value of another text, whatever that is. -/
theorem ofBytes_iff_of_json (h : Json.ofBytes body = .ok v)
    (honce : ¬ ObjectRepeating "data" body) :
    (∀ data, ofBytes body = .ok ⟨data⟩ ↔ ¬ ObjectLed rawMark body ∧
      ((∃ members, v = .obj members ∧ Dictionary.get? "data" members = some data) ∨
        v = .arr [data])) ∧
    ((∃ err, ofBytes body = .error err) ↔ ObjectLed rawMark body ∨
      ¬ ∃ data, (∃ members, v = .obj members ∧ Dictionary.get? "data" members = some data) ∨
        v = .arr [data]) := by
  have hcarried : ∀ data, carried? v = some data ↔
      (∃ members, v = .obj members ∧ Dictionary.get? "data" members = some data) ∨
        v = .arr [data] := fun data => carried?_eq_some_iff
  simp only [← hcarried]
  by_cases hled : ObjectLed rawMark body
  · rw [ofBytes_of_led h hled]
    exact ⟨fun data => iff_of_false nofun fun hboth => hboth.1 hled,
      iff_of_true ⟨_, rfl⟩ (.inl hled)⟩
  have hagrees := ofBytes_agrees h hled honce
  cases hresult : ofBytes body with
  | error err =>
    rw [hresult] at hagrees
    have hnone : carried? v = none := by
      cases hv : carried? v with
      | none => rfl
      | some data =>
        rw [hv] at hagrees
        cases hagrees
    simp [hnone]
  | ok e =>
    rw [hresult] at hagrees
    have hsome : carried? v = some e.data := by
      cases hv : carried? v with
      | none =>
        rw [hv] at hagrees
        cases hagrees
      | some data =>
        rw [hv] at hagrees
        cases hagrees
        rfl
    obtain ⟨data⟩ := e
    simp [hsome, hled, eq_comm]

/-- With white space, behind a member that is passed over and has a closing brace in a string. -/
theorem ofBytes_of_json_beside_others :
    let body := Utf8.encode " \x7b \"x\" : [\x7b\x7d, \"\x7d\", null] , \"data\" : [7] \x7d "
    Json.ofBytes body = .ok (.obj [("data", .arr [.int 7]),
      ("x", .arr [.obj [], .str "\x7d", .null])]) ∧
    ¬ ObjectRepeating "data" body ∧ ofBytes body = .ok ⟨.arr [.int 7]⟩ := by
  intro body
  have hvalue : Json.ofBytes body = .ok (.obj [("data", .arr [.int 7]),
      ("x", .arr [.obj [], .str "\x7d", .null])]) := by
    unfold body
    cbv
  have honce : ¬ ObjectRepeating "data" body := by
    intro hrepeating
    -- there is one `t` in the whole text
    have htwice := hrepeating.two_le_count (by decide +kernel) 0x74 (by decide +kernel)
    exact absurd htwice (by decide +kernel)
  have hunmarked : ¬ ObjectLed rawMark body := by
    intro hled
    -- there is no dollar in the whole text
    have hdollar := hled.objectWith.mem (by decide +kernel) 0x24 (by decide +kernel)
    exact absurd hdollar (by decide +kernel)
  exact ⟨hvalue, honce,
    ((ofBytes_iff_of_json hvalue honce).1 _).mpr ⟨hunmarked, .inl ⟨_, rfl, if_pos rfl⟩⟩⟩

/-- A text that is read as an array of one item, and that is no envelope: the array is the value of
the text inside. -/
theorem ofBytes_of_json_marked :
    let body := Utf8.encode "\x7b\"$serde_json::private::RawValue\":\"[1]\"\x7d"
    Json.ofBytes body = .ok (.arr [.int 1]) ∧ ¬ ObjectRepeating "data" body ∧
      ofBytes body = .error (.mismatch (.missingField "data")) := by
  intro body
  have honce : ¬ ObjectRepeating "data" body := by
    intro hrepeating
    -- there is one `d` in the whole text
    have htwice := hrepeating.two_le_count (by decide +kernel) 0x64 (by decide +kernel)
    exact absurd htwice (by decide +kernel)
  refine ⟨?_, honce, ?_⟩
  · unfold body
    cbv
  · unfold body
    cbv

end MeshNode.Envelope
