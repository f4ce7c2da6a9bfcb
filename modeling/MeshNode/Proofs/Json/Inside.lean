/-
# Texts inside a text

An object whose first key is the mark stands for the value of another text, which may again hold such
an object.  Each of these texts is shorter than the one around it, so there are only as many of them
inside one another as the outermost text has bytes, and the rounds that the reader is given are always
enough: what is read does not depend on them.

* `Spells.length_le`: what a string spells is no longer than its text;
* `valueWith_congr`: a value depends on what is made of shorter texts only;
* `ofText_eq_ofBytes`: a text inside comes to what it comes to on its own.
-/
import MeshNode.Proofs.Json.Soundness

namespace MeshNode.Json

open Token

variable {α σ : Type} {s rest : Bytes} {limit n : Nat}

/-! ## 1. What is left is shorter -/

theorem length_encodeChar_le (c : Char) : (Utf8.encodeChar c).length ≤ 4 := by
  unfold Utf8.encodeChar
  dsimp only
  split
  · simp
  split
  · simp
  split <;> simp

/-- **A string is no longer than its text.** -/
theorem Spells.length_le {t u : Bytes} (h : Spells t u) : u.length ≤ t.length := by
  induction h with
  | nil => exact Nat.le_refl 0
  | plain _ _ ih =>
    rw [List.length_cons, List.length_cons]
    omega
  | escape _ _ ih =>
    simp only [List.length_cons]
    omega
  | @number _ _ _ _ n _ _ _ _ _ ih =>
    have hchar := length_encodeChar_le (Char.ofNat n)
    simp only [List.length_cons, List.length_append]
    omega
  | @pair _ _ _ _ _ _ _ _ high low _ _ _ _ _ _ _ ih =>
    have hchar := length_encodeChar_le
      (Char.ofNat (0x10000 + (high - 0xD800) * 0x400 + (low - 0xDC00)))
    simp only [List.length_cons, List.length_append]
    omega

theorem ValueAt.length_le (h : ValueAt s rest) : rest.length ≤ s.length := by
  obtain ⟨before, t, -, -, rfl⟩ := h
  simp only [List.length_append]
  omega

theorem FieldAt.length_le (h : FieldAt s rest) : rest.length ≤ s.length := by
  obtain ⟨gap, s', -, rfl, hvalue⟩ := h
  have hle := hvalue.length_le
  simp only [List.length_append, List.length_cons]
  omega

theorem length_le_of_nextItem {first : Bool} {s' : Bytes}
    (h : nextItem first s = .ok (some s')) : s'.length ≤ s.length := by
  cases first with
  | true =>
    obtain ⟨ws, -, rfl⟩ := nextItem_first_some h
    simp only [List.length_append]
    omega
  | false =>
    obtain ⟨ws, ws', -, -, rfl⟩ := nextItem_later_some h
    simp only [List.length_append, List.length_cons]
    omega

theorem length_lt_of_nextKey {first : Bool} {s' : Bytes}
    (h : nextKey first s = .ok (.inl s')) : s'.length < s.length := by
  cases first with
  | true =>
    obtain ⟨ws, -, rfl⟩ := nextKey_first_some h
    simp only [List.length_append, List.length_cons]
    omega
  | false =>
    obtain ⟨ws, ws', -, -, rfl⟩ := nextKey_later_some h
    simp only [List.length_append, List.length_cons]
    omega

theorem length_lt_of_skipColon (h : skipColon s = .ok rest) : rest.length < s.length := by
  obtain ⟨ws, -, rfl⟩ := blank_of_skipColon h
  simp only [List.length_append, List.length_cons]
  omega

/-- A string and what is left of its text, from behind its opening mark. -/
theorem length_lt_of_literal {name : String} (h : literal limit s = .ok (name, rest)) :
    (Utf8.encode name).length + rest.length < s.length := by
  obtain ⟨t, rfl, hspells⟩ := spells_of_literal h
  have hle := hspells.length_le
  simp only [List.length_append, List.length_cons]
  omega

theorem length_lt_of_textFor {expected : Expected} {name : String}
    (h : textFor expected limit s = .ok (name, rest)) : (Utf8.encode name).length < s.length := by
  rw [textFor] at h
  split at h
  · cases h
  next b more hmore =>
  obtain ⟨ws, -, rfl⟩ := blank_of_skipSpaces hmore
  split at h
  · have hlt := length_lt_of_literal h
    simp only [List.length_append, List.length_cons]
    omega
  · rw [unexpected] at h
    split at h <;> cases h

theorem length_lt_of_memberText {expected : Expected} {name : String}
    (h : memberValue (textFor expected) limit s = .ok (name, rest)) :
    (Utf8.encode name).length < s.length := by
  rw [memberValue] at h
  split at h
  · cases h
  · next hcolon => exact Nat.lt_trans (length_lt_of_textFor h) (length_lt_of_skipColon hcolon)

theorem length_lt_of_rawKey? {s' : Bytes} (h : rawKey? limit s = some s') :
    s'.length < s.length := by
  obtain ⟨ws, t, -, -, rfl⟩ := eq_of_rawKey? h
  simp only [List.length_append, List.length_cons]
  omega

/-! ## 2. Readers that agree on short texts -/

/-- Two readers make the same of every text of at most `n` bytes. -/
def AgreeTo (n limit : Nat) (read read' : Reader α) : Prop :=
  ∀ s, s.length ≤ n → read limit s = read' limit s

variable {item item' : Reader α} {member member' : String → σ → Reader σ}

theorem AgreeTo.optionalItem (h : AgreeTo n limit item item') (first : Bool) :
    AgreeTo n limit (optionalItem first item) (optionalItem first item') := by
  intro s hs
  unfold Json.optionalItem
  cases hnext : nextItem first s with
  | error e => rfl
  | ok found =>
    cases found with
    | none => rfl
    | some s' =>
      dsimp only
      rw [h s' (Nat.le_trans (length_le_of_nextItem hnext) hs)]

theorem AgreeTo.itemsFrom (h : AgreeTo n limit item item') (hsound : Sound item') :
    ∀ (rounds : Nat) (first : Bool) (acc : List α) {s : Bytes}, s.length ≤ n →
      itemsFrom item limit rounds first acc s = itemsFrom item' limit rounds first acc s
  | 0, _, _, _, _ => rfl
  | rounds + 1, first, acc, s, hs => by
    unfold Json.itemsFrom
    rw [h.optionalItem first s hs]
    cases hitem : Json.optionalItem first item' limit s with
    | error e => rfl
    | ok found =>
      obtain ⟨found, s'⟩ := found
      cases found with
      | none => rfl
      | some v =>
        have hshorter : s'.length ≤ s.length := by
          rcases optionalItem_cases hitem with ⟨hnone, -⟩ | ⟨_, s₁, -, hnext, hvalue⟩
          · cases hnone
          · exact Nat.le_trans (hsound hvalue).length_le (length_le_of_nextItem hnext)
        exact h.itemsFrom hsound rounds false (v :: acc) (Nat.le_trans hshorter hs)

/-- **Arrays** are read alike if their items are. -/
theorem AgreeTo.items (h : AgreeTo n limit item item') (hsound : Sound item') :
    AgreeTo n limit (items item) (items item') :=
  fun _ hs => h.itemsFrom hsound limit true [] hs

theorem AgreeTo.membersFrom (h : ∀ key state, AgreeTo n limit (member key state) (member' key state))
    {matters : String → Prop} (hsound : SoundMembers matters member') :
    ∀ (rounds : Nat) (first : Bool) (state : σ) {s : Bytes}, s.length ≤ n →
      membersFrom member limit rounds first state s = membersFrom member' limit rounds first state s
  | 0, _, _, _, _ => rfl
  | rounds + 1, first, state, s, hs => by
    unfold Json.membersFrom
    cases hnext : nextKey first s with
    | error e => rfl
    | ok next =>
      cases next with
      | inr s' => rfl
      | inl s₁ =>
        dsimp only
        have hs₁ := length_lt_of_nextKey hnext
        cases hkey : literal limit s₁ with
        | error e => rfl
        | ok found =>
          obtain ⟨key, s₂⟩ := found
          have hs₂ := length_lt_of_literal hkey
          dsimp only
          rw [h key state s₂ (by omega)]
          cases hmember : member' key state limit s₂ with
          | error e => rfl
          | ok found =>
            obtain ⟨state', s₃⟩ := found
            have hs₃ := (hsound hmember).1.length_le
            exact AgreeTo.membersFrom h hsound rounds false state' (by omega)

/-- **Objects** are read alike if their members are. -/
theorem AgreeTo.members (h : ∀ key state, AgreeTo n limit (member key state) (member' key state))
    {matters : String → Prop} (hsound : SoundMembers matters member') (state : σ) :
    AgreeTo n limit (members member state) (members member' state) :=
  fun _ hs => AgreeTo.membersFrom h hsound limit true state hs

theorem AgreeTo.memberValue (h : AgreeTo n limit item item') :
    AgreeTo n limit (memberValue item) (memberValue item') := by
  intro s hs
  unfold Json.memberValue
  cases hcolon : skipColon s with
  | error e => rfl
  | ok s' => exact h s' (Nat.le_trans (Nat.le_of_lt (length_lt_of_skipColon hcolon)) hs)

theorem AgreeTo.entryWith {value value' : Reader Json} (h : AgreeTo n limit value value')
    (key : String) (entries : List (String × Json)) :
    AgreeTo n limit (entryWith value key entries) (entryWith value' key entries) := by
  intro s hs
  unfold Json.entryWith
  rw [h.memberValue s hs]

/-! ## 3. Values -/

variable {inner inner' : Nat → Bytes → Except Error Json}

/-- A value with a text of its own, which is shorter than the text behind the mark. -/
theorem rawValue_congr (h : ∀ t, t.length < s.length → inner limit t = inner' limit t) :
    rawValue inner limit s = rawValue inner' limit s := by
  unfold rawValue
  cases hmember : memberValue (textFor .raw) limit s with
  | error e => rfl
  | ok found =>
    dsimp only
    rw [h _ (length_lt_of_memberText hmember)]

/-- **A value depends on what is made of shorter texts only.** -/
theorem valueWith_congr (h : ∀ t, t.length < n → inner limit t = inner' limit t) :
    ∀ budget, AgreeTo n limit (valueWith inner budget) (valueWith inner' budget)
  | 0 => fun _ _ => rfl
  | budget + 1 => by
    have ih := valueWith_congr h budget
    have hsound := valueWith_sound inner' budget
    intro s hs
    unfold valueWith
    cases hmore : skipSpaces s with
    | nil => rfl
    | cons b more =>
      obtain ⟨ws, -, rfl⟩ := blank_of_skipSpaces hmore
      have hshorter : more.length < n := by
        simp only [List.length_append, List.length_cons] at hs
        omega
      dsimp only
      rw [ih.items hsound more (Nat.le_of_lt hshorter),
        AgreeTo.members ih.entryWith (entryWith_sound hsound) [] more (Nat.le_of_lt hshorter)]
      cases hkey : rawKey? limit more with
      | none => rfl
      | some s' =>
        have hraw : rawValue inner limit s' = rawValue inner' limit s' :=
          rawValue_congr fun t ht => h t (by have := length_lt_of_rawKey? hkey; omega)
        dsimp only
        rw [hraw]

/-- Whole texts are values alike as well. -/
theorem fromBytes_valueWith_congr
    (h : ∀ t, t.length < s.length → inner (s.length + 1) t = inner' (s.length + 1) t)
    (budget : Nat) : fromBytes (valueWith inner budget) s = fromBytes (valueWith inner' budget) s := by
  rw [fromBytes, fromBytes, valueWith_congr h budget s (Nat.le_refl _)]

/-- As many rounds as a text has bytes are enough, by induction on their number. -/
theorem ofText_eq_ofText : ∀ {n m : Nat} {s : Bytes}, s.length < n → s.length < m →
    ofText n s = ofText m s
  | n + 1, m + 1, s, hn, hm => by
    have hinside : ∀ t : Bytes, t.length < s.length → ofText n t = ofText m t :=
      fun t ht => ofText_eq_ofText (by omega) (by omega)
    rw [ofText, ofText, @fromBytes_valueWith_congr s _ (fun _ => ofText m) hinside]

/-- **A text inside comes to what it comes to on its own.** -/
theorem ofText_eq_ofBytes (h : s.length < n) : ofText n s = ofBytes s := by
  obtain ⟨rounds, rfl⟩ : ∃ rounds, n = rounds + 1 := ⟨n - 1, by omega⟩
  have hinside : ∀ t : Bytes, t.length < s.length → ofText rounds t = ofText (s.length + 1) t :=
    fun t ht => ofText_eq_ofText (by omega) (by omega)
  rw [ofText, ofBytes, value, fromBytes_valueWith_congr hinside]

end MeshNode.Json
