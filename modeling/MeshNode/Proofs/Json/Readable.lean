/-
# Values that were read

What a reader gives back has a form of its own.  The keys of a text may come in any order and more
than once, and its numbers may be of any size; the value that is made of it has its keys in order and
no whole number beyond a word.  Its depth is not bounded by the budget of the reader: a text inside
the text has a budget of its own.

* `Contains`: the values inside a value, and `floatFree_iff`: what `floatFree` says of them;
* `Gives` and `Keeps`: what a reader gives back, and what the reader of a member keeps, with
  `Gives.items` and `Keeps.members` for the readers of arrays and objects;
* `Gives.value`: what holds of all values that are read, if a text inside does not break it;
* `Readable` and `value_readable`: keys in order, whole numbers that are words;
* `eq_of_same`: without doubles, equal values are the same.
-/
import MeshNode.Proofs.Json.Soundness

namespace MeshNode.Json

open Token

variable {α σ : Type}

/-! ## 1. The values inside a value -/

/-- `Contains w v`: the value `w` is `v`, or it stands somewhere inside it. -/
inductive Contains (w : Json) : Json → Prop
  | self : Contains w w
  | item {items : List Json} {v : Json} (hv : v ∈ items) (h : Contains w v) :
    Contains w (.arr items)
  | member {members : List (String × Json)} {m : String × Json} (hm : m ∈ members)
    (h : Contains w m.2) : Contains w (.obj members)

/-- **Without doubles**: no double stands inside, and every whole number is a word. -/
theorem floatFree_iff (v : Json) : v.floatFree = true ↔
    (∀ x, ¬ Contains (.float x) v) ∧ ∀ n, Contains (.int n) v → isWord n = true := by
  induction v using induction with
  | null => exact iff_of_true rfl ⟨nofun, nofun⟩
  | bool b => exact iff_of_true rfl ⟨nofun, nofun⟩
  | int n =>
    constructor
    · intro hn
      refine ⟨nofun, ?_⟩
      intro k h
      cases h
      exact hn
    · rintro ⟨-, h⟩
      exact h n .self
  | float x => exact iff_of_false (by simp [floatFree]) fun h => h.1 x .self
  | str s => exact iff_of_true rfl ⟨nofun, nofun⟩
  | arr items ih =>
    rw [floatFree_arr]
    constructor
    · intro h
      constructor
      · intro x hx
        cases hx with
        | item hv hx => exact ((ih _ hv).mp (h _ hv)).1 x hx
      · intro n hn
        cases hn with
        | item hv hn => exact ((ih _ hv).mp (h _ hv)).2 n hn
    · rintro ⟨hfloat, hword⟩ v hv
      exact (ih v hv).mpr ⟨fun x hx => hfloat x (.item hv hx), fun n hn => hword n (.item hv hn)⟩
  | obj members ih =>
    rw [floatFree_obj]
    constructor
    · intro h
      constructor
      · intro x hx
        cases hx with
        | member hm hx => exact ((ih _ hm).mp (h _ hm)).1 x hx
      · intro n hn
        cases hn with
        | member hm hn => exact ((ih _ hm).mp (h _ hm)).2 n hn
    · rintro ⟨hfloat, hword⟩ m hm
      exact (ih m hm).mpr
        ⟨fun x hx => hfloat x (.member hm hx), fun n hn => hword n (.member hm hn)⟩

/-! ## 2. What a reader gives back -/

/-- Whatever a reader gives back, `P` holds of it. -/
def Gives (read : Reader α) (P : α → Prop) : Prop :=
  ∀ ⦃limit : Nat⦄ ⦃s rest : Bytes⦄ ⦃a : α⦄, read limit s = .ok (a, rest) → P a

/-- What was collected before a member has the property `I`, and so it has behind it. -/
def Keeps (member : String → σ → Reader σ) (I : σ → Prop) : Prop :=
  ∀ ⦃key : String⦄ ⦃state : σ⦄, I state → Gives (member key state) I

variable {P : α → Prop} {I : σ → Prop} {item : Reader α} {member : String → σ → Reader σ}

theorem Gives.optionalItem (h : Gives item P) (first : Bool) :
    Gives (optionalItem first item) fun found => ∀ v ∈ found, P v := by
  intro limit s rest found hfound
  rcases optionalItem_cases hfound with ⟨rfl, -⟩ | ⟨v, s', rfl, -, hitem⟩
  · exact fun v hv => nomatch hv
  · intro w hw
    obtain rfl : v = w := Option.some.inj hw
    exact h hitem

theorem Gives.itemsFrom (h : Gives item P) {limit : Nat} :
    ∀ {rounds : Nat} {first : Bool} {acc vs : List α} {s rest : Bytes},
      itemsFrom item limit rounds first acc s = .ok (vs, rest) → (∀ v ∈ acc, P v) → ∀ v ∈ vs, P v
  | 0, _, _, _, _, _, hread, _ => nomatch hread
  | rounds + 1, first, acc, vs, s, rest, hread, hacc => by
    unfold Json.itemsFrom at hread
    split at hread
    · cases hread
    · next v s' hitem =>
      have hv : P v := h.optionalItem first hitem v rfl
      exact h.itemsFrom hread (List.forall_mem_cons.mpr ⟨hv, hacc⟩)
    · split at hread
      · cases hread
      · cases hread
        exact fun v hv => hacc v (List.mem_reverse.mp hv)

/-- **An array** has items with the property of each. -/
theorem Gives.items (h : Gives item P) : Gives (items item) fun vs => ∀ v ∈ vs, P v :=
  fun _ _ _ _ hread => h.itemsFrom hread fun _ hv => absurd hv List.not_mem_nil

theorem Keeps.membersFrom (h : Keeps member I) {limit : Nat} :
    ∀ {rounds : Nat} {first : Bool} {state state' : σ} {s rest : Bytes},
      membersFrom member limit rounds first state s = .ok (state', rest) → I state → I state'
  | 0, _, _, _, _, _, hread, _ => nomatch hread
  | rounds + 1, first, state, state', s, rest, hread, hstate => by
    unfold Json.membersFrom at hread
    split at hread
    · cases hread
    · cases hread
      exact hstate
    · split at hread
      · cases hread
      · split at hread
        · cases hread
        · next hmember => exact h.membersFrom hread (h hstate hmember)

/-- **An object** leaves what every member of it keeps. -/
theorem Keeps.members (h : Keeps member I) {state : σ} (hstate : I state) :
    Gives (members member state) I :=
  fun _ _ _ _ hread => h.membersFrom hread hstate

theorem Gives.memberValue (h : Gives item P) : Gives (memberValue item) P := by
  intro limit s rest v hread
  unfold Json.memberValue at hread
  split at hread
  · cases hread
  · exact h hread

/-- Nothing is given back where something else was expected. -/
theorem unexpected_gives (expected : Expected) : Gives (unexpected expected) P := by
  intro limit s rest a hread
  unfold unexpected at hread
  split at hread <;> cases hread

/-- A dictionary with values of one property. -/
def Entries (P : α → Prop) (entries : List (String × α)) : Prop :=
  Dictionary.sorted entries = true ∧ ∀ e ∈ entries, P e.2

theorem entries_nil : Entries P [] := ⟨rfl, fun _ he => absurd he List.not_mem_nil⟩

/-- An entry with a value that was read is put to the others. -/
theorem Gives.keeps_entries (h : Gives item P) :
    Keeps (fun key entries limit s =>
      (Json.memberValue item limit s).map fun (v, s) => (Dictionary.insert key v entries, s))
      (Entries P) := by
  intro key entries hentries limit s rest entries' hread
  obtain ⟨⟨v, s'⟩, hvalue, heq⟩ := ok_of_map hread
  cases heq
  refine ⟨Dictionary.sorted_insert hentries.1, fun e he => ?_⟩
  rcases Dictionary.mem_insert he with rfl | he
  · exact h.memberValue hvalue
  · exact hentries.2 e he

theorem Gives.fieldOnce (h : Gives item P) (name : String) (held : Option α) :
    Gives (fieldOnce name held item) fun found => ∀ v ∈ found, P v := by
  intro limit s rest found hread
  unfold Json.fieldOnce at hread
  split at hread
  · cases hread
  · obtain ⟨⟨v, s'⟩, hvalue, heq⟩ := ok_of_map hread
    cases heq
    intro w hw
    obtain rfl : v = w := Option.some.inj hw
    exact h.memberValue hvalue

/-- **A record** has what both of its forms have. -/
theorem Gives.record {fromObject fromArray : Reader α} (hobject : Gives fromObject P)
    (harray : Gives fromArray P) (name : String) : Gives (record name fromObject fromArray) P := by
  intro limit s rest a hread
  unfold Json.record at hread
  split at hread
  · cases hread
  · split at hread
    · exact hobject hread
    split at hread
    · split at hread
      · cases hread
      · next hitems =>
        split at hread
        · cases hread
        · cases hread
          exact harray hitems
    · exact unexpected_gives _ hread

/-- **A whole text** gives what its reader gives. -/
theorem Gives.fromBytes (h : Gives item P) {s : Bytes} {a : α} (hread : fromBytes item s = .ok a) :
    P a := by
  obtain ⟨rest, hvalue, -⟩ := fromBytes_eq_ok_iff.mp hread
  exact h hvalue

/-! ## 3. Numbers -/

/-- Digits that are taken make a word. -/
theorem fill_lt_wordBound : ∀ (digits : List Nat) {n : Nat}, n < Numeral.wordBound →
    (Numeral.fill n digits).1 < Numeral.wordBound
  | [], _, hn => hn
  | d :: digits, n, hn => by
    unfold Numeral.fill
    split
    · next hd => exact fill_lt_wordBound digits hd
    · exact hn

/-- **A number that is read** is a word, signed below zero and unsigned above, or a double. -/
theorem number_of_value? {n : Numeral} {v : Json} (h : n.value? = some v) :
    (∃ k, v = .int k ∧ isWord k = true) ∨ ∃ x, v = .float x := by
  have hfloat : n.float? = some v → ∃ x, v = .float x := by
    intro hsome
    obtain ⟨x, -, hx⟩ := Option.map_eq_some_iff.mp hsome
    exact ⟨_, hx.symm⟩
  have hword : (Numeral.fill 0 n.whole).1 < 0x10000000000000000 :=
    fill_lt_wordBound n.whole (by decide)
  unfold Numeral.value? at h
  split at h
  · dsimp only at h
    split at h
    · exact .inr (hfloat h)
    split at h
    · refine .inl ⟨_, (Option.some.inj h).symm, ?_⟩
      simp only [isWord, Bool.and_eq_true, decide_eq_true_eq]
      omega
    split at h
    · refine .inl ⟨_, (Option.some.inj h).symm, ?_⟩
      simp only [isWord, Bool.and_eq_true, decide_eq_true_eq]
      omega
    · exact .inr (hfloat h)
  · exact .inr (hfloat h)

theorem number_of_readNumber {s rest : Bytes} {v : Json} (h : readNumber s = .ok (v, rest)) :
    (∃ k, v = .int k ∧ isWord k = true) ∨ ∃ x, v = .float x := by
  unfold readNumber at h
  split at h
  · cases h
  · split at h
    · cases h
    · next hvalue =>
      cases h
      exact number_of_value? hvalue

/-! ## 4. Values -/

/-- What is made of texts has the property `P`. -/
def GivesInside (inner : Nat → Bytes → Except Error Json) (P : Json → Prop) : Prop :=
  ∀ ⦃limit : Nat⦄ ⦃s : Bytes⦄ ⦃v : Json⦄, inner limit s = .ok v → P v

/-- **A property of all values that are read**: if a value has it as soon as the values of the texts
inside have it, then every value has it, by induction on how often texts stand inside one another. -/
theorem Gives.value {P : Json → Prop}
    (h : ∀ inner, GivesInside inner P → ∀ budget, Gives (valueWith inner budget) P) (budget : Nat) :
    Gives (value budget) P := by
  have hrounds : ∀ rounds, GivesInside (fun _ => ofText rounds) P := by
    intro rounds
    induction rounds with
    | zero => exact fun _ _ _ hread => nomatch hread
    | succ rounds ih => exact fun _ _ _ hread => (h _ ih nesting).fromBytes hread
  exact h ofText (fun limit _ _ hread => @hrounds limit limit _ _ hread) budget

/-- **What can be said of a value that was read.** -/
structure Readable (v : Json) : Prop where
  ordered : v.ordered = true
  words : ∀ n, Contains (.int n) v → isWord n = true

theorem Readable.arr {items : List Json} (h : ∀ v ∈ items, Readable v) : Readable (.arr items) where
  ordered := ordered_arr.mpr fun v hv => (h v hv).ordered
  words := by
    intro n hn
    cases hn with
    | item hv hn => exact (h _ hv).words n hn

theorem Readable.obj {members : List (String × Json)} (h : Entries Readable members) :
    Readable (.obj members) where
  ordered := ordered_obj.mpr ⟨h.1, fun m hm => (h.2 m hm).ordered⟩
  words := by
    intro n hn
    cases hn with
    | member hm hn => exact (h.2 _ hm).words n hn

/-- A value without items, members and whole numbers. -/
theorem Readable.plain {v : Json} (hordered : v.ordered = true)
    (hwords : ∀ n, ¬ Contains (.int n) v) : Readable v :=
  ⟨hordered, fun n hn => absurd hn (hwords n)⟩

theorem Readable.int {n : Int} (h : isWord n = true) : Readable (.int n) where
  ordered := rfl
  words := by
    intro k hk
    cases hk
    exact h

/-- What is found at the start of a text, if it is a whole number, is a word. -/
theorem isWord_of_found {limit : Nat} {s rest : Bytes} {n : Int}
    (h : found limit s = .ok (.int n, rest)) : isWord n = true := by
  unfold found at h
  split at h
  · cases h
  · split at h
    · obtain ⟨⟨t, s'⟩, -, heq⟩ := ok_of_map h
      cases heq
    split at h
    · cases h
    split at h
    · cases h
    split at h
    · obtain ⟨s', -, heq⟩ := ok_of_map h
      cases heq
    split at h
    · obtain ⟨s', -, heq⟩ := ok_of_map h
      cases heq
    split at h
    · obtain ⟨s', -, heq⟩ := ok_of_map h
      cases heq
    split at h
    · obtain ⟨⟨v, s'⟩, hnumber, heq⟩ := ok_of_map h
      rcases number_of_readNumber hnumber with ⟨k, rfl, hk⟩ | ⟨x, rfl⟩
      · cases heq
        exact hk
      · cases heq
    · cases h

theorem scalar_readable : Gives scalar Readable := by
  intro limit s rest v h
  unfold scalar at h
  split at h
  · cases h
  next what s' hfound =>
  cases what with
  | null => cases h; exact .plain rfl nofun
  | bool b => cases h; exact .plain rfl nofun
  | int n => cases h; exact .int (isWord_of_found hfound)
  | float x => cases h; exact .plain rfl nofun
  | text t => cases h; exact .plain rfl nofun
  | array => cases h
  | object => cases h

theorem valueWith_readable (inner : Nat → Bytes → Except Error Json)
    (hinner : GivesInside inner Readable) :
    ∀ budget, Gives (valueWith inner budget) Readable
  | 0 => scalar_readable
  | budget + 1 => by
    have ih := valueWith_readable inner hinner budget
    intro limit s rest v h
    obtain ⟨b, more, -, hcases⟩ := valueWith_cases h
    rcases hcases with ⟨-, vs, rfl, hitems⟩ | ⟨-, s', -, hraw⟩ | ⟨-, -, ms, rfl, hmembers⟩ |
      ⟨-, -, hscalar⟩
    · exact .arr (ih.items hitems)
    · obtain ⟨t, s'', -, hread, -⟩ := rawValue_cases hraw
      exact hinner hread
    · exact .obj (ih.keeps_entries.members entries_nil hmembers)
    · exact scalar_readable hscalar

/-- **Every value that is read** has its keys in order and no whole number beyond a word. -/
theorem value_readable (budget : Nat) : Gives (value budget) Readable :=
  Gives.value valueWith_readable budget

/-! ## 5. Equality -/

theorem eq_of_sameItems : ∀ {as bs : List Json},
    (∀ a ∈ as, ∀ b, same a b = true → a = b) → sameItems as bs = true → as = bs
  | [], [], _, _ => rfl
  | [], _ :: _, _, h => by simp [sameItems] at h
  | _ :: _, [], _, h => by simp [sameItems] at h
  | a :: as, b :: bs, heq, h => by
    simp only [sameItems, Bool.and_eq_true] at h
    rw [heq a List.mem_cons_self b h.1,
      eq_of_sameItems (fun x hx => heq x (List.mem_cons_of_mem a hx)) h.2]

theorem eq_of_sameMembers : ∀ {as bs : List (String × Json)},
    (∀ m ∈ as, ∀ b, same m.2 b = true → m.2 = b) → sameMembers as bs = true → as = bs
  | [], [], _, _ => rfl
  | [], _ :: _, _, h => by simp [sameMembers] at h
  | (_, _) :: _, [], _, h => by simp [sameMembers] at h
  | (j, a) :: as, (k, b) :: bs, heq, h => by
    simp only [sameMembers, Bool.and_eq_true, beq_iff_eq] at h
    have hvalue : a = b := heq (j, a) List.mem_cons_self b h.1.2
    rw [h.1.1, hvalue, eq_of_sameMembers (fun x hx => heq x (List.mem_cons_of_mem (j, a) hx)) h.2]

/-- **Values without doubles that are equal are the same.**  With doubles they need not be: the two
zeros are equal. -/
theorem eq_of_same (v : Json) : (∀ x, ¬ Contains (.float x) v) → ∀ w, same v w = true → v = w := by
  induction v using induction with
  | float x => exact fun hfloat => absurd .self (hfloat x)
  | arr items ih =>
    intro hfloat w h
    cases w with
    | arr others =>
      rw [same] at h
      rw [eq_of_sameItems (fun v hv => ih v hv fun x hx => hfloat x (.item hv hx)) h]
    | _ => simp [same] at h
  | obj members ih =>
    intro hfloat w h
    cases w with
    | obj others =>
      rw [same] at h
      rw [eq_of_sameMembers (fun m hm => ih m hm fun x hx => hfloat x (.member hm hx)) h]
    | _ => simp [same] at h
  | _ =>
    intro _ w h
    cases w <;> simp_all [same]

end MeshNode.Json
