/-
# Arrays and objects

How the readers of arrays and objects run over the texts of the grammar.  An item and a member have
white space around them, and a key may be written in more than one way.  The parts are given by
their forms and by what the reader of a part makes of each, which may be an error: the first error
is what the whole comes to.

* `Yields` says what a reader makes of a text, whatever follows it;
* `items_formed`: an array yields the items, or the first error among them;
* `members_formed`: an object yields what its members do to the state, one after the other;
* `items_separated` and `members_separated`: both for the parts that are written.
-/
import MeshNode.Proofs.Json.Numeral
import MeshNode.Proofs.Json.Spelling

namespace MeshNode.Json

open Token

variable {α β σ : Type} {t r ws before : Bytes} {limit : Nat}

/-- Reading `text`, whatever delimited text follows, comes to `result` and leaves what follows. -/
def Yields (read : Reader α) (text : Bytes) (result : Except Error α) : Prop :=
  ∀ limit r, Delimited r → (text ++ r).length < limit →
    read limit (text ++ r) = result.map (·, r)

/-- A text that stands alone is read to its end. -/
theorem Yields.alone {read : Reader α} {text : Bytes} {result : Except Error α} {limit : Nat}
    (h : Yields read text result) (hl : text.length < limit) :
    read limit text = result.map (·, []) := by
  have hread := h limit [] nofun (by rw [List.append_nil]; exact hl)
  rwa [List.append_nil] at hread

/-- What a reader makes of a text that stands alone. -/
def outcome (read : Reader α) (t : Bytes) : Except Error α := (read (t.length + 1) t).map Prod.fst

theorem Yields.outcome_eq {read : Reader α} {result : Except Error α} (h : Yields read t result) :
    outcome read t = result := by
  rw [outcome, h.alone (Nat.lt_succ_self t.length)]
  cases result <;> rfl

/-- A text that can be told from white space and from the end of an array. -/
def Starts (s : Bytes) : Prop := ∃ b rest, s = b :: rest ∧ isSpace b = false ∧ b ≠ closeBracket

theorem skipSpaces_cons {b : UInt8} (h : isSpace b = false) (rest : Bytes) :
    skipSpaces (b :: rest) = b :: rest := by
  simp [skipSpaces, h]

theorem skipSpaces_blank (h : Blank ws) (s : Bytes) : skipSpaces (ws ++ s) = skipSpaces s :=
  List.dropWhile_append_of_pos h

theorem skipSpaces_blank_cons {b : UInt8} (h : Blank ws) (hb : isSpace b = false) (s : Bytes) :
    skipSpaces (ws ++ b :: s) = b :: s := by
  rw [skipSpaces_blank h, skipSpaces_cons hb]

theorem delimited_cons {b : UInt8} (hd : isDigit b = false) (hp : b ≠ point)
    (he : isExponentMark b = false) (rest : Bytes) : Delimited (b :: rest) := by
  intro x hx
  rw [Option.mem_def, List.head?_cons, Option.some.injEq] at hx
  exact hx ▸ ⟨hd, hp, he⟩

/-- White space ends a number. -/
theorem Blank.delimited (h : Blank ws) (hr : Delimited r) : Delimited (ws ++ r) := by
  cases ws with
  | nil => exact hr
  | cons b ws =>
    have hb : isSpace b = true := h b List.mem_cons_self
    have hspace : ∀ b : UInt8, isSpace b = true →
        isDigit b = false ∧ b ≠ point ∧ isExponentMark b = false := by
      intro b hb
      simp only [isSpace, Bool.or_eq_true, beq_iff_eq] at hb
      rcases hb with ((rfl | rfl) | rfl) | rfl <;> decide
    obtain ⟨hdigit, hpoint, hmark⟩ := hspace b hb
    exact delimited_cons hdigit hpoint hmark (ws ++ r)

/-- A comma and a closing bracket or brace end a number. -/
theorem delimited_comma (rest : Bytes) : Delimited (comma :: rest) :=
  delimited_cons (by decide) (by decide) (by decide) rest

theorem delimited_closeBracket (rest : Bytes) : Delimited (closeBracket :: rest) :=
  delimited_cons (by decide) (by decide) (by decide) rest

theorem delimited_closeBrace (rest : Bytes) : Delimited (closeBrace :: rest) :=
  delimited_cons (by decide) (by decide) (by decide) rest

/-- What follows a part of a list of parts: a comma or the closing mark. -/
theorem delimited_flatMap {close : UInt8} (hc : ∀ rest, Delimited (close :: rest))
    (ts : List Bytes) (r : Bytes) : Delimited (ts.flatMap (comma :: ·) ++ close :: r) := by
  cases ts with
  | nil => exact hc r
  | cons t ts => exact delimited_comma _

/-! ## 1. Items -/

theorem nextItem_first_blank (ht : Starts t) (hws : Blank ws) (r : Bytes) :
    nextItem true (ws ++ (t ++ r)) = .ok (some (t ++ r)) := by
  obtain ⟨b, u, rfl, hb, hclose⟩ := ht
  rw [nextItem, List.cons_append, skipSpaces_blank_cons hws hb]
  dsimp only
  rw [if_neg hclose, if_pos rfl]

theorem nextItem_later_blank (ht : Starts t) (hws : Blank ws) (hbefore : Blank before) (r : Bytes) :
    nextItem false (ws ++ comma :: (before ++ (t ++ r))) = .ok (some (t ++ r)) := by
  obtain ⟨b, u, rfl, hb, hclose⟩ := ht
  rw [nextItem, skipSpaces_blank_cons hws (by decide)]
  dsimp only
  rw [if_neg (by decide), if_neg (by decide), if_pos rfl, List.cons_append,
    skipSpaces_blank_cons hbefore hb]
  dsimp only
  rw [if_neg hclose]

theorem nextItem_close_blank (first : Bool) (hws : Blank ws) (r : Bytes) :
    nextItem first (ws ++ closeBracket :: r) = .ok none := by
  rw [nextItem, skipSpaces_blank_cons hws (by decide)]
  rfl

theorem closeArray_blank (hws : Blank ws) (r : Bytes) :
    closeArray (ws ++ closeBracket :: r) = .ok r := by
  rw [closeArray, skipSpaces_blank_cons hws (by decide)]
  rfl

theorem itemsFrom_close_blank (item : Reader α) (limit rounds : Nat) (first : Bool) (acc : List α)
    (hws : Blank ws) (r : Bytes) :
    itemsFrom item limit (rounds + 1) first acc (ws ++ closeBracket :: r)
      = .ok (acc.reverse, r) := by
  simp only [itemsFrom, optionalItem, nextItem_close_blank first hws, closeArray_blank hws]

theorem nextItem_first (ht : Starts t) (r : Bytes) : nextItem true (t ++ r) = .ok (some (t ++ r)) :=
  nextItem_first_blank ht blank_nil r

theorem nextItem_later (ht : Starts t) (r : Bytes) :
    nextItem false (comma :: (t ++ r)) = .ok (some (t ++ r)) :=
  nextItem_later_blank ht blank_nil blank_nil r

/-- One round of the loop: the next item, then the others. -/
theorem itemsFrom_round {item : Reader α} {first : Bool} {s s' tail : Bytes}
    {result : Except Error α} (hn : nextItem first s = .ok (some s'))
    (hi : item limit s' = result.map (·, tail)) (rounds : Nat) (acc : List α) :
    itemsFrom item limit (rounds + 1) first acc s
      = result.bind fun w => itemsFrom item limit rounds false (w :: acc) tail := by
  simp only [itemsFrom, optionalItem, hn, hi]
  cases result <;> rfl

/-- What a list of results comes to, its first one taken off. -/
theorem mapM_cons_map (result : β → Except Error α) (v : β) (vs : List β) (acc : List α)
    (r : Bytes) :
    (((v :: vs).mapM result).map fun ws => (acc.reverse ++ ws, r))
      = (result v).bind fun w => (vs.mapM result).map fun ws => ((w :: acc).reverse ++ ws, r) := by
  rw [List.mapM_cons]
  cases result v with
  | error e => rfl
  | ok w =>
    cases hvs : vs.mapM result with
    | error e => simp [bind, Except.bind, Except.map]
    | ok ws => simp [bind, Except.bind, Except.map, pure, Except.pure]

theorem length_le_flatMap (ts : List Bytes) : ts.length ≤ (ts.flatMap (comma :: ·)).length := by
  induction ts with
  | nil => simp
  | cons t ts ih =>
    simp only [List.flatMap_cons, List.length_append, List.length_cons]
    omega

/-- What follows an item: the white space behind it, and the rest of the array. -/
theorem Item.delimited (i : Item) (items : List Item) (r : Bytes) :
    Delimited (i.after ++ ((items.map Item.text).flatMap (comma :: ·) ++ closeBracket :: r)) :=
  i.after_blank.delimited (delimited_flatMap delimited_closeBracket _ r)

variable {item : Reader α} {form : β → Item} {result : β → Except Error α}

/-- The items behind the first one, and the closing bracket. -/
theorem itemsFrom_formed (limit : Nat) (r : Bytes) : ∀ {vs : List β} (rounds : Nat) (acc : List α)
    {ws : Bytes}, (∀ v ∈ vs, Yields item (form v).value (result v)) →
    (∀ v ∈ vs, Starts (form v).value) → Blank ws → vs.length < rounds →
    (ws ++ (((vs.map form).map Item.text).flatMap (comma :: ·) ++ closeBracket :: r)).length
      < limit →
    itemsFrom item limit rounds false acc
        (ws ++ (((vs.map form).map Item.text).flatMap (comma :: ·) ++ closeBracket :: r))
      = (vs.mapM result).map fun as => (acc.reverse ++ as, r)
  | [], rounds + 1, acc, ws, _, _, hws, _, _ => by
    rw [List.map_nil, List.map_nil, List.flatMap_nil, List.nil_append,
      itemsFrom_close_blank _ _ _ _ _ hws]
    simp [pure, Except.pure, Except.map]
  | v :: vs, rounds + 1, acc, ws, hy, hs, hws, hr, hl => by
    have hd := (form v).delimited (vs.map form) r
    have ih := fun w => itemsFrom_formed limit r rounds (w :: acc)
      (fun x hx => hy x (List.mem_cons_of_mem v hx)) (fun x hx => hs x (List.mem_cons_of_mem v hx))
      (form v).after_blank (by rw [List.length_cons] at hr; omega)
    simp only [List.map_cons, List.flatMap_cons, List.append_assoc, List.cons_append,
      Item.text] at hl ⊢
    generalize (form v).after ++ (((vs.map form).map Item.text).flatMap (comma :: ·)
      ++ closeBracket :: r) = tail at hd ih hl ⊢
    simp only [List.length_append, List.length_cons] at hl
    have hitem := hy v List.mem_cons_self limit tail hd (by rw [List.length_append]; omega)
    have hnext := nextItem_later_blank (hs v List.mem_cons_self) hws (form v).before_blank tail
    rw [itemsFrom_round hnext hitem, mapM_cons_map]
    simp only [ih _ (show tail.length < limit by omega)]

/-- **An array** yields its items, or the first error among them. -/
theorem items_formed (form : β → Item) {vs : List β}
    (hy : ∀ v ∈ vs, Yields item (form v).value (result v))
    (hs : ∀ v ∈ vs, Starts (form v).value) (hws : Blank ws)
    (hl : (ws ++ (separated ((vs.map form).map Item.text) ++ closeBracket :: r)).length < limit) :
    items item limit (ws ++ (separated ((vs.map form).map Item.text) ++ closeBracket :: r))
      = (vs.mapM result).map (·, r) := by
  obtain ⟨rounds, rfl⟩ : ∃ rounds, limit = rounds + 1 := ⟨limit - 1, by omega⟩
  rw [items]
  cases vs with
  | nil =>
    rw [List.map_nil, List.map_nil, separated, List.nil_append,
      itemsFrom_close_blank _ _ _ _ _ hws]
    rfl
  | cons v vs =>
    have hd := (form v).delimited (vs.map form) r
    have hcount := length_le_flatMap ((vs.map form).map Item.text)
    have ih := fun w => itemsFrom_formed (rounds + 1) r rounds [w]
      (fun x hx => hy x (List.mem_cons_of_mem v hx)) (fun x hx => hs x (List.mem_cons_of_mem v hx))
      (form v).after_blank
    simp only [List.map_cons, separated, Item.text, List.append_assoc, List.length_append,
      List.length_cons, List.length_map] at hl hcount ⊢
    have hitem := hy v List.mem_cons_self (rounds + 1) _ hd
      (by simp only [List.length_append, List.length_cons]; omega)
    have hnext := nextItem_first_blank (hs v List.mem_cons_self) (hws.append (form v).before_blank)
      ((form v).after ++ (((vs.map form).map Item.text).flatMap (comma :: ·) ++ closeBracket :: r))
    rw [List.append_assoc] at hnext
    rw [itemsFrom_round hnext hitem]
    simp only [ih _ (show vs.length < rounds by omega)
      (by simp only [List.length_append, List.length_cons]; omega)]
    exact (mapM_cons_map result v vs [] r).symm

/-- **An array of written items** yields the items, or the first error among them. -/
theorem items_separated {text : β → Bytes} (vs : List β)
    (hy : ∀ v ∈ vs, Yields item (text v) (result v)) (hs : ∀ v ∈ vs, Starts (text v))
    (hl : (separated (vs.map text) ++ closeBracket :: r).length < limit) :
    items item limit (separated (vs.map text) ++ closeBracket :: r)
      = (vs.mapM result).map (·, r) := by
  have htexts : (vs.map fun v => Item.written (text v)).map Item.text = vs.map text := by
    simp only [List.map_map, Function.comp_def, Item.written_text]
  rw [← htexts] at hl ⊢
  exact items_formed (fun v => .written (text v)) hy hs blank_nil hl

/-! ## 2. Members -/

theorem nextKey_first_blank (hws : Blank ws) (r : Bytes) :
    nextKey true (ws ++ quote :: r) = .ok (.inl r) := by
  rw [nextKey, skipSpaces_blank_cons hws (by decide)]
  rfl

theorem nextKey_later_blank (hws : Blank ws) (hbefore : Blank before) (r : Bytes) :
    nextKey false (ws ++ comma :: (before ++ quote :: r)) = .ok (.inl r) := by
  rw [nextKey, skipSpaces_blank_cons hws (by decide)]
  dsimp only
  rw [if_neg (by decide), if_neg (by decide), if_pos rfl, skipSpaces_blank_cons hbefore (by decide)]
  rfl

theorem membersFrom_close_blank (member : String → σ → Reader σ) (limit rounds : Nat) (first : Bool)
    (state : σ) (hws : Blank ws) (r : Bytes) :
    membersFrom member limit (rounds + 1) first state (ws ++ closeBrace :: r) = .ok (state, r) := by
  have hclose : nextKey first (ws ++ closeBrace :: r) = .ok (.inr r) := by
    rw [nextKey, skipSpaces_blank_cons hws (by decide)]
    rfl
  simp only [membersFrom, hclose]

theorem nextKey_first (r : Bytes) : nextKey true (quote :: r) = .ok (.inl r) :=
  nextKey_first_blank blank_nil r

theorem nextKey_later (r : Bytes) : nextKey false (comma :: quote :: r) = .ok (.inl r) :=
  nextKey_later_blank blank_nil blank_nil r

theorem skipColon_blank (h : Blank ws) (s : Bytes) : skipColon (ws ++ colon :: s) = .ok s := by
  rw [skipColon, skipSpaces_blank_cons h (by decide)]
  rfl

theorem skipColon_colon (r : Bytes) : skipColon (colon :: r) = .ok r := skipColon_blank blank_nil r

/-- The value of a member stands behind a colon. -/
theorem Yields.memberValue {value : Reader α} {text : Bytes} {result : Except Error α}
    (h : Yields value text result) : Yields (memberValue value) (colon :: text) result := by
  intro limit r hr hl
  rw [List.cons_append, Json.memberValue, skipColon_colon]
  exact h limit r hr (by simp at hl ⊢; omega)

theorem memberText_append (key : String) (value r : Bytes) :
    memberText key value ++ r
      = quote :: (Literal.inner key.toList ++ quote :: (colon :: value ++ r)) := by
  simp [memberText, Literal.bytes]

/-- What the members of an object do to the state, the first one taken off. -/
theorem foldlM_cons_map (step : σ → β → Except Error σ) (state : σ) (m : β) (ms : List β)
    (r : Bytes) :
    ((m :: ms).foldlM step state).map (·, r)
      = (step state m).bind fun st => (ms.foldlM step st).map (·, r) := by
  rw [List.foldlM_cons]
  cases step state m <;> rfl

/-- The text of a member behind its key, up to the end of its value. -/
def Member.field (m : Member) : Bytes := m.gap ++ colon :: (m.item.before ++ m.item.value)

theorem Member.text_append (m : Member) (r : Bytes) :
    m.text ++ r = m.before ++ quote :: (m.key ++ quote :: (m.field ++ (m.item.after ++ r))) := by
  simp [Member.text, Member.field, Item.text]

/-- What follows the value of a member. -/
theorem Member.delimited (m : Member) (members : List Member) (r : Bytes) :
    Delimited (m.item.after
      ++ ((members.map Member.text).flatMap (comma :: ·) ++ closeBrace :: r)) :=
  m.item.after_blank.delimited (delimited_flatMap delimited_closeBrace _ r)

variable {member : String → σ → Reader σ} {m : Member} {effect : σ → Except Error σ}

/-- The reader of members makes of `m` what `effect` says: it comes to an error at the key, or it
goes on to the value under the name that the key spells. -/
def TakesMember (member : String → σ → Reader σ) (m : Member) (effect : σ → Except Error σ) :
    Prop :=
  ∀ state, match spelled m.key with
    | .error e => effect state = .error e
    | .ok name => Yields (member name state) m.field (effect state)

/-- One round of the loop: the next member, then the others. -/
theorem membersFrom_round {first : Bool} {state : σ} {s tail : Bytes}
    (htakes : TakesMember member m effect) (hd : Delimited (m.item.after ++ tail))
    (hnext : nextKey first s = .ok (.inl (m.key ++ quote :: (m.field ++ (m.item.after ++ tail)))))
    (hl : (m.key ++ quote :: (m.field ++ (m.item.after ++ tail))).length < limit) (rounds : Nat) :
    membersFrom member limit (rounds + 1) first state s
      = (effect state).bind fun st =>
          membersFrom member limit rounds false st (m.item.after ++ tail) := by
  have htaken := htakes state
  rw [membersFrom, hnext]
  dsimp only
  rw [literal_inner_text m.key_inner hl]
  cases hkey : spelled m.key with
  | error e =>
    rw [hkey] at htaken
    rw [htaken]
    rfl
  | ok name =>
    rw [hkey] at htaken
    have hfield := htaken limit _ hd (by rw [List.length_append, List.length_cons] at hl; omega)
    simp only [Except.map, hfield]
    cases effect state <;> rfl

variable {form : β → Member} {step : σ → β → Except Error σ}

/-- The members behind the first one, and the closing brace. -/
theorem membersFrom_formed (limit : Nat) (r : Bytes) : ∀ {vs : List β} (rounds : Nat) (state : σ)
    {ws : Bytes}, (∀ v ∈ vs, TakesMember member (form v) (step · v)) → Blank ws →
    vs.length < rounds →
    (ws ++ (((vs.map form).map Member.text).flatMap (comma :: ·) ++ closeBrace :: r)).length
      < limit →
    membersFrom member limit rounds false state
        (ws ++ (((vs.map form).map Member.text).flatMap (comma :: ·) ++ closeBrace :: r))
      = (vs.foldlM step state).map (·, r)
  | [], rounds + 1, state, ws, _, hws, _, _ => by
    rw [List.map_nil, List.map_nil, List.flatMap_nil, List.nil_append,
      membersFrom_close_blank _ _ _ _ _ hws]
    rfl
  | v :: vs, rounds + 1, state, ws, htakes, hws, hr, hl => by
    have hd := (form v).delimited (vs.map form) r
    have ih := fun st => membersFrom_formed limit r rounds st
      (fun x hx => htakes x (List.mem_cons_of_mem v hx)) (form v).item.after_blank
      (by rw [List.length_cons] at hr; omega)
    simp only [List.map_cons, List.flatMap_cons, List.append_assoc, List.cons_append,
      Member.text_append] at hl ⊢
    generalize ((vs.map form).map Member.text).flatMap (comma :: ·) ++ closeBrace :: r = tail
      at hd ih hl ⊢
    have hnext := nextKey_later_blank hws (form v).before_blank
      ((form v).key ++ quote :: ((form v).field ++ ((form v).item.after ++ tail)))
    rw [membersFrom_round (htakes v List.mem_cons_self) hd hnext
      (by simp only [List.length_append, List.length_cons] at hl ⊢; omega), foldlM_cons_map]
    simp only [ih _ (show ((form v).item.after ++ tail).length < limit by
      simp only [List.length_append, List.length_cons] at hl ⊢; omega)]

/-- **An object** yields what its members do to the state in their order, or the first error on the
way. -/
theorem members_formed (form : β → Member) {vs : List β}
    (htakes : ∀ v ∈ vs, TakesMember member (form v) (step · v)) (state : σ) (hws : Blank ws)
    (hl : (ws ++ (separated ((vs.map form).map Member.text) ++ closeBrace :: r)).length < limit) :
    members member state limit
        (ws ++ (separated ((vs.map form).map Member.text) ++ closeBrace :: r))
      = (vs.foldlM step state).map (·, r) := by
  obtain ⟨rounds, rfl⟩ : ∃ rounds, limit = rounds + 1 := ⟨limit - 1, by omega⟩
  rw [members]
  cases vs with
  | nil =>
    rw [List.map_nil, List.map_nil, separated, List.nil_append,
      membersFrom_close_blank _ _ _ _ _ hws]
    rfl
  | cons v vs =>
    have hd := (form v).delimited (vs.map form) r
    have hcount := length_le_flatMap ((vs.map form).map Member.text)
    have ih := fun st => membersFrom_formed (rounds + 1) r rounds st
      (fun x hx => htakes x (List.mem_cons_of_mem v hx)) (form v).item.after_blank
    rw [List.map_cons, List.map_cons, separated, List.append_assoc, Member.text_append] at hl ⊢
    simp only [List.length_append, List.length_cons, List.length_map] at hl hcount
    have hnext := nextKey_first_blank (hws.append (form v).before_blank)
      ((form v).key ++ quote :: ((form v).field ++ ((form v).item.after
        ++ (((vs.map form).map Member.text).flatMap (comma :: ·) ++ closeBrace :: r))))
    rw [List.append_assoc] at hnext
    rw [membersFrom_round (htakes v List.mem_cons_self) hd hnext
      (by simp only [List.length_append, List.length_cons]; omega), foldlM_cons_map]
    simp only [ih _ (show vs.length < rounds by omega)
      (by simp only [List.length_append, List.length_cons]; omega)]

/-- **An object of written members** yields what they do to the state in their order, or the
first error on the way. -/
theorem members_separated (member : String → σ → Reader σ) (key : β → String)
    {value : β → Bytes} (ms : List β)
    (hy : ∀ m ∈ ms, ∀ st, Yields (member (key m) st) (colon :: value m) (step st m))
    (state : σ)
    (hl : (separated (ms.map fun m => memberText (key m) (value m))
      ++ closeBrace :: r).length < limit) :
    members member state limit
        (separated (ms.map fun m => memberText (key m) (value m)) ++ closeBrace :: r)
      = (ms.foldlM step state).map (·, r) := by
  have htexts : (ms.map fun m => Member.written (key m) (value m)).map Member.text
      = ms.map fun m => memberText (key m) (value m) := by
    simp only [List.map_map, Function.comp_def, Member.written_text]
  have htakes : ∀ m ∈ ms, TakesMember member (.written (key m) (value m)) (step · m) := by
    intro m hm st
    rw [(Member.written_named (key m) (value m)).spelled]
    exact hy m hm st
  rw [← htexts] at hl ⊢
  exact members_formed (fun m => .written (key m) (value m)) htakes state blank_nil hl

end MeshNode.Json
