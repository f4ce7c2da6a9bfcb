/-
# The grammar of JSON

Which texts are JSON, said without any reader.  Strings are told by their bytes: whether the bytes
beyond ASCII spell characters is a question of UTF-8 and not asked here, except for the bytes that
a key spells.

* `Inner` and `Spells`: what stands between quotation marks, and the bytes that it spells;
* `NumberText` and `ValueText`: the texts of numbers and of values;
* `ArrayOfOne`, `ObjectWith` and `ObjectLed`: a whole text that is an array of one item, or an object
  that has a member of a given name, or one in front of all others;
* `ValueAt`, `ItemsEnd`, `MembersEnd` and their like: the same along a text, for a reader that has
  come to some place in it and leaves the rest.
-/
import Mathlib.Data.List.Flatten
import MeshNode.Proofs.Json.Literal
import MeshNode.Proofs.Json.Written

namespace MeshNode.Json

open Token

/-- White space. -/
def Blank (t : Bytes) : Prop := ∀ b ∈ t, isSpace b = true

/-! ## 1. Strings -/

/-- The text of a string between its quotation marks. -/
inductive Inner : Bytes → Prop
  | nil : Inner []
  | plain {b : UInt8} {t : Bytes} (hb : Plain b) (rest : Inner t) : Inner (b :: t)
  | escape {e b : UInt8} {t : Bytes} (he : escaped? e = some b) (rest : Inner t) :
    Inner (backslash :: e :: t)
  | number {a b c d : UInt8} {n : Nat} {t : Bytes} (hn : hexUnit? a b c d = some n)
      (rest : Inner t) : Inner (backslash :: letterU :: a :: b :: c :: d :: t)

/-- `Spells t u`: the text `t` of a string stands for the bytes `u`.  An escape by number stands for
one character, and so do two of them in the halves of the surrogate range. -/
inductive Spells : Bytes → Bytes → Prop
  | nil : Spells [] []
  | plain {b : UInt8} {t u : Bytes} (hb : Plain b) (rest : Spells t u) : Spells (b :: t) (b :: u)
  | escape {e b : UInt8} {t u : Bytes} (he : escaped? e = some b) (rest : Spells t u) :
    Spells (backslash :: e :: t) (b :: u)
  | number {a b c d : UInt8} {n : Nat} {t u : Bytes} (hn : hexUnit? a b c d = some n)
      (hchar : n < 0xD800 ∨ 0xDFFF < n) (rest : Spells t u) :
    Spells (backslash :: letterU :: a :: b :: c :: d :: t) (Utf8.encodeChar (Char.ofNat n) ++ u)
  | pair {a b c d a' b' c' d' : UInt8} {high low : Nat} {t u : Bytes}
      (hhigh : hexUnit? a b c d = some high) (hfirst : 0xD800 ≤ high ∧ high < 0xDC00)
      (hlow : hexUnit? a' b' c' d' = some low) (hsecond : 0xDC00 ≤ low ∧ low ≤ 0xDFFF)
      (rest : Spells t u) :
    Spells (backslash :: letterU :: a :: b :: c :: d
        :: backslash :: letterU :: a' :: b' :: c' :: d' :: t)
      (Utf8.encodeChar (Char.ofNat (0x10000 + (high - 0xD800) * 0x400 + (low - 0xDC00))) ++ u)

/-- What spells something is the text of a string. -/
theorem Spells.inner {t u : Bytes} (h : Spells t u) : Inner t := by
  induction h with
  | nil => exact .nil
  | plain hb _ ih => exact .plain hb ih
  | escape he _ ih => exact .escape he ih
  | number hn _ _ ih => exact .number hn ih
  | pair hhigh _ hlow _ _ ih => exact .number hhigh (.number hlow ih)

/-- Without a backslash, a text stands for its own bytes. -/
theorem Spells.eq_of_not_mem {t u : Bytes} (h : Spells t u) (hslash : backslash ∉ t) : t = u := by
  induction h with
  | nil => rfl
  | plain _ _ ih =>
    rw [List.mem_cons, not_or] at hslash
    rw [ih hslash.2]
  | escape => exact absurd List.mem_cons_self hslash
  | number => exact absurd List.mem_cons_self hslash
  | pair => exact absurd List.mem_cons_self hslash

/-! ## 2. Numbers -/

/-- Decimal digits, of which there is one at least. -/
def Digits (t : Bytes) : Prop := t ≠ [] ∧ ∀ b ∈ t, isDigit b = true

/-- The digits in front of a point: none is in front of the others for nothing. -/
def WholeText (t : Bytes) : Prop := t = [zero] ∨ Digits t ∧ t.head? ≠ some zero

/-- A fraction, or nothing. -/
def FractionText (t : Bytes) : Prop := t = [] ∨ ∃ digits, t = point :: digits ∧ Digits digits

/-- An exponent, or nothing. -/
def ExponentText (t : Bytes) : Prop :=
  t = [] ∨ ∃ mark sign digits, t = mark :: (sign ++ digits) ∧ isExponentMark mark = true ∧
    sign ∈ [[], [plus], [minus]] ∧ Digits digits

/-- A number without its sign. -/
def UnsignedText (t : Bytes) : Prop :=
  ∃ whole fraction exponent, t = whole ++ (fraction ++ exponent) ∧ WholeText whole ∧
    FractionText fraction ∧ ExponentText exponent

/-- A number. -/
def NumberText (t : Bytes) : Prop := UnsignedText t ∨ ∃ u, t = minus :: u ∧ UnsignedText u

/-! ## 3. Values -/

/-- An item of an array, with the white space around it. -/
structure Item where
  before : Bytes
  value : Bytes
  after : Bytes
  before_blank : Blank before
  after_blank : Blank after

/-- The text of an item. -/
def Item.text (i : Item) : Bytes := i.before ++ (i.value ++ i.after)

/-- A member of an object: its key, with the white space around it, and behind a colon its
value. -/
structure Member where
  before : Bytes
  key : Bytes
  gap : Bytes
  item : Item
  before_blank : Blank before
  key_inner : Inner key
  gap_blank : Blank gap

/-- The text of a member. -/
def Member.text (m : Member) : Bytes :=
  m.before ++ quote :: (m.key ++ quote :: (m.gap ++ colon :: m.item.text))

/-- The key of a member spells a name. -/
def Member.Named (m : Member) (name : String) : Prop := Spells m.key (Utf8.encode name)

/-- **The texts of values.** -/
inductive ValueText : Bytes → Prop
  | word {t : Bytes} (h : t ∈ [nullWord, trueWord, falseWord]) : ValueText t
  | number {t : Bytes} (h : NumberText t) : ValueText t
  | string {t : Bytes} (h : Inner t) : ValueText (quote :: (t ++ [quote]))
  | emptyArray {t : Bytes} (h : Blank t) : ValueText (openBracket :: (t ++ [closeBracket]))
  | array {items : List Item} (h : ∀ i ∈ items, ValueText i.value) :
    ValueText (openBracket :: (separated (items.map Item.text) ++ [closeBracket]))
  | emptyObject {t : Bytes} (h : Blank t) : ValueText (openBrace :: (t ++ [closeBrace]))
  | object {members : List Member} (h : ∀ m ∈ members, ValueText m.item.value) :
    ValueText (openBrace :: (separated (members.map Member.text) ++ [closeBrace]))

/-- **A whole text that is an array of one item.** -/
def ArrayOfOne (body : Bytes) : Prop :=
  ∃ before after : Bytes, ∃ item : Item, Blank before ∧ Blank after ∧ ValueText item.value ∧
    body = before ++ openBracket :: (item.text ++ closeBracket :: after)

/-- **A whole text that is an object with a member of the given name.** -/
def ObjectWith (name : String) (body : Bytes) : Prop :=
  ∃ before after : Bytes, ∃ members : List Member, Blank before ∧ Blank after ∧
    (∀ m ∈ members, ValueText m.item.value) ∧ (∃ m ∈ members, m.Named name) ∧
    body = before ++ openBrace :: (separated (members.map Member.text) ++ closeBrace :: after)

/-- **A whole text that is an object whose first member has the given name.** -/
def ObjectLed (name : String) (body : Bytes) : Prop :=
  ∃ before after : Bytes, ∃ first : Member, ∃ members : List Member, Blank before ∧ Blank after ∧
    (∀ m ∈ first :: members, ValueText m.item.value) ∧ first.Named name ∧
    body = before ++ openBrace ::
      (separated ((first :: members).map Member.text) ++ closeBrace :: after)

/-- **A whole text that is an object in which two members have the given name.** -/
def ObjectRepeating (name : String) (body : Bytes) : Prop :=
  ∃ before after : Bytes, ∃ members : List Member, Blank before ∧ Blank after ∧
    (∀ m ∈ members, ValueText m.item.value) ∧
    (∃ m m', [m, m'].Sublist members ∧ m.Named name ∧ m'.Named name) ∧
    body = before ++ openBrace :: (separated (members.map Member.text) ++ closeBrace :: after)

/-- An object that is led by a name has a member of that name. -/
theorem ObjectLed.objectWith {name : String} {body : Bytes} (h : ObjectLed name body) :
    ObjectWith name body := by
  obtain ⟨before, after, first, members, hbefore, hafter, hvalues, hnamed, hbody⟩ := h
  exact ⟨before, after, first :: members, hbefore, hafter, hvalues,
    ⟨first, List.mem_cons_self, hnamed⟩, hbody⟩

/-- The bytes of each of several texts are among those of all of them. -/
theorem mem_separated {b : UInt8} {t : Bytes} {ts : List Bytes} (ht : t ∈ ts) (hb : b ∈ t) :
    b ∈ separated ts := by
  cases ts with
  | nil => cases ht
  | cons first ts =>
    rw [separated, List.mem_append, List.mem_flatMap]
    rcases List.mem_cons.mp ht with rfl | hlater
    · exact .inl hb
    · exact .inr ⟨t, hlater, List.mem_cons_of_mem comma hb⟩

/-- **What a name leaves in a text**: without a backslash in it, the bytes of the name. -/
theorem ObjectWith.mem {name : String} {body : Bytes} (h : ObjectWith name body)
    (hslash : backslash ∉ body) : ∀ b ∈ Utf8.encode name, b ∈ body := by
  obtain ⟨before, after, members, -, -, -, ⟨m, hm, hnamed⟩, rfl⟩ := h
  have hinside : ∀ b ∈ m.key,
      b ∈ before ++ openBrace :: (separated (members.map Member.text) ++ closeBrace :: after) := by
    intro b hb
    have htext : b ∈ m.text := by simp [Member.text, hb]
    have hmembers := mem_separated (List.mem_map_of_mem hm) htext
    simp [hmembers]
  have hkey : m.key = Utf8.encode name :=
    hnamed.eq_of_not_mem fun hmem => hslash (hinside backslash hmem)
  rw [← hkey]
  exact hinside

theorem flatten_sublist_separated : ∀ ts : List Bytes, ts.flatten.Sublist (separated ts)
  | [] => List.Sublist.refl []
  | t :: ts => by
    rw [List.flatten_cons, separated]
    refine List.Sublist.append (List.Sublist.refl t) ?_
    induction ts with
    | nil => exact List.Sublist.refl []
    | cons u ts ih =>
      rw [List.flatten_cons, List.flatMap_cons, List.cons_append]
      exact ((List.Sublist.refl u).append ih).cons comma

/-- **What a name leaves in a text that repeats it**: without a backslash in it, each byte of the
name twice. -/
theorem ObjectRepeating.two_le_count {name : String} {body : Bytes}
    (h : ObjectRepeating name body) (hslash : backslash ∉ body) :
    ∀ b ∈ Utf8.encode name, 2 ≤ body.count b := by
  obtain ⟨before, after, members, -, -, -, ⟨m, m', hsub, hm, hm'⟩, rfl⟩ := h
  intro b hb
  have hinside : (m.text ++ m'.text).Sublist
      (before ++ openBrace :: (separated (members.map Member.text) ++ closeBrace :: after)) := by
    have hflat : (m.text ++ m'.text).Sublist (members.map Member.text).flatten := by
      simpa using (hsub.map Member.text).flatten
    refine (hflat.trans (flatten_sublist_separated _)).trans ?_
    exact ((List.sublist_append_left _ _).cons _).trans (List.sublist_append_right _ _)
  have hcount : ∀ n : Member, n.Named name → n.text.Sublist (m.text ++ m'.text) →
      1 ≤ n.text.count b := by
    intro n hn hpart
    have hkey : n.key = Utf8.encode name :=
      hn.eq_of_not_mem fun hmem => hslash ((hpart.trans hinside).subset (by simp [Member.text, hmem]))
    rw [Nat.succ_le_iff, List.count_pos_iff, Member.text, hkey]
    simp [hb]
  calc 2 ≤ m.text.count b + m'.text.count b :=
        Nat.add_le_add (hcount m hm (List.sublist_append_left _ _))
          (hcount m' hm' (List.sublist_append_right _ _))
    _ = (m.text ++ m'.text).count b := List.count_append.symm
    _ ≤ _ := hinside.count_le b

theorem ArrayOfOne.mem {body : Bytes} (h : ArrayOfOne body) : openBracket ∈ body := by
  obtain ⟨before, after, item, -, -, -, rfl⟩ := h
  simp

/-! ## 4. Along a text -/

/-- A value at the start of a text, behind white space, and what is left after it. -/
def ValueAt (s rest : Bytes) : Prop :=
  ∃ before t, Blank before ∧ ValueText t ∧ s = before ++ (t ++ rest)

/-- The colon and the value of a member, from behind its key. -/
def FieldAt (s rest : Bytes) : Prop :=
  ∃ gap s', Blank gap ∧ s = gap ++ colon :: s' ∧ ValueAt s' rest

/-- A member with the key `key` at the start of a text. -/
def MemberAt (key s rest : Bytes) : Prop :=
  ∃ before s', Blank before ∧ Inner key ∧ s = before ++ quote :: (key ++ quote :: s') ∧
    FieldAt s' rest

/-- What stands behind an item: more items, each behind a comma, and the closing bracket. -/
def ItemsEnd (items : List Item) (s rest : Bytes) : Prop :=
  (∀ i ∈ items, ValueText i.value) ∧ ∃ after, Blank after ∧
    s = after ++ ((items.map Item.text).flatMap (comma :: ·) ++ closeBracket :: rest)

/-- What stands behind a member: more members, each behind a comma, and the closing brace. -/
def MembersEnd (members : List Member) (s rest : Bytes) : Prop :=
  (∀ m ∈ members, ValueText m.item.value) ∧ ∃ after, Blank after ∧
    s = after ++ ((members.map Member.text).flatMap (comma :: ·) ++ closeBrace :: rest)

/-- What stands behind the opening brace of an object with these members. -/
def ObjectEnd (members : List Member) (s rest : Bytes) : Prop :=
  (∀ m ∈ members, ValueText m.item.value) ∧
    (members = [] ∧ (∃ blank, Blank blank ∧ s = blank ++ closeBrace :: rest) ∨
      s = separated (members.map Member.text) ++ closeBrace :: rest)

variable {s s' rest ws t : Bytes} {items : List Item} {members : List Member}

theorem blank_nil : Blank [] := fun _ h => absurd h List.not_mem_nil

theorem Blank.append {u : Bytes} (ht : Blank t) (hu : Blank u) : Blank (t ++ u) := by
  intro b hb
  rcases List.mem_append.mp hb with h | h
  · exact ht b h
  · exact hu b h

theorem ValueText.valueAt (h : ValueText t) (rest : Bytes) : ValueAt (t ++ rest) rest :=
  ⟨[], t, blank_nil, h, rfl⟩

theorem ValueAt.behind (hws : Blank ws) (h : ValueAt s rest) : ValueAt (ws ++ s) rest := by
  obtain ⟨before, t, hbefore, ht, rfl⟩ := h
  exact ⟨ws ++ before, t, hws.append hbefore, ht, by rw [List.append_assoc]⟩

theorem MemberAt.behind {key : Bytes} (hws : Blank ws) (h : MemberAt key s rest) :
    MemberAt key (ws ++ s) rest := by
  obtain ⟨before, s', hbefore, hkey, rfl, hfield⟩ := h
  exact ⟨ws ++ before, s', hws.append hbefore, hkey, by rw [List.append_assoc], hfield⟩

/-- A value and the white space behind it make an item. -/
theorem ValueAt.item {after : Bytes} (h : ValueAt s s') (hafter : Blank after)
    (hs' : s' = after ++ rest) : ∃ i : Item, ValueText i.value ∧ s = i.text ++ rest := by
  obtain ⟨before, t, hbefore, ht, rfl⟩ := h
  refine ⟨⟨before, t, after, hbefore, hafter⟩, ht, ?_⟩
  simp only [Item.text, hs', List.append_assoc]

/-- A member and the white space behind it. -/
theorem MemberAt.member {key after : Bytes} (h : MemberAt key s s') (hafter : Blank after)
    (hs' : s' = after ++ rest) :
    ∃ m : Member, m.key = key ∧ ValueText m.item.value ∧ s = m.text ++ rest := by
  obtain ⟨before, _, hbefore, hkey, rfl, gap, _, hgap, rfl, hvalue⟩ := h
  obtain ⟨i, hi, rfl⟩ := hvalue.item hafter hs'
  refine ⟨⟨before, key, gap, i, hbefore, hkey, hgap⟩, rfl, hi, ?_⟩
  simp only [Member.text, List.append_assoc, List.cons_append]

/-! ### Items -/

theorem ItemsEnd.close (hws : Blank ws) : ItemsEnd [] (ws ++ closeBracket :: rest) rest :=
  ⟨fun _ h => absurd h List.not_mem_nil, ws, hws, rfl⟩

theorem ItemsEnd.comma (hws : Blank ws) (hvalue : ValueAt s s') (h : ItemsEnd items s' rest) :
    ∃ items', ItemsEnd items' (ws ++ comma :: s) rest := by
  obtain ⟨hitems, after, hafter, hs'⟩ := h
  obtain ⟨i, hi, rfl⟩ := hvalue.item hafter hs'
  refine ⟨i :: items, ?_, ws, hws, ?_⟩
  · exact List.forall_mem_cons.mpr ⟨hi, hitems⟩
  · simp only [List.map_cons, List.flatMap_cons, List.append_assoc, List.cons_append]

/-- The first item and what stands behind it make an array. -/
theorem ItemsEnd.array (hvalue : ValueAt s s') (h : ItemsEnd items s' rest) :
    ValueAt (openBracket :: s) rest := by
  obtain ⟨hitems, after, hafter, hs'⟩ := h
  obtain ⟨i, hi, rfl⟩ := hvalue.item hafter hs'
  have harray := (ValueText.array (List.forall_mem_cons.mpr ⟨hi, hitems⟩)).valueAt rest
  simpa only [List.map_cons, separated, List.append_assoc, List.cons_append, List.nil_append]
    using harray

theorem ValueAt.emptyArray (hws : Blank ws) :
    ValueAt (openBracket :: (ws ++ closeBracket :: rest)) rest := by
  have harray := (ValueText.emptyArray hws).valueAt rest
  simpa only [List.append_assoc, List.cons_append, List.nil_append] using harray

/-! ### Members -/

theorem MembersEnd.close (hws : Blank ws) : MembersEnd [] (ws ++ closeBrace :: rest) rest :=
  ⟨fun _ h => absurd h List.not_mem_nil, ws, hws, rfl⟩

theorem MembersEnd.comma {key : Bytes} (hws : Blank ws) (hmember : MemberAt key s s')
    (h : MembersEnd members s' rest) :
    ∃ m : Member, m.key = key ∧ MembersEnd (m :: members) (ws ++ comma :: s) rest := by
  obtain ⟨hmembers, after, hafter, hs'⟩ := h
  obtain ⟨m, hkey, hm, rfl⟩ := hmember.member hafter hs'
  refine ⟨m, hkey, ?_, ws, hws, ?_⟩
  · exact List.forall_mem_cons.mpr ⟨hm, hmembers⟩
  · simp only [List.map_cons, List.flatMap_cons, List.append_assoc, List.cons_append]

theorem ObjectEnd.close (hws : Blank ws) : ObjectEnd [] (ws ++ closeBrace :: rest) rest :=
  ⟨fun _ h => absurd h List.not_mem_nil, .inl ⟨rfl, ws, hws, rfl⟩⟩

/-- The first member and what stands behind it make the inside of an object. -/
theorem MembersEnd.object {key : Bytes} (hmember : MemberAt key s s')
    (h : MembersEnd members s' rest) :
    ∃ m : Member, m.key = key ∧ ObjectEnd (m :: members) s rest := by
  obtain ⟨hmembers, after, hafter, hs'⟩ := h
  obtain ⟨m, hkey, hm, rfl⟩ := hmember.member hafter hs'
  refine ⟨m, hkey, List.forall_mem_cons.mpr ⟨hm, hmembers⟩, .inr ?_⟩
  simp only [List.map_cons, separated, List.append_assoc]

theorem ObjectEnd.valueAt (h : ObjectEnd members s rest) : ValueAt (openBrace :: s) rest := by
  obtain ⟨hmembers, ⟨-, ws, hws, rfl⟩ | rfl⟩ := h
  · have hobject := (ValueText.emptyObject hws).valueAt rest
    simpa only [List.append_assoc, List.cons_append, List.nil_append] using hobject
  · have hobject := (ValueText.object hmembers).valueAt rest
    simpa only [List.append_assoc, List.cons_append, List.nil_append] using hobject

end MeshNode.Json
