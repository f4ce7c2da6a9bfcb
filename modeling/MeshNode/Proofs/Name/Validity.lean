/-
# Names that are valid

A name that is made of a text is valid: the check takes the valid ones, and no other.  A name that
is read from a JSON text need not be.  Its reader takes every string, so every name there is, valid
or not, is read from some text.

* `fromBytes_text_iff`: the reader of names takes the texts of strings;
* `IsSegment` and `IsFilled`: what the checks are for;
* `Guarded`: which names of a kind there are, by each of the two ways, and `guarded_of_check`;
* `Origin` is what a name is obtained from, `Guarded.valid_iff` when what is obtained is valid;
* `names_guarded` and `obtained_valid_iff`: all three kinds, `blank_name_read`: names that no check
  would take.
-/
import MeshNode.Name.Reading
import MeshNode.Proofs.Json.Form
import MeshNode.Proofs.Name

namespace MeshNode

/-! ## 1. The texts of strings -/

namespace Json

open Token

/-- The whole text is a string, with white space around it. -/
def StringAlone (t : String) (s : Bytes) : Prop :=
  ∃ ws u ws', Blank ws ∧ Blank ws' ∧ StringText t u ∧ s = ws ++ (u ++ ws')

/-- **A whole text is read as a string** if, and only if, it is one in the grammar. -/
theorem fromBytes_text_iff {s : Bytes} {t : String} :
    fromBytes text s = .ok t ↔ StringAlone t s := by
  constructor
  · intro h
    obtain ⟨rest, hread, hrest⟩ := fromBytes_eq_ok_iff.mp h
    unfold text textFor at hread
    split at hread
    · cases hread
    next b more hmore =>
    obtain ⟨ws, hws, rfl⟩ := blank_of_skipSpaces hmore
    split at hread
    · next hquote =>
      obtain ⟨v, rfl, hspells⟩ := spells_of_literal hread
      subst hquote
      exact ⟨ws, _, rest, hws, hrest, ⟨v, hspells, rfl⟩, by simp⟩
    · unfold unexpected at hread
      split at hread <;> cases hread
  · rintro ⟨ws, u, ws', hws, hws', hu, rfl⟩
    rw [(text_steady hu.valueText).fromBytes hws hws', text_of_form hu]

end Json

/-! ## 2. The two ways to a name -/

variable {α : Type}

/-- What the name of a channel or a node must be: one segment of a path that is not blank. -/
def IsSegment (s : String) : Prop := Text.isBlank s = false ∧ '/' ∉ s.toList

/-- What the path of a route must be. -/
def IsFilled (s : String) : Prop := Text.isBlank s = false

instance (s : String) : Decidable (IsSegment s) := inferInstanceAs (Decidable (_ ∧ _))

instance (s : String) : Decidable (IsFilled s) := inferInstanceAs (Decidable (_ = _))

/-- **Which names there are of one kind**, where `Valid` says what a name must be, and `trim` what
is taken off a text before it is one. -/
structure Guarded (text : α → String) (Valid : String → Prop) (trim : String → String)
    (ofString? : String → Except NameError α) (ofBytes : Bytes → Except Json.Error α) : Prop where
  /-- A name is made of a text if it is the text, trimmed, and valid. -/
  made_iff : ∀ s name, ofString? s = .ok name ↔ text name = trim s ∧ Valid (text name)
  /-- Every valid name is made of a text. -/
  made : ∀ name, Valid (text name) → ∃ s, ofString? s = .ok name
  /-- A name is read from a JSON text if the text is a string, and the name is that string. -/
  read_iff : ∀ s name, ofBytes s = .ok name ↔ Json.StringAlone (text name) s
  /-- Every string, valid or not, is read from its JSON text as the name it is. -/
  read : ∀ t, ∃ name, text name = t ∧ ofBytes (Json.write (.str t)) = .ok name

/-- What is read as a name, where `text` undoes `make`. -/
theorem nameOfBytes_eq_ok {make : String → α} {text : α → String}
    (hmake : ∀ s name, make s = name ↔ s = text name) {s : Bytes} {name : α} :
    nameOfBytes make s = .ok name ↔ Json.fromBytes Json.text s = .ok (text name) := by
  rw [nameOfBytes]
  cases Json.fromBytes Json.text s with
  | error e => exact iff_of_false (by rintro ⟨⟩) (by rintro ⟨⟩)
  | ok t => simp only [Except.map, Except.ok.injEq, hmake]

/-- **A kind of names is guarded** on one side only: whatever it is that its check takes, its reader
takes every string. -/
theorem guarded_of_check {make : String → α} {text : α → String} {Valid : String → Prop}
    {trim : String → String} {ofString? : String → Except NameError α}
    (hmake : ∀ s name, make s = name ↔ s = text name)
    (hcheck : ∀ s name, ofString? s = .ok name ↔ text name = trim s ∧ Valid (text name))
    (htrim : ∀ t, ∃ s, trim s = t) :
    Guarded text Valid trim ofString? (nameOfBytes make) where
  made_iff := hcheck
  made := by
    intro name hvalid
    obtain ⟨s, hs⟩ := htrim (text name)
    exact ⟨s, (hcheck s name).mpr ⟨hs.symm, hvalid⟩⟩
  read_iff s name := (nameOfBytes_eq_ok hmake).trans Json.fromBytes_text_iff
  read := by
    intro t
    have htext : text (make t) = t := ((hmake t (make t)).mp rfl).symm
    refine ⟨make t, htext, (nameOfBytes_eq_ok hmake).mpr ?_⟩
    rw [htext]
    exact Json.text_codec.fromBytes_write t

/-- What a name is obtained from: a text that is checked, or the JSON text of one. -/
inductive Origin
  | text (s : String)
  | json (s : Bytes)

namespace Origin

/-- The name that is obtained, if there is one. -/
def name? (ofString? : String → Except NameError α) (ofBytes : Bytes → Except Json.Error α) :
    Origin → Option α
  | .text s => (ofString? s).toOption
  | .json s => (ofBytes s).toOption

/-- What is asked of a JSON text, and of nothing else: if it is a string, that is valid. -/
def Harmless (Valid : String → Prop) : Origin → Prop
  | .text _ => True
  | .json s => ∀ t, Json.StringAlone t s → Valid t

end Origin

theorem toOption_eq_some {ε : Type} {x : Except ε α} {a : α} :
    x.toOption = some a ↔ x = .ok a := by
  cases x with
  | error e => exact iff_of_false (by rintro ⟨⟩) (by rintro ⟨⟩)
  | ok b => simp [Except.toOption]

/-- **When a name is valid that is obtained**: always if it is made of a text, and if it is read from
a JSON text, when that is harmless. -/
theorem Guarded.valid_iff {text : α → String} {Valid : String → Prop} {trim : String → String}
    {ofString? : String → Except NameError α} {ofBytes : Bytes → Except Json.Error α}
    (h : Guarded text Valid trim ofString? ofBytes) (origin : Origin) :
    (∀ name, origin.name? ofString? ofBytes = some name → Valid (text name))
      ↔ origin.Harmless Valid := by
  cases origin with
  | text s =>
    refine iff_of_true ?_ trivial
    intro name hname
    exact ((h.made_iff s name).mp (toOption_eq_some.mp hname)).2
  | json s =>
    constructor
    · intro hvalid t hstring
      -- the name that the string is read as has the string for its text
      obtain ⟨name, rfl, -⟩ := h.read t
      exact hvalid name (toOption_eq_some.mpr ((h.read_iff s name).mpr hstring))
    · intro hharmless name hname
      exact hharmless _ ((h.read_iff s name).mp (toOption_eq_some.mp hname))

/-! ## 3. The three kinds -/

/-- The check of one segment, for whatever kind of names it is made. -/
theorem map_checkSegment_eq_ok {make : String → α} {text : α → String}
    (hmake : ∀ s name, make s = name ↔ s = text name) {s : String} {name : α} :
    (checkSegment s).map make = .ok name ↔ text name = s ∧ IsSegment (text name) := by
  constructor
  · intro h
    obtain ⟨t, hcheck, heq⟩ := Json.ok_of_map h
    obtain ⟨rfl, hvalid⟩ := checkSegment_eq_ok.mp hcheck
    rw [← (hmake t name).mp heq]
    exact ⟨rfl, hvalid⟩
  · rintro ⟨rfl, hvalid⟩
    rw [checkSegment_eq_ok.mpr ⟨rfl, hvalid⟩]
    exact congrArg Except.ok ((hmake _ _).mpr rfl)

theorem RouteName.ofString?_eq_ok {s : String} {name : RouteName} :
    ofString? s = .ok name ↔ name.text = dropLeadingSlash s ∧ IsFilled name.text := by
  rw [ofString?]
  by_cases hblank : Text.isBlank (dropLeadingSlash s) = true
  · rw [if_pos hblank]
    constructor
    · intro h
      cases h
    · rintro ⟨htext, hfilled⟩
      rw [htext, IsFilled, hblank] at hfilled
      cases hfilled
  · rw [if_neg hblank, Except.ok.injEq]
    constructor
    · rintro rfl
      exact ⟨rfl, Bool.eq_false_iff.mpr hblank⟩
    · rintro ⟨htext, -⟩
      cases name
      exact congrArg RouteName.mk htext.symm

/-- **Which names there are.**  A channel or a node is made of exactly the texts that are one
segment and not blank, and a route of those that are not blank once a leading separator is off;
every name of that form is made of some text.  Read from a JSON text, the name of any kind is
whatever string the text is, and every string is read. -/
theorem names_guarded :
    Guarded ChannelName.text IsSegment id ChannelName.ofString? ChannelName.ofBytes ∧
    Guarded NodeName.text IsSegment id NodeName.ofString? NodeName.ofBytes ∧
    Guarded RouteName.text IsFilled dropLeadingSlash RouteName.ofString? RouteName.ofBytes := by
  have hchannel : ∀ s (name : ChannelName), ChannelName.mk s = name ↔ s = name.text := by
    rintro s ⟨t⟩
    simp
  have hnode : ∀ s (name : NodeName), NodeName.mk s = name ↔ s = name.text := by
    rintro s ⟨t⟩
    simp
  have hroute : ∀ s (name : RouteName), RouteName.mk s = name ↔ s = name.text := by
    rintro s ⟨t⟩
    simp
  refine ⟨?_, ?_, ?_⟩
  · exact guarded_of_check hchannel (fun s name => map_checkSegment_eq_ok hchannel)
      fun t => ⟨t, rfl⟩
  · exact guarded_of_check hnode (fun s name => map_checkSegment_eq_ok hnode) fun t => ⟨t, rfl⟩
  · exact guarded_of_check hroute (fun s name => RouteName.ofString?_eq_ok)
      fun t => ⟨_, dropLeadingSlash_slash t⟩

/-- **Which names that can be obtained are valid.**  Whatever a name is obtained from, the result is
a valid name or none exactly if it is not a JSON text of a string that is not valid: one segment and
not blank for a channel or a node, and not blank for a route. -/
theorem obtained_valid_iff (origin : Origin) :
    ((∀ name, origin.name? ChannelName.ofString? ChannelName.ofBytes = some name →
      IsSegment name.text) ↔ origin.Harmless IsSegment) ∧
    ((∀ name, origin.name? NodeName.ofString? NodeName.ofBytes = some name →
      IsSegment name.text) ↔ origin.Harmless IsSegment) ∧
    ((∀ name, origin.name? RouteName.ofString? RouteName.ofBytes = some name →
      IsFilled name.text) ↔ origin.Harmless IsFilled) := by
  obtain ⟨hchannel, hnode, hroute⟩ := names_guarded
  exact ⟨hchannel.valid_iff origin, hnode.valid_iff origin, hroute.valid_iff origin⟩

/-- **Names that no check would take**: the empty channel, a node of two segments, and a route of
white space, each read from a JSON text. -/
theorem blank_name_read :
    (ChannelName.ofBytes (Utf8.encode "\"\"") = .ok ⟨""⟩ ∧ ¬ IsSegment "") ∧
    (NodeName.ofBytes (Utf8.encode " \"a\\/b\"") = .ok ⟨"a/b"⟩ ∧ ¬ IsSegment "a/b") ∧
    (RouteName.ofBytes (Utf8.encode "\" \"") = .ok ⟨" "⟩ ∧ ¬ IsFilled " ") := by
  refine ⟨⟨rfl, ?_⟩, ⟨rfl, ?_⟩, ⟨rfl, ?_⟩⟩
  · decide
  · decide
  · decide

end MeshNode
