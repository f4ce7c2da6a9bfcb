/-
# Codecs

A kind of values with its writer and its reader: every value is read back from its text, whatever
follows it.  Strings are, lists and dictionaries are if their parts are, and a record is as soon as it
is told what each of its members adds to what was read before.

* `Codec`: what is asked of the two, with `Codec.fromBytes_write` on whole texts;
* `text_codec`, `Codec.listOf`, `Codec.mapOf`: strings, lists, dictionaries;
* `FieldPart`, `members_parts` and `record_yields`: records that are written as objects.
-/
import MeshNode.Proofs.Json.RoundTrip

namespace MeshNode.Json

open Token

variable {α β σ : Type} {read : Reader α} {toJson : α → Json}

/-! ## 1. What a codec is -/

/-- A reader and a writer of the same values: each is read back from its text. -/
structure Codec (read : Reader α) (toJson : α → Json) : Prop where
  yields : ∀ a, Yields read (toJson a).write (.ok a)
  starts : ∀ a, Starts (toJson a).write

/-- A reader that yields a value of a text reads it from the text alone. -/
theorem Yields.fromBytes {text : Bytes} {a : α} (h : Yields read text (.ok a)) :
    fromBytes read text = .ok a := by
  rw [Json.fromBytes, h.alone (Nat.lt_succ_self text.length)]
  rfl

theorem Codec.fromBytes_write (h : Codec read toJson) (a : α) :
    fromBytes read (toJson a).write = .ok a :=
  (h.yields a).fromBytes

/-! ## 2. Strings and lists -/

/-- **A written string** is read off the front of whatever follows it. -/
theorem text_written_string (s : String) {limit : Nat} {r : Bytes}
    (hl : (Literal.bytes s ++ r).length < limit) : text limit (Literal.bytes s ++ r) = .ok (s, r) :=
  textFor_written_string .text s hl

theorem text_yields (s : String) : Yields text (write (.str s)) (.ok s) := by
  intro limit r _ hl
  rw [write_str] at hl ⊢
  exact text_written_string s hl

theorem starts_arr (items : List Json) : Starts (write (.arr items)) :=
  ⟨openBracket, _, write_arr items, by decide, by decide⟩

theorem starts_obj (members : List (String × Json)) : Starts (write (.obj members)) :=
  ⟨openBrace, _, write_obj members, by decide, by decide⟩

theorem text_codec : Codec text .str where
  yields := text_yields
  starts s := ⟨quote, _, write_str s, by decide, by decide⟩

/-- The results of a list that are all there. -/
theorem mapM_ok (as : List α) : as.mapM (m := Except Error) .ok = .ok as :=
  List.mapM_pure.trans (by simp; rfl)

/-- **A list** is read back if its items are. -/
theorem Codec.listOf (h : Codec read toJson) :
    Codec (listOf read) fun as => .arr (as.map toJson) where
  yields := by
    intro as limit r _ hl
    have hsplit : write (.arr (as.map toJson)) ++ r
        = openBracket :: (separated (as.map fun a => (toJson a).write) ++ closeBracket :: r) := by
      simp [write_arr, Function.comp_def]
    rw [hsplit, List.length_cons] at hl
    have hyields : ∀ a ∈ as, Yields read (toJson a).write (Except.ok a) := fun a _ => h.yields a
    have hitems := items_separated as hyields (fun a _ => h.starts a) (Nat.lt_of_succ_lt hl)
    rw [hsplit, Json.listOf, skipSpaces_cons (by decide)]
    dsimp only
    rw [if_pos rfl, hitems, mapM_ok]
  starts as := starts_arr _

/-! ## 3. Objects -/

/-- A member as it is written, and what its reader does to what was read before it. -/
structure FieldPart (σ : Type) where
  key : String
  value : Json
  effect : σ → Except Error σ

namespace FieldPart

/-- The member of a part. -/
def member (p : FieldPart σ) : String × Json := (p.key, p.value)

/-- The reader of members does what the part says. -/
def TakenBy (p : FieldPart σ) (take : String → σ → Reader σ) : Prop :=
  ∀ state, Yields (take p.key state) (colon :: p.value.write) (p.effect state)

/-- What all parts do, one after the other. -/
def effects (parts : List (FieldPart σ)) (state : σ) : Except Error σ :=
  parts.foldlM (fun state p => p.effect state) state

end FieldPart

/-- The text of an object behind its opening brace, with what follows the object. -/
def inside (members : List (String × Json)) (r : Bytes) : Bytes :=
  separated (memberTexts members) ++ closeBrace :: r

theorem write_obj_append (members : List (String × Json)) (r : Bytes) :
    write (.obj members) ++ r = openBrace :: inside members r := by
  simp [write_obj, inside]

/-- **The members of an object** do what its parts say. -/
theorem members_parts {take : String → σ → Reader σ} {parts : List (FieldPart σ)}
    (h : ∀ p ∈ parts, p.TakenBy take) (state : σ) {limit : Nat} {r : Bytes}
    (hl : (inside (parts.map FieldPart.member) r).length < limit) :
    members take state limit (inside (parts.map FieldPart.member) r)
      = (FieldPart.effects parts state).map (·, r) := by
  have hinside : inside (parts.map FieldPart.member) r
      = separated (parts.map fun p => memberText p.key p.value.write) ++ closeBrace :: r := by
    simp [inside, memberTexts, FieldPart.member, Function.comp_def]
  rw [hinside] at hl ⊢
  exact members_separated take FieldPart.key parts h state hl

/-- **A record that is written as an object** is made of what its parts do together. -/
theorem record_yields {take : String → σ → Reader σ} (parts : List (FieldPart σ))
    (h : ∀ p ∈ parts, p.TakenBy take) (start : σ) {f : σ}
    (heffects : FieldPart.effects parts start = .ok f) {name : String}
    {fromObject fromArray : Reader α} {a : α}
    (hobject : ∀ limit s rest, members take start limit s = .ok (f, rest) →
      fromObject limit s = .ok (a, rest)) :
    Yields (record name fromObject fromArray) (write (.obj (parts.map FieldPart.member)))
      (.ok a) := by
  intro limit r _ hl
  rw [write_obj_append, List.length_cons] at hl
  have hmembers := members_parts h start (Nat.lt_of_succ_lt hl)
  rw [heffects] at hmembers
  rw [write_obj_append, record, skipSpaces_cons (by decide)]
  dsimp only
  rw [if_pos rfl, hobject limit _ r hmembers]
  rfl

/-- What is made of the result of a reader. -/
theorem Yields.map {text : Bytes} {result : Except Error α} (h : Yields read text result)
    (f : α → β) :
    Yields (fun limit s => (read limit s).map fun (v, s) => (f v, s)) text (result.map f) := by
  intro limit r hr hl
  simp only [h limit r hr hl]
  cases result <;> rfl

/-- What a field does that may stand only once. -/
def once (name : String) (held : Option α) (v : α) : Except Error (Option α) :=
  match held with
  | some _ => .error (.mismatch (.duplicateField name))
  | none => .ok (some v)

theorem Yields.fieldOnce {text : Bytes} {v : α} (h : Yields read text (.ok v)) (name : String)
    (held : Option α) : Yields (fieldOnce name held read) (colon :: text) (once name held v) := by
  intro limit r hr hl
  cases held with
  | some w => rfl
  | none =>
    simp only [Json.fieldOnce, h.memberValue limit r hr hl]
    rfl

/-- A field of a record that may stand only once: where it is held, and how it is put there. -/
def FieldPart.field (name : String) (value : Json) (v : α) (held : σ → Option α)
    (put : σ → Option α → σ) : FieldPart σ :=
  ⟨name, value, fun state => (once name (held state) v).map (put state)⟩

/-- **A field** does what its part says if its value is read back. -/
theorem FieldPart.field_taken {name : String} {value : Json} {v : α} {held : σ → Option α}
    {put : σ → Option α → σ} {take : String → σ → Reader σ} (h : Yields read value.write (.ok v))
    (htake : ∀ state limit s, take name state limit s
      = (Json.fieldOnce name (held state) read limit s).map fun (v, s) => (put state v, s)) :
    (FieldPart.field name value v held put).TakenBy take := by
  intro state limit r hr hl
  rw [FieldPart.field, htake]
  exact (h.fieldOnce name (held state)).map (put state) limit r hr hl

/-! ## 4. Dictionaries -/

/-- An entry of a dictionary as it is written: its reader puts it to the others. -/
def FieldPart.entry (toJson : α → Json) (e : String × α) : FieldPart (Dictionary α) :=
  ⟨e.1, toJson e.2, fun held => .ok (held.put e.1 e.2)⟩

theorem effects_entries (toJson : α → Json) : ∀ (entries : List (String × α)) (held : Dictionary α),
    FieldPart.effects (entries.map (FieldPart.entry toJson)) held
      = .ok (entries.foldl (fun d e => d.put e.1 e.2) held)
  | [], _ => rfl
  | e :: entries, held => effects_entries toJson entries (held.put e.1 e.2)

/-- **A dictionary** is read back if its values are. -/
theorem Codec.mapOf (h : Codec read toJson) :
    Codec (mapOf read) fun d => .obj (d.entries.map fun e => (e.1, toJson e.2)) where
  yields := by
    intro d limit r _ hl
    have hwritten : (d.entries.map (FieldPart.entry toJson)).map FieldPart.member
        = d.entries.map fun e => (e.1, toJson e.2) := by
      simp [FieldPart.entry, FieldPart.member, Function.comp_def]
    have htaken : ∀ p ∈ d.entries.map (FieldPart.entry toJson), p.TakenBy fun key held limit s =>
        (Json.memberValue read limit s).map fun (v, s) => (held.put key v, s) := by
      intro p hp state
      obtain ⟨e, -, rfl⟩ := List.mem_map.mp hp
      exact (h.yields e.2).memberValue.map fun v => state.put e.1 v
    rw [write_obj_append, List.length_cons, ← hwritten] at hl
    have hmembers := members_parts htaken .empty (Nat.lt_of_succ_lt hl)
    rw [hwritten, effects_entries, Dictionary.foldl_put_entries] at hmembers
    rw [write_obj_append, Json.mapOf, skipSpaces_cons (by decide)]
    dsimp only
    rw [if_pos rfl, hmembers]
  starts d := starts_obj _

end MeshNode.Json
