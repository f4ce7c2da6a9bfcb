/-
# Written values: what the reader makes of them

What the reader makes of the text of a value without doubles is told by what it makes of the texts
inside, and it does not depend on what follows the text.

* `scalar_yields` and `textFor_yields`: scalars, and what is taken where a text must stand;
* `arr_yields`, `obj_yields`, `raw_yields`: containers, by what comes of the values inside;
* `reread` is what the reader makes of a written value, `value_yields`: whatever follows it.
-/
import MeshNode.Proofs.Json.Collection
import MeshNode.Proofs.Json.Inside

namespace MeshNode.Json

open Token

/-! ## 1. Scalars -/

/-- In front of a scalar every budget is enough. -/
theorem value_of_scalar (budget limit : Nat) {b : UInt8} (hs : isSpace b = false)
    (ha : b ≠ openBracket) (ho : b ≠ openBrace) (rest : Bytes) :
    value budget limit (b :: rest) = scalar limit (b :: rest) := by
  cases budget with
  | zero => rfl
  | succ budget => simp only [value, valueWith, skipSpaces_cons hs, if_neg ha, if_neg ho]

/-- The first byte of a number is told apart from every other start of a value. -/
theorem numeral_start {b : UInt8} (h : b = minus ∨ isDigit b = true) :
    isSpace b = false ∧ b ≠ quote ∧ b ≠ openBracket ∧ b ≠ openBrace ∧ b ≠ closeBracket ∧
      b ≠ 0x6E ∧ b ≠ 0x74 ∧ b ≠ 0x66 := by
  rcases h with rfl | h
  · decide
  · rw [isDigit, Bool.and_eq_true, decide_eq_true_eq, decide_eq_true_eq] at h
    have hlow : 0x30 ≤ b.toNat := UInt8.le_iff_toNat_le.mp h.1
    have hhigh : b.toNat ≤ 0x39 := UInt8.le_iff_toNat_le.mp h.2
    have hne : ∀ {c : UInt8}, c.toNat < 0x30 ∨ 0x39 < c.toNat → b ≠ c := by
      rintro c hc rfl
      omega
    refine ⟨?_, hne (by decide), hne (by decide), hne (by decide), hne (by decide),
      hne (by decide), hne (by decide), hne (by decide)⟩
    simp only [isSpace, Bool.or_eq_false_iff, beq_eq_false_iff_ne]
    exact ⟨⟨⟨hne (by decide), hne (by decide)⟩, hne (by decide)⟩, hne (by decide)⟩

/-- The value of what was found, if it opens no container. -/
def scalarOf : Found → Except Error Json
  | .null => .ok .null
  | .bool b => .ok (.bool b)
  | .int n => .ok (.int n)
  | .float x => .ok (.float x)
  | .text t => .ok (.str t)
  | .array | .object => .error .malformed

theorem scalar_yields {t : Bytes} {what : Except Error Found} (h : Yields found t what) :
    Yields scalar t (what.bind scalarOf) := by
  intro limit r hr hl
  rw [scalar, h limit r hr hl]
  cases what with
  | error e => rfl
  | ok what => cases what <;> rfl

theorem found_null : Yields found (write .null) (.ok .null) := by
  intro limit r _ _
  rw [write_null]
  rfl

theorem found_bool (b : Bool) : Yields found (write (.bool b)) (.ok (.bool b)) := by
  intro limit r _ _
  rw [write_bool]
  cases b <;> rfl

theorem found_int {n : Int} (hn : isWord n = true) :
    Yields found (write (.int n)) (.ok (.int n)) := by
  intro limit r hr _
  obtain ⟨b, rest, hb, hstart⟩ := intBytes_head n
  obtain ⟨hs, hq, ha, ho, -, h1, h2, h3⟩ := numeral_start hstart
  have hread := readNumber_intBytes hn hr
  rw [write_int]
  rw [hb, List.cons_append] at hread ⊢
  rw [found, skipSpaces_cons hs]
  dsimp only
  rw [if_neg hq, if_neg ha, if_neg ho, if_neg h1, if_neg h2, if_neg h3, if_pos hstart, hread]
  rfl

/-- **A written string ends at its closing mark**, whatever follows it. -/
theorem found_written_string (s : String) {limit : Nat} {r : Bytes}
    (hl : (Literal.bytes s ++ r).length < limit) :
    found limit (Literal.bytes s ++ r) = .ok (.text s, r) := by
  rw [Literal.bytes_append] at hl ⊢
  rw [List.length_cons] at hl
  rw [found, skipSpaces_cons (by decide)]
  dsimp only
  rw [if_pos rfl, literal_inner s (by omega)]
  rfl

theorem textFor_written_string (expected : Expected) (s : String) {limit : Nat} {r : Bytes}
    (hl : (Literal.bytes s ++ r).length < limit) :
    textFor expected limit (Literal.bytes s ++ r) = .ok (s, r) := by
  rw [Literal.bytes_append] at hl ⊢
  rw [List.length_cons] at hl
  rw [textFor, skipSpaces_cons (by decide)]
  dsimp only
  rw [if_pos rfl, literal_inner s (by omega)]

theorem null_yields (budget : Nat) : Yields (value budget) (write .null) (.ok .null) := by
  intro limit r hr hl
  rw [write_null]
  exact (value_of_scalar budget limit (by decide) (by decide) (by decide) _).trans
    (scalar_yields found_null limit r hr hl)

theorem bool_yields (budget : Nat) (b : Bool) :
    Yields (value budget) (write (.bool b)) (.ok (.bool b)) := by
  intro limit r hr hl
  have hscalar := scalar_yields (found_bool b) limit r hr hl
  rw [write_bool] at hscalar ⊢
  cases b <;>
    exact (value_of_scalar budget limit (by decide) (by decide) (by decide) _).trans hscalar

theorem int_yields (budget : Nat) {n : Int} (hn : isWord n = true) :
    Yields (value budget) (write (.int n)) (.ok (.int n)) := by
  intro limit r hr hl
  have hscalar := scalar_yields (found_int hn) limit r hr hl
  obtain ⟨b, rest, hb, hstart⟩ := intBytes_head n
  obtain ⟨hs, -, ha, ho, -⟩ := numeral_start hstart
  rw [write_int, hb, List.cons_append] at hscalar ⊢
  exact (value_of_scalar budget limit hs ha ho _).trans hscalar

/-- **A written string is a value of its own**, within every budget. -/
theorem value_written_string (budget : Nat) (s : String) {limit : Nat} {r : Bytes}
    (hl : (Literal.bytes s ++ r).length < limit) :
    value budget limit (Literal.bytes s ++ r) = .ok (.str s, r) := by
  have hfound := found_written_string s hl
  rw [Literal.bytes_append] at hfound ⊢
  rw [value_of_scalar budget limit (by decide) (by decide) (by decide), scalar, hfound]

theorem str_yields (budget : Nat) (s : String) :
    Yields (value budget) (write (.str s)) (.ok (.str s)) := by
  intro limit r _ hl
  rw [write_str] at hl ⊢
  exact value_written_string budget s hl

/-- A string, or the refusal of what stands in its place. -/
def asText (expected : Expected) : Json → Except Error String
  | .str t => .ok t
  | v => .error (.mismatch (.wrongType (.ofJson v) expected))

/-- **A string that is expected** is read, and every other value is refused for what it is. -/
theorem textFor_yields (expected : Expected) {v : Json} (hf : v.floatFree = true) :
    Yields (textFor expected) (write v) (asText expected v) := by
  cases v with
  | null =>
    intro limit r _ _
    rw [write_null]
    rfl
  | bool b =>
    intro limit r _ _
    rw [write_bool]
    cases b <;> rfl
  | int n =>
    intro limit r hr hl
    have hfound := found_int hf limit r hr hl
    obtain ⟨b, rest, hb, hstart⟩ := intBytes_head n
    obtain ⟨hs, hq, -⟩ := numeral_start hstart
    rw [write_int, hb, List.cons_append] at hfound ⊢
    rw [textFor, skipSpaces_cons hs]
    dsimp only
    rw [if_neg hq, unexpected, hfound]
    rfl
  | float x => simp [floatFree] at hf
  | str s =>
    intro limit r _ hl
    rw [write_str] at hl ⊢
    exact textFor_written_string expected s hl
  | arr items =>
    intro limit r _ _
    rw [write_arr]
    rfl
  | obj members =>
    intro limit r _ _
    rw [write_obj]
    rfl

/-! ## 2. Containers -/

/-- Without a budget left no container is opened. -/
theorem value_zero_container {b : UInt8} (hb : b = openBracket ∨ b = openBrace) (limit : Nat)
    (rest : Bytes) : value 0 limit (b :: rest) = .error .malformed := by
  rcases hb with rfl | rfl <;> rfl

theorem value_array (budget limit : Nat) (s : Bytes) :
    value (budget + 1) limit (openBracket :: s)
      = (items (value budget) limit s).map fun (vs, s) => (.arr vs, s) := rfl

theorem value_brace (budget limit : Nat) (s : Bytes) : value (budget + 1) limit (openBrace :: s)
    = match rawKey? limit s with
      | some s' => rawValue ofText limit s'
      | none => (members (entryWith (value budget)) [] limit s).map fun (vs, s) => (.obj vs, s) := rfl

theorem value_object {limit : Nat} {s : Bytes} (hkey : rawKey? limit s = none) (budget : Nat) :
    value (budget + 1) limit (openBrace :: s)
      = (members (entryWith (value budget)) [] limit s).map fun (vs, s) => (.obj vs, s) := by
  rw [value_brace, hkey]

theorem value_raw {limit : Nat} {s s' : Bytes} (hkey : rawKey? limit s = some s') (budget : Nat) :
    value (budget + 1) limit (openBrace :: s) = rawValue ofText limit s' := by
  rw [value_brace, hkey]

/-- Every text of a value can be told from white space and from the end of an array. -/
theorem starts_write (v : Json) (hf : v.floatFree = true) : Starts (write v) := by
  cases v with
  | null => exact ⟨0x6E, _, write_null, by decide, by decide⟩
  | bool b =>
    cases b with
    | true => exact ⟨0x74, _, write_bool true, by decide, by decide⟩
    | false => exact ⟨0x66, _, write_bool false, by decide, by decide⟩
  | int n =>
    obtain ⟨b, rest, hb, hstart⟩ := intBytes_head n
    obtain ⟨hs, -, -, -, hc, -⟩ := numeral_start hstart
    exact ⟨b, rest, (write_int n).trans hb, hs, hc⟩
  | float x => simp [floatFree] at hf
  | str s => exact ⟨quote, _, write_str s, by decide, by decide⟩
  | arr items => exact ⟨openBracket, _, write_arr items, by decide, by decide⟩
  | obj members => exact ⟨openBrace, _, write_obj members, by decide, by decide⟩

/-- What stands behind the first key of an object, if this key spells the mark. -/
theorem rawKey?_spelled {ws t : Bytes} (hws : Blank ws) (ht : Inner t) {limit : Nat} {s : Bytes}
    (hl : (t ++ quote :: s).length < limit) :
    rawKey? limit (ws ++ quote :: (t ++ quote :: s)) = match spelled t with
      | .ok key => bif isMark key then some s else none
      | .error _ => none := by
  rw [rawKey?, nextKey_first_blank hws]
  dsimp only
  rw [literal_inner_text ht hl]
  cases spelled t <;> rfl

/-- The first key of an object of the grammar. -/
theorem rawKey?_formed {ws : Bytes} (hws : Blank ws) (m : Member) (ms : List Member) {limit : Nat}
    {r : Bytes}
    (hl : (ws ++ (separated ((m :: ms).map Member.text) ++ closeBrace :: r)).length < limit) :
    rawKey? limit (ws ++ (separated ((m :: ms).map Member.text) ++ closeBrace :: r))
      = match spelled m.key with
        | .ok key => bif isMark key then some (m.field ++ (m.item.after
            ++ ((ms.map Member.text).flatMap (comma :: ·) ++ closeBrace :: r))) else none
        | .error _ => none := by
  rw [List.map_cons, separated, List.append_assoc, Member.text_append, ← List.append_assoc] at hl ⊢
  exact rawKey?_spelled (hws.append m.before_blank) m.key_inner
    (by rw [List.length_append, List.length_cons] at hl; omega)

/-- An object that does not begin with the mark is read as an object. -/
theorem rawKey?_of_unmarked {members : List (String × Json)} (h : marked members = false)
    {limit : Nat} {r : Bytes}
    (hl : (separated (memberTexts members) ++ closeBrace :: r).length < limit) :
    rawKey? limit (separated (memberTexts members) ++ closeBrace :: r) = none := by
  cases members with
  | nil => rfl
  | cons m rest =>
    let written : String × Json → Member := fun m => .written m.1 (write m.2)
    have htexts : memberTexts (m :: rest) = (written m :: rest.map written).map Member.text := by
      simp [memberTexts, written, Member.written_text, Function.comp_def]
    rw [htexts] at hl ⊢
    have hkey := rawKey?_formed blank_nil (written m) (rest.map written) hl
    rw [(Member.written_named m.1 (write m.2)).spelled] at hkey
    dsimp only at hkey
    rw [show isMark m.1 = false from h, cond_false] at hkey
    exact hkey

variable {budget : Nat} {result : Json → Except Error Json}

/-- **An array** comes to its items, or to the first error among them. -/
theorem arr_yields {items : List Json} (hf : ∀ v ∈ items, v.floatFree = true)
    (h : ∀ v ∈ items, Yields (value budget) (write v) (result v)) :
    Yields (value (budget + 1)) (write (.arr items)) ((items.mapM result).map .arr) := by
  intro limit r _ hl
  have hsplit : write (.arr items) ++ r
      = openBracket :: (separated (items.map write) ++ closeBracket :: r) := by
    simp [write_arr]
  rw [hsplit, List.length_cons] at hl
  have hitems := items_separated items h (fun v hv => starts_write v (hf v hv))
    (Nat.lt_of_succ_lt hl)
  rw [hsplit, value_array, hitems]
  cases items.mapM result <;> rfl

/-- What a member that was read adds to those before it. -/
def putResult (result : Json → Except Error Json) (entries : List (String × Json))
    (m : String × Json) : Except Error (List (String × Json)) :=
  (result m.2).map fun v => Dictionary.insert m.1 v entries

theorem entryWith_yields {m : String × Json} (h : Yields (value budget) (write m.2) (result m.2))
    (entries : List (String × Json)) : Yields (entryWith (value budget) m.1 entries)
      (colon :: write m.2) (putResult result entries m) := by
  intro limit r hr hl
  rw [entryWith, h.memberValue limit r hr hl, putResult]
  cases result m.2 <;> rfl

/-- **An object** that does not begin with the mark comes to what its members come to, one after the
other, or to the first error among them. -/
theorem obj_yields {members : List (String × Json)} (hmark : marked members = false)
    (h : ∀ m ∈ members, Yields (value budget) (write m.2) (result m.2)) :
    Yields (value (budget + 1)) (write (.obj members))
      ((members.foldlM (putResult result) []).map .obj) := by
  intro limit r _ hl
  have hsplit : write (.obj members) ++ r
      = openBrace :: (separated (memberTexts members) ++ closeBrace :: r) := by
    simp [write_obj]
  rw [hsplit, List.length_cons] at hl
  have hlength := Nat.lt_of_succ_lt hl
  rw [hsplit, value_object (rawKey?_of_unmarked hmark hlength)]
  rw [memberTexts] at hlength ⊢
  rw [members_separated (entryWith (value budget)) Prod.fst members
    (fun m hm => entryWith_yields (h m hm)) [] hlength]
  cases members.foldlM (putResult result) [] <;> rfl

/-- What an object comes to that begins with the mark: its first value is to be a string, the string
the text of a value, and the object is to end there. -/
def rawResult (text : Except Error String) (alone : Bool) : Except Error Json := do
  let t ← text
  let inside ← (ofBytes (Utf8.encode t)).mapError .inside
  if alone then .ok inside else .error .malformed

/-- **An object of the grammar that begins with the mark** comes to the value of the text it holds. -/
theorem raw_formed {ws : Bytes} (hws : Blank ws) {m : Member} {ms : List Member}
    (hkey : spelled m.key = .ok rawMark) {text : Except Error String}
    (htext : Yields (memberValue (textFor .raw)) m.field text) :
    Yields (value (budget + 1))
      (openBrace :: (ws ++ (separated ((m :: ms).map Member.text) ++ [closeBrace])))
      (rawResult text ms.isEmpty) := by
  intro limit r _ hl
  simp only [List.cons_append, List.append_assoc, List.nil_append] at hl ⊢
  rw [List.length_cons] at hl
  have hmark := rawKey?_formed hws m ms (Nat.lt_of_succ_lt hl)
  simp only [List.map_cons, separated, List.append_assoc, Member.text_append, List.length_append,
    List.length_cons] at hl
  rw [hkey] at hmark
  dsimp only at hmark
  rw [isMark_iff.mpr rfl, cond_true] at hmark
  have hfield := htext limit _ (m.delimited ms r)
    (by simp only [List.length_append, List.length_cons]; omega)
  rw [value_raw hmark, rawValue, hfield]
  cases text with
  | error e => rfl
  | ok t =>
    have hshort : (Utf8.encode t).length < limit := by
      have hlt := length_lt_of_memberText hfield
      simp only [List.length_append, List.length_cons] at hlt
      omega
    simp only [Except.map, rawResult, ofText_eq_ofBytes hshort, bind, Except.bind]
    cases ofBytes (Utf8.encode t) with
    | error e => rfl
    | ok inside =>
      simp only [Except.mapError, closeObject]
      cases ms with
      | nil =>
        rw [List.map_nil, List.flatMap_nil, List.nil_append,
          skipSpaces_blank_cons m.item.after_blank (by decide)]
        rfl
      | cons m' ms =>
        rw [List.map_cons, List.flatMap_cons, List.cons_append, List.cons_append,
          skipSpaces_blank_cons m.item.after_blank (by decide)]
        rfl

/-- A written object that begins with the mark. -/
theorem raw_yields {v : Json} (hf : v.floatFree = true) (others : List (String × Json)) :
    Yields (value (budget + 1)) (write (.obj ((rawMark, v) :: others)))
      (rawResult (asText .raw v) others.isEmpty) := by
  let m := Member.written rawMark (write v)
  let ms := others.map fun e => Member.written e.1 (write e.2)
  have htexts : write (.obj ((rawMark, v) :: others))
      = openBrace :: ([] ++ (separated ((m :: ms).map Member.text) ++ [closeBrace])) := by
    simp [write_obj, memberTexts, m, ms, Member.written_text, Function.comp_def]
  have hyields : Yields (value (budget + 1))
      (openBrace :: ([] ++ (separated ((m :: ms).map Member.text) ++ [closeBrace])))
      (rawResult (asText .raw v) ms.isEmpty) :=
    raw_formed blank_nil (Member.written_named rawMark (write v)).spelled
      (textFor_yields .raw hf).memberValue
  rw [htexts]
  simpa [ms] using hyields

/-! ## 3. All values -/

/-- What the reader makes of the text of a value. -/
def reread (budget : Nat) (v : Json) : Except Error Json := outcome (value budget) (write v)

theorem reread_zero_container {v : Json} (h : 0 < v.depth) : reread 0 v = .error .malformed := by
  cases v with
  | arr items =>
    rw [reread, outcome, write_arr, value_zero_container (.inl rfl)]
    rfl
  | obj members =>
    rw [reread, outcome, write_obj, value_zero_container (.inr rfl)]
    rfl
  | _ => simp [depth] at h

/-- **What the reader makes of the text of a value does not depend on what follows it.** -/
theorem value_yields (v : Json) : v.floatFree = true →
    ∀ budget, Yields (value budget) (write v) (reread budget v) := by
  have hyields : ∀ {v : Json} {budget : Nat} {result : Except Error Json},
      Yields (value budget) (write v) result → Yields (value budget) (write v) (reread budget v) :=
    fun h => by rwa [reread, h.outcome_eq]
  have hzero : ∀ {v : Json} {b : UInt8} {rest : Bytes}, write v = b :: rest →
      b = openBracket ∨ b = openBrace → Yields (value 0) (write v) (.error .malformed) := by
    intro v b rest hwrite hb limit r _ _
    rw [hwrite, List.cons_append, value_zero_container hb]
    rfl
  induction v using induction with
  | null => exact fun _ budget => hyields (null_yields budget)
  | bool b => exact fun _ budget => hyields (bool_yields budget b)
  | int n => exact fun hf budget => hyields (int_yields budget hf)
  | float x => exact fun hf => absurd hf (by simp [floatFree])
  | str s => exact fun _ budget => hyields (str_yields budget s)
  | arr items ih =>
    intro hf budget
    have hinside := floatFree_arr.mp hf
    cases budget with
    | zero => exact hyields (hzero (write_arr items) (.inl rfl))
    | succ budget => exact hyields (arr_yields hinside fun v hv => ih v hv (hinside v hv) budget)
  | obj members ih =>
    intro hf budget
    have hinside := floatFree_obj.mp hf
    cases budget with
    | zero => exact hyields (hzero (write_obj members) (.inr rfl))
    | succ budget =>
      cases hmark : marked members with
      | false => exact hyields (obj_yields hmark fun m hm => ih m hm (hinside m hm) budget)
      | true =>
        obtain ⟨v, others, rfl⟩ := eq_of_marked hmark
        exact hyields (raw_yields (hinside _ List.mem_cons_self) others)

end MeshNode.Json
