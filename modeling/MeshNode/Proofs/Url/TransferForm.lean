/-
# The transfer form of a label is read back

Coding places the characters of a label in the order of their points, and writes for each how far
it is from the last one: so many points, times all the places there are, and so many places.
Reading goes the same way back.  Between two numbers the reader stands at the last character that
was placed, and the distance from there to where the coder stands is the gap that the coder has
counted.

* `readNumber?_writeNumber`: one number;
* `Follows`: where the reader stands while the coder goes through the label for one point, and
  what each step of the coder makes of that;
* `Codes`: the coder wrote a text, and reading it brings the reader along;
* `place_follows` and `placeFrom_follows`: one point, and all of them;
* `transferForm_eq` and `mem_transferForm`: the parts and the characters of a transfer form,
  `ofTransferForm?_transferForm`: the label that is read from it.
-/
import MeshNode.Proofs.Text.Split
import MeshNode.Proofs.Text.Utf8
import MeshNode.Url.Domain

namespace MeshNode.Url.Domain

/-! ## 1. Numbers -/

/-- The signs of digits. -/
def Digit (c : Char) : Prop := ∃ d < 36, digitChar d = c

/-- What holds of the 36 signs holds of each. -/
theorem Digit.of_all {P : Char → Prop} (h : ∀ d < 36, P (digitChar d)) {c : Char} (hc : Digit c) :
    P c := by
  obtain ⟨d, hd, rfl⟩ := hc
  exact h d hd

theorem threshold_pos (place bias : Nat) : 0 < threshold place bias := by
  unfold threshold
  split
  · decide
  · split <;> omega

theorem threshold_le (place bias : Nat) : threshold place bias ≤ 26 := by
  unfold threshold
  split
  · decide
  · split <;> omega

theorem digit?_digitChar {d : Nat} (h : d < 36) : digit? (digitChar d) = some d := by
  have hall : ∀ d < 36, digit? (digitChar d) = some d := by decide
  exact hall d h

/-- **How a number is written**: as one digit, or as a digit that is not below the threshold and
the digits of the quotient behind it. -/
theorem writeNumber_cases (fuel bias place n : Nat) :
    (n < threshold place bias ∧ writeNumber (fuel + 1) bias place n = [digitChar n]) ∨
      ∃ d q, threshold place bias ≤ d ∧ d < 36 ∧ q < n ∧
        d + q * (36 - threshold place bias) = n ∧
        writeNumber (fuel + 1) bias place n = digitChar d :: writeNumber fuel bias (place + 36) q := by
  have hpos := threshold_pos place bias
  have hle := threshold_le place bias
  rw [writeNumber]
  generalize threshold place bias = t at hpos hle
  by_cases hn : n < t
  · exact .inl ⟨hn, if_pos hn⟩
  · have hmod : (n - t) % (36 - t) < 36 - t := Nat.mod_lt _ (by omega)
    have hdiv : (n - t) / (36 - t) ≤ n - t := Nat.div_le_self _ _
    have hsum := Nat.mod_add_div' (n - t) (36 - t)
    exact .inr ⟨_, _, Nat.le_add_right _ _, by omega, by omega, by omega, if_neg hn⟩

/-- **A number is read back**, whatever follows it. -/
theorem readNumber?_writeNumber (bias : Nat) (rest : List Char) :
    ∀ (fuel place weight sum n : Nat), n < fuel →
      readNumber? bias place weight sum (writeNumber fuel bias place n ++ rest)
        = some (sum + n * weight, rest)
  | 0, _, _, _, _, h => absurd h (Nat.not_lt_zero _)
  | fuel + 1, place, weight, sum, n, h => by
    have hle := threshold_le place bias
    rcases writeNumber_cases fuel bias place n with ⟨hn, htext⟩ | ⟨d, q, hd, hlt, hq, hsum, htext⟩
    · rw [htext, List.singleton_append, readNumber?, digit?_digitChar (by omega)]
      exact if_pos hn
    · have ih := readNumber?_writeNumber bias rest fuel (place + 36)
        (weight * (36 - threshold place bias)) (sum + d * weight) q (by omega)
      rw [htext, List.cons_append, readNumber?, digit?_digitChar hlt]
      simp only [if_neg (Nat.not_lt.mpr hd), ih]
      congr 2
      calc sum + d * weight + q * (weight * (36 - threshold place bias))
          = sum + (d + q * (36 - threshold place bias)) * weight := by
            rw [Nat.add_mul, Nat.mul_assoc, Nat.mul_comm weight, Nat.add_assoc]
        _ = sum + n * weight := by rw [hsum]

/-- A number is written in digits, and one at least. -/
theorem digit_of_mem_writeNumber : ∀ {fuel bias place n : Nat},
    ∀ c ∈ writeNumber fuel bias place n, Digit c
  | 0, _, _, _, c, hc => by cases hc
  | fuel + 1, bias, place, n, c, hc => by
    have hle := threshold_le place bias
    rcases writeNumber_cases fuel bias place n with ⟨hn, htext⟩ | ⟨d, q, -, hlt, -, -, htext⟩
    · rw [htext, List.mem_singleton] at hc
      exact ⟨n, by omega, hc.symm⟩
    · rw [htext] at hc
      rcases List.mem_cons.mp hc with rfl | hc
      · exact ⟨d, hlt, rfl⟩
      · exact digit_of_mem_writeNumber c hc

theorem writeNumber_ne_nil (fuel bias place n : Nat) :
    writeNumber (fuel + 1) bias place n ≠ [] := by
  rcases writeNumber_cases fuel bias place n with ⟨-, htext⟩ | ⟨d, q, -, -, -, -, htext⟩
  · simp [htext]
  · simp [htext]

/-! ## 2. The reader and the coder -/

/-- The reader stands where the last character was placed, and the gap of the coder leads from
there to where the coder stands: at `point`, with the characters `before` it placed already and
those of `after` it, too. -/
structure Follows (before after : List Char) (point : Nat) (c : Coding) (r : Reading) : Prop where
  label : r.label = before ++ after
  placed : c.placed = before.length + after.length
  bias : r.bias = c.bias
  first : r.first = c.first
  reached : r.point ≤ point
  gap : r.point * (c.placed + 1) + r.index + c.gap = point * (c.placed + 1) + before.length

/-- What a text of whole numbers makes of the reader. -/
def Decodes (r : Reading) (text : List Char) (r' : Reading) : Prop :=
  ∀ (fuel : Nat) (rest : List Char), (text ++ rest).length ≤ fuel →
    ∃ fuel', rest.length ≤ fuel' ∧ readFrom? fuel r (text ++ rest) = readFrom? fuel' r' rest

/-- The coder has written digits that bring the reader from one state to another. -/
def Codes (c c' : Coding) (r r' : Reading) : Prop :=
  ∃ text, c'.written = c.written ++ text ∧ (∀ x ∈ text, Digit x) ∧ Decodes r text r'

theorem Decodes.nil (r : Reading) : Decodes r [] r := fun fuel _ h => ⟨fuel, h, rfl⟩

theorem Decodes.append {r r' r'' : Reading} {text text' : List Char} (h : Decodes r text r')
    (h' : Decodes r' text' r'') : Decodes r (text ++ text') r'' := by
  intro fuel rest hfuel
  rw [List.append_assoc] at hfuel ⊢
  obtain ⟨fuel', hfuel', heq⟩ := h fuel (text' ++ rest) hfuel
  obtain ⟨fuel'', hfuel'', heq'⟩ := h' fuel' rest hfuel'
  exact ⟨fuel'', hfuel'', heq.trans heq'⟩

section

variable {before after : List Char} {point : Nat} {c c' c'' : Coding} {r r' r'' : Reading}

/-- Where nothing is written, the reader stays. -/
theorem Codes.silent (h : c'.written = c.written) (r : Reading) : Codes c c' r r :=
  ⟨[], by rw [h, List.append_nil], by simp, .nil r⟩

theorem Codes.trans (h : Codes c c' r r') (h' : Codes c' c'' r' r'') : Codes c c'' r r'' := by
  obtain ⟨text, hwritten, hdigits, hdecodes⟩ := h
  obtain ⟨text', hwritten', hdigits', hdecodes'⟩ := h'
  refine ⟨text ++ text', ?_, ?_, hdecodes.append hdecodes'⟩
  · rw [hwritten', hwritten, List.append_assoc]
  · intro x hx
    rcases List.mem_append.mp hx with hx | hx
    · exact hdigits x hx
    · exact hdigits' x hx

/-- The coder passes a character that was placed before. -/
theorem Follows.pass {x : Char} (h : Follows before (x :: after) point c r) :
    Follows (before ++ [x]) after point { c with gap := c.gap + 1 } r where
  label := by rw [h.label, List.append_assoc]; rfl
  placed := by simp [h.placed]; omega
  bias := h.bias
  first := h.first
  reached := h.reached
  gap := by
    have hgap := h.gap
    rw [List.length_append, List.length_singleton]
    dsimp only
    omega

/-- The coder goes on to a greater point, all placed characters lying in front of it. -/
theorem Follows.advance (h : Follows [] after point c r) {next : Nat} (hle : point ≤ next) :
    Follows [] after next { c with gap := c.gap + (next - point) * (c.placed + 1) } r where
  label := h.label
  placed := h.placed
  bias := h.bias
  first := h.first
  reached := Nat.le_trans h.reached hle
  gap := by
    have hgap := h.gap
    have hmul : point * (c.placed + 1) + (next - point) * (c.placed + 1)
        = next * (c.placed + 1) := by rw [← Nat.add_mul, Nat.add_sub_cancel' hle]
    dsimp only
    omega

/-- At the end of the label the coder turns to the next point. -/
theorem Follows.turn (h : Follows before [] point c r) :
    Follows [] before (point + 1) { c with gap := c.gap + 1 } r where
  label := by rw [h.label, List.append_nil, List.nil_append]
  placed := by rw [h.placed, Nat.add_comm]
  bias := h.bias
  first := h.first
  reached := Nat.le_succ_of_le h.reached
  gap := by
    have hgap := h.gap
    have hplaced : c.placed = before.length := h.placed
    have hmul : (point + 1) * (c.placed + 1) = point * (c.placed + 1) + (c.placed + 1) :=
      Nat.succ_mul _ _
    simp only [List.length_nil]
    omega

theorem Follows.length (h : Follows before after point c r) : r.label.length = c.placed := by
  rw [h.label, List.length_append, h.placed]

/-- Where a gap leads to, in points and in places. -/
theorem Follows.target (h : Follows before after point c r) :
    r.point + (r.index + c.gap) / (c.placed + 1) = point ∧
      (r.index + c.gap) % (c.placed + 1) = before.length := by
  have hlt : before.length < c.placed + 1 := by
    have hplaced := h.placed
    omega
  have hsplit : r.index + c.gap = before.length + (c.placed + 1) * (point - r.point) := by
    have hgap := h.gap
    have hmul : point * (c.placed + 1)
        = r.point * (c.placed + 1) + (c.placed + 1) * (point - r.point) := by
      rw [Nat.mul_comm (c.placed + 1), ← Nat.add_mul, Nat.add_sub_cancel' h.reached]
    omega
  rw [hsplit, Nat.add_mul_div_left _ _ (Nat.succ_pos _), Nat.add_mul_mod_self_left,
    Nat.div_eq_of_lt hlt, Nat.mod_eq_of_lt hlt, Nat.zero_add]
  exact ⟨Nat.add_sub_cancel' h.reached, rfl⟩

/-- The state of the coder behind a character that it placed. -/
def Coding.emit (c : Coding) : Coding where
  gap := 0
  bias := adapt c.gap (c.placed + 1) c.first
  placed := c.placed + 1
  first := false
  written := c.written ++ writeNumber (c.gap + 1) c.bias 36 c.gap

/-- **The coder places a character**, and the reader does the same. -/
theorem Follows.emit {x : Char} (h : Follows before after x.toNat c r) :
    ∃ r', Follows (before ++ [x]) after x.toNat c.emit r' ∧ Codes c c.emit r r' := by
  refine ⟨⟨x.toNat, before.length + 1, adapt c.gap (c.placed + 1) c.first, false,
    before ++ x :: after⟩, ?_, _, rfl, fun d => digit_of_mem_writeNumber d, ?_⟩
  · have hplaced : c.emit.placed = c.placed + 1 := rfl
    refine ⟨by simp, ?_, rfl, rfl, Nat.le_refl _, ?_⟩
    · rw [hplaced, h.placed, List.length_append, List.length_singleton]
      omega
    · rw [List.length_append, List.length_singleton]
      rfl
  · intro fuel rest hfuel
    obtain ⟨hpoint, hindex⟩ := h.target
    have hread := readNumber?_writeNumber c.bias rest (c.gap + 1) 36 1 0 c.gap (Nat.lt_succ_self _)
    cases htext : writeNumber (c.gap + 1) c.bias 36 c.gap with
    | nil => exact absurd htext (writeNumber_ne_nil _ _ _ _)
    | cons d text =>
      rw [htext] at hfuel hread
      cases fuel with
      | zero => exact absurd hfuel (by simp)
      | succ fuel =>
        refine ⟨fuel, by simp at hfuel; omega, ?_⟩
        have hvalid : x.toNat.isValidChar := x.valid
        have htake : r.label.take before.length = before := by rw [h.label, List.take_left]
        have hdrop : r.label.drop before.length = after := by rw [h.label, List.drop_left]
        rw [List.cons_append] at hread ⊢
        simp only [readFrom?, h.bias, h.first, h.length, hread, Nat.zero_add, Nat.mul_one, hpoint,
          hindex, if_pos hvalid, htake, hdrop, Char.ofNat_toNat]

end

/-! ## 3. Whole labels -/

/-- **One point**: the coder has passed the whole label, and the reader has all characters up to
that point. -/
theorem place_follows (point : Nat) : ∀ (todo : List Char) {before : List Char} {c : Coding}
    {r : Reading}, Follows before (todo.filter (·.toNat < point)) point c r →
      ∃ r', Follows (before ++ todo.filter (·.toNat ≤ point)) [] point (place todo point c) r' ∧
        Codes c (place todo point c) r r'
  | [], before, c, r, h => ⟨r, by simpa [place] using h, .silent rfl r⟩
  | x :: todo, before, c, r, h => by
    rw [place, List.foldl_cons, ← place]
    rcases Nat.lt_trichotomy x.toNat point with hlt | heq | hgt
    · rw [List.filter_cons_of_pos (by simpa using hlt)] at h
      obtain ⟨r', hfollows, hcodes⟩ := place_follows point todo h.pass
      rw [if_pos hlt, List.filter_cons_of_pos (by simpa using Nat.le_of_lt hlt), List.append_cons]
      exact ⟨r', hfollows, (Codes.silent rfl r).trans hcodes⟩
    · subst heq
      rw [List.filter_cons_of_neg (by simp)] at h
      obtain ⟨r', hfollows, hcodes⟩ := h.emit
      obtain ⟨r'', hfollows', hcodes'⟩ := place_follows x.toNat todo hfollows
      rw [if_neg (Nat.lt_irrefl _), if_pos rfl, List.filter_cons_of_pos (by simp),
        List.append_cons]
      exact ⟨r'', hfollows', hcodes.trans hcodes'⟩
    · rw [List.filter_cons_of_neg (by simpa using Nat.le_of_lt hgt)] at h
      rw [if_neg (Nat.lt_asymm hgt), if_neg (Nat.ne_of_gt hgt),
        List.filter_cons_of_neg (by simpa using hgt)]
      exact place_follows point todo h

/-- The points of a label that are still to come. -/
theorem min?_points {label : List Char} {point : Nat} :
    (∀ {next}, (label.filterMap fun x => if point ≤ x.toNat then some x.toNat else none).min?
        = some next → point ≤ next ∧ (∃ x ∈ label, x.toNat = next) ∧
          ∀ x ∈ label, point ≤ x.toNat → next ≤ x.toNat) ∧
      ((label.filterMap fun x => if point ≤ x.toNat then some x.toNat else none).min? = none →
        ∀ x ∈ label, x.toNat < point) := by
  constructor
  · intro next h
    obtain ⟨hmem, hmin⟩ := List.min?_eq_some_iff.mp h
    obtain ⟨x, hx, hsome⟩ := List.mem_filterMap.mp hmem
    split at hsome
    · obtain rfl := Option.some.inj hsome
      refine ⟨‹_›, ⟨x, hx, rfl⟩, fun y hy hle => ?_⟩
      exact hmin _ (List.mem_filterMap.mpr ⟨y, hy, if_pos hle⟩)
    · cases hsome
  · intro h x hx
    have hnil := List.min?_eq_none_iff.mp h
    have hnone := List.filterMap_eq_nil_iff.mp hnil x hx
    split at hnone
    · cases hnone
    · omega

/-- How many characters of a label are still to come. -/
def remaining (label : List Char) (point : Nat) : Nat := label.countP (point ≤ ·.toNat)

theorem remaining_lt {label : List Char} {point next : Nat} (hle : point ≤ next)
    (h : ∃ x ∈ label, x.toNat = next) : remaining label (next + 1) < remaining label point := by
  obtain ⟨x, hx, rfl⟩ := h
  obtain ⟨front, back, rfl⟩ := List.append_of_mem hx
  have hmono : ∀ cs : List Char,
      cs.countP (x.toNat + 1 ≤ ·.toNat) ≤ cs.countP (point ≤ ·.toNat) := by
    intro cs
    refine List.countP_mono_left fun y _ hy => ?_
    have hy' := of_decide_eq_true hy
    exact decide_eq_true (by omega)
  have hfront := hmono front
  have hback := hmono back
  have hx : ¬ x.toNat + 1 ≤ x.toNat := Nat.not_succ_le_self _
  simp only [remaining, List.countP_append, List.countP_cons, hx, hle, decide_false, decide_true]
  simp only [Bool.false_eq_true, if_false, if_true]
  omega

/-- **All points**: behind the last one the reader has the label. -/
theorem placeFrom_follows (label : List Char) : ∀ (fuel point : Nat) {c : Coding} {r : Reading},
    remaining label point ≤ fuel → Follows [] (label.filter (·.toNat < point)) point c r →
      ∃ r', r'.label = label ∧ Codes c (placeFrom label fuel point c) r r'
  | 0, point, c, r, hfuel, h => by
    refine ⟨r, ?_, .silent rfl r⟩
    have hnone := List.countP_eq_zero.mp (Nat.le_zero.mp hfuel)
    rw [h.label, List.nil_append, List.filter_eq_self]
    intro x hx
    simpa using hnone x hx
  | fuel + 1, point, c, r, hfuel, h => by
    rw [placeFrom]
    cases hmin : (label.filterMap fun x => if point ≤ x.toNat then some x.toNat else none).min? with
    | none =>
      refine ⟨r, ?_, .silent rfl r⟩
      rw [h.label, List.nil_append, List.filter_eq_self]
      intro x hx
      simpa using min?_points.2 hmin x hx
    | some next =>
      obtain ⟨hle, hthere, hleast⟩ := min?_points.1 hmin
      have hsame : label.filter (·.toNat < point) = label.filter (·.toNat < next) := by
        refine List.filter_congr fun x hx => decide_eq_decide.mpr ⟨fun hx => by omega, fun hlt => ?_⟩
        refine Nat.lt_of_not_le fun hge => ?_
        have hge' := hleast x hx hge
        omega
      obtain ⟨r', hfollows, hcodes⟩ := place_follows next label (hsame ▸ h.advance hle)
      have hnext : label.filter (·.toNat ≤ next) = label.filter (·.toNat < next + 1) :=
        List.filter_congr fun x _ => decide_eq_decide.mpr Nat.lt_succ_iff.symm
      rw [List.nil_append, hnext] at hfollows
      have hless := remaining_lt hle hthere
      obtain ⟨r'', hlabel, hcodes'⟩ := placeFrom_follows label fuel (next + 1) (by omega) hfollows.turn
      refine ⟨r'', hlabel, ?_⟩
      exact ((Codes.silent rfl r).trans hcodes).trans ((Codes.silent rfl r').trans hcodes')

/-- The text in front of the numbers of a transfer form: the characters of ASCII, and a sign that
ends them. -/
def plainPart (label : List Char) : List Char :=
  let basic := label.filter (·.toNat < 0x80)
  if basic.isEmpty then [] else basic ++ ['-']

/-- **The parts of a transfer form**: behind the mark and the characters of ASCII are digits, which
bring the reader from those characters to the whole label. -/
theorem transferForm_eq (label : List Char) : ∃ text r,
    transferForm label = transferMark ++ (plainPart label ++ text) ∧ (∀ x ∈ text, Digit x) ∧
      r.label = label ∧
      Decodes ⟨0x80, 0, 72, true, label.filter (·.toNat < 0x80)⟩ text r := by
  have hstart : Follows [] (label.filter (·.toNat < 0x80)) 0x80
      ⟨0, 72, (label.filter (·.toNat < 0x80)).length, true, plainPart label⟩
      ⟨0x80, 0, 72, true, label.filter (·.toNat < 0x80)⟩ :=
    ⟨rfl, by simp, rfl, rfl, Nat.le_refl _, rfl⟩
  obtain ⟨r, hlabel, text, hwritten, hdigits, hdecodes⟩ :=
    placeFrom_follows label label.length 0x80 List.countP_le_length hstart
  exact ⟨text, r, congrArg (transferMark ++ ·) hwritten, hdigits, hlabel, hdecodes⟩

/-- The characters of a transfer form. -/
theorem mem_transferForm {label : List Char} {c : Char} (hc : c ∈ transferForm label) :
    (c ∈ label ∧ c.toNat < 0x80) ∨ c ∈ transferMark ∨ Digit c := by
  obtain ⟨text, r, hform, hdigits, -, -⟩ := transferForm_eq label
  rw [hform] at hc
  rcases List.mem_append.mp hc with hc | hc
  · exact .inr (.inl hc)
  · rcases List.mem_append.mp hc with hc | hc
    · rw [plainPart] at hc
      split at hc
      · cases hc
      · rcases List.mem_append.mp hc with hc | hc
        · obtain ⟨hmem, hascii⟩ := List.mem_filter.mp hc
          exact .inl ⟨hmem, of_decide_eq_true hascii⟩
        · rw [List.mem_singleton.mp hc]
          exact .inr (.inl (by decide))
    · exact .inr (.inr (hdigits c hc))

/-- **A label is read back from its transfer form.** -/
theorem ofTransferForm?_transferForm (label : List Char) :
    ofTransferForm? ((transferForm label).drop 4) = some label := by
  obtain ⟨text, r, hform, hdigits, hlabel, hdecodes⟩ := transferForm_eq label
  have hsign : '-' ∉ text := fun hmem =>
    absurd (Digit.of_all (P := (· ≠ '-')) (by decide) (hdigits '-' hmem)) (by simp)
  obtain ⟨fuel, -, hread⟩ := hdecodes text.length [] (by simp)
  rw [List.append_nil, readFrom?, hlabel] at hread
  have hdrop : (transferForm label).drop 4 = plainPart label ++ text := by
    rw [hform]
    rfl
  rw [hdrop, ofTransferForm?, plainPart]
  cases hbasic : label.filter (·.toNat < 0x80) with
  | nil =>
    rw [hbasic] at hread
    simpa [Text.behind_none hsign] using hread
  | cons b basic =>
    rw [hbasic] at hread
    have hne : (b :: basic).isEmpty = false := rfl
    simp only [hne, Bool.false_eq_true, if_false, List.append_assoc, List.singleton_append,
      Text.behind_last hsign, Text.inFront_last, hread]

end MeshNode.Url.Domain
