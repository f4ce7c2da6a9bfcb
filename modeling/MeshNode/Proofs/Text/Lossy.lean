/-
# UTF-8: which bytes are text

The machine that reads UTF-8 finds nothing but characters exactly in the bytes of a text.  So lossy
reading gives a text back from its bytes, and what it makes of any other bytes is not spelled by
them.  Told byte by byte, the run also says where a text can be taken apart: a byte that begins a
character never belongs to one that is pending.

* `IsText`: the bytes of some text, with `isText_iff` and what is put together from texts;
* `decodeLossy_encode`, `encode_decodeLossy_iff`: lossy reading;
* `Clean`: the run from any state, with `clean_cons`, `clean_encodeChar` and `between_of_clean`.
-/
import MeshNode.Proofs.Text.Utf8

namespace MeshNode.Utf8

variable {bytes rest : Bytes} {state : State} {b : UInt8}

/-- The bytes are those of a text. -/
def IsText (bytes : Bytes) : Prop := ∃ s, bytes = encode s

theorem isText_encodeChars (cs : List Char) : IsText (encodeChars cs) :=
  ⟨String.ofList cs, by rw [encode, String.toList_ofList]⟩

theorem isText_nil : IsText [] := isText_encodeChars []

/-- One text behind another is a text. -/
theorem IsText.append (h : IsText bytes) (hrest : IsText rest) : IsText (bytes ++ rest) := by
  obtain ⟨s, rfl⟩ := h
  obtain ⟨s', rfl⟩ := hrest
  have hchars : encode s ++ encode s' = encodeChars (s.toList ++ s'.toList) :=
    List.flatMap_append.symm
  rw [hchars]
  exact isText_encodeChars _

/-- A byte of ASCII is a character. -/
theorem isText_singleton (hb : b.toNat < 0x80) : IsText [b] := by
  have hvalid : b.toNat.isValidChar := .inl (by omega)
  have hchar : encodeChar (Char.ofNat b.toNat) = [b] := by
    rw [encodeChar_of_ascii (by rwa [toNat_ofNat_char hvalid]), toNat_ofNat_char hvalid,
      UInt8.ofNat_toNat]
  have htext := isText_encodeChars [Char.ofNat b.toNat]
  rwa [encodeChars, List.flatMap_singleton, hchar] at htext

/-- Bytes of ASCII are a text. -/
theorem isText_of_ascii : ∀ {bytes : Bytes}, (∀ b ∈ bytes, b.toNat < 0x80) → IsText bytes
  | [], _ => isText_nil
  | _ :: _, h =>
    (isText_singleton (h _ List.mem_cons_self)).append
      (isText_of_ascii fun b hb => h b (List.mem_cons_of_mem _ hb))

/-! ## 1. Lossy reading -/

/-- **The machine finds nothing but characters** in a text, and in nothing else. -/
theorem isText_iff : IsText bytes ↔ none ∉ scan bytes := by
  constructor
  · rintro ⟨s, rfl⟩
    rw [encode, scan_encodeChars]
    simp
  · intro h
    obtain ⟨cs, rfl⟩ := encodeChars_of_run bytes [] fun hnone => h (List.mem_reverse.mpr hnone)
    exact isText_encodeChars cs

/-- **Lossy reading undoes writing.** -/
@[simp] theorem decodeLossy_encode (s : String) : decodeLossy (encode s) = s := by
  rw [decodeLossy, encode, scan_encodeChars, List.map_map]
  simp [Function.comp_def]

/-- **Lossy reading loses nothing** of a text, and of nothing else. -/
theorem encode_decodeLossy_iff : encode (decodeLossy bytes) = bytes ↔ IsText bytes := by
  constructor
  · exact fun h => ⟨decodeLossy bytes, h.symm⟩
  · rintro ⟨s, rfl⟩
    rw [decodeLossy_encode]

/-! ## 2. The run from any state -/

/-- From `state` on, the machine finds nothing but characters. -/
def Clean (state : State) (bytes : Bytes) : Prop := none ∉ run [] state bytes

theorem isText_of_clean (h : Clean none bytes) : IsText bytes :=
  isText_iff.mpr fun hnone => h (List.mem_reverse.mp hnone)

theorem IsText.clean (h : IsText bytes) : Clean none bytes :=
  fun hnone => isText_iff.mp h (List.mem_reverse.mpr hnone)

/-- What a run finds was found before it or is found by a run of its own. -/
theorem mem_run_iff {x : Option Char} (bytes : Bytes) : ∀ (found : List (Option Char))
    (state : State), x ∈ run found state bytes ↔ x ∈ found ∨ x ∈ run [] state bytes := by
  induction bytes with
  | nil =>
    intro found state
    simp [run, or_comm]
  | cons b rest ih =>
    intro found state
    rw [run, run, ih, ih (_ ++ []), List.append_nil, List.mem_append, List.mem_reverse, or_assoc,
      or_left_comm]

/-- One byte of a clean run, and the run behind it. -/
theorem clean_cons : Clean state (b :: rest) ↔
    none ∉ (step state b).1 ∧ Clean (step state b).2 rest := by
  rw [Clean, run, mem_run_iff, List.append_nil, List.mem_reverse, not_or, Clean]

/-- Between two characters, a byte of ASCII is the next one. -/
theorem clean_ascii (hb : b.toNat < 0x80) : Clean none (b :: rest) ↔ Clean none rest := by
  rw [clean_cons, step, start, if_pos hb]
  simp

/-- Between two characters, the bytes of one are the next one. -/
theorem clean_encodeChar (c : Char) : Clean none (encodeChar c ++ rest) ↔ Clean none rest := by
  rw [Clean, run_encodeChar, mem_run_iff, Clean]
  simp

/-- What is pending goes on with a byte that begins no character. -/
def Awaits (state : State) : Prop := ∀ p ∈ state, 0x80 ≤ p.lower ∧ p.upper ≤ 0xBF

theorem awaits_none : Awaits none := nofun

theorem awaits_some {p : Pending} (hl : 0x80 ≤ p.lower) (hu : p.upper ≤ 0xBF) :
    Awaits (some p) := by
  intro q hq
  obtain rfl := Option.some.inj hq
  exact ⟨hl, hu⟩

theorem awaits_start (n : Nat) : Awaits (start n).2 := by
  rcases start_cases n with hone | hnone | ⟨a, -, -, -, hs⟩ |
    ⟨a, lower, upper, -, -, hl, hu, -, -, hs⟩ | ⟨a, lower, upper, -, -, hl, hu, -, -, hs⟩
  · rw [start, if_pos hone]
    exact awaits_none
  · rw [hnone]
    exact awaits_none
  · rw [hs]
    exact awaits_some (Nat.le_refl _) (Nat.le_refl _)
  · rw [hs]
    exact awaits_some hl hu
  · rw [hs]
    exact awaits_some hl hu

/-- **Every step** leaves the machine between two characters or in wait for a byte that begins
none. -/
theorem awaits_step (state : State) (b : UInt8) : Awaits (step state b).2 := by
  cases state with
  | none => exact awaits_start b.toNat
  | some p =>
    rw [step]
    dsimp only
    split
    · split
      · exact awaits_none
      · exact awaits_none
      · exact awaits_some (Nat.le_refl _) (Nat.le_refl _)
    · exact awaits_start b.toNat

/-- A byte with which a character begins. -/
def Begins (b : UInt8) : Prop := b.toNat < 0x80 ∨ 0xC0 ≤ b.toNat

/-- **A byte that begins a character** does not stand inside another one. -/
theorem between_of_clean (hstate : Awaits state) (hb : Begins b) (h : Clean state (b :: rest)) :
    state = none := by
  cases state with
  | none => rfl
  | some p =>
    obtain ⟨hl, hu⟩ := hstate p rfl
    have hout : ¬ (p.lower ≤ b.toNat ∧ b.toNat ≤ p.upper) := by
      rintro ⟨hlow, hhigh⟩
      rcases hb with hb | hb <;> omega
    refine absurd ?_ (clean_cons.mp h).1
    rw [step]
    dsimp only
    rw [if_neg hout]
    exact List.mem_cons_self

/-- The first byte of a character. -/
theorem encodeChar_begins (c : Char) : ∃ b rest, encodeChar c = b :: rest ∧ Begins b := by
  have hv := toNat_valid c
  unfold encodeChar
  generalize c.toNat = n at hv
  by_cases h1 : n < 0x80
  · exact ⟨_, _, if_pos h1, .inl (by rw [toNat_ofNat_byte (by omega)]; exact h1)⟩
  by_cases h2 : n < 0x800
  · refine ⟨_, _, by rw [if_neg h1, if_pos h2], .inr ?_⟩
    rw [toNat_ofNat_byte (by omega)]
    omega
  by_cases h3 : n < 0x10000
  · refine ⟨_, _, by rw [if_neg h1, if_neg h2, if_pos h3], .inr ?_⟩
    rw [toNat_ofNat_byte (by omega)]
    omega
  · refine ⟨_, _, by rw [if_neg h1, if_neg h2, if_neg h3], .inr ?_⟩
    rw [toNat_ofNat_byte (by omega)]
    omega

/-- A character behind a clean run begins between two characters. -/
theorem between_of_clean_encodeChar {c : Char} (hstate : Awaits state)
    (h : Clean state (encodeChar c ++ rest)) : state = none := by
  obtain ⟨b, more, hc, hb⟩ := encodeChar_begins c
  rw [hc, List.cons_append] at h
  exact between_of_clean hstate hb h

end MeshNode.Utf8
