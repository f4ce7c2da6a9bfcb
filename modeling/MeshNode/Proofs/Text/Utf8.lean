/-
# UTF-8: reading undoes writing

The machine that reads UTF-8 takes the bytes of one character and is between two characters
again, with that character found and nothing else.  So a text is read back from its bytes,
whatever stands in it.  And where the machine finds nothing but characters, the bytes are those of
a text.

* `run_encodeChar`: the machine over the bytes of one character;
* `scan_encodeChars`, `decodeChars?_encodeChars`, `decode?_encode`: over those of a text;
* `char_of_run`, `encode_of_decode?`: the machine accepts nothing else.
-/
import MeshNode.Text.Utf8

namespace MeshNode.Utf8

/-! ## 1. One character -/

/-- The number of a character is no surrogate and below the end of the code space. -/
theorem toNat_valid (c : Char) :
    c.toNat < 0xD800 ∨ 0xDFFF < c.toNat ∧ c.toNat < 0x110000 := c.valid

theorem toNat_ofNat_byte {n : Nat} (h : n < 256) : (UInt8.ofNat n).toNat = n := by
  simp [Nat.mod_eq_of_lt h]

/-- A character of ASCII is one byte. -/
theorem encodeChar_of_ascii {c : Char} (h : c.toNat < 0x80) :
    encodeChar c = [.ofNat c.toNat] := if_pos h

/-- No byte of a character outside ASCII is one of ASCII. -/
theorem high_of_mem_encodeChar {c : Char} (h : 0x80 ≤ c.toNat) :
    ∀ b ∈ encodeChar c, 0x80 ≤ b.toNat := by
  have hv := toNat_valid c
  unfold encodeChar
  generalize c.toNat = n at h hv
  have high : ∀ m : Nat, 0x80 ≤ m → m < 0x100 → 0x80 ≤ (UInt8.ofNat m).toNat := fun m h1 h2 => by
    rw [toNat_ofNat_byte h2]
    exact h1
  intro b hb
  simp only [if_neg (show ¬ n < 0x80 by omega)] at hb
  split at hb
  · simp only [List.mem_cons, List.not_mem_nil, or_false] at hb
    rcases hb with rfl | rfl <;> exact high _ (by omega) (by omega)
  split at hb
  · simp only [List.mem_cons, List.not_mem_nil, or_false] at hb
    rcases hb with rfl | rfl | rfl <;> exact high _ (by omega) (by omega)
  · simp only [List.mem_cons, List.not_mem_nil, or_false] at hb
    rcases hb with rfl | rfl | rfl | rfl <;> exact high _ (by omega) (by omega)

/-- The first of several bytes leaves a character pending. -/
theorem run_first {n : Nat} {p : Pending} (h : n < 256) (hs : start n = ([], some p))
    (found : List (Option Char)) (rest : Bytes) :
    run found none (.ofNat n :: rest) = run found (some p) rest := by
  simp only [run, step, toNat_ofNat_byte h, hs]
  rfl

/-- A byte of the pending character that is not its last one. -/
theorem run_more {lower upper k : Nat} (hk : k < 0x40) (hl : lower ≤ 0x80 + k)
    (hu : 0x80 + k ≤ upper) (found : List (Option Char)) (point needed : Nat) (rest : Bytes) :
    run found (some ⟨point, needed + 2, lower, upper⟩) (.ofNat (0x80 + k) :: rest)
      = run found (some ⟨point * 0x40 + k, needed + 1, 0x80, 0xBF⟩) rest := by
  simp only [run, step, toNat_ofNat_byte (show 0x80 + k < 256 by omega), hl, hu, and_self,
    if_true, Nat.add_sub_cancel_left]
  rfl

/-- The last byte of the pending character completes it. -/
theorem run_last {lower upper k : Nat} (hk : k < 0x40) (hl : lower ≤ 0x80 + k)
    (hu : 0x80 + k ≤ upper) (found : List (Option Char)) (point : Nat) (rest : Bytes) :
    run found (some ⟨point, 1, lower, upper⟩) (.ofNat (0x80 + k) :: rest)
      = run (some (Char.ofNat (point * 0x40 + k)) :: found) none rest := by
  simp only [run, step, toNat_ofNat_byte (show 0x80 + k < 256 by omega), hl, hu, and_self,
    if_true, Nat.add_sub_cancel_left]
  rfl

/-- What the first of three bytes leaves pending: the second byte is narrowed below the first
character of three bytes, and above the last one before the surrogates. -/
theorem start_three {n : Nat} (h1 : 0x800 ≤ n) (h2 : n < 0x10000)
    (hv : n < 0xD800 ∨ 0xDFFF < n) :
    ∃ lower upper, start (0xE0 + n / 0x1000) = ([], some ⟨n / 0x1000, 2, lower, upper⟩) ∧
      lower ≤ 0x80 + n / 0x40 % 0x40 ∧ 0x80 + n / 0x40 % 0x40 ≤ upper := by
  rw [start, if_neg (by omega), if_neg (by omega), if_neg (by omega), Nat.add_sub_cancel_left]
  by_cases h3 : 0xE0 + n / 0x1000 = 0xE0
  · exact ⟨0xA0, 0xBF, by rw [if_pos h3], by omega, by omega⟩
  by_cases h4 : 0xE0 + n / 0x1000 = 0xED
  · exact ⟨0x80, 0x9F, by rw [if_neg h3, if_pos h4], by omega, by omega⟩
  · exact ⟨0x80, 0xBF, by rw [if_neg h3, if_neg h4, if_pos (by omega)], by omega, by omega⟩

/-- What the first of four bytes leaves pending: the second byte is narrowed below the first
character of four bytes, and above the end of the code space. -/
theorem start_four {n : Nat} (h1 : 0x10000 ≤ n) (h2 : n < 0x110000) :
    ∃ lower upper, start (0xF0 + n / 0x40000) = ([], some ⟨n / 0x40000, 3, lower, upper⟩) ∧
      lower ≤ 0x80 + n / 0x1000 % 0x40 ∧ 0x80 + n / 0x1000 % 0x40 ≤ upper := by
  rw [start, if_neg (by omega), if_neg (by omega), if_neg (by omega), if_neg (by omega),
    if_neg (by omega), if_neg (by omega), Nat.add_sub_cancel_left]
  by_cases h3 : 0xF0 + n / 0x40000 = 0xF0
  · exact ⟨0x90, 0xBF, by rw [if_pos h3], by omega, by omega⟩
  by_cases h4 : 0xF0 + n / 0x40000 < 0xF4
  · exact ⟨0x80, 0xBF, by rw [if_neg h3, if_pos h4], by omega, by omega⟩
  · exact ⟨0x80, 0x8F, by rw [if_neg h3, if_neg h4, if_pos (by omega)], by omega, by omega⟩

/-- **The bytes of a character spell it.**  The machine starts and ends between characters. -/
theorem run_encodeChar (found : List (Option Char)) (c : Char) (rest : Bytes) :
    run found none (encodeChar c ++ rest) = run (some c :: found) none rest := by
  have hv := toNat_valid c
  have hc : Char.ofNat c.toNat = c := Char.ofNat_toNat c
  unfold encodeChar
  generalize c.toNat = n at hv hc
  by_cases h1 : n < 0x80
  · have hb := toNat_ofNat_byte (n := n) (by omega)
    have hs : step none (.ofNat n) = ([some c], none) := by rw [step, hb, start, if_pos h1, hc]
    simp only [if_pos h1, List.cons_append, List.nil_append, run, hs]
    rfl
  by_cases h2 : n < 0x800
  · have hs : start (0xC0 + n / 0x40) = ([], some ⟨n / 0x40, 1, 0x80, 0xBF⟩) := by
      rw [start, if_neg (by omega), if_neg (by omega), if_pos (by omega), Nat.add_sub_cancel_left]
    have hp : n / 0x40 * 0x40 + n % 0x40 = n := by omega
    simp only [if_neg h1, if_pos h2, List.cons_append, List.nil_append]
    rw [run_first (by omega) hs, run_last (by omega) (by omega) (by omega), hp, hc]
  by_cases h3 : n < 0x10000
  · obtain ⟨lower, upper, hs, hl, hu⟩ := start_three (n := n) (by omega) h3 (by omega)
    have hp : (n / 0x1000 * 0x40 + n / 0x40 % 0x40) * 0x40 + n % 0x40 = n := by omega
    simp only [if_neg h1, if_neg h2, if_pos h3, List.cons_append, List.nil_append]
    rw [run_first (by omega) hs, run_more (by omega) hl hu,
      run_last (by omega) (by omega) (by omega), hp, hc]
  · obtain ⟨lower, upper, hs, hl, hu⟩ := start_four (n := n) (by omega) (by omega)
    have hp : ((n / 0x40000 * 0x40 + n / 0x1000 % 0x40) * 0x40 + n / 0x40 % 0x40) * 0x40
        + n % 0x40 = n := by omega
    simp only [if_neg h1, if_neg h2, if_neg h3, List.cons_append, List.nil_append]
    rw [run_first (by omega) hs, run_more (by omega) hl hu,
      run_more (by omega) (by omega) (by omega), run_last (by omega) (by omega) (by omega), hp, hc]

/-! ## 2. Texts -/

theorem run_encodeChars : ∀ (cs : List Char) (found : List (Option Char)) (rest : Bytes),
    run found none (encodeChars cs ++ rest) = run ((cs.map some).reverse ++ found) none rest
  | [], found, rest => by simp [encodeChars]
  | c :: cs, found, rest => by
    have ih := run_encodeChars cs (some c :: found) rest
    simp only [encodeChars, List.flatMap_cons, List.append_assoc] at ih ⊢
    rw [run_encodeChar, ih]
    simp

theorem scan_encodeChars (cs : List Char) : scan (encodeChars cs) = cs.map some := by
  have h := run_encodeChars cs [] []
  rw [List.append_nil] at h
  simp [scan, h, run, finish]

/-- **Strict reading undoes writing.** -/
@[simp] theorem decodeChars?_encodeChars (cs : List Char) :
    decodeChars? (encodeChars cs) = some cs := by
  simp [decodeChars?, scan_encodeChars]

@[simp] theorem decode?_encode (s : String) : decode? (encode s) = some s := by
  simp [decode?, encode]

/-! ## 3. Nothing else is read -/

theorem toNat_ofNat_char {n : Nat} (h : n.isValidChar) : (Char.ofNat n).toNat = n := by
  rw [Char.ofNat, dif_pos h]
  rfl

theorem encodeChar_ne_nil (c : Char) : encodeChar c ≠ [] := by
  rw [encodeChar]
  split
  · simp
  · split
    · simp
    · split <;> simp

/-- What was found is not lost. -/
theorem mem_run {x : Option Char} : ∀ {bytes : Bytes} {found : List (Option Char)} {state : State},
    x ∈ found → x ∈ run found state bytes
  | [], found, state, h => List.mem_append_right _ h
  | b :: rest, found, state, h => by
    rw [run]
    exact mem_run (List.mem_append_right _ h)

/-- A character that is pending goes on with a byte in its range, unless something is found to be
no character. -/
theorem byte_of_pending {found : List (Option Char)} {p : Pending} {bytes : Bytes}
    (hl : 0x80 ≤ p.lower) (hu : p.upper ≤ 0xBF) (h : none ∉ run found (some p) bytes) :
    ∃ k rest, k < 0x40 ∧ p.lower ≤ 0x80 + k ∧ 0x80 + k ≤ p.upper ∧
      bytes = .ofNat (0x80 + k) :: rest := by
  cases bytes with
  | nil => exact absurd List.mem_cons_self h
  | cons b rest =>
    by_cases hb : p.lower ≤ b.toNat ∧ b.toNat ≤ p.upper
    · refine ⟨b.toNat - 0x80, rest, by omega, by omega, by omega, ?_⟩
      rw [Nat.add_sub_cancel' (by omega), UInt8.ofNat_toNat]
    · refine absurd ?_ h
      rw [run, step]
      dsimp only
      rw [if_neg hb]
      exact mem_run (by simp)

/-! ### Characters by the bits of their bytes -/

theorem encodeChar_two {a b : Nat} (ha : 2 ≤ a ∧ a < 0x20) (hb : b < 0x40) :
    encodeChar (Char.ofNat (a * 0x40 + b)) = [.ofNat (0xC0 + a), .ofNat (0x80 + b)] := by
  have hvalid : (a * 0x40 + b).isValidChar := .inl (by omega)
  have hhigh : (a * 0x40 + b) / 0x40 = a := by omega
  have hlow : (a * 0x40 + b) % 0x40 = b := by omega
  rw [encodeChar, toNat_ofNat_char hvalid, if_neg (by omega), if_pos (by omega), hhigh, hlow]

theorem encodeChar_three {a b c : Nat} (ha : a < 0x10) (hb : b < 0x40) (hc : c < 0x40)
    (hlong : a = 0 → 0x20 ≤ b) (hsurrogate : a = 0xD → b < 0x20) :
    encodeChar (Char.ofNat ((a * 0x40 + b) * 0x40 + c))
      = [.ofNat (0xE0 + a), .ofNat (0x80 + b), .ofNat (0x80 + c)] := by
  have hvalid : ((a * 0x40 + b) * 0x40 + c).isValidChar := by
    simp only [Nat.isValidChar]
    omega
  have hhigh : ((a * 0x40 + b) * 0x40 + c) / 0x1000 = a := by omega
  have hmiddle : ((a * 0x40 + b) * 0x40 + c) / 0x40 % 0x40 = b := by omega
  have hlow : ((a * 0x40 + b) * 0x40 + c) % 0x40 = c := by omega
  rw [encodeChar, toNat_ofNat_char hvalid, if_neg (by omega), if_neg (by omega),
    if_pos (by omega), hhigh, hmiddle, hlow]

theorem encodeChar_four {a b c d : Nat} (ha : a ≤ 4) (hb : b < 0x40) (hc : c < 0x40)
    (hd : d < 0x40) (hlong : a = 0 → 0x10 ≤ b) (hend : a = 4 → b < 0x10) :
    encodeChar (Char.ofNat (((a * 0x40 + b) * 0x40 + c) * 0x40 + d))
      = [.ofNat (0xF0 + a), .ofNat (0x80 + b), .ofNat (0x80 + c), .ofNat (0x80 + d)] := by
  have hvalid : (((a * 0x40 + b) * 0x40 + c) * 0x40 + d).isValidChar := .inr (by omega)
  have hfirst : (((a * 0x40 + b) * 0x40 + c) * 0x40 + d) / 0x40000 = a := by omega
  have hsecond : (((a * 0x40 + b) * 0x40 + c) * 0x40 + d) / 0x1000 % 0x40 = b := by omega
  have hthird : (((a * 0x40 + b) * 0x40 + c) * 0x40 + d) / 0x40 % 0x40 = c := by omega
  have hfourth : (((a * 0x40 + b) * 0x40 + c) * 0x40 + d) % 0x40 = d := by omega
  rw [encodeChar, toNat_ofNat_char hvalid, if_neg (by omega), if_neg (by omega),
    if_neg (by omega), hfirst, hsecond, hthird, hfourth]

/-- What the first byte of a text comes to: a character, none, or one that is pending, whose second
byte is narrowed where the first one is the least or the greatest of its kind. -/
theorem start_cases (n : Nat) :
    n < 0x80 ∨ start n = ([none], none) ∨
    (∃ a, n = 0xC0 + a ∧ 2 ≤ a ∧ a < 0x20 ∧ start n = ([], some ⟨a, 1, 0x80, 0xBF⟩)) ∨
    (∃ a lower upper, n = 0xE0 + a ∧ a < 0x10 ∧ 0x80 ≤ lower ∧ upper ≤ 0xBF ∧
      (a = 0 → 0xA0 ≤ lower) ∧ (a = 0xD → upper < 0xA0) ∧
      start n = ([], some ⟨a, 2, lower, upper⟩)) ∨
    (∃ a lower upper, n = 0xF0 + a ∧ a ≤ 4 ∧ 0x80 ≤ lower ∧ upper ≤ 0xBF ∧
      (a = 0 → 0x90 ≤ lower) ∧ (a = 4 → upper < 0x90) ∧
      start n = ([], some ⟨a, 3, lower, upper⟩)) := by
  generalize hs : start n = r
  rw [start] at hs
  split at hs
  · next h => exact .inl h
  split at hs
  · exact .inr (.inl hs.symm)
  split at hs
  · exact .inr (.inr (.inl ⟨n - 0xC0, by omega, by omega, by omega, hs.symm⟩))
  -- three bytes, the first and the thirteenth of the leading bytes apart
  split at hs
  · exact .inr (.inr (.inr (.inl ⟨n - 0xE0, 0xA0, 0xBF, by omega, by omega, by omega, by omega,
      by omega, by omega, hs.symm⟩)))
  split at hs
  · exact .inr (.inr (.inr (.inl ⟨n - 0xE0, 0x80, 0x9F, by omega, by omega, by omega, by omega,
      by omega, by omega, hs.symm⟩)))
  split at hs
  · exact .inr (.inr (.inr (.inl ⟨n - 0xE0, 0x80, 0xBF, by omega, by omega, by omega, by omega,
      by omega, by omega, hs.symm⟩)))
  -- four bytes, the first and the last of the leading bytes apart
  split at hs
  · exact .inr (.inr (.inr (.inr ⟨n - 0xF0, 0x90, 0xBF, by omega, by omega, by omega, by omega,
      by omega, by omega, hs.symm⟩)))
  split at hs
  · exact .inr (.inr (.inr (.inr ⟨n - 0xF0, 0x80, 0xBF, by omega, by omega, by omega, by omega,
      by omega, by omega, hs.symm⟩)))
  split at hs
  · exact .inr (.inr (.inr (.inr ⟨n - 0xF0, 0x80, 0x8F, by omega, by omega, by omega, by omega,
      by omega, by omega, hs.symm⟩)))
  · exact .inr (.inl hs.symm)

/-- **A text in which everything is a character** starts with the bytes of one. -/
theorem char_of_run {found : List (Option Char)} {b : UInt8} {rest : Bytes}
    (h : none ∉ run found none (b :: rest)) : ∃ c rest', b :: rest = encodeChar c ++ rest' := by
  obtain ⟨n, hn, rfl⟩ : ∃ n < 256, b = .ofNat n := ⟨b.toNat, b.toNat_lt, UInt8.ofNat_toNat.symm⟩
  rcases start_cases n with hone | hnone | ⟨a, rfl, ha, ha', hs⟩ |
    ⟨a, lower, upper, rfl, ha, hl, hu, hlong, hsurrogate, hs⟩ |
    ⟨a, lower, upper, rfl, ha, hl, hu, hlong, hend, hs⟩
  · refine ⟨Char.ofNat n, rest, ?_⟩
    have htoNat : (Char.ofNat n).toNat = n := toNat_ofNat_char (.inl (by omega))
    rw [encodeChar_of_ascii (by rw [htoNat]; exact hone), htoNat, List.singleton_append]
  · refine absurd ?_ h
    simp only [run, step, toNat_ofNat_byte hn, hnone]
    exact mem_run (by simp)
  · rw [run_first hn hs] at h
    obtain ⟨k, rest', hk, hkl, hku, rfl⟩ := byte_of_pending (Nat.le_refl _) (Nat.le_refl _) h
    exact ⟨_, rest', by rw [encodeChar_two ⟨ha, ha'⟩ hk]; rfl⟩
  · rw [run_first hn hs] at h
    obtain ⟨k, rest₁, hk, hkl, hku, rfl⟩ := byte_of_pending hl hu h
    rw [run_more hk hkl hku] at h
    obtain ⟨j, rest', hj, -, -, rfl⟩ := byte_of_pending (Nat.le_refl _) (Nat.le_refl _) h
    dsimp only at hkl hku
    exact ⟨_, rest', by rw [encodeChar_three ha hk hj (by omega) (by omega)]; rfl⟩
  · rw [run_first hn hs] at h
    obtain ⟨k, rest₁, hk, hkl, hku, rfl⟩ := byte_of_pending hl hu h
    rw [run_more hk hkl hku] at h
    obtain ⟨j, rest₂, hj, hjl, hju, rfl⟩ := byte_of_pending (Nat.le_refl _) (Nat.le_refl _) h
    rw [run_more hj hjl hju] at h
    obtain ⟨i, rest', hi, -, -, rfl⟩ := byte_of_pending (Nat.le_refl _) (Nat.le_refl _) h
    dsimp only at hkl hku
    exact ⟨_, rest', by rw [encodeChar_four ha hk hj hi (by omega) (by omega)]; rfl⟩

/-- A text in which everything is a character is the text of its characters. -/
theorem encodeChars_of_run (bytes : Bytes) (found : List (Option Char))
    (h : none ∉ run found none bytes) : ∃ cs, bytes = encodeChars cs := by
  cases bytes with
  | nil => exact ⟨[], rfl⟩
  | cons b rest =>
    obtain ⟨c, rest', hc⟩ := char_of_run h
    rw [hc, run_encodeChar] at h
    have hshort : rest'.length < (b :: rest).length := by
      have hfilled := List.length_pos_iff.mpr (encodeChar_ne_nil c)
      rw [hc, List.length_append]
      omega
    obtain ⟨cs, hcs⟩ := encodeChars_of_run rest' (some c :: found) h
    exact ⟨c :: cs, by rw [hc, hcs]; rfl⟩
termination_by bytes.length

/-- **Strict reading takes nothing but what was written.** -/
theorem encode_of_decode? {bytes : Bytes} {s : String} (h : decode? bytes = some s) :
    bytes = encode s := by
  rw [decode?, Option.map_eq_some_iff] at h
  obtain ⟨cs, hcs, rfl⟩ := h
  have hall : none ∉ run [] none bytes := by
    intro hnone
    rw [decodeChars?, if_neg] at hcs
    · cases hcs
    · rw [List.all_eq_true]
      exact fun hsome => nomatch hsome none (List.mem_reverse.mpr hnone)
  obtain ⟨cs', rfl⟩ := encodeChars_of_run bytes [] hall
  rw [decodeChars?_encodeChars] at hcs
  rw [Option.some.inj hcs, encode, String.toList_ofList]

end MeshNode.Utf8
