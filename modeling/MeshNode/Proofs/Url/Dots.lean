/-
# Dots and their escapes

A segment that is a dot or two dots means something else than itself, and so does one that
spells a dot as an escape.  Encoding makes no such segment out of another.

* `Dots`: the texts that spell a number of dots, `isDot_iff` and `isDoubleDot_iff`;
* `Dots.of_encode`: what is encoded into dots was dots before;
* `Dots.decode`: what dots are read back as.
-/
import MeshNode.Proofs.Url.Percent
import MeshNode.Url.Parse

namespace MeshNode.Url

open Percent

/-- The texts of a number of dots, each of them plain or escaped. -/
inductive Dots : Nat → List Char → Prop
  | none : Dots 0 []
  | plain {n : Nat} {cs : List Char} (rest : Dots n cs) : Dots (n + 1) ('.' :: cs)
  | escaped {n : Nat} {cs : List Char} {e : Char} (he : e = 'e' ∨ e = 'E') (rest : Dots n cs) :
    Dots (n + 1) ('%' :: '2' :: e :: cs)

/-! ## 1. The two segments with a meaning -/

/-- What has a lower case is that, or an upper-case letter. -/
theorem toLower_eq {c d : Char} (h : c.toLower = d) :
    c = d ∨ (0x41 ≤ c.toNat ∧ c.toNat ≤ 0x5A ∧ d.toNat = c.toNat + 0x20) := by
  unfold Char.toLower at h
  split at h
  · rename_i hupper
    have hlow : 0x41 ≤ c.toNat := UInt32.le_iff_toNat_le.mp hupper.1
    have hhigh : c.toNat ≤ 0x5A := UInt32.le_iff_toNat_le.mp hupper.2
    refine .inr ⟨hlow, hhigh, ?_⟩
    rw [← h]
    show (c.val + 0x20).toNat = c.val.toNat + 0x20
    rw [UInt32.toNat_add]
    exact Nat.mod_eq_of_lt (show c.toNat + 0x20 < 2 ^ 32 by omega)
  · exact .inl h

/-- A sign that is no letter is the only one with its lower case. -/
theorem eq_of_toLower {c d : Char} (hd : d.toNat < 0x61) (h : c.toLower = d) : c = d := by
  rcases toLower_eq h with heq | ⟨hlow, -, hsum⟩
  · exact heq
  · omega

theorem eq_of_toLower_e {c : Char} (h : c.toLower = 'e') : c = 'e' ∨ c = 'E' := by
  rcases toLower_eq h with heq | ⟨-, -, hsum⟩
  · exact .inl heq
  · have hpoint : c.toNat = 0x45 := by
      have he : 'e'.toNat = 0x65 := rfl
      omega
    exact .inr (by rw [← Char.ofNat_toNat c, hpoint])

/-- Texts whose lower case begins with a dot, or with an escaped one. -/
theorem plain_of_lower {cs ds : List Char} (h : cs.map Char.toLower = '.' :: ds) :
    ∃ rest, cs = '.' :: rest ∧ rest.map Char.toLower = ds := by
  obtain ⟨c, rest, rfl, hc, hrest⟩ := List.map_eq_cons_iff.mp h
  exact ⟨rest, by rw [eq_of_toLower (by decide) hc], hrest⟩

theorem escaped_of_lower {cs ds : List Char}
    (h : cs.map Char.toLower = '%' :: '2' :: 'e' :: ds) :
    ∃ e rest, (e = 'e' ∨ e = 'E') ∧ cs = '%' :: '2' :: e :: rest ∧
      rest.map Char.toLower = ds := by
  obtain ⟨c, cs, rfl, hc, h⟩ := List.map_eq_cons_iff.mp h
  obtain ⟨d, cs, rfl, hd, h⟩ := List.map_eq_cons_iff.mp h
  obtain ⟨e, cs, rfl, he, h⟩ := List.map_eq_cons_iff.mp h
  refine ⟨e, cs, eq_of_toLower_e he, ?_, h⟩
  rw [eq_of_toLower (by decide) hc, eq_of_toLower (by decide) hd]

/-- Dots are dots in upper and in lower case. -/
theorem dots_nil {cs : List Char} (h : cs.map Char.toLower = []) : Dots 0 cs := by
  rw [List.map_eq_nil_iff.mp h]
  exact .none

theorem isDot_iff {s : List Char} : isDot s = true ↔ Dots 1 s := by
  simp only [isDot, List.mem_cons, List.not_mem_nil, or_false, decide_eq_true_eq]
  constructor
  · rintro (h | h)
    · obtain ⟨rest, rfl, hrest⟩ := plain_of_lower h
      exact .plain (dots_nil hrest)
    · obtain ⟨e, rest, he, rfl, hrest⟩ := escaped_of_lower h
      exact .escaped he (dots_nil hrest)
  · intro h
    cases h with
    | plain rest =>
      cases rest
      exact .inl rfl
    | escaped he rest =>
      cases rest
      rcases he with rfl | rfl <;> exact .inr rfl

theorem isDoubleDot_iff {s : List Char} : isDoubleDot s = true ↔ Dots 2 s := by
  simp only [isDoubleDot, List.mem_cons, List.not_mem_nil, or_false, decide_eq_true_eq]
  constructor
  · rintro (h | h | h | h)
    · obtain ⟨rest, rfl, h1⟩ := plain_of_lower h
      obtain ⟨tail, rfl, h2⟩ := plain_of_lower h1
      exact .plain (.plain (dots_nil h2))
    · obtain ⟨rest, rfl, h1⟩ := plain_of_lower h
      obtain ⟨e, tail, he, rfl, h2⟩ := escaped_of_lower h1
      exact .plain (.escaped he (dots_nil h2))
    · obtain ⟨e, rest, he, rfl, h1⟩ := escaped_of_lower h
      obtain ⟨tail, rfl, h2⟩ := plain_of_lower h1
      exact .escaped he (.plain (dots_nil h2))
    · obtain ⟨e, rest, he, rfl, h1⟩ := escaped_of_lower h
      obtain ⟨e', tail, he', rfl, h2⟩ := escaped_of_lower h1
      exact .escaped he (.escaped he' (dots_nil h2))
  · intro h
    cases h with
    | plain rest =>
      cases rest with
      | plain rest =>
        cases rest
        exact .inl rfl
      | escaped he rest =>
        cases rest
        rcases he with rfl | rfl <;> exact .inr (.inl rfl)
    | escaped he rest =>
      cases rest with
      | plain rest =>
        cases rest
        rcases he with rfl | rfl <;> exact .inr (.inr (.inl rfl))
      | escaped he' rest =>
        cases rest
        rcases he with rfl | rfl <;> rcases he' with rfl | rfl <;> exact .inr (.inr (.inr rfl))

/-! ## 2. Encoding and dots -/

variable {reserved : Char → Bool}

/-- The first character of an encoded text is that of the text, or the percent sign of an
escape for the first byte of it. -/
theorem encode_eq_cons {s cs : List Char} {c : Char} (h : encode reserved s = c :: cs) :
    (∃ rest, s = c :: rest ∧ encode reserved rest = cs) ∨
      (c = '%' ∧ ∃ d b rest, b ∈ Utf8.encodeChar d ∧ (0x80 ≤ d.toNat ∨ reserved d = true) ∧
        cs = hexDigit (b.toNat / 16) :: hexDigit (b.toNat % 16) :: rest) := by
  cases s with
  | nil => cases h
  | cons d s =>
    rw [encode, List.flatMap_cons, ← encode] at h
    rcases encodeChar_cases reserved d with ⟨-, -, hself⟩ | ⟨hd, hescapes⟩
    · rw [hself] at h
      obtain ⟨rfl, hrest⟩ := List.cons.inj h
      exact .inl ⟨s, rfl, hrest⟩
    · rw [hescapes] at h
      cases hbytes : Utf8.encodeChar d with
      | nil => exact absurd hbytes (Utf8.encodeChar_ne_nil d)
      | cons b bytes =>
        rw [hbytes, List.flatMap_cons, escape] at h
        obtain ⟨hc, hrest⟩ := List.cons.inj h
        exact .inr ⟨hc.symm, d, b, _, by rw [hbytes]; exact List.mem_cons_self, hd, hrest.symm⟩

/-- No escape that is written is one of a dot. -/
theorem no_escaped_dot (hdot : reserved '.' = false) {d : Char} {b : UInt8}
    (hb : b ∈ Utf8.encodeChar d) (hd : 0x80 ≤ d.toNat ∨ reserved d = true) : b.toNat ≠ 0x2E := by
  intro heq
  by_cases hascii : d.toNat < 0x80
  · rw [Utf8.encodeChar_of_ascii hascii, List.mem_singleton] at hb
    have hpoint : d.toNat = 0x2E := by
      rw [← heq, hb, Utf8.toNat_ofNat_byte (by omega)]
    rcases hd with hd | hd
    · omega
    · rw [show d = '.' by rw [← Char.ofNat_toNat d, hpoint], hdot] at hd
      cases hd
  · have hhigh := Utf8.high_of_mem_encodeChar (Nat.le_of_not_lt hascii) b hb
    omega

/-- The digits of an escaped dot. -/
theorem byte_of_digits {n : Nat} {e : Char} (hn : n < 256) (he : e = 'e' ∨ e = 'E')
    (hhigh : '2' = hexDigit (n / 16)) (hlow : e = hexDigit (n % 16)) : n = 0x2E := by
  have h1 := hexValue?_hexDigit (show n / 16 < 16 by omega)
  have h2 := hexValue?_hexDigit (show n % 16 < 16 by omega)
  rw [← hhigh] at h1
  rw [← hlow] at h2
  have h1' : 2 = n / 16 := Option.some.inj h1
  have h2' : 14 = n % 16 := by
    rcases he with rfl | rfl
    · exact Option.some.inj h2
    · exact Option.some.inj h2
  omega

/-- **What is encoded into dots was dots before.** -/
theorem Dots.of_encode (hdot : reserved '.' = false) {n : Nat} {cs : List Char}
    (h : Dots n cs) : ∀ {s : List Char}, encode reserved s = cs → Dots n s := by
  induction h with
  | none =>
    intro s hs
    cases s with
    | nil => exact .none
    | cons d s =>
      rw [encode, List.flatMap_cons, List.append_eq_nil_iff] at hs
      rcases encodeChar_cases reserved d with ⟨-, -, hself⟩ | ⟨-, hescapes⟩
      · rw [hself] at hs
        cases hs.1
      · cases hbytes : Utf8.encodeChar d with
        | nil => exact absurd hbytes (Utf8.encodeChar_ne_nil d)
        | cons b bytes =>
          rw [hescapes, hbytes] at hs
          cases hs.1
  | plain rest ih =>
    intro s hs
    rcases encode_eq_cons hs with ⟨s', rfl, hs'⟩ | ⟨hmark, -⟩
    · exact .plain (ih hs')
    · cases hmark
  | escaped he rest ih =>
    intro s hs
    rcases encode_eq_cons hs with ⟨s', rfl, hs'⟩ | ⟨-, d, b, more, hb, hd, hdigits⟩
    · rcases encode_eq_cons hs' with ⟨s'', rfl, hs''⟩ | ⟨hmark, -⟩
      · rcases encode_eq_cons hs'' with ⟨tail, rfl, htail⟩ | ⟨hmark, -⟩
        · exact .escaped he (ih htail)
        · rcases he with rfl | rfl <;> cases hmark
      · cases hmark
    · obtain ⟨hhigh, hrest⟩ := List.cons.inj hdigits
      exact absurd (byte_of_digits b.toNat_lt he hhigh (List.cons.inj hrest).1)
        (no_escaped_dot hdot hb hd)

/-- Dots are read back as dots. -/
theorem Dots.decode {n : Nat} {cs : List Char} (h : Dots n cs) :
    Percent.decode (Utf8.encodeChars cs) = List.replicate n 0x2E := by
  induction h with
  | none => rfl
  | plain rest ih =>
    rw [List.replicate_succ, ← ih]
    exact decode_cons (by decide) _
  | escaped he rest ih =>
    rw [List.replicate_succ, ← ih]
    rcases he with rfl | rfl <;> rfl

/-- **Where the percent sign is reserved**, only plain dots are encoded into dots. -/
theorem Dots.of_encode_marked (hmark : reserved '%' = true) {n : Nat} {s : List Char}
    (h : Dots n (encode reserved s)) : s = List.replicate n '.' := by
  have hbytes : Utf8.encodeChars s = Utf8.encodeChars (List.replicate n '.') := by
    rw [← decode_encode hmark s, h.decode, Utf8.encodeChars, List.flatMap_replicate]
    exact (List.flatten_replicate_singleton).symm
  exact Option.some.inj (by
    rw [← Utf8.decodeChars?_encodeChars s, hbytes, Utf8.decodeChars?_encodeChars])

end MeshNode.Url
