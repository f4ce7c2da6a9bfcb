/-
# All percent-encodings of a text

A text has more encodings than the one that a writer picks.  A byte that is allowed in its place
may stand for itself; any byte may be escaped, with hexadecimal digits in either case.

* `Escaping` relates a text to the bytes that it spells;
* `unreserved` are the bytes that are allowed everywhere;
* `decodeText?_escaping`: every encoding of a text is read as that text;
* `single_of_escaping`: where the slash is not allowed, an encoding is one segment.
-/
import MeshNode.Proofs.Url.Percent

namespace MeshNode.Url.Percent

/-- `Escaping plain t u`: the text `t` spells the bytes `u`, each by itself, where `plain` allows
it, or behind a percent sign with two hexadecimal digits. -/
inductive Escaping (plain : UInt8 → Bool) : Bytes → Bytes → Prop
  | nil : Escaping plain [] []
  | self {b : UInt8} {t u : Bytes} (hb : plain b = true) (rest : Escaping plain t u) :
    Escaping plain (b :: t) (b :: u)
  | escape {h l b : UInt8} {t u : Bytes} (hb : escaped? h l = some b) (rest : Escaping plain t u) :
    Escaping plain (0x25 :: h :: l :: t) (b :: u)

/-- Letters, digits, and the four marks that mean nothing in a URL. -/
def unreserved (b : UInt8) : Bool :=
  (Char.ofNat b.toNat).isAlphanum || "-._~".toList.contains (Char.ofNat b.toNat)

/-- What may stand in a path: the same, and the separator. -/
def unreservedOrSlash (b : UInt8) : Bool := unreserved b || b == 0x2F

variable {plain : UInt8 → Bool} {t u : Bytes}

/-- **Every encoding is read as what it spells**, where the percent sign is not allowed. -/
theorem decode_escaping (hmark : plain 0x25 = false) (h : Escaping plain t u) : decode t = u := by
  induction h with
  | nil => rfl
  | @self b t u hb rest ih =>
    have hne : b ≠ 0x25 := by
      rintro rfl
      rw [hmark] at hb
      cases hb
    rw [decode_cons hne, ih]
  | @escape h l b t u hb rest ih =>
    rw [decode, if_pos rfl, hb]
    exact congrArg (b :: ·) ih

theorem decodeText?_escaping (hmark : plain 0x25 = false) {text name : String}
    (h : Escaping plain (Utf8.encode text) (Utf8.encode name)) : decodeText? text = some name := by
  rw [decodeText?, decode_escaping hmark h]
  exact Utf8.decode?_encode name

/-- The slash is no hexadecimal digit. -/
theorem escaped?_ne_slash {h l b : UInt8} (hb : escaped? h l = some b) : h ≠ 0x2F ∧ l ≠ 0x2F := by
  have hslash : hexValue? 0x2F = none := by decide
  constructor
  · rintro rfl
    rw [escaped?, hslash] at hb
    cases hb
  · rintro rfl
    rw [escaped?, hslash] at hb
    cases hv : hexValue? h with
    | none => rw [hv] at hb; cases hb
    | some v => rw [hv] at hb; cases hb

/-- **A slash that is not allowed does not stand in an encoding.** -/
theorem slash_not_mem_escaping (hslash : plain 0x2F = false) (h : Escaping plain t u) :
    (0x2F : UInt8) ∉ t := by
  induction h with
  | nil => exact List.not_mem_nil
  | @self b t u hb rest ih =>
    have hne : (0x2F : UInt8) ≠ b := by
      rintro rfl
      rw [hslash] at hb
      cases hb
    rw [List.mem_cons, not_or]
    exact ⟨hne, ih⟩
  | @escape h l b t u hb rest ih =>
    obtain ⟨hh, hl⟩ := escaped?_ne_slash hb
    simp only [List.mem_cons, not_or]
    exact ⟨by decide, hh.symm, hl.symm, ih⟩

/-- So the text has one segment. -/
theorem single_of_escaping (hslash : plain 0x2F = false) {text name : String}
    (h : Escaping plain (Utf8.encode text) (Utf8.encode name)) : '/' ∉ text.toList := by
  intro hmem
  have hbyte : (0x2F : UInt8) ∈ Utf8.encode text :=
    List.mem_flatMap.mpr ⟨'/', hmem, by decide⟩
  exact slash_not_mem_escaping hslash h hbyte

/-- Only the empty text is spelled by the empty text. -/
theorem filled_of_escaping {text name : String} (hname : name ≠ "")
    (h : Escaping plain (Utf8.encode text) (Utf8.encode name)) : text.toList ≠ [] := by
  intro hnil
  have hempty : Utf8.encode text = [] := by rw [Utf8.encode, hnil]; rfl
  rw [hempty] at h
  generalize hbytes : Utf8.encode name = bytes at h
  cases h
  have hread := Utf8.decode?_encode name
  rw [hbytes] at hread
  exact hname (Option.some.inj hread).symm

end MeshNode.Url.Percent
