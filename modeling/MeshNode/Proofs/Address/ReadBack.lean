/-
# Addresses of either version: reading what is written

The text of every address gives the address back.  The two versions are told apart by the colon,
which stands in every text of version 6 and in none of version 4.  An address of version 6 that maps
one of version 4 shows it behind its last colon.

* `IPv4.parse?_text` and `IPv6.parse?_text`: each version;
* `IPv4.parse?_of_colon`: a text with a colon is none of version 4;
* `IPAddress.parse?_text`: either version;
* `IPAddress.of_mem_text`: what stands in a text.
-/
import MeshNode.Proofs.Address.IP

namespace MeshNode

open Text

/-! ## 1. Version 4 -/

namespace IPv4

theorem dot_not_mem_toDigits (n : Nat) : '.' ∉ Nat.toDigits 10 n := fun hmem =>
  of_mem_toDigits (by decide) (by decide) (P := (· ≠ '.')) (by decide) '.' hmem rfl

theorem splitOn_text (x : IPv4) :
    splitOn '.' x.text = [x.a, x.b, x.c, x.d].map fun o => Nat.toDigits 10 o.toNat := by
  refine splitOn_joinWith (List.cons_ne_nil _ _) fun p hp => ?_
  obtain ⟨o, -, rfl⟩ := List.mem_map.mp hp
  exact dot_not_mem_toDigits o.toNat

theorem octet?_toDigits (o : UInt8) : octet? (Nat.toDigits 10 o.toNat) = some o := by
  have hall : ∀ n < 256, octet? (Nat.toDigits 10 n) = some (UInt8.ofNat n) := by decide +kernel
  rw [hall o.toNat o.toNat_lt, UInt8.ofNat_toNat]

/-- **An address of version 4 is read back.** -/
theorem parse?_text (x : IPv4) : parse? x.text = some x := by
  rw [parse?, splitOn_text]
  simp only [List.map_cons, List.map_nil, octet?_toDigits]
  rfl

/-- What holds of the digits and the dot holds of an address. -/
theorem of_mem_text {P : Char → Prop} (hdigit : ∀ d < 16, P d.digitChar) (hdot : P '.')
    (x : IPv4) : ∀ c ∈ x.text, P c := by
  intro c hc
  rcases mem_joinWith hc with hc | ⟨p, hp, hc⟩
  · exact List.mem_singleton.mp hc ▸ hdot
  · obtain ⟨o, -, rfl⟩ := List.mem_map.mp hp
    exact of_mem_toDigits (by decide) (by decide) hdigit c hc

/-- A text with a character that is no digit spells no number. -/
theorem numberIn?_of_mem {base : Nat} {c : Char} (hc : digitValue? base c = none) :
    ∀ {cs : List Char}, c ∈ cs → numberIn? base cs = none := by
  have hfold : ∀ (cs : List Char) (n : Nat), c ∈ cs →
      cs.foldlM (fun n c => (digitValue? base c).map (n * base + ·)) n = none := by
    intro cs
    induction cs with
    | nil => exact fun n h => nomatch h
    | cons d ds ih =>
      intro n h
      rw [List.foldlM_cons]
      rcases List.mem_cons.mp h with rfl | h
      · rw [hc]
        rfl
      · cases digitValue? base d with
        | none => rfl
        | some k => exact ih _ h
  intro cs h
  cases cs with
  | nil => cases h
  | cons d ds => exact hfold (d :: ds) 0 h

theorem octet?_of_colon {cs : List Char} (h : ':' ∈ cs) : octet? cs = none := by
  rw [octet?]
  split
  · rfl
  · rw [numberIn?_of_mem (by decide) h]
    rfl

/-- **No text with a colon** is an address of version 4. -/
theorem parse?_of_colon {cs : List Char} (h : ':' ∈ cs) : parse? cs = none := by
  obtain ⟨p, hp, hcolon⟩ : ∃ p ∈ splitOn '.' cs, ':' ∈ p := by
    rw [← joinWith_splitOn '.' cs] at h
    rcases mem_joinWith h with h | h
    · exact absurd h (by decide)
    · exact h
  have hnone := octet?_of_colon hcolon
  rw [parse?]
  split
  · next a b c d hsplit =>
    rw [hsplit] at hp
    simp only [List.mem_cons, List.not_mem_nil, or_false] at hp
    rcases hp with rfl | rfl | rfl | rfl
    · simp [hnone]
    · simp [hnone]
    · simp [hnone]
    · simp [hnone]
  · rfl

end IPv4

/-! ## 2. Version 6 -/

namespace IPv6

theorem colon_mem_joined {gs : List UInt16} (h : 2 ≤ gs.length) : ':' ∈ joined gs := by
  match gs, h with
  | g :: k :: gs, _ => simp [joined_cons]

/-- There is a colon in every text of version 6. -/
theorem colon_mem_compressed (x : IPv6) : ':' ∈ x.compressed := by
  rw [compressed]
  dsimp only
  split
  · exact colon_mem_joined (by simp [groups])
  · simp

theorem colon_mem_text (x : IPv6) : ':' ∈ x.text := by
  rw [text]
  split
  · simp
  · exact colon_mem_compressed x

/-- Two octets are a group. -/
theorem group_of_octets {m k : Nat} {g : UInt16} (hm : m % 256 = g.toNat / 256)
    (hk : k % 256 = g.toNat % 256) :
    (UInt8.ofNat m).toUInt16 * 256 + (UInt8.ofNat k).toUInt16 = g := by
  have hg := g.toNat_lt
  apply UInt16.toNat_inj.mp
  simp [UInt16.toNat_add, UInt16.toNat_mul, hm, hk]
  omega

/-- A mapped address is its octets, two in a group, behind six groups that are the same in all. -/
theorem ofIPv4_mapped {x : IPv6} {v4 : IPv4} (h : x.mapped? = some v4) :
    [] ++ List.replicate 5 0 ++ (0xFFFF :: ofIPv4 v4) = x.groups := by
  obtain ⟨a, b, c, d, e, f, g, k⟩ := x
  rw [mapped?] at h
  split at h
  · next hgroups =>
    have hg := g.toNat_lt
    have hk := k.toNat_lt
    obtain rfl := Option.some.inj h
    simp only [groups, List.take_succ_cons, List.take_zero, List.cons.injEq, and_true] at hgroups
    obtain ⟨rfl, rfl, rfl, rfl, rfl, rfl⟩ := hgroups
    rw [ofIPv4, IPv4.ofNat]
    dsimp only
    rw [group_of_octets (g := g) (by omega) (by omega),
      group_of_octets (g := k) (by omega) (by omega)]
    rfl
  · cases h

/-- The last piece may be an address of version 4. -/
theorem groupsOf?_mapped (v4 : IPv4) :
    groupsOf? true (splitOn ':' ("ffff:".toList ++ v4.text)) = some (0xFFFF :: ofIPv4 v4) := by
  have hcolon : ':' ∉ v4.text := fun hmem =>
    IPv4.of_mem_text (P := (· ≠ ':')) (by decide) (by decide) v4 ':' hmem rfl
  have hdot : '.' ∈ v4.text := by simp [IPv4.text, joinWith]
  have hsplit : splitOn ':' ("ffff:".toList ++ v4.text) = ["ffff".toList, v4.text] := by
    have hfront : ':' ∉ "ffff".toList := by decide
    exact (splitOn_append hfront v4.text).trans (by rw [splitOn_of_not_mem hcolon])
  have hgroup : group? v4.text = none := by
    rw [group?, IPv4.numberIn?_of_mem (by decide) hdot]
    split <;> rfl
  rw [hsplit]
  simp only [groupsOf?, hgroup, IPv4.parse?_text]
  rfl

/-- **An address that maps one of version 4 is read back** with its octets. -/
theorem parse?_mapped {x : IPv6} {v4 : IPv4} (h : x.mapped? = some v4) :
    parse? ([':', ':', 'f', 'f', 'f', 'f', ':'] ++ v4.text) = some x := by
  have hsplit : splitAbbreviation? ([':', ':', 'f', 'f', 'f', 'f', ':'] ++ v4.text)
      = some ([], "ffff:".toList ++ v4.text) := rfl
  have hback : sideOf? true ("ffff:".toList ++ v4.text) = some (0xFFFF :: ofIPv4 v4) :=
    groupsOf?_mapped v4
  have hfront : sideOf? false [] = some [] := rfl
  rw [parse?, hsplit]
  simp only [hfront, hback, Option.bind_eq_bind, Option.bind_some]
  exact (congrArg ofGroups? (ofIPv4_mapped h)).trans (ofGroups?_groups x)

/-- **An address of version 6 is read back.** -/
theorem parse?_text (x : IPv6) : parse? x.text = some x := by
  rw [text]
  split
  · next h => exact parse?_mapped h
  · exact parse?_compressed x

/-- What holds of the digits, the dot and the colon holds of an address. -/
theorem of_mem_text {P : Char → Prop} (hdigit : ∀ d < 16, P d.digitChar) (hdot : P '.')
    (hcolon : P ':') (x : IPv6) : ∀ c ∈ x.text, P c := by
  intro c hc
  rw [text] at hc
  split at hc
  · rcases List.mem_append.mp hc with hc | hc
    · have hf : P 'f' := hdigit 15 (by decide)
      simp only [List.mem_cons, List.not_mem_nil, or_false] at hc
      rcases hc with rfl | rfl | rfl | rfl | rfl | rfl | rfl
      all_goals assumption
    · exact IPv4.of_mem_text hdigit hdot _ c hc
  · exact of_mem_compressed hdigit hcolon x c hc

end IPv6

/-! ## 3. Either version -/

namespace IPAddress

/-- **An address is read back** from its text. -/
theorem parse?_text (x : IPAddress) : parse? x.text.toList = some x := by
  cases x with
  | v4 x =>
    rw [text, String.toList_ofList, parse?, IPv4.parse?_text]
    rfl
  | v6 x =>
    rw [text, String.toList_ofList, parse?, IPv4.parse?_of_colon x.colon_mem_text,
      IPv6.parse?_text]
    rfl

/-- **What holds of the digits, the dot and the colon** holds of the text of an address. -/
theorem of_mem_text {P : Char → Prop} (hdigit : ∀ d < 16, P d.digitChar) (hdot : P '.')
    (hcolon : P ':') (x : IPAddress) : ∀ c ∈ x.text.toList, P c := by
  cases x with
  | v4 x =>
    rw [text, String.toList_ofList]
    exact IPv4.of_mem_text hdigit hdot x
  | v6 x =>
    rw [text, String.toList_ofList]
    exact IPv6.of_mem_text hdigit hdot hcolon x

end IPAddress
end MeshNode
