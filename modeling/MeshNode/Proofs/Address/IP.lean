/-
# Addresses of version 6: reading what is written

The written form leaves out the longest run of zero groups.  The text around `::` are the groups in
front of that run and those behind it, and what is read in its place are as many zeros as make
eight groups.

* `longestRun_spec`: the groups around the run that is left out;
* `splitAbbreviation?_joined`: there is no `::` among groups that are written out;
* `IPv6.parse?_compressed`: the address is read back;
* `IPv6.of_mem_compressed`: what stands in its text.
-/
import Mathlib.Data.Nat.Digits.Defs
import MeshNode.Proofs.Text.Digits
import MeshNode.Proofs.Text.Split

namespace MeshNode.IPv6

/-! ## 1. Groups -/

/-- No digit of a group is a colon. -/
theorem colon_not_mem_groupText (g : UInt16) : ':' ∉ groupText g := by
  intro hmem
  exact Text.of_mem_toDigits (by decide) (by decide) (P := (· ≠ ':')) (by decide) ':' hmem rfl

theorem groupText_ne_nil (g : UInt16) : groupText g ≠ [] := Nat.toDigits_ne_nil

theorem length_groupText (g : UInt16) : (groupText g).length ≤ 4 :=
  Nat.toDigits_length 16 g.toNat 4 (by decide) g.toNat_lt

/-- A group is read back. -/
theorem group?_groupText (g : UInt16) : group? (groupText g) = some g := by
  rw [group?, if_neg (Nat.not_lt.mpr (length_groupText g)), groupText,
    Text.numberIn?_toDigits (by decide) (by decide), Option.map_some, UInt16.ofNat_toNat]

/-- So are several. -/
theorem groupsOf?_groupText (v4 : Bool) : ∀ gs : List UInt16,
    groupsOf? v4 (gs.map groupText) = some gs
  | [] => rfl
  | [g] => by simp only [List.map_cons, List.map_nil, groupsOf?, group?_groupText]
  | g :: h :: gs => by
    have ih := groupsOf?_groupText v4 (h :: gs)
    rw [List.map_cons] at ih ⊢
    rw [List.map_cons, groupsOf?, ih, group?_groupText]
    · rfl
    · simp

theorem splitOn_joined {gs : List UInt16} (hne : gs ≠ []) :
    Text.splitOn ':' (joined gs) = gs.map groupText := by
  refine Text.splitOn_joinWith (by simpa using hne) fun p hp => ?_
  obtain ⟨g, -, rfl⟩ := List.mem_map.mp hp
  exact colon_not_mem_groupText g

theorem joined_cons (g : UInt16) (gs : List UInt16) :
    joined (g :: gs) = groupText g ++ (gs.map groupText).flatMap (':' :: ·) :=
  Text.joinWith_cons _ _

/-- Groups with colons do not begin with one. -/
theorem head?_joined (g : UInt16) (gs : List UInt16) (rest : List Char) :
    (joined (g :: gs) ++ rest).head? ≠ some ':' := by
  intro hhead
  cases htext : groupText g with
  | nil => exact groupText_ne_nil g htext
  | cons c text =>
    rw [joined_cons, htext] at hhead
    obtain rfl : c = ':' := Option.some.inj hhead
    exact colon_not_mem_groupText g (htext ▸ List.mem_cons_self)

/-- What holds of the digits and the colon holds of groups with colons. -/
theorem of_mem_joined {P : Char → Prop} (hdigit : ∀ d < 16, P d.digitChar) (hcolon : P ':')
    (gs : List UInt16) : ∀ c ∈ joined gs, P c := by
  intro c hc
  rcases Text.mem_joinWith hc with hc | ⟨p, hp, hc⟩
  · exact List.mem_singleton.mp hc ▸ hcolon
  · obtain ⟨g, -, rfl⟩ := List.mem_map.mp hp
    exact Text.of_mem_toDigits (by decide) (by decide) hdigit c hc

/-- One side of the abbreviation is read back. -/
theorem sideOf?_joined (v4 : Bool) (gs : List UInt16) : sideOf? v4 (joined gs) = some gs := by
  cases gs with
  | nil => rfl
  | cons g gs =>
    have hne : (joined (g :: gs)).isEmpty = false := by
      simp [joined_cons, groupText_ne_nil]
    rw [sideOf?, hne, splitOn_joined (List.cons_ne_nil g gs), groupsOf?_groupText]
    rfl

/-! ## 2. The abbreviation -/

theorem splitAbbreviation?_cons {c : Char} (hc : c ≠ ':') (rest : List Char) :
    splitAbbreviation? (c :: rest)
      = (splitAbbreviation? rest).map fun (front, back) => (c :: front, back) := by
  cases rest with
  | nil => rfl
  | cons d rest => rw [splitAbbreviation?, if_neg fun h => hc h.1]

/-- A single colon does not abbreviate. -/
theorem splitAbbreviation?_colon {rest : List Char} (h : rest.head? ≠ some ':') :
    splitAbbreviation? (':' :: rest)
      = (splitAbbreviation? rest).map fun (front, back) => (':' :: front, back) := by
  cases rest with
  | nil => rfl
  | cons d rest => rw [splitAbbreviation?, if_neg fun hc => h (congrArg some hc.2)]

theorem splitAbbreviation?_append : ∀ {piece : List Char}, ':' ∉ piece → ∀ rest : List Char,
    splitAbbreviation? (piece ++ rest)
      = (splitAbbreviation? rest).map fun (front, back) => (piece ++ front, back)
  | [], _, rest => by simp
  | c :: piece, h, rest => by
    obtain ⟨hc, hpiece⟩ := not_or.mp (fun hm => h (List.mem_cons.mpr hm))
    rw [List.cons_append, splitAbbreviation?_cons (Ne.symm hc), splitAbbreviation?_append hpiece,
      Option.map_map]
    rfl

/-- **Groups that are written out do not abbreviate**, whatever follows them. -/
theorem splitAbbreviation?_joined (rest : List Char) : ∀ gs : List UInt16, gs ≠ [] →
    splitAbbreviation? (joined gs ++ rest)
      = (splitAbbreviation? rest).map fun (front, back) => (joined gs ++ front, back)
  | [], h => absurd rfl h
  | [g], _ => splitAbbreviation?_append (colon_not_mem_groupText g) rest
  | g :: h :: gs, _ => by
    have ih := splitAbbreviation?_joined rest (h :: gs) (List.cons_ne_nil h gs)
    have htext : joined (g :: h :: gs) = groupText g ++ ':' :: joined (h :: gs) := by
      simp [joined_cons]
    rw [htext, List.append_assoc, List.cons_append,
      splitAbbreviation?_append (colon_not_mem_groupText g),
      splitAbbreviation?_colon (head?_joined h gs rest), ih, Option.map_map, Option.map_map]
    congr 1
    funext ⟨front, back⟩
    simp

/-- The text in front of the abbreviation, and the text behind it. -/
theorem splitAbbreviation?_around (front : List UInt16) (rest : List Char) :
    splitAbbreviation? (joined front ++ ':' :: ':' :: rest) = some (joined front, rest) := by
  have hhere : splitAbbreviation? (':' :: ':' :: rest) = some ([], rest) := if_pos ⟨rfl, rfl⟩
  by_cases hne : front = []
  · rw [hne]
    exact hhere
  · rw [splitAbbreviation?_joined _ front hne, hhere, Option.map_some]
    dsimp only
    rw [List.append_nil]

/-! ## 3. The longest run -/

/-- The zeros at the start of a list. -/
theorem replicate_zeroRun : ∀ gs : List UInt16,
    List.replicate (zeroRun gs) 0 ++ gs.drop (zeroRun gs) = gs
  | [] => rfl
  | g :: gs => by
    by_cases hg : g = 0
    · have hrun : zeroRun (g :: gs) = zeroRun gs + 1 := by simp [zeroRun, hg]
      rw [hrun, List.replicate_succ, List.cons_append, List.drop_succ_cons, replicate_zeroRun gs, hg]
    · have hrun : zeroRun (g :: gs) = 0 := by simp [zeroRun, hg]
      rw [hrun]
      rfl

/-- **Around the longest run** stand the other groups, and the run is all zeros. -/
theorem longestRun_spec : ∀ (gs : List UInt16) (position : Nat), ∃ start,
    (longestRun position gs).1 = position + start ∧
      gs.take start ++ List.replicate (longestRun position gs).2 0 ++
        gs.drop (start + (longestRun position gs).2) = gs
  | [], position => ⟨0, rfl, rfl⟩
  | g :: gs, position => by
    obtain ⟨start, hstart, hsplit⟩ := longestRun_spec gs (position + 1)
    rw [longestRun]
    split
    · refine ⟨0, rfl, ?_⟩
      rw [List.take_zero, List.nil_append, Nat.zero_add]
      exact replicate_zeroRun (g :: gs)
    · refine ⟨start + 1, by rw [hstart]; omega, ?_⟩
      rw [List.take_succ_cons, Nat.add_right_comm, List.drop_succ_cons, List.cons_append,
        List.cons_append, hsplit]

/-! ## 4. Whole addresses -/

theorem ofGroups?_groups (x : IPv6) : ofGroups? x.groups = some x := rfl

/-- Groups without an abbreviation. -/
theorem parse?_joined (x : IPv6) : parse? (joined x.groups) = some x := by
  have hne : x.groups ≠ [] := List.cons_ne_nil _ _
  have hnone : splitAbbreviation? (joined x.groups) = none := by
    have h := splitAbbreviation?_joined [] x.groups hne
    rwa [List.append_nil] at h
  rw [parse?, hnone]
  dsimp only
  rw [splitOn_joined hne, groupsOf?_groupText, Option.bind_some, ofGroups?_groups]

/-- Groups with a run of zeros left out. -/
theorem parse?_abbreviated {x : IPv6} {front back : List UInt16} {zeros : Nat}
    (hgroups : front ++ List.replicate zeros 0 ++ back = x.groups) (hzeros : 0 < zeros) :
    parse? (joined front ++ [':', ':'] ++ joined back) = some x := by
  have hlength : front.length + zeros + back.length = 8 := by
    have h := congrArg List.length hgroups
    rwa [List.length_append, List.length_append, List.length_replicate] at h
  have hfill : 8 - front.length - back.length = zeros := by omega
  have hfew : ¬ 7 < front.length + back.length := by omega
  have hsplit : splitAbbreviation? (joined front ++ [':', ':'] ++ joined back)
      = some (joined front, joined back) := by
    rw [List.append_assoc]
    exact splitAbbreviation?_around front (joined back)
  rw [parse?, hsplit]
  simp only [sideOf?_joined, Option.bind_eq_bind, Option.bind_some, if_neg hfew, hfill, hgroups,
    ofGroups?_groups]

/-- **An address is read back** from its text in hexadecimal groups. -/
theorem parse?_compressed (x : IPv6) : parse? x.compressed = some x := by
  obtain ⟨start, hstart, hsplit⟩ := longestRun_spec x.groups 0
  rw [Nat.zero_add] at hstart
  rw [compressed]
  dsimp only
  split
  · exact parse?_joined x
  · rw [hstart]
    exact parse?_abbreviated hsplit (by omega)

/-- **What holds of the digits and the colon** holds of an address. -/
theorem of_mem_compressed {P : Char → Prop} (hdigit : ∀ d < 16, P d.digitChar) (hcolon : P ':')
    (x : IPv6) : ∀ c ∈ x.compressed, P c := by
  have hjoined := of_mem_joined hdigit hcolon
  intro c hc
  rw [compressed] at hc
  dsimp only at hc
  split at hc
  · exact hjoined _ c hc
  · rcases List.mem_append.mp hc with hc | hc
    · rcases List.mem_append.mp hc with hc | hc
      · exact hjoined _ c hc
      · obtain rfl : c = ':' := by simpa using hc
        exact hcolon
    · exact hjoined _ c hc

end MeshNode.IPv6
