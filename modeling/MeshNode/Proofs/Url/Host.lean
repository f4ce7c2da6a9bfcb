/-
# Hosts: reading what is written

A host that was read is kept in a form whose text is that of no other host.  A name is joined from
labels that are their own form, an address is written in full; so the text is read as that host
again.

* `Domain.Settled`: labels that are their own form, `Domain.settled_of_labelForm?`: every label that
  is read becomes one;
* `Domain.ofText?_joined`: names of such labels are read as they are;
* `Host.Kept`: the hosts that are read, `webHost_kept`: there are no others;
* `Host.Kept.read_back`: each is read back from its text.
-/
import MeshNode.Proofs.Address.IP
import MeshNode.Proofs.Url.Percent
import MeshNode.Proofs.Url.TransferForm
import MeshNode.Url.Host

namespace MeshNode.Url

/-! ## 1. Names -/

namespace Domain

/-- A label that is its own form. -/
structure Settled (form : List Char) : Prop where
  stable : ∀ c ∈ form, isStable c = true
  noDot : '.' ∉ form
  kept : labelForm? form = some form

theorem stable_of_digit {c : Char} (h : Digit c) : isStable c = true :=
  h.of_all (P := (isStable · = true)) (by decide +kernel)

theorem stable_of_mark {c : Char} (h : c ∈ transferMark) : isStable c = true := by
  have hall : transferMark.all isStable = true := by decide +kernel
  exact List.all_eq_true.mp hall c h

/-- A label that needs its transfer form is settled in that form. -/
theorem settled_transferForm {label : List Char} (hstable : ∀ c ∈ label, isStable c = true)
    (hdot : '.' ∉ label) (hhigh : label.all (·.toNat < 0x80) = false) :
    Settled (transferForm label) where
  stable := by
    intro c hc
    rcases mem_transferForm hc with ⟨hc, -⟩ | hc | hc
    · exact hstable c hc
    · exact stable_of_mark hc
    · exact stable_of_digit hc
  noDot := by
    intro hmem
    rcases mem_transferForm hmem with ⟨hc, -⟩ | hc | hc
    · exact hdot hc
    · exact absurd hc (by decide)
    · exact hc.of_all (P := (· ≠ '.')) (by decide) rfl
  kept := by
    obtain ⟨text, -, hform, -, -, -⟩ := transferForm_eq label
    have hmark : (transferForm label).take 4 = transferMark := by rw [hform]; rfl
    have hall : label.all isStable = true := List.all_eq_true.mpr hstable
    have hany : label.any (0x80 ≤ ·.toNat) = true := by
      obtain ⟨c, hc, hnot⟩ := List.all_eq_false.mp hhigh
      exact List.any_eq_true.mpr ⟨c, hc, by simpa using hnot⟩
    rw [labelForm?, if_pos hmark, ofTransferForm?_transferForm]
    simp only [hall, hany, beq_self_eq_true, Bool.and_self, if_true]

/-- **The form of a label is its own form.** -/
theorem settled_of_labelForm? {label form : List Char} (hstable : ∀ c ∈ label, isStable c = true)
    (hdot : '.' ∉ label) (h : labelForm? label = some form) : Settled form := by
  have hsame : form = label → Settled form := by
    rintro rfl
    exact ⟨hstable, hdot, h⟩
  have hcases := h
  rw [labelForm?] at hcases
  split at hcases
  · split at hcases
    · cases hcases
    · split at hcases
      · exact hsame (Option.some.inj hcases).symm
      · cases hcases
  · split at hcases
    · exact hsame (Option.some.inj hcases).symm
    · rename_i hhigh
      obtain rfl := Option.some.inj hcases
      exact settled_transferForm hstable hdot (Bool.eq_false_iff.mpr hhigh)

theorem mapChar_of_stable {c : Char} (h : isStable c = true) : mapChar c = [c] := by
  rw [isStable, Bool.and_eq_true, beq_iff_eq] at h
  exact h.1

/-- Folding leaves a name of stable characters alone. -/
theorem flatMap_mapChar : ∀ {name : List Char}, (∀ c ∈ name, isStable c = true) →
    name.flatMap mapChar = name
  | [], _ => rfl
  | c :: name, h => by
    rw [List.flatMap_cons, mapChar_of_stable (h c List.mem_cons_self),
      flatMap_mapChar fun d hd => h d (List.mem_cons_of_mem c hd), List.singleton_append]

/-- A list where nothing fails: the first item and the others. -/
theorem mapM_cons_eq_some {α β : Type} {f : α → Option β} {x : α} {xs : List α} {ys : List β} :
    (x :: xs).mapM f = some ys ↔ ∃ z zs, f x = some z ∧ xs.mapM f = some zs ∧ ys = z :: zs := by
  simp only [List.mapM_cons, Option.bind_eq_bind, Option.bind_eq_some_iff, Option.pure_def,
    Option.some.injEq, eq_comm (a := ys)]
  constructor
  · rintro ⟨z, hz, zs, hzs, rfl⟩
    exact ⟨z, zs, hz, hzs, rfl⟩
  · rintro ⟨z, zs, hz, hzs, rfl⟩
    exact ⟨z, hz, zs, hzs, rfl⟩

theorem mapM_self {α : Type} {f : α → Option α} : ∀ {xs : List α}, (∀ x ∈ xs, f x = some x) →
    xs.mapM f = some xs
  | [], _ => rfl
  | x :: xs, h => mapM_cons_eq_some.mpr ⟨x, xs, h x List.mem_cons_self,
      mapM_self fun y hy => h y (List.mem_cons_of_mem x hy), rfl⟩

/-- What comes out of a list where nothing fails comes from an item of it. -/
theorem mem_of_mapM {α β : Type} {f : α → Option β} : ∀ {xs : List α} {ys : List β},
    xs.mapM f = some ys → ∀ y ∈ ys, ∃ x ∈ xs, f x = some y
  | [], ys, h, y, hy => by
    rw [List.mapM_nil] at h
    cases h
    cases hy
  | x :: xs, ys, h, y, hy => by
    obtain ⟨z, zs, hz, hzs, rfl⟩ := mapM_cons_eq_some.mp h
    rcases List.mem_cons.mp hy with rfl | hy
    · exact ⟨x, List.mem_cons_self, hz⟩
    · obtain ⟨w, hw, hfw⟩ := mem_of_mapM hzs y hy
      exact ⟨w, List.mem_cons_of_mem x hw, hfw⟩

theorem mapM_ne_nil {α β : Type} {f : α → Option β} {xs : List α} {ys : List β} (hne : xs ≠ [])
    (h : xs.mapM f = some ys) : ys ≠ [] := by
  cases xs with
  | nil => exact absurd rfl hne
  | cons x xs =>
    obtain ⟨z, zs, -, -, rfl⟩ := mapM_cons_eq_some.mp h
    exact List.cons_ne_nil z zs

/-- The name that settled labels make. -/
def joined (forms : List (List Char)) : List Char := Text.joinWith ['.'] forms

variable {forms : List (List Char)}

theorem stable_joined (h : ∀ f ∈ forms, Settled f) : ∀ c ∈ joined forms, isStable c = true := by
  intro c hc
  rcases Text.mem_joinWith hc with hc | ⟨f, hf, hc⟩
  · rw [List.mem_singleton.mp hc]
    decide +kernel
  · exact (h f hf).stable c hc

theorem splitOn_joined (hne : forms ≠ []) (h : ∀ f ∈ forms, Settled f) :
    Text.splitOn '.' (joined forms) = forms :=
  Text.splitOn_joinWith hne fun f hf => (h f hf).noDot

/-- **A name of settled labels is read as it is.** -/
theorem ofText?_joined (hne : forms ≠ []) (h : ∀ f ∈ forms, Settled f) :
    ofText? (joined forms) = some (joined forms) := by
  have hstable := stable_joined h
  have hall : (joined forms).all isStable = true := List.all_eq_true.mpr hstable
  rw [ofText?, flatMap_mapChar hstable, if_pos hall, splitOn_joined hne h,
    mapM_self fun f hf => (h f hf).kept, Option.map_some, joined]

/-- **Every name that is read** is made of settled labels. -/
theorem settled_of_ofText? {cs name : List Char} (h : ofText? cs = some name) :
    ∃ forms, forms ≠ [] ∧ (∀ f ∈ forms, Settled f) ∧ name = joined forms := by
  rw [ofText?] at h
  split at h
  · rename_i hall
    obtain ⟨forms, hforms, rfl⟩ := Option.map_eq_some_iff.mp h
    refine ⟨forms, mapM_ne_nil (Text.splitOn_ne_nil _ _) hforms, ?_, rfl⟩
    intro form hform
    obtain ⟨label, hlabel, hf⟩ := mem_of_mapM hforms form hform
    refine settled_of_labelForm? (fun c hc => ?_) (fun hmem => ?_) hf
    · exact List.all_eq_true.mp hall c (Text.of_mem_splitOn _ label hlabel c hc).1
    · exact (Text.of_mem_splitOn _ label hlabel '.' hmem).2 rfl
  · cases h

end Domain

/-! ## 2. Addresses of version 4 -/

/-- The digits of an octet are a label that is settled. -/
theorem settled_octet (o : UInt8) : Domain.Settled (Nat.toDigits 10 o.toNat) where
  stable := Text.of_mem_toDigits (by decide) (by decide) (by decide +kernel)
  noDot := fun hmem => Text.of_mem_toDigits (by decide) (by decide) (P := (· ≠ '.')) (by decide)
    '.' hmem rfl
  kept := by
    have hascii : (Nat.toDigits 10 o.toNat).all (·.toNat < 0x80) = true :=
      List.all_eq_true.mpr (Text.of_mem_toDigits (by decide) (by decide) (by decide))
    have hmark : (Nat.toDigits 10 o.toNat).take 4 ≠ Domain.transferMark := by
      intro htake
      have hmem : 'x' ∈ Nat.toDigits 10 o.toNat := by
        refine List.mem_of_mem_take (i := 4) ?_
        rw [htake]
        decide
      exact Text.of_mem_toDigits (by decide) (by decide) (P := (· ≠ 'x')) (by decide) 'x' hmem rfl
    rw [Domain.labelForm?, if_neg hmark, if_pos hascii]

/-- The digits of an octet are its loose spelling, too. -/
theorem looseNumber?_octet (o : UInt8) :
    looseNumber? (Nat.toDigits 10 o.toNat) = some o.toNat := by
  have hall : ∀ n < 256, looseNumber? (Nat.toDigits 10 n) = some n := by decide +kernel
  exact hall o.toNat o.toNat_lt

/-- Four octets are an address. -/
theorem looseAddress?_octets (x : IPv4) :
    looseAddress? [x.a.toNat, x.b.toNat, x.c.toNat, x.d.toNat] = some x := by
  obtain ⟨a, b, c, d⟩ := x
  have ha := a.toNat_lt
  have hb := b.toNat_lt
  have hc := c.toNat_lt
  have hd := d.toNat_lt
  have hoctet : ∀ (n : Nat) (o : UInt8), n % 256 = o.toNat → UInt8.ofNat n = o := by
    intro n o h
    exact UInt8.toNat_inj.mp (by simpa using h)
  have hfits : ¬ (3 < [a.toNat, b.toNat, c.toNat].length ∨
      [a.toNat, b.toNat, c.toNat].any (255 < ·) = true ∨ 256 ≤ d.toNat) := by
    rintro (hmany | hlarge | hlast)
    · exact absurd hmany (by simp)
    · simp only [List.any_cons, List.any_nil, Bool.or_false, Bool.or_eq_true,
        decide_eq_true_eq] at hlarge
      omega
    · omega
  refine (if_neg hfits).trans (congrArg some ?_)
  show IPv4.ofNat ((((0 * 256 + a.toNat) * 256 + b.toNat) * 256 + c.toNat) * 256 + d.toNat) = _
  rw [IPv4.ofNat, hoctet _ a (by omega), hoctet _ b (by omega), hoctet _ c (by omega),
    hoctet _ d (by omega)]

/-- The labels of the text of an address. -/
def octetTexts (x : IPv4) : List (List Char) :=
  [x.a, x.b, x.c, x.d].map fun o => Nat.toDigits 10 o.toNat

theorem settled_octetTexts (x : IPv4) : ∀ f ∈ octetTexts x, Domain.Settled f := by
  intro f hf
  obtain ⟨o, -, rfl⟩ := List.mem_map.mp hf
  exact settled_octet o

theorem labels_ipv4 (x : IPv4) : labels x.text = octetTexts x := by
  have hsplit : Text.splitOn '.' x.text = octetTexts x :=
    Domain.splitOn_joined (List.cons_ne_nil _ _) (settled_octetTexts x)
  have hlast : (octetTexts x).getLast? = some (Nat.toDigits 10 x.d.toNat) := rfl
  rw [labels, hsplit, if_neg]
  rintro ⟨-, hempty⟩
  exact Nat.toDigits_ne_nil (Option.some.inj (hlast.symm.trans hempty))

/-- The last label of an address is a number. -/
theorem endsInNumber_ipv4 (x : IPv4) : endsInNumber x.text = true := by
  have hlast : (octetTexts x).getLast? = some (Nat.toDigits 10 x.d.toNat) := rfl
  rw [endsInNumber, labels_ipv4, hlast]
  simp [looseNumber?_octet]

theorem looseNumbers_ipv4 (x : IPv4) : (octetTexts x).mapM looseNumber?
    = some [x.a.toNat, x.b.toNat, x.c.toNat, x.d.toNat] := by
  simp only [octetTexts, List.map_cons, List.map_nil, List.mapM_cons, List.mapM_nil,
    looseNumber?_octet]
  rfl

/-! ## 3. Hosts -/

/-- A host as it is kept. -/
inductive Host.Kept : Host → Prop
  | name {forms : List (List Char)} (hne : forms ≠ []) (settled : ∀ f ∈ forms, Domain.Settled f)
    (filled : Domain.joined forms ≠ []) (named : endsInNumber (Domain.joined forms) = false) :
    Kept (.name (String.ofList (Domain.joined forms)))
  | ipv4 (address : IPv4) : Kept (.ipv4 address)
  | ipv6 (address : IPv6) : Kept (.ipv6 address)

/-- **Every host that is read is kept so.** -/
theorem webHost_kept {cs : List Char} {host : Host} (h : webHost cs = .ok host) :
    Host.Kept host := by
  rw [webHost] at h
  split at h
  · rw [bracketedHost] at h
    split at h
    · split at h
      · cases h
        exact .ipv6 _
      · cases h
    · cases h
  · split at h
    · cases h
    · rename_i name hname
      obtain ⟨text, -, htext⟩ := Option.bind_eq_some_iff.mp hname
      obtain ⟨forms, hne, hsettled, rfl⟩ := Domain.settled_of_ofText? htext
      split at h
      · cases h
      · rename_i hfilled
        split at h
        · split at h
          · cases h
            exact .ipv4 _
          · cases h
        · rename_i hnamed
          cases h
          exact .name hne hsettled (fun hnil => hfilled (hnil ▸ rfl)) (Bool.eq_false_iff.mpr hnamed)

theorem ipv6_text_toList (address : IPv6) :
    (Host.ipv6 address).text.toList = '[' :: (address.compressed ++ [']']) := by
  have hopen : "[".toList = ['['] := rfl
  have hclose : "]".toList = [']'] := rfl
  rw [Host.text, String.toList_append, String.toList_append, hopen, hclose,
    String.toList_ofList, List.append_assoc, List.singleton_append]

theorem ipv4_text_toList (address : IPv4) :
    (Host.ipv4 address).text.toList = Domain.joined (octetTexts address) := by
  rw [Host.text, String.toList_ofList]
  rfl

/-- The text of a host: that of a name, or an address in brackets. -/
theorem Host.Kept.text_cases {host : Host} (h : Host.Kept host) :
    (host.text.toList ≠ [] ∧ ∀ c ∈ host.text.toList, Domain.isStable c = true) ∨
      ∃ address, host = .ipv6 address := by
  cases h with
  | name hne settled filled named =>
    rw [Host.text, String.toList_ofList]
    exact .inl ⟨filled, Domain.stable_joined settled⟩
  | ipv4 address =>
    rw [ipv4_text_toList]
    refine .inl ⟨by simp [Domain.joined, octetTexts, Text.joinWith], ?_⟩
    exact Domain.stable_joined (settled_octetTexts address)
  | ipv6 address => exact .inr ⟨address, rfl⟩

/-- No stable character is one that a name cannot have. -/
theorem ne_of_stable {c d : Char} (hc : Domain.isStable c = true)
    (hd : Domain.isStable d = false) : c ≠ d := by
  rintro rfl
  rw [hd] at hc
  cases hc

section

variable {forms : List (List Char)}

/-- Settled labels are no address in brackets. -/
theorem head_joined (h : ∀ f ∈ forms, Domain.Settled f) :
    (Domain.joined forms).head? ≠ some '[' := by
  intro hhead
  have hmem := List.mem_of_mem_head? hhead
  exact ne_of_stable (Domain.stable_joined h '[' hmem) (by decide +kernel) rfl

/-- Settled labels have nothing that is decoded. -/
theorem decodeChars_joined (h : ∀ f ∈ forms, Domain.Settled f) :
    webHost.decodeChars (Domain.joined forms) = some (Domain.joined forms) := by
  have hmark : '%' ∉ Domain.joined forms := fun hmem =>
    ne_of_stable (Domain.stable_joined h '%' hmem) (by decide +kernel) rfl
  rw [webHost.decodeChars, Percent.decode_encodeChars hmark, Utf8.decodeChars?_encodeChars]

/-- Settled labels of which the last is no number are read as a name. -/
theorem webHost_name (hne : forms ≠ []) (h : ∀ f ∈ forms, Domain.Settled f)
    (hfilled : Domain.joined forms ≠ []) (hnamed : endsInNumber (Domain.joined forms) = false) :
    webHost (Domain.joined forms) = .ok (.name (String.ofList (Domain.joined forms))) := by
  have hempty : (Domain.joined forms).isEmpty = false := by simpa using hfilled
  rw [webHost, if_neg (head_joined h), decodeChars_joined h, Option.bind_some,
    Domain.ofText?_joined hne h]
  simp only [hempty, hnamed, Bool.false_eq_true, if_false]

/-- Settled labels of which the last is a number are read as an address. -/
theorem webHost_address {address : IPv4} (hne : forms ≠ []) (h : ∀ f ∈ forms, Domain.Settled f)
    (hfilled : Domain.joined forms ≠ []) (hnumber : endsInNumber (Domain.joined forms) = true)
    (haddress : ((labels (Domain.joined forms)).mapM looseNumber?).bind looseAddress?
      = some address) :
    webHost (Domain.joined forms) = .ok (.ipv4 address) := by
  have hempty : (Domain.joined forms).isEmpty = false := by simpa using hfilled
  rw [webHost, if_neg (head_joined h), decodeChars_joined h, Option.bind_some,
    Domain.ofText?_joined hne h]
  simp only [hempty, hnumber, haddress, Bool.false_eq_true, if_false, if_true]

end

/-- **A host is read back** from its text. -/
theorem Host.Kept.read_back {host : Host} (h : Host.Kept host) :
    webHost host.text.toList = .ok host := by
  cases h with
  | @name forms hne settled filled named =>
    rw [Host.text, String.toList_ofList, webHost_name hne settled filled named]
  | ipv4 address =>
    have hfilled : Domain.joined (octetTexts address) ≠ [] := by
      simp [Domain.joined, octetTexts, Text.joinWith]
    have hne : octetTexts address ≠ [] := List.cons_ne_nil _ _
    have htext : Domain.joined (octetTexts address) = address.text := rfl
    have hnumber : endsInNumber (Domain.joined (octetTexts address)) = true := by
      rw [htext, endsInNumber_ipv4]
    have haddress : ((labels (Domain.joined (octetTexts address))).mapM looseNumber?).bind
        looseAddress? = some address := by
      rw [htext, labels_ipv4, looseNumbers_ipv4, Option.bind_some, looseAddress?_octets]
    rw [ipv4_text_toList, webHost_address hne (settled_octetTexts address) hfilled hnumber
      haddress]
  | ipv6 address =>
    have hlast : ('[' :: (address.compressed ++ [']'])).getLast? = some ']' := by
      rw [List.getLast?_cons]
      simp
    have hinside : (('[' :: (address.compressed ++ [']'])).drop 1).dropLast
        = address.compressed := by
      rw [List.drop_one, List.tail_cons, List.dropLast_concat]
    rw [ipv6_text_toList, webHost, if_pos List.head?_cons, bracketedHost, if_pos hlast, hinside,
      IPv6.parse?_compressed]

end MeshNode.Url
