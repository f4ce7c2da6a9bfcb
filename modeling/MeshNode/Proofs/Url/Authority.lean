/-
# What stands in an authority

However a user name, a password or a host was spelled, what is kept of it has no character that
would end an authority, and no white space.

* `InAuthority` are the characters that may stand there;
* `Host.Kept.clean`: those of a host that was read;
* `readAuthority_parts` and `readAuthority_clean`: the parts of an authority that was read.
-/
import MeshNode.Proofs.Url.Host
import MeshNode.Url.Parse

namespace MeshNode.Url

/-- A character that may stand in an authority. -/
def InAuthority (c : Char) : Prop := 0x20 < c.toNat ∧ endsAuthority true c = false

instance (c : Char) : Decidable (InAuthority c) := inferInstanceAs (Decidable (_ ∧ _))

/-- The characters that may not, one by one. -/
theorem inAuthority_of_ne {c : Char} (hlow : 0x20 < c.toNat) (h1 : c ≠ '/') (h2 : c ≠ '\\')
    (h3 : c ≠ '?') (h4 : c ≠ '#') : InAuthority c :=
  ⟨hlow, by simp [endsAuthority, isSlash, h1, h2, h3, h4]⟩

/-- Whether the characters of a text may stand there can be computed. -/
theorem inAuthority_of_all {cs : List Char} (h : cs.all (fun c => decide (InAuthority c)) = true) :
    ∀ c ∈ cs, InAuthority c := fun c hc => of_decide_eq_true (List.all_eq_true.mp h c hc)

/-- Characters outside ASCII may all stand there. -/
theorem inAuthority_of_high {c : Char} (h : 0x80 ≤ c.toNat) : InAuthority c := by
  have hne : ∀ d : Char, d.toNat < 0x80 → c ≠ d := by
    rintro d hd rfl
    omega
  exact inAuthority_of_ne (by omega) (hne _ (by decide)) (hne _ (by decide)) (hne _ (by decide))
    (hne _ (by decide))

/-! ## 1. Hosts -/

theorem inAuthority_toDigits {base : Nat} (hb : 1 < base) (hb' : base ≤ 16) (n : Nat) :
    ∀ c ∈ Nat.toDigits base n, InAuthority c :=
  Text.of_mem_toDigits hb hb' (by decide)

/-- What may stand in a name may stand in an authority. -/
theorem inAuthority_of_stable {c : Char} (h : Domain.isStable c = true) : InAuthority c := by
  rw [Domain.isStable, Bool.and_eq_true] at h
  by_cases hascii : c.toNat < 0x80
  · have hfree : Domain.isForbidden c = false := by simpa [hascii] using h.2
    have hlow : 0x20 < c.toNat := by
      simp only [Domain.isForbidden, Bool.or_eq_false_iff, decide_eq_false_iff_not] at hfree
      omega
    have hne : ∀ d : Char, Domain.isForbidden d = true → c ≠ d := fun d =>
      Percent.ne_of_reserved hfree
    exact inAuthority_of_ne hlow (hne _ (by decide)) (hne _ (by decide)) (hne _ (by decide))
      (hne _ (by decide))
  · exact inAuthority_of_high (Nat.le_of_not_lt hascii)

/-- The text of a host keeps it in its authority, and is there. -/
def Host.Clean (host : Host) : Prop :=
  host.text.toList ≠ [] ∧ ∀ c ∈ host.text.toList, InAuthority c

/-- **A host that was read** is there, and stays in its authority. -/
theorem Host.Kept.clean {host : Host} (h : Host.Kept host) : Host.Clean host := by
  rcases h.text_cases with ⟨hne, hstable⟩ | ⟨address, rfl⟩
  · exact ⟨hne, fun c hc => inAuthority_of_stable (hstable c hc)⟩
  · rw [Host.Clean, ipv6_text_toList]
    refine ⟨by simp, ?_⟩
    intro c hc
    rcases List.mem_cons.mp hc with rfl | hc
    · decide
    · rcases List.mem_append.mp hc with hc | hc
      · exact IPv6.of_mem_compressed (by decide) (by decide) address c hc
      · rw [List.mem_singleton.mp hc]
        decide

/-! ## 2. User names, passwords and whole authorities -/

theorem inAuthority_of_userInfo {c : Char} (h : Percent.userInfo c = false) : InAuthority c := by
  have hlow := Percent.high_of_free (fun _ => Percent.controls_of_userInfo) (by decide) h
  have hne : ∀ d : Char, Percent.userInfo d = true → c ≠ d := fun d => Percent.ne_of_reserved h
  exact inAuthority_of_ne hlow (hne _ (by decide)) (hne _ (by decide)) (hne _ (by decide))
    (hne _ (by decide))

/-- An authority whose parts all stay inside it. -/
structure Authority.Clean (a : Authority) : Prop where
  username : ∀ c ∈ a.username.toList, InAuthority c
  password : ∀ c ∈ a.password.toList, InAuthority c
  host : Host.Clean a.host

/-- A user name and a password as they are kept. -/
def keptUserInfo : Option (List Char × List Char) → String × String
  | some (name, word) => (String.ofList (Percent.encode Percent.userInfo name),
      String.ofList (Percent.encode Percent.userInfo word))
  | none => ("", "")

/-- How an authority is read in the schemes that need a host. -/
theorem readAuthority_eq {scheme : String} (hs : isSpecial scheme = true) {cs rest tail : List Char}
    {userInfo : Option (List Char × List Char)} {hostText : List Char}
    (hu : takeUserInfo cs = (userInfo, rest)) (hh : takeHost false rest = (hostText, tail))
    (hne : hostText ≠ []) :
    readAuthority scheme cs = (webHost hostText).bind fun host =>
      (readPort scheme (tail.drop 1)).map fun port =>
        ⟨(keptUserInfo userInfo).1, (keptUserInfo userInfo).2, host, port⟩ := by
  have hempty : hostText.isEmpty = false := by simp [hne]
  unfold readAuthority
  simp only [hu, hh, hs, hempty, true_and, if_true, false_and, if_false, Bool.false_eq_true]
  cases webHost hostText with
  | error e => rfl
  | ok host =>
    cases readPort scheme (tail.drop 1) with
    | error e => rfl
    | ok port =>
      cases userInfo with
      | none => rfl
      | some pair => rfl

theorem readAuthority_noHost {scheme : String} (hs : isSpecial scheme = true)
    {cs rest tail : List Char} {userInfo : Option (List Char × List Char)}
    (hu : takeUserInfo cs = (userInfo, rest)) (hh : takeHost false rest = ([], tail)) :
    readAuthority scheme cs = .error .emptyHost := by
  unfold readAuthority
  simp only [hu, hh, hs, List.isEmpty_nil, and_self, if_true]

/-- **The parts of an authority that was read.** -/
theorem readAuthority_parts {scheme : String} (hs : isSpecial scheme = true) {cs : List Char}
    {a : Authority} (h : readAuthority scheme cs = .ok a) :
    ∃ userInfo port, a.username = (keptUserInfo userInfo).1 ∧
      a.password = (keptUserInfo userInfo).2 ∧ Host.Kept a.host ∧
      readPort scheme port = .ok a.port := by
  rcases hu : takeUserInfo cs with ⟨userInfo, rest⟩
  rcases hh : takeHost false rest with ⟨hostText, tail⟩
  by_cases hne : hostText = []
  · subst hne
    rw [readAuthority_noHost hs hu hh] at h
    cases h
  · rw [readAuthority_eq hs hu hh hne] at h
    cases hhost : webHost hostText with
    | error e =>
      rw [hhost] at h
      cases h
    | ok host =>
      cases hport : readPort scheme (tail.drop 1) with
      | error e =>
        rw [hhost, hport] at h
        cases h
      | ok port =>
        rw [hhost, hport] at h
        cases h
        exact ⟨userInfo, tail.drop 1, rfl, rfl, webHost_kept hhost, hport⟩

/-- A user name and a password reserve nothing of themselves. -/
theorem unreserved_keptUserInfo (userInfo : Option (List Char × List Char)) :
    Percent.Unreserved Percent.userInfo (keptUserInfo userInfo).1.toList ∧
      Percent.Unreserved Percent.userInfo (keptUserInfo userInfo).2.toList := by
  cases userInfo with
  | none =>
    exact ⟨by simp [keptUserInfo, Percent.Unreserved], by simp [keptUserInfo, Percent.Unreserved]⟩
  | some pair =>
    simp only [keptUserInfo, String.toList_ofList]
    exact ⟨Percent.unreserved_encode Percent.keepsEscapes_userInfo (fun _ h => h) pair.1,
      Percent.unreserved_encode Percent.keepsEscapes_userInfo (fun _ h => h) pair.2⟩

theorem inAuthority_of_unreserved {cs : List Char}
    (h : Percent.Unreserved Percent.userInfo cs) : ∀ c ∈ cs, InAuthority c := fun c hc =>
  inAuthority_of_userInfo (h c hc).2

/-- **An authority that was read** is such. -/
theorem readAuthority_clean {scheme : String} (hs : isSpecial scheme = true) {cs : List Char}
    {a : Authority} (h : readAuthority scheme cs = .ok a) : a.Clean := by
  obtain ⟨userInfo, port, hname, hword, hhost, -⟩ := readAuthority_parts hs h
  obtain ⟨hfree, hfree'⟩ := unreserved_keptUserInfo userInfo
  exact ⟨hname ▸ inAuthority_of_unreserved hfree, hword ▸ inAuthority_of_unreserved hfree',
    hhost.clean⟩

end MeshNode.Url
