/-
# URLs of the local machine

The authority `localhost` with a port is read as it stands.  Only the port that the scheme implies
is left out.

* `localAuthority` is what is read, for any port, `localAuthority_settled`: it is read back;
* `readAuthority_localhost`: it is read from the text with the port;
* `parse_localAddress`: the write address of a sidecar on the local machine is always a URL.
-/
import MeshNode.Node.Config
import MeshNode.Proofs.Url.ReadBack

namespace MeshNode.Url

/-- The authority of the local machine, as it is read in the scheme `http`. -/
def localAuthority (port : Nat) : Authority where
  host := .name "localhost"
  port := if port = 80 then none else some port

/-! ## 1. The authority -/

/-- The name of the local machine is a host. -/
theorem kept_localhost : Host.Kept (.name "localhost") := by
  have hread : webHost "localhost".toList = .ok (.name "localhost") := rfl
  exact webHost_kept hread

/-- **The authority of the local machine is read back.** -/
theorem localAuthority_settled {n : Nat} (h : n ≤ 65535) : (localAuthority n).Settled "http" where
  username := by simp [localAuthority, Percent.Unreserved]
  password := by simp [localAuthority, Percent.Unreserved]
  host := kept_localhost
  port := by
    intro m hm
    rw [localAuthority] at hm
    dsimp only at hm
    split at hm
    · cases hm
    · rename_i hport
      obtain rfl := Option.some.inj hm
      exact ⟨h, fun heq => hport (Option.some.inj heq).symm⟩

/-- It is read from its name and the digits of a port, whichever that is. -/
theorem readAuthority_localhost {n : Nat} (h : n ≤ 65535) :
    readAuthority "http" ("localhost".toList ++ portText (some n)) = .ok (localAuthority n) := by
  have hsign : takeUserInfo ("localhost".toList ++ portText (some n))
      = (none, "localhost".toList ++ portText (some n)) :=
    takeUserInfo_none (sign_not_mem kept_localhost (some n))
  have hhost : takeHost false ("localhost".toList ++ portText (some n))
      = ("localhost".toList, portText (some n)) := takeHost_text kept_localhost (some n)
  have hread : webHost "localhost".toList = .ok (.name "localhost") := kept_localhost.read_back
  have hdefault : (defaultPort? "http" = some n) = (n = 80) :=
    propext ⟨fun heq => (Option.some.inj heq).symm, fun heq => congrArg some heq.symm⟩
  rw [readAuthority_eq (by decide) hsign hhost (by decide), hread, portText, List.drop_one,
    List.tail_cons, readPort_toDigits "http" h]
  simp only [hdefault]
  rfl

/-! ## 2. The write address -/

/-- The write address of a sidecar on the local machine. -/
def localUrl (port : UInt16) : Url := ofParts "http" (localAuthority port.toNat) [""] none none

theorem localUrl_settled (port : UInt16) : Settled (localUrl port) := by
  have hroot : NormalPath [""] :=
    ⟨by simp, fun s hs => List.mem_singleton.mp hs ▸ normalSegment_empty⟩
  exact .mk (by decide) (localAuthority_settled (Nat.le_of_lt_succ port.toNat_lt)) hroot (by simp)
    (by simp)

/-- **The write address of a sidecar on the local machine is a URL**, whatever its port. -/
theorem parse_localAddress (port : UInt16) :
    parse? (SidecarConfig.localAddress port) = .ok (localUrl port) := by
  have hport : port.toNat ≤ 65535 := Nat.le_of_lt_succ port.toNat_lt
  have htext : (SidecarConfig.localAddress port).toList = "http".toList ++
      ':' :: '/' :: '/' :: ("localhost".toList ++ portText (some port.toNat)) := by
    have haddress : SidecarConfig.localAddress port = "http://localhost:" ++ toString port.toNat :=
      rfl
    have hdigits : (toString port.toNat).toList = Nat.toDigits 10 port.toNat := Nat.toList_repr
    rw [haddress, String.toList_append, hdigits]
    rfl
  have hinside : ∀ c ∈ "localhost".toList ++ portText (some port.toNat), InAuthority c := by
    intro c hc
    rcases List.mem_append.mp hc with hc | hc
    · exact inAuthority_of_all (by decide) c hc
    · rcases List.mem_cons.mp hc with rfl | hc
      · decide
      · exact inAuthority_toDigits (by decide) (by decide) _ c hc
  have hweb : isWeb "http" = true := by decide
  have hread := parse_authority hweb (by simp) hinside htext
  rw [readAuthority_localhost hport] at hread
  exact hread

end MeshNode.Url
