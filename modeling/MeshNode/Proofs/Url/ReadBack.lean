/-
# URLs that are read back

Whatever a URL of the web was read from, what is kept of it is settled: reading its text gives the
same URL once more.  Segments that are put behind its path do not change that, so a URL that is
handed on as a text arrives as it was.

* `takeUserInfo_chars`, `takeHost_text`, `readPort_text`: the parts of an authority;
* `Authority.Settled`: an authority that is read back, `readAuthority_settled`: every one that is
  read is such;
* `Settled`: a URL that is read back, `parse_settled`: every URL of the web that is read is such;
* `Settled.append`: and so it is with segments behind its path.
-/
import MeshNode.Proofs.Url.Append
import MeshNode.Proofs.Url.Text

namespace MeshNode.Url

open Percent

/-! ## 1. User names and passwords -/

/-- An authority without the sign of a user name has none. -/
theorem takeUserInfo_none {cs : List Char} (h : '@' ∉ cs) : takeUserInfo cs = (none, cs) :=
  if_neg h

/-- **A user name and a password are told apart again**, and from what follows them. -/
theorem takeUserInfo_chars {username password : String}
    (hname : Unreserved userInfo username.toList) (hword : Unreserved userInfo password.toList)
    {rest : List Char} (hrest : '@' ∉ rest) :
    ∃ info, takeUserInfo (userInfoChars username password ++ rest) = (info, rest) ∧
      keptUserInfo info = (username, password) := by
  by_cases hthere : username ≠ "" ∨ password ≠ ""
  · have hcolon : ∀ c ∈ username.toList, c ≠ ':' := fun c hc =>
      ne_of_reserved (hname c hc).2 (by decide)
    have hfront : (if password = "" then [] else ':' :: password.toList)
        = behind ':' (if password = "" then none else some password.toList) := by
      split <;> rfl
    have hback : (behind ':' (if password = "" then none else some password.toList)).drop 1
        = password.toList := by
      split
      · rename_i hempty
        rw [hempty]
        rfl
      · rfl
    refine ⟨some (username.toList, password.toList), ?_, ?_⟩
    · rw [userInfoChars, if_pos hthere, hfront, List.append_assoc, List.singleton_append,
        takeUserInfo, if_pos (by simp)]
      simp only [Text.behind_last hrest, Text.inFront_last, takeWhile_behind hcolon,
        dropWhile_behind hcolon, hback]
    · rw [keptUserInfo, encode_of_unreserved hname, encode_of_unreserved hword,
        String.ofList_toList, String.ofList_toList]
  · obtain ⟨hname, hword⟩ := not_or.mp hthere
    obtain rfl := Classical.not_not.mp hname
    obtain rfl := Classical.not_not.mp hword
    exact ⟨none, takeUserInfo_none hrest, rfl⟩

/-! ## 2. Hosts and ports -/

/-- A host without a colon and without brackets goes as far as a text that has no host. -/
theorem takeHost_name {tail : List Char} (htail : takeHost false tail = ([], tail)) :
    ∀ {cs : List Char}, (∀ c ∈ cs, c ≠ ':' ∧ c ≠ '[') →
      takeHost false (cs ++ tail) = (cs, tail)
  | [], _ => htail
  | c :: cs, h => by
    obtain ⟨hcolon, hbracket⟩ := h c List.mem_cons_self
    have ih := takeHost_name htail fun d hd => h d (List.mem_cons_of_mem c hd)
    simp only [List.cons_append, takeHost, hcolon, hbracket, false_and, if_false, ite_self, ih]

/-- Brackets go as far as they are closed, whatever colons are inside. -/
theorem takeHost_inside {tail : List Char} (htail : takeHost false tail = ([], tail)) :
    ∀ {cs : List Char}, (∀ c ∈ cs, c ≠ '[' ∧ c ≠ ']') →
      takeHost true (cs ++ ']' :: tail) = (cs ++ [']'], tail)
  | [], _ => by
    have hclosed : takeHost true (']' :: tail)
        = (']' :: (takeHost false tail).1, (takeHost false tail).2) := rfl
    rw [List.nil_append, hclosed, htail]
    rfl
  | c :: cs, h => by
    obtain ⟨hopen, hclose⟩ := h c List.mem_cons_self
    have ih := takeHost_inside htail fun d hd => h d (List.mem_cons_of_mem c hd)
    simp only [List.cons_append, takeHost, hopen, hclose, Bool.not_true, Bool.false_eq_true,
      and_false, if_false, ih]

theorem takeHost_portText (port : Option Nat) :
    takeHost false (portText port) = ([], portText port) := by
  cases port with
  | none => rfl
  | some port => exact if_pos ⟨rfl, rfl⟩

/-- **A host ends where its port begins.** -/
theorem takeHost_text {host : Host} (h : Host.Kept host) (port : Option Nat) :
    takeHost false (host.text.toList ++ portText port) = (host.text.toList, portText port) := by
  rcases h.text_cases with ⟨-, hstable⟩ | ⟨address, rfl⟩
  · refine takeHost_name (takeHost_portText port) fun c hc => ⟨?_, ?_⟩
    · exact ne_of_stable (hstable c hc) (by decide +kernel)
    · exact ne_of_stable (hstable c hc) (by decide +kernel)
  · have hinside := takeHost_inside (takeHost_portText port)
      (IPv6.of_mem_compressed (P := fun c => c ≠ '[' ∧ c ≠ ']') (by decide) (by decide) address)
    have hopened : ∀ rest, takeHost false ('[' :: rest)
        = ('[' :: (takeHost true rest).1, (takeHost true rest).2) := fun _ => rfl
    rw [ipv6_text_toList, List.cons_append, List.append_assoc, List.singleton_append, hopened,
      hinside]

/-- The sign of a user name is not in a host, and not in what follows it. -/
theorem sign_not_mem {host : Host} (h : Host.Kept host) (port : Option Nat) :
    '@' ∉ host.text.toList ++ portText port := by
  intro hmem
  rcases List.mem_append.mp hmem with hmem | hmem
  · rcases h.text_cases with ⟨-, hstable⟩ | ⟨address, rfl⟩
    · exact ne_of_stable (hstable '@' hmem) (by decide +kernel) rfl
    · rw [ipv6_text_toList, List.mem_cons, List.mem_append] at hmem
      rcases hmem with hmem | hmem | hmem
      · exact absurd hmem (by decide)
      · exact IPv6.of_mem_compressed (P := (· ≠ '@')) (by decide) (by decide) address '@' hmem rfl
      · exact absurd hmem (by decide)
  · cases port with
    | none => cases hmem
    | some port =>
      rcases List.mem_cons.mp hmem with hmem | hmem
      · exact absurd hmem (by decide)
      · exact Text.of_mem_toDigits (by decide) (by decide) (P := (· ≠ '@')) (by decide) '@' hmem rfl

/-- A port that has to be written: one of those there are, and not the one that is implied. -/
def Explicit (scheme : String) (port : Nat) : Prop :=
  port ≤ 65535 ∧ defaultPort? scheme ≠ some port

/-- Whatever port is read is such. -/
theorem explicit_of_readPort {scheme : String} {cs : List Char} {port : Option Nat}
    (h : readPort scheme cs = .ok port) : ∀ n ∈ port, Explicit scheme n := by
  intro n hn
  rw [readPort] at h
  split at h
  · cases h
    cases hn
  · split at h
    · split at h
      · cases h
      · rename_i hsmall
        cases h
        split at hn
        · cases hn
        · rename_i hdefault
          obtain rfl := Option.some.inj hn
          exact ⟨Nat.not_lt.mp hsmall, hdefault⟩
    · cases h

/-- The digits of a port are read, and the implied port is left out. -/
theorem readPort_toDigits (scheme : String) {n : Nat} (h : n ≤ 65535) :
    readPort scheme (Nat.toDigits 10 n)
      = .ok (if defaultPort? scheme = some n then none else some n) := by
  have hempty : (Nat.toDigits 10 n).isEmpty = false := by simp [Nat.toDigits_ne_nil]
  have hall : (Nat.toDigits 10 n).all (fun c => '0' ≤ c && c ≤ '9') = true := by
    rw [List.all_eq_true]
    intro c hc
    have hdigit := Nat.isDigit_of_mem_toDigits (by decide) (by decide) hc
    rw [Char.isDigit, Bool.and_eq_true, decide_eq_true_iff, decide_eq_true_iff] at hdigit
    exact Bool.and_eq_true_iff.mpr ⟨decide_eq_true hdigit.1, decide_eq_true hdigit.2⟩
  rw [readPort, hempty, hall, Text.numberIn?_toDigits (by decide) (by decide)]
  simp only [Bool.false_eq_true, if_false, if_neg (Nat.not_lt.mpr h)]

/-- **A port that has to be written is read back.** -/
theorem readPort_text {scheme : String} {port : Option Nat} (h : ∀ n ∈ port, Explicit scheme n) :
    readPort scheme ((portText port).drop 1) = .ok port := by
  cases port with
  | none => rfl
  | some n =>
    obtain ⟨hsmall, hdefault⟩ := h n rfl
    rw [portText, List.drop_one, List.tail_cons, readPort_toDigits scheme hsmall, if_neg hdefault]

/-! ## 3. Authorities -/

/-- An authority as it is kept in a scheme. -/
structure Authority.Settled (scheme : String) (a : Authority) : Prop where
  username : Unreserved userInfo a.username.toList
  password : Unreserved userInfo a.password.toList
  host : Host.Kept a.host
  port : ∀ n ∈ a.port, Explicit scheme n

variable {scheme : String}

/-- **Every authority that is read is kept so.** -/
theorem readAuthority_settled (hs : isSpecial scheme = true) {cs : List Char} {a : Authority}
    (h : readAuthority scheme cs = .ok a) : a.Settled scheme := by
  obtain ⟨info, port, hname, hword, hhost, hport⟩ := readAuthority_parts hs h
  obtain ⟨hfree, hfree'⟩ := unreserved_keptUserInfo info
  exact ⟨hname ▸ hfree, hword ▸ hfree', hhost, explicit_of_readPort hport⟩

theorem Authority.Settled.clean {a : Authority} (h : a.Settled scheme) : a.Clean :=
  ⟨inAuthority_of_unreserved h.username, inAuthority_of_unreserved h.password, h.host.clean⟩

/-- **An authority is read back** from its text. -/
theorem Authority.Settled.read_back {a : Authority} (hs : isSpecial scheme = true)
    (h : a.Settled scheme) : readAuthority scheme a.chars = .ok a := by
  obtain ⟨info, htake, hkept⟩ :=
    takeUserInfo_chars h.username h.password (sign_not_mem h.host a.port)
  rw [← List.append_assoc] at htake
  rw [Authority.chars, readAuthority_eq hs htake (takeHost_text h.host a.port) h.host.clean.1,
    h.host.read_back, readPort_text h.port, hkept]
  rfl

/-! ## 4. Whole URLs -/

/-- A URL of the web as it is kept. -/
inductive Settled : Url → Prop
  | mk {scheme : String} {a : Authority} {path : List String} {query fragment : Option String}
    (web : isWeb scheme = true) (authority : a.Settled scheme) (segments : NormalPath path)
    (queried : ∀ q ∈ query, Unreserved webQuery q.toList)
    (marked : ∀ f ∈ fragment, Unreserved Percent.fragment f.toList) :
    Settled (ofParts scheme a path query fragment)

/-- **Every URL of the web that is read is kept so.** -/
theorem parse_settled {s : String} {u : Url} (h : parse? s = .ok u)
    (hs : isWeb u.scheme = true) : Settled u := by
  obtain ⟨front, a, path, query, fragment, ha, hpath, hquery, hfragment, heq⟩ := parse_parts h hs
  rw [heq]
  exact .mk hs (readAuthority_settled (isSpecial_of_isWeb hs) ha) hpath hquery hfragment

/-- **A URL is read back** from its text. -/
theorem Settled.read_back {u : Url} (h : Settled u) : parse? u.text = .ok u := by
  cases h with
  | mk web authority segments queried marked =>
    rw [parse_text web authority.clean segments queried marked,
      authority.read_back (isSpecial_of_isWeb web)]
    rfl

/-- **Segments behind the path**, whatever they are, change nothing else and leave the URL one that
is read back. -/
theorem Settled.append {u : Url} (h : Settled u) (segments : List String) :
    ∃ v, u.append? segments = some v ∧ Settled v ∧ v.scheme = u.scheme := by
  cases h with
  | @mk scheme a path query fragment web authority hpath queried marked =>
    refine ⟨ofParts scheme a (segments.foldl (appendSegment scheme) (dropOpenEnd path)) query
      fragment, rfl, ?_, rfl⟩
    exact .mk web authority (normalPath_foldl web segments (normalPath_dropOpenEnd hpath)) queried
      marked

end MeshNode.Url
