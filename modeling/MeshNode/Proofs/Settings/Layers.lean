/-
# Settings depend on their own variables alone

An environment holds the variables of other programs, other variables of the mesh, and old values
of a variable in front of its last one.  It is read in layers: the variables are collected, the
last value under each spelling of a name; those with the prefix are taken, under their names in
lower case, in whatever order the collection has them; they are put over the values that hold
unless they are given; and the settings are read from the table that comes of it.

* `lookup?_iff`: what is looked up is the last value of the one spelling that a name has;
* `Layered`: a table that the layers may come to, and `get?_layered`, **what it holds under a key is
  a lookup**, or else the default;
* `Held`: the settings in a table, and `held_iff` that they are those of `ofVariables`;
* `settings_of_own_variables`: environments that agree on the last value under each of the four
  names have the same settings or none.
-/
import MeshNode.Proofs.Dictionary
import MeshNode.Proofs.Settings.Port
import MeshNode.Proofs.Settings.RoundTrip

namespace MeshNode

namespace Settings

/-! ## 1. Lookups -/

/-- A variable that is looked up under a key is the last of its own spelling. -/
theorem get?_of_lookup? {vars : List (String × String)} {key text : String}
    (h : lookup? vars key = some text) :
    ∃ name, Variable.lower name = variableName key ∧
      Dictionary.get? name vars.reverse = some text := by
  obtain ⟨⟨name, _⟩, hfind, rfl⟩ := Option.map_eq_some_iff.mp h
  obtain ⟨hname, front, rest, hvars, hfront⟩ := List.find?_eq_some_iff_append.mp hfind
  have hlower : Variable.lower name = variableName key := eq_of_beq hname
  refine ⟨name, hlower, ?_⟩
  -- what comes later has another name, since it was not found
  have hlater : Dictionary.get? name front = none := by
    refine Option.eq_none_iff_forall_ne_some.mpr fun text' htext' => ?_
    have hother := hfront _ (Dictionary.mem_of_get? htext')
    simp [hlower] at hother
  rw [hvars, Dictionary.get?_append, hlater, Dictionary.get?, if_pos rfl]
  rfl

/-- **A variable is looked up** under any key exactly if it is the last of the one spelling that
the name of the key has. -/
theorem lookup?_iff (e : Environment) {key text : String} :
    lookup? e.vars key = some text ↔ ∃ name, Variable.lower name = variableName key ∧
      Dictionary.get? name e.vars.reverse = some text := by
  refine ⟨get?_of_lookup?, ?_⟩
  rintro ⟨name, hname, hget⟩
  have hmem : (name, text) ∈ e.vars := List.mem_reverse.mp (Dictionary.mem_of_get? hget)
  cases hlookup : lookup? e.vars key with
  | none =>
    have hnone := List.find?_eq_none.mp (Option.map_eq_none_iff.mp hlookup) (name, text)
      (List.mem_reverse.mpr hmem)
    simp [hname] at hnone
  | some text' =>
    obtain ⟨name', hname', hget'⟩ := get?_of_lookup? hlookup
    have hmem' : (name', text') ∈ e.vars := List.mem_reverse.mp (Dictionary.mem_of_get? hget')
    obtain rfl : name' = name := e.spelledOnce _ hmem' _ hmem (hname'.trans hname.symm)
    exact hget'.symm.trans hget

/-! ## 2. Layers -/

/-- The key of a variable: what its name, in lower case, has behind the prefix. -/
def key? (name : String) : Option String :=
  ((Variable.lower name).toList.dropPrefix? "inspr_".toList).map String.ofList

theorem key?_eq_some_iff {name key : String} :
    key? name = some key ↔ Variable.lower name = variableName key := by
  simp only [key?, Option.map_eq_some_iff, List.dropPrefix?_eq_some_iff, beq_iff_eq]
  constructor
  · rintro ⟨rest, ⟨_, h, rfl⟩, rfl⟩
    have hrest : (String.ofList rest).toList = rest := String.toList_ofList
    refine String.toList_injective ?_
    rw [h, variableName, String.toList_append, hrest]
  · intro h
    refine ⟨key.toList, ⟨_, ?_, rfl⟩, String.ofList_toList⟩
    rw [h, variableName, String.toList_append]

/-- What a variable sets, if it has the prefix. -/
def setting? (v : String × String) : Option (String × Variable) :=
  (key? v.1).map fun key => (key, .ofText v.2)

/-- The variables collected: the last value under each spelling of a name. -/
def collected (vars : List (String × String)) : List (String × String) := Dictionary.merge vars []

/-- The layer of the environment. -/
def given (entries : List (String × String)) : List (String × Variable) :=
  Dictionary.merge (entries.filterMap setting?) []

/-- The layer under it. -/
def defaults : List (String × Variable) := [(readHostKey, .text defaultReadHost)]

/-- **A table that variables may be read into.**  Neither the order in which the collected
variables come nor that in which their settings are put over the defaults is certain. -/
def Layered (vars : List (String × String)) (table : List (String × Variable)) : Prop :=
  ∃ entries layer, entries.Perm (collected vars) ∧ layer.Perm (given entries) ∧
    table = Dictionary.merge layer defaults

variable {e : Environment} {key : String}

/-- What the collected variables set. -/
theorem mem_settings {entries : List (String × String)} (h : entries.Perm (collected e.vars))
    (x : Variable) : (key, x) ∈ entries.filterMap setting? ↔
      ∃ text, lookup? e.vars key = some text ∧ Variable.ofText text = x := by
  have hcollected : ∀ name text, (name, text) ∈ entries ↔
      Dictionary.get? name e.vars.reverse = some text := by
    intro name text
    have hsorted : Dictionary.sorted (collected e.vars) = true := Dictionary.sorted_merge e.vars rfl
    rw [h.mem_iff, ← Dictionary.get?_eq_some_iff (Dictionary.single_of_sorted hsorted), collected,
      Dictionary.get?_merge]
    simp [Dictionary.get?]
  simp only [List.mem_filterMap, Prod.exists, hcollected, setting?, Option.map_eq_some_iff,
    Prod.mk.injEq, lookup?_iff, key?_eq_some_iff]
  constructor
  · rintro ⟨name, text, hget, _, hname, rfl, hx⟩
    exact ⟨text, ⟨name, hname, hget⟩, hx⟩
  · rintro ⟨text, ⟨name, hname, hget⟩, hx⟩
    exact ⟨name, text, hget, key, hname, rfl, hx⟩

/-- **The layer of the environment** holds under a key what is looked up. -/
theorem get?_given {entries : List (String × String)} (h : entries.Perm (collected e.vars)) :
    Dictionary.get? key (given entries) = (lookup? e.vars key).map .ofText := by
  have hsingle : Dictionary.Single key (entries.filterMap setting?).reverse := by
    intro x y hx hy
    rw [List.mem_reverse, mem_settings h] at hx hy
    obtain ⟨text, htext, rfl⟩ := hx
    obtain ⟨text', htext', rfl⟩ := hy
    rw [Option.some.inj (htext.symm.trans htext')]
  refine Option.ext fun x => ?_
  rw [given, Dictionary.get?_merge, Dictionary.get?, Option.or_none,
    Dictionary.get?_eq_some_iff hsingle, List.mem_reverse, mem_settings h, Option.map_eq_some_iff]

/-- **The layers come to a lookup**: a table holds under a key what the last variable says, or
else the default. -/
theorem get?_layered {table : List (String × Variable)} (h : Layered e.vars table) :
    Dictionary.get? key table =
      ((lookup? e.vars key).map .ofText).or (Dictionary.get? key defaults) := by
  obtain ⟨entries, layer, hentries, hlayer, rfl⟩ := h
  have hsorted : Dictionary.sorted (given entries) = true := Dictionary.sorted_merge _ rfl
  rw [Dictionary.get?_merge, Dictionary.get?_perm ((List.reverse_perm layer).trans hlayer)
    (Dictionary.single_of_sorted hsorted), get?_given hentries]

/-! ## 3. Settings in a table -/

/-- **The settings that a table holds.**  The host must be there as the ports must, and the limit of
time need not. -/
structure Held (table : List (String × Variable)) (s : Settings) : Prop where
  readPort : numberOf (Dictionary.get? readPortKey table) = .ok (some s.readPort.toNat)
  writePort : numberOf (Dictionary.get? writePortKey table) = .ok (some s.writePort.toNat)
  readHost : (Dictionary.get? readHostKey table).map Variable.toText = some s.readHost
  requestTimeout : numberOf (Dictionary.get? requestTimeoutKey table) = .ok s.requestTimeout

theorem givenPort_iff {value : Option String} {p : UInt16} :
    GivenPort value p ↔ numberOf (value.map .ofText) = .ok (some p.toNat) := by
  unfold GivenPort
  simp only [← Variable.toNat?_ofText_iff p.toNat_lt]
  cases value with
  | none => simp
  | some text => cases htext : (Variable.ofText text).toNat? <;> simp [htext, Except.map]

/-- **Through the layers** the same settings are read. -/
theorem held_iff {table : List (String × Variable)} (h : Layered e.vars table) (s : Settings) :
    Held table s ↔ ofVariables e.vars = .ok s := by
  -- only the host has a default
  have hother : ∀ key, key ≠ readHostKey →
      Dictionary.get? key table = (lookup? e.vars key).map .ofText := by
    intro key hkey
    have hnone : Dictionary.get? key defaults = none := by
      rw [defaults, Dictionary.get?, if_neg hkey, Dictionary.get?]
    rw [get?_layered h, hnone, Option.or_none]
  have hhost : (Dictionary.get? readHostKey table).map Variable.toText =
      some (hostOf (lookup? e.vars readHostKey)) := by
    rw [get?_layered h]
    cases lookup? e.vars readHostKey <;> rfl
  rw [ofVariables_eq_ok_iff, givenPort_iff, givenPort_iff, ← hother readPortKey (by decide),
    ← hother writePortKey (by decide), ← hother requestTimeoutKey (by decide)]
  constructor
  · rintro ⟨hread, hwrite, hs, hlimit⟩
    exact ⟨hread, hwrite, hlimit, (Option.some.inj (hhost.symm.trans hs)).symm⟩
  · rintro ⟨hread, hwrite, hlimit, hs⟩
    exact ⟨hread, hwrite, hhost.trans (congrArg some hs.symm), hlimit⟩

/-! ## 4. Two environments -/

/-- Both fail, or both give the same settings. -/
inductive Alike : Except ConfigError Settings → Except ConfigError Settings → Prop
  | fail (f f' : ConfigError) : Alike (.error f) (.error f')
  | give (s : Settings) : Alike (.ok s) (.ok s)

theorem alike_of_iff {r r' : Except ConfigError Settings} (h : ∀ s, r = .ok s ↔ r' = .ok s) :
    Alike r r' := by
  cases r with
  | ok s =>
    rw [(h s).mp rfl]
    exact .give s
  | error f =>
    cases r' with
    | ok s => cases (h s).mpr rfl
    | error f' => exact .fail f f'

/-- The default host, given, comes to the same as none. -/
theorem hostOf_default : hostOf (some defaultReadHost) = hostOf none := by
  decide +kernel

/-- The names of a node's own variables, in upper case. -/
def ownNames : List String := [readPortName, writePortName, readHostName, requestTimeoutName]

/-- **Four lookups decide**: the last values for the numbers, and what the last one for the host
comes to. -/
theorem alike_of_last {e' : Environment}
    (h : ∀ name ∈ ownNames, name ≠ readHostName → e.last? name = e'.last? name)
    (hhost : hostOf (e.last? readHostName) = hostOf (e'.last? readHostName)) :
    Alike (ofVariables e.vars) (ofVariables e'.vars) := by
  refine alike_of_iff fun s => ?_
  obtain ⟨hread, hwrite, hreadHost, hlimit⟩ := lookup?_ownNames e
  obtain ⟨hread', hwrite', hreadHost', hlimit'⟩ := lookup?_ownNames e'
  rw [ofVariables_eq_ok_iff, ofVariables_eq_ok_iff, hread, hwrite, hreadHost, hlimit, hread', hwrite',
    hreadHost', hlimit', h readPortName (by decide) (by decide),
    h writePortName (by decide) (by decide), h requestTimeoutName (by decide) (by decide), hhost]

/-- **Settings depend on their own variables alone.**  Where the last values under the four names
are the same, in whatever case the names are spelled, both environments have the same settings or
none: the order of the variables, their repeats and all other variables do not count.  A host that
is left out is the default host.  And it does not count either in what order the layers put the
variables together. -/
theorem settings_of_own_variables (e e' : Environment) :
    ((∀ name ∈ ownNames, e.last? name = e'.last? name) →
      Alike (ofVariables e.vars) (ofVariables e'.vars)) ∧
    ((∀ name ∈ ownNames, name ≠ readHostName → e.last? name = e'.last? name) →
      e.last? readHostName = none → e'.last? readHostName = some defaultReadHost →
      Alike (ofVariables e.vars) (ofVariables e'.vars)) ∧
    ∀ table, Layered e.vars table → ∀ s, Held table s ↔ ofVariables e.vars = .ok s := by
  refine ⟨fun h => ?_, fun h hnone hsome => ?_, fun table => held_iff⟩
  · exact alike_of_last (fun name hname _ => h name hname)
      (congrArg hostOf (h readHostName (by decide)))
  · exact alike_of_last h (by rw [hnone, hsome, hostOf_default])

/-- A name in lower case, an old value under it, and a variable of another program. -/
def resetVars : Environment where
  vars := [("inspr_scclient_read_port", "80"), ("PATH", "/bin"),
    ("inspr_scclient_read_port", "3046"), ("INSPR_LBSIDECAR_WRITE_PORT", "3047")]
  named := by decide +kernel
  spelledOnce := by decide +kernel

/-- The same ports in another order, the names in other letters, and a variable that only has the
prefix. -/
def reorderedVars : Environment where
  vars := [("Inspr_LbSidecar_Write_Port", "3047"), ("INSPR_OTHER", "x"),
    ("INSPR_SCCLIENT_READ_PORT", "3046")]
  named := by decide +kernel
  spelledOnce := by decide +kernel

/-- The same with the default host. -/
def hostedVars : Environment where
  vars := ("INSPR_SCCLIENT_READ_HOST", "127.0.0.1") :: reorderedVars.vars
  named := by decide +kernel
  spelledOnce := by decide +kernel

/-- These three have the same settings; those of the first are read through the layers too, with
the collected variables taken backwards. -/
theorem settings_of_own_variables_noisy :
    (∀ name ∈ ownNames, resetVars.last? name = reorderedVars.last? name) ∧
    Alike (ofVariables resetVars.vars) (ofVariables reorderedVars.vars) ∧
    (∀ name ∈ ownNames, name ≠ readHostName → reorderedVars.last? name = hostedVars.last? name) ∧
    reorderedVars.last? readHostName = none ∧ hostedVars.last? readHostName = some defaultReadHost ∧
    Alike (ofVariables reorderedVars.vars) (ofVariables hostedVars.vars) ∧
    (let table := Dictionary.merge (given (collected resetVars.vars).reverse) defaults
    Layered resetVars.vars table ∧ Held table { readPort := 3046, writePort := 3047 }) := by
  obtain ⟨hsame, -, hlayers⟩ := settings_of_own_variables resetVars reorderedVars
  obtain ⟨-, hhost, -⟩ := settings_of_own_variables reorderedVars hostedVars
  have hlast : ∀ name ∈ ownNames, resetVars.last? name = reorderedVars.last? name := by
    decide +kernel
  have hothers : ∀ name ∈ ownNames, name ≠ readHostName →
      reorderedVars.last? name = hostedVars.last? name := by
    decide +kernel
  have hnone : reorderedVars.last? readHostName = none := by decide +kernel
  have hsome : hostedVars.last? readHostName = some defaultReadHost := by decide +kernel
  have htable : Layered resetVars.vars
      (Dictionary.merge (given (collected resetVars.vars).reverse) defaults) :=
    ⟨_, _, List.reverse_perm _, List.Perm.refl _, rfl⟩
  have hread : ofVariables resetVars.vars = .ok { readPort := 3046, writePort := 3047 } := rfl
  exact ⟨hlast, hsame hlast, hothers, hnone, hsome, hhost hothers hnone hsome, htable,
    (hlayers _ htable _).mpr hread⟩

end Settings
end MeshNode
