/-
# Settings through the environment

A configuration that is spelled in variables is the configuration that is read from them: ports and
limit in decimal, the address in its own text.  The variables may come in any order, and among
those of other programs.

* `Spelled` is what is spelled, and `Spelled.vars` are the variables that spell it;
* `lookup?_of_mem`: the one variable of a key is found wherever it stands;
* `ofVariables_spelled` and `sidecar_spelled`: what is read, and the configuration made of it;
* `spelled_configures`: the configuration that was spelled.
-/
import Mathlib.Data.List.Nodup
import MeshNode.Proofs.Settings.Value
import MeshNode.Proofs.Url.Localhost
import MeshNode.Settings.Basic

namespace MeshNode

/-- What the environment is to tell a node.  The limit of time is in seconds. -/
structure Spelled where
  readPort : UInt16
  writePort : UInt16
  readHost : IPAddress
  requestTimeout : Option Nat

namespace Spelled

/-- The variables that spell it. -/
def vars (s : Spelled) : List (String × String) :=
  [("INSPR_SCCLIENT_READ_PORT", toString s.readPort.toNat),
    ("INSPR_LBSIDECAR_WRITE_PORT", toString s.writePort.toNat),
    ("INSPR_SCCLIENT_READ_HOST", s.readHost.text)] ++
  s.requestTimeout.toList.map fun n => ("INSPR_SCCLIENT_REQUEST_TIMEOUT_SECS", toString n)

/-- The settings as they are read. -/
def settings (s : Spelled) : Settings :=
  { readPort := s.readPort, writePort := s.writePort, readHost := s.readHost.text,
    requestTimeout := s.requestTimeout }

end Spelled

namespace Settings

/-- A variable of this name is not for the mesh: it does not have the prefix. -/
def Foreign (name : String) : Prop := ∀ key, Variable.lower name ≠ variableName key

theorem foreign_iff {name : String} :
    Foreign name ↔ ¬ "inspr_".toList <+: (Variable.lower name).toList := by
  constructor
  · rintro h ⟨rest, hrest⟩
    have hkey : (String.ofList rest).toList = rest := String.toList_ofList
    refine h (String.ofList rest) (String.toList_injective ?_)
    rw [variableName, String.toList_append, hkey, hrest]
  · intro h key heq
    exact h ⟨key.toList, by rw [heq, variableName, String.toList_append]⟩

instance : DecidablePred Foreign := fun _ => decidable_of_iff _ foreign_iff.symm

/-! ## 1. Variables -/

variable {vars : List (String × String)} {key : String}

/-- **The variable of a key** is found, if there is one alone. -/
theorem lookup?_of_mem {name text : String} (hmem : (name, text) ∈ vars)
    (hname : Variable.lower name = variableName key)
    (hone : ∀ v ∈ vars, Variable.lower v.1 = variableName key → v = (name, text)) :
    lookup? vars key = some text := by
  have hfound : vars.reverse.find? (fun v => Variable.lower v.1 == variableName key)
      = some (name, text) := by
    cases hfind : vars.reverse.find? (fun v => Variable.lower v.1 == variableName key) with
    | none =>
      have hnot := List.find?_eq_none.mp hfind (name, text) (List.mem_reverse.mpr hmem)
      simp [hname] at hnot
    | some v =>
      have hv := hone v (List.mem_reverse.mp (List.mem_of_find?_eq_some hfind))
        (by simpa using List.find?_some hfind)
      rw [hv]
  rw [lookup?, hfound]
  rfl

/-- Nothing is found for a key without a variable. -/
theorem lookup?_of_absent (h : ∀ v ∈ vars, Variable.lower v.1 ≠ variableName key) :
    lookup? vars key = none := by
  have hnone : vars.reverse.find? (fun v => Variable.lower v.1 == variableName key) = none := by
    rw [List.find?_eq_none]
    intro v hv
    simpa using h v (List.mem_reverse.mp hv)
  rw [lookup?, hnone]
  rfl

/-- A number that was found in decimal. -/
theorem number?_of_lookup {n : Nat} (h : lookup? vars key = some (toString n))
    (hn : n < 0x8000000000000000) : number? vars key = .ok (some n) := by
  have hnumber : (Variable.ofText (toString n)).toNat? = .ok n := by
    rw [Variable.ofText_number hn, Variable.toNat?, if_pos (Int.natCast_nonneg n),
      Int.toNat_natCast]
  rw [number?, h]
  simp only [hnumber]

theorem port?_of_lookup {p : UInt16} (h : lookup? vars key = some (toString p.toNat)) :
    port? vars key = .ok (some p) := by
  have hp := p.toNat_lt
  rw [port?, number?_of_lookup h (by omega)]
  simp only [if_pos hp, UInt16.ofNat_toNat]

/-! ## 2. The variables of a node -/

variable {s : Spelled} {others : List (String × String)}

/-- The names of the variables are those of the keys, in the order of the spelling. -/
theorem map_lower_vars (s : Spelled) : (s.vars.map fun v => Variable.lower v.1) =
    [variableName readPortKey, variableName writePortKey, variableName readHostKey] ++
      s.requestTimeout.toList.map fun _ => variableName requestTimeoutKey := by
  have hports : Variable.lower "INSPR_SCCLIENT_READ_PORT" = variableName readPortKey ∧
      Variable.lower "INSPR_LBSIDECAR_WRITE_PORT" = variableName writePortKey := by
    decide +kernel
  have hrest : Variable.lower "INSPR_SCCLIENT_READ_HOST" = variableName readHostKey ∧
      Variable.lower "INSPR_SCCLIENT_REQUEST_TIMEOUT_SECS" = variableName requestTimeoutKey := by
    decide +kernel
  simp only [Spelled.vars, List.map_append, List.map_cons, List.map_nil, List.map_map,
    Function.comp_def, hports, hrest]

/-- Every variable has a name of its own, whatever the case of its letters. -/
theorem nodup_vars (s : Spelled) : (s.vars.map fun v => Variable.lower v.1).Nodup := by
  rw [map_lower_vars]
  cases s.requestTimeout with
  | none => decide +kernel
  | some n =>
    rw [Option.toList_some, List.map_singleton]
    decide +kernel

/-- **A variable that is spelled** is found among any foreign ones, in any order. -/
theorem lookup?_spelled (name : String) {text : String} (hvars : vars.Perm (s.vars ++ others))
    (hothers : ∀ v ∈ others, Foreign v.1) (hmem : (name, text) ∈ s.vars)
    (hname : Variable.lower name = variableName key) : lookup? vars key = some text := by
  refine lookup?_of_mem (hvars.mem_iff.mpr (List.mem_append_left others hmem)) hname ?_
  intro v hv hlower
  rcases List.mem_append.mp (hvars.mem_iff.mp hv) with hv | hv
  · exact List.inj_on_of_nodup_map (nodup_vars s) hv hmem (hlower.trans hname.symm)
  · exact absurd hlower (hothers v hv key)

/-- Without a limit of time there is no variable for it. -/
theorem lookup?_timeout (hvars : vars.Perm (s.vars ++ others))
    (hothers : ∀ v ∈ others, Foreign v.1) (ht : s.requestTimeout = none) :
    lookup? vars requestTimeoutKey = none := by
  refine lookup?_of_absent fun v hv hlower => ?_
  rcases List.mem_append.mp (hvars.mem_iff.mp hv) with hv | hv
  · have hmem : variableName requestTimeoutKey ∈ s.vars.map fun v => Variable.lower v.1 :=
      hlower ▸ List.mem_map_of_mem hv
    rw [map_lower_vars, ht] at hmem
    exact absurd hmem (by decide +kernel)
  · exact hothers v hv requestTimeoutKey hlower

/-- **The settings are read** as they were spelled. -/
theorem ofVariables_spelled (ht : ∀ n ∈ s.requestTimeout, n < 0x8000000000000000)
    (hvars : vars.Perm (s.vars ++ others)) (hothers : ∀ v ∈ others, Foreign v.1) :
    ofVariables vars = .ok s.settings := by
  have hread : port? vars readPortKey = .ok (some s.readPort) :=
    port?_of_lookup (lookup?_spelled "INSPR_SCCLIENT_READ_PORT" hvars hothers
      (by simp [Spelled.vars]) (by decide +kernel))
  have hwrite : port? vars writePortKey = .ok (some s.writePort) :=
    port?_of_lookup (lookup?_spelled "INSPR_LBSIDECAR_WRITE_PORT" hvars hothers
      (by simp [Spelled.vars]) (by decide +kernel))
  have hhost : lookup? vars readHostKey = some s.readHost.text :=
    lookup?_spelled "INSPR_SCCLIENT_READ_HOST" hvars hothers (by simp [Spelled.vars])
      (by decide +kernel)
  have htimeout : number? vars requestTimeoutKey = .ok s.requestTimeout := by
    cases hlimit : s.requestTimeout with
    | none => rw [number?, lookup?_timeout hvars hothers hlimit]
    | some n =>
      have hfound : lookup? vars requestTimeoutKey = some (toString n) :=
        lookup?_spelled "INSPR_SCCLIENT_REQUEST_TIMEOUT_SECS" hvars hothers
          (by simp [Spelled.vars, hlimit]) (by decide +kernel)
      exact number?_of_lookup hfound (ht n hlimit)
  have htext : (Variable.ofText s.readHost.text).toText = s.readHost.text := by
    rw [Variable.ofText_address, Variable.toText]
  rw [ofVariables, hread, hwrite, htimeout, hhost]
  simp only [htext]
  rfl

/-! ## 3. The configuration -/

/-- The port of the write address, with the one that the scheme implies. -/
theorem effectivePort?_localUrl (port : UInt16) :
    (Url.localUrl port).effectivePort? = some port.toNat := by
  have hport : (Url.localUrl port).port = if port.toNat = 80 then none else some port.toNat := rfl
  have hscheme : Url.defaultPort? (Url.localUrl port).scheme = some 80 := rfl
  rw [Url.effectivePort?, hport, hscheme]
  split
  · next heq => rw [heq]; rfl
  · rfl

/-- **The configuration** of settings that were spelled. -/
theorem sidecar_spelled (s : Spelled) (hport : s.writePort ≠ 0) : s.settings.sidecar = .ok
    { readHost := s.readHost, readPort := s.readPort, writeAddress := Url.localUrl s.writePort,
      requestTimeout := s.requestTimeout.map (1000 * ·) } := by
  have hhost : IPAddress.parse? s.settings.readHost.toList = some s.readHost :=
    IPAddress.parse?_text s.readHost
  have hports : SidecarConfig.ofPorts s.settings.readPort s.settings.writePort
      = .ok { readPort := s.readPort, writeAddress := Url.localUrl s.writePort } := by
    rw [SidecarConfig.ofPorts, Spelled.settings, Url.parse_localAddress]
  have hwrite : s.settings.writePort ≠ 0 := hport
  rw [sidecar, if_neg hwrite, hhost]
  simp only [hports]
  rfl

/-- **What was spelled is what a node is configured with**: its address and ports, the port of the
write address also where the scheme implies it, and its limit of time, here in milliseconds.  The
text of the address is never taken for a truth value or a number. -/
theorem spelled_configures (s : Spelled) (hport : s.writePort ≠ 0)
    (ht : ∀ n ∈ s.requestTimeout, n < 0x8000000000000000)
    (hvars : vars.Perm (s.vars ++ others)) (hothers : ∀ v ∈ others, Foreign v.1) :
    ∃ settings config, ofVariables vars = .ok settings ∧ settings.sidecar = .ok config ∧
      settings.readHost = s.readHost.text ∧
      Variable.ofText s.readHost.text = .text s.readHost.text ∧
      config.readHost = s.readHost ∧ config.readPort = s.readPort ∧
      config.writeAddress.scheme = "http" ∧
      config.writeAddress.host = some (.name "localhost") ∧
      config.writeAddress.effectivePort? = some s.writePort.toNat ∧
      config.requestTimeout = s.requestTimeout.map (1000 * ·) := by
  have hread : ofVariables vars = .ok s.settings := ofVariables_spelled ht hvars hothers
  refine ⟨s.settings, _, hread, sidecar_spelled s hport, rfl, ?_, rfl, rfl, rfl, rfl, ?_, rfl⟩
  · exact Variable.ofText_address s.readHost
  · exact effectivePort?_localUrl s.writePort

/-- An address that maps one of version 4, and the port that the scheme implies. -/
theorem spelled_configures_mapped :
    let s : Spelled := ⟨0, 80, .v6 ⟨0, 0, 0, 0, 0, 0xFFFF, 0x0A00, 1⟩, some 5⟩
    let others := [("PATH", "/bin")]
    let vars := [("PATH", "/bin"), ("INSPR_SCCLIENT_REQUEST_TIMEOUT_SECS", "5"),
      ("INSPR_SCCLIENT_READ_HOST", "::ffff:10.0.0.1"), ("INSPR_LBSIDECAR_WRITE_PORT", "80"),
      ("INSPR_SCCLIENT_READ_PORT", "0")]
    s.writePort ≠ 0 ∧ (∀ n ∈ s.requestTimeout, n < 0x8000000000000000) ∧
    vars.Perm (s.vars ++ others) ∧ (∀ v ∈ others, Foreign v.1) ∧
    ∃ settings config, ofVariables vars = .ok settings ∧ settings.sidecar = .ok config ∧
      settings.readHost = "::ffff:10.0.0.1" ∧ config.readHost = s.readHost ∧ config.readPort = 0 ∧
      config.writeAddress.effectivePort? = some 80 ∧ config.requestTimeout = some 5000 := by
  intro s others vars
  have hport : s.writePort ≠ 0 := by decide
  have ht : ∀ n ∈ s.requestTimeout, n < 0x8000000000000000 := by decide
  have hvars : vars.Perm (s.vars ++ others) := by decide +kernel
  have hothers : ∀ v ∈ others, Foreign v.1 := by decide +kernel
  obtain ⟨settings, config, hread, hsidecar, htext, -, hhost, hreadPort, -, -, hwrite, hlimit⟩ :=
    spelled_configures s hport ht hvars hothers
  have hmapped : s.readHost.text = "::ffff:10.0.0.1" := by decide +kernel
  exact ⟨hport, ht, hvars, hothers, settings, config, hread, hsidecar, htext.trans hmapped, hhost,
    hreadPort, hwrite, hlimit⟩

end Settings
end MeshNode
