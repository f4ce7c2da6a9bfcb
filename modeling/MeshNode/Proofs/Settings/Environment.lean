/-
# Environments

The variables of a process.  Their names are letters, digits and underscores, since a dot or a bracket
in a name would be a path into a table of settings; and no name is spelled in two ways, since two
spellings would be collected in no certain order.  A variable is known by its name in upper case, a
setting by its key, and both stand for the same text: the last one that was given.

* `Environment` and `Environment.last?`: the last value under a name in any letter case;
* `lookup?_eq_last?` and `lookup?_ownNames`: what is looked up under a key;
* `numberOf` and `hostOf`: what is made of the text of a number, and of the text of a host.
-/
import MeshNode.Settings.Basic

namespace MeshNode

/-! ## 1. Variables -/

/-- A name of letters of ASCII, digits and underscores.  No other letters have a case here. -/
def Variable.isPlain (name : String) : Bool := name.toList.all fun c => c.isAlphanum || c == '_'

/-- The variables of a process, with what they have been set to one after the other.  Their names
are plain, and no two of them differ in the case of letters alone. -/
structure Environment where
  vars : List (String × String)
  named : ∀ v ∈ vars, Variable.isPlain v.1
  spelledOnce : ∀ v ∈ vars, ∀ w ∈ vars, Variable.lower v.1 = Variable.lower w.1 → v.1 = w.1

/-- The last value that is given under a name, in any letter case. -/
def Environment.last? (e : Environment) (name : String) : Option String :=
  (e.vars.filter fun v => Variable.lower v.1 = Variable.lower name).getLast?.map Prod.snd

namespace Settings

/-- The names of the variables of a node, in upper case. -/
def readPortName : String := "INSPR_SCCLIENT_READ_PORT"
def writePortName : String := "INSPR_LBSIDECAR_WRITE_PORT"
def readHostName : String := "INSPR_SCCLIENT_READ_HOST"
def requestTimeoutName : String := "INSPR_SCCLIENT_REQUEST_TIMEOUT_SECS"

/-- **The last value under its name** is what is looked up under a key. -/
theorem lookup?_eq_last? (e : Environment) {key name : String}
    (h : Variable.lower name = variableName key) : lookup? e.vars key = e.last? name := by
  rw [lookup?, Environment.last?, h, List.getLast?_eq_head?_reverse, ← List.filter_reverse,
    List.head?_filter]
  rfl

/-- The names of a node's own variables, with their keys. -/
theorem lookup?_ownNames (e : Environment) :
    lookup? e.vars readPortKey = e.last? readPortName ∧
    lookup? e.vars writePortKey = e.last? writePortName ∧
    lookup? e.vars readHostKey = e.last? readHostName ∧
    lookup? e.vars requestTimeoutKey = e.last? requestTimeoutName :=
  ⟨lookup?_eq_last? e (by decide +kernel), lookup?_eq_last? e (by decide +kernel),
    lookup?_eq_last? e (by decide +kernel), lookup?_eq_last? e (by decide +kernel)⟩

/-! ## 2. Their texts -/

/-- The number that a value is, if there is a value. -/
def numberOf (value : Option Variable) : Except NumberError (Option Nat) :=
  value.mapM Variable.toNat?

@[simp] theorem numberOf_none : numberOf none = .ok none := rfl

@[simp] theorem numberOf_some (x : Variable) : numberOf (some x) = x.toNat?.map some := rfl

/-- The host that the text of its variable comes to. -/
def hostOf (text : Option String) : String :=
  (text.map fun t => (Variable.ofText t).toText).getD defaultReadHost

theorem number?_eq_ok_iff {vars : List (String × String)} {key : String} {n : Option Nat} :
    number? vars key = .ok n ↔ numberOf ((lookup? vars key).map .ofText) = .ok n := by
  unfold number?
  cases lookup? vars key with
  | none => simp
  | some text => cases htext : (Variable.ofText text).toNat? <;> simp [htext, Except.map]

end Settings
end MeshNode
