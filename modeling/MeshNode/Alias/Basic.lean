/-
# Aliases and changes

What the alias API of the controller exchanges: an alias with its metadata, and the log of
changes that an operation made or would make.

* `Metadata`, `Alias`, `Difference`, `Change` are the records;
* `toJson` gives their values, fields in their order, where empty annotations are left out;
* `reader` reads each of them, from an object with its fields in any order or from an array.

The fields of metadata and of an alias may all be missing, and so may the differences of a
change; then they are empty.  An array gives its fields from the first on, and those that it
lacks at the end count as missing.
-/
import MeshNode.Json.Read

namespace MeshNode

open Json

/-- What describes an alias: its name, the scope it belongs to, its identifier, and free
annotations. -/
structure Metadata where
  name : String := ""
  parent : String := ""
  uuid : String := ""
  annotations : Dictionary String := .empty
  deriving DecidableEq, Repr, Inhabited

/-- A name at the boundary of a scope that stands for a channel in another. -/
structure Alias where
  metadata : Metadata := {}
  resource : String := ""
  deriving DecidableEq, Repr, Inhabited

/-- One field that changed, with its value before and after. -/
structure Difference where
  field : String
  before : String
  after : String
  deriving DecidableEq, Repr, Inhabited

/-- The differences within one scope. -/
structure Change where
  context : String
  differences : List Difference := []
  deriving DecidableEq, Repr, Inhabited

/-- What an operation changed, scope by scope. -/
abbrev Changelog := List Change

/-- A member that no record has a field for. -/
def passOver {σ : Type} (state : σ) : Reader σ := fun limit s =>
  (memberValue skip limit s).map fun (_, s) => (state, s)

/-- A field that must be there. -/
def required {α : Type} (name : String) (held : Option α) : Except Json.Error α :=
  match held with
  | some v => .ok v
  | none => .error (.mismatch (.missingField name))

/-! ## 1. Metadata -/

namespace Metadata

/-- The value of metadata. -/
def toJson (m : Metadata) : Json :=
  .obj ([("name", .str m.name), ("parent", .str m.parent), ("uuid", .str m.uuid)] ++
    (if m.annotations.entries.isEmpty then []
     else [("annotations", .obj (m.annotations.entries.map fun (k, v) => (k, .str v)))]))

/-- The fields of metadata that were read so far. -/
structure Fields where
  name : Option String := none
  parent : Option String := none
  uuid : Option String := none
  annotations : Option (Dictionary String) := none

/-- Metadata from its fields; a missing one is empty. -/
def Fields.toMetadata (f : Fields) : Metadata :=
  ⟨f.name.getD "", f.parent.getD "", f.uuid.getD "", f.annotations.getD .empty⟩

/-- A member of metadata. -/
def member (key : String) (f : Fields) : Reader Fields := fun limit s =>
  if key = "name" then
    (fieldOnce "name" f.name text limit s).map fun (v, s) => ({ f with name := v }, s)
  else if key = "parent" then
    (fieldOnce "parent" f.parent text limit s).map fun (v, s) => ({ f with parent := v }, s)
  else if key = "uuid" then
    (fieldOnce "uuid" f.uuid text limit s).map fun (v, s) => ({ f with uuid := v }, s)
  else if key = "annotations" then
    (fieldOnce "annotations" f.annotations (mapOf text) limit s).map fun (v, s) =>
      ({ f with annotations := v }, s)
  else passOver f limit s

/-- Metadata written as an object. -/
def fromObject : Reader Metadata := fun limit s =>
  (members member {} limit s).map fun (f, s) => (f.toMetadata, s)

/-- Metadata written as an array. -/
def fromArray : Reader Metadata := fun limit s => do
  let (name, s) ← optionalItem true text limit s
  let (parent, s) ← optionalItem false text limit s
  let (uuid, s) ← optionalItem false text limit s
  let (annotations, s) ← optionalItem false (mapOf text) limit s
  .ok (Fields.toMetadata ⟨name, parent, uuid, annotations⟩, s)

/-- The metadata at the start of a text. -/
def reader : Reader Metadata := record "Metadata" fromObject fromArray

end Metadata

/-! ## 2. Aliases -/

namespace Alias

/-- The value of an alias. -/
def toJson (a : Alias) : Json := .obj [("meta", a.metadata.toJson), ("resource", .str a.resource)]

/-- The fields of an alias that were read so far. -/
structure Fields where
  metadata : Option Metadata := none
  resource : Option String := none

/-- An alias from its fields; a missing one is empty. -/
def Fields.toAlias (f : Fields) : Alias := ⟨f.metadata.getD {}, f.resource.getD ""⟩

/-- A member of an alias. -/
def member (key : String) (f : Fields) : Reader Fields := fun limit s =>
  if key = "meta" then
    (fieldOnce "meta" f.metadata Metadata.reader limit s).map fun (v, s) =>
      ({ f with metadata := v }, s)
  else if key = "resource" then
    (fieldOnce "resource" f.resource text limit s).map fun (v, s) => ({ f with resource := v }, s)
  else passOver f limit s

/-- An alias written as an object. -/
def fromObject : Reader Alias := fun limit s =>
  (members member {} limit s).map fun (f, s) => (f.toAlias, s)

/-- An alias written as an array. -/
def fromArray : Reader Alias := fun limit s => do
  let (metadata, s) ← optionalItem true Metadata.reader limit s
  let (resource, s) ← optionalItem false text limit s
  .ok (Fields.toAlias ⟨metadata, resource⟩, s)

/-- The alias at the start of a text. -/
def reader : Reader Alias := record "Alias" fromObject fromArray

end Alias

/-! ## 3. Differences -/

namespace Difference

/-- The value of a difference. -/
def toJson (d : Difference) : Json :=
  .obj [("field", .str d.field), ("from", .str d.before), ("to", .str d.after)]

/-- The fields of a difference that were read so far. -/
structure Fields where
  field : Option String := none
  before : Option String := none
  after : Option String := none

/-- A member of a difference. -/
def member (key : String) (f : Fields) : Reader Fields := fun limit s =>
  if key = "field" then
    (fieldOnce "field" f.field text limit s).map fun (v, s) => ({ f with field := v }, s)
  else if key = "from" then
    (fieldOnce "from" f.before text limit s).map fun (v, s) => ({ f with before := v }, s)
  else if key = "to" then
    (fieldOnce "to" f.after text limit s).map fun (v, s) => ({ f with after := v }, s)
  else passOver f limit s

/-- A difference written as an object. -/
def fromObject : Reader Difference := fun limit s => do
  let (f, s) ← members member {} limit s
  let field ← required "field" f.field
  let before ← required "from" f.before
  let after ← required "to" f.after
  .ok (⟨field, before, after⟩, s)

/-- A field of a difference written as an array, `index` of them in front of it. -/
def item (index : Nat) : Reader String := fun limit s => do
  let (v, s) ← optionalItem (index == 0) text limit s
  match v with
  | some v => .ok (v, s)
  | none => .error (.mismatch (.tooShort index "Difference" 3))

/-- A difference written as an array. -/
def fromArray : Reader Difference := fun limit s => do
  let (field, s) ← item 0 limit s
  let (before, s) ← item 1 limit s
  let (after, s) ← item 2 limit s
  .ok (⟨field, before, after⟩, s)

/-- The difference at the start of a text. -/
def reader : Reader Difference := record "Difference" fromObject fromArray

end Difference

/-! ## 4. Changes -/

namespace Change

/-- The value of a change. -/
def toJson (c : Change) : Json :=
  .obj [("context", .str c.context), ("diff", .arr (c.differences.map Difference.toJson))]

/-- The fields of a change that were read so far. -/
structure Fields where
  context : Option String := none
  differences : Option (List Difference) := none

/-- A member of a change. -/
def member (key : String) (f : Fields) : Reader Fields := fun limit s =>
  if key = "context" then
    (fieldOnce "context" f.context text limit s).map fun (v, s) => ({ f with context := v }, s)
  else if key = "diff" then
    (fieldOnce "diff" f.differences (listOf Difference.reader) limit s).map fun (v, s) =>
      ({ f with differences := v }, s)
  else passOver f limit s

/-- A change written as an object. -/
def fromObject : Reader Change := fun limit s => do
  let (f, s) ← members member {} limit s
  let context ← required "context" f.context
  .ok (⟨context, f.differences.getD []⟩, s)

/-- A change written as an array. -/
def fromArray : Reader Change := fun limit s => do
  let (context, s) ← optionalItem true text limit s
  match context with
  | none => .error (.mismatch (.tooShort 0 "Change" 2))
  | some context =>
    let (differences, s) ← optionalItem false (listOf Difference.reader) limit s
    .ok (⟨context, differences.getD []⟩, s)

/-- The change at the start of a text. -/
def reader : Reader Change := record "Change" fromObject fromArray

end Change

namespace Changelog

/-- The value of a log of changes. -/
def toJson (l : Changelog) : Json := .arr (l.map Change.toJson)

/-- The log of changes at the start of a text. -/
def reader : Reader Changelog := listOf Change.reader

end Changelog
end MeshNode
