import TypedConfig.Failure

/-!
# Validation and composition
-/
namespace TypedConfig

/-!
## Validation

The document's entry `compose<separator><variant>` selects, for each section of the schema, a label,
and the entry `<section><separator><label>` holds that section's data. Data is checked level by level:
the document, the selection, and each section in order of declaration. Within a level problems add up.
-/

/-- The name of the entry that selects the sections of a variant. -/
def selectionName (variant separator : String) : String := "compose" ++ separator ++ variant

/-- The name of the entry that holds a section's data under a label. -/
def entryName (sectionName separator label : String) : String := sectionName ++ separator ++ label

namespace Validation
open Conformance (checkInto)

/-- Adds the problem of one key of a section's data, if it has one. -/
def validateKey (entries : Mapping) (fullName : String) (found : List Violation) (key : Key) : List Violation :=
  let context := Context.ofKey fullName key.name
  match Mapping.get? entries key.name with
  | some value => checkInto context value key.type found
  | none => found ++ [⟨context, "missing key"⟩]

/-- Adds the problems of a section's data, reported under the name of its entry. -/
def validateSection (sectionSchema : Section) (data : Value) (fullName : String) (found : List Violation) :
    List Violation :=
  match data with
  | .mapping entries => (sectionSchema.keys.entries.map Prod.snd).foldl (validateKey entries fullName) found
  | _ => checkInto (.ofSection fullName) data .anyMapping found

/-- Adds the problems of one section: of its label, of the entry the label selects, and of its data. -/
def validateSlot (root selection : Mapping) (name separator : String) (found : List Violation)
    (sectionSchema : Section) : List Violation :=
  let context := Context.ofKey name sectionSchema.name
  match Mapping.get? selection sectionSchema.name with
  | none => found ++ [⟨context, "missing key"⟩]
  | some (.string label) =>
    let fullName := entryName sectionSchema.name separator label
    match Mapping.get? root fullName with
    | some data => validateSection sectionSchema data fullName found
    | none => found ++ [⟨context, "\"" ++ fullName ++ "\" not found"⟩]
  | some other => checkInto context other .string found

/-- Every problem of a document for one variant. -/
def violations (schema : Schema) (data : Value) (variant separator : String) : List Violation :=
  match data with
  | .mapping root =>
    let name := selectionName variant separator
    match Mapping.get? root name with
    | none => [⟨.ofSection name, "missing section"⟩]
    | some (.mapping selection) => schema.sections.foldl (validateSlot root selection name separator) []
    | some other => checkInto (.ofSection name) other .anyMapping []
  | _ => checkInto .root data .anyMapping []

end Validation

end TypedConfig

/-!
## Composition

Composing a document for a variant gathers the selected data under the sections' names: of every entry
of the selection (`compose`), or of the sections that a schema has (`composeDeclared`).
-/

namespace TypedConfig.Composition

/-- The entry that selects the sections of a variant. -/
def selection (data : Value) (name : String) : Except Failure Mapping :=
  match data.mapping?.bind fun root => (Mapping.get? root name).bind Value.mapping? with
  | some entries => .ok entries
  | none => .error (.missingEntry name)

/-- The data of a section under a label. -/
def sectionData (data : Value) (sectionName separator label : String) : Except Failure Value :=
  let name := entryName sectionName separator label
  match data.mapping?.bind fun root => Mapping.get? root name with
  | some found => .ok found
  | none => .error (.missingEntry name)

/-- Gathers the data of the entries of a selection, in order, over what is gathered already. -/
def gather (data : Value) (name separator : String) : Mapping → Mapping → Except Failure Mapping
  | composed, [] => .ok composed
  | composed, (key, label) :: rest =>
    match key.string?, label.string? with
    | some sectionName, some label => do
      let found ← sectionData data sectionName separator label
      gather data name separator (composed.insert (.string sectionName) found) rest
    | _, _ => .error (.missingEntry (name ++ "[" ++ key.literal ++ "]"))

/-- The data of every selected section, in the order of the selection. -/
def compose (data : Value) (variant separator : String) : Except Failure Mapping := do
  let name := selectionName variant separator
  gather data name separator [] (← selection data name)

/-- Gathers the data of sections, in order, over what is gathered already. -/
def gatherDeclared (data : Value) (name separator : String) (entries : Mapping) :
    Mapping → List Section → Except Failure Mapping
  | composed, [] => .ok composed
  | composed, s :: rest =>
    match (Mapping.get? entries s.name).bind Value.string? with
    | some label => do
      let found ← sectionData data s.name separator label
      gatherDeclared data name separator entries (composed.insert (.string s.name) found) rest
    | none => .error (.missingEntry (name ++ "[" ++ s.name ++ "]"))

/-- The data of the sections of a schema, in order of declaration. -/
def composeDeclared (schema : Schema) (data : Value) (variant separator : String) :
    Except Failure Mapping := do
  let name := selectionName variant separator
  gatherDeclared data name separator (← selection data name) [] schema.sections

end TypedConfig.Composition
