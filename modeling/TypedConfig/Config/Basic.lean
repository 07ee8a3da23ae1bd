import TypedConfig.Validation

/-!
# Configurations

A configuration is a schema and, once it is bound, the values of its sections. It is bound at most
once: `store` refuses a configuration that has values.
-/
namespace TypedConfig

/-!
## The values of a section

Values are read back by the identifiers of their keys.
-/

/-- The values of one section, under the identifiers of its keys. -/
structure SectionValue where
  name : String
  values : List (String × Value)

namespace SectionValue

/-- The values that a section's data has for keys, or the first of them that it lacks. -/
def collect (sectionName : String) (data : Mapping) :
    List (String × Key) → Except Failure (List (String × Value))
  | [] => .ok []
  | (id, key) :: rest =>
    match data.get? key.name with
    | some value => do return (id, value) :: (← collect sectionName data rest)
    | none => .error (.missingEntry (sectionName ++ "[" ++ key.name ++ "]"))

/-- The values that data has for the keys of a section. -/
def ofData (s : Section) (data : Mapping) : Except Failure SectionValue := do
  return ⟨s.name, ← collect s.name data s.keys.entries⟩

/-- The value of the key with an identifier. -/
def get (s : SectionValue) (id : String) : Except Failure Value :=
  match s.values.find? fun entry => entry.1 == id with
  | some entry => .ok entry.2
  | none => .error (.unknownKey s.name id)

/-- The value of a key, read as a type. -/
def getAs {α : Type} (s : SectionValue) (id : String) (decoder : Decoder α) : Except Failure α := do
  match (← s.get id).decode decoder with
  | .ok a => return a
  | .error fault => throw (.invalidValue (s.name ++ "[" ++ id ++ "]") fault)

/-- The section as one mapping from identifiers to values. -/
def mapping (s : SectionValue) : Mapping :=
  Mapping.ofPairs (s.values.map fun entry => (.string entry.1, entry.2))

/-- The whole section, read as a type. -/
def decode {α : Type} (s : SectionValue) (decoder : Decoder α) : Except Failure α :=
  match (Value.mapping s.mapping).decode decoder with
  | .ok a => .ok a
  | .error fault => .error (.invalidValue s.name fault)

/-- Equality of sections, identifiers and values in order. -/
def equal (a b : SectionValue) : Bool :=
  a.name == b.name && a.values == b.values

end SectionValue

/-! ## Binding -/

/-- The values of the sections of a configuration, under the identifiers of their slots. -/
abbrev Bindings := List (String × SectionValue)

/-- A schema and, once bound, the values of its sections. -/
structure Config where
  schema : Schema
  bound : Option Bindings

namespace Config

/-- A configuration that is not bound. -/
def ofSchema (schema : Schema) : Config := ⟨schema, none⟩

def isInitialized (c : Config) : Bool := c.bound.isSome

/-- Fails if the configuration is bound. -/
def requireUnbound (c : Config) : Except Failure Unit :=
  if c.isInitialized then .error .alreadyInitialized else .ok ()

/-- The values that composed data has for slots, or the first fault in order of declaration. -/
def bindings (composed : Mapping) : List (String × Section) → Except Failure Bindings
  | [] => .ok []
  | (id, s) :: rest =>
    match (composed.get? s.name).bind Value.mapping? with
    | some data => do
      let values ← SectionValue.ofData s data
      return (id, values) :: (← bindings composed rest)
    | none => .error (.missingEntry s.name)

/-- The configuration with values stored in it, unless it has some. -/
def store (c : Config) (values : Bindings) : Except Failure Config :=
  match c.bound with
  | none => .ok { c with bound := some values }
  | some _ => .error .alreadyInitialized

/-- The configuration bound to composed data. -/
def bind (c : Config) (composed : Mapping) : Traced Config := do
  Traced.lift c.requireUnbound
  let values ← Traced.lift (bindings composed c.schema.slots.entries)
  let after ← Traced.lift (c.store values)
  Traced.note (.bound c.schema.slots.size)
  return after

/-- Every violation of a document for a variant. -/
def validate (schema : Schema) (data : Value) (variant separator : String) : Traced (List Violation) := do
  let found := Validation.violations schema data variant separator
  Traced.note (.validated variant found.length)
  return found

/-- The configuration bound to the data that a document selects for a variant, if all of it is valid. -/
def init (c : Config) (data : Value) (variant separator : String) : Traced Config := do
  Traced.lift c.requireUnbound
  let found ← validate c.schema data variant separator
  if found.isEmpty then
    let composed ← Traced.lift (Composition.composeDeclared c.schema data variant separator)
    c.bind composed
  else Traced.fail (.invalid found)

/-- The values of the slot with an identifier. -/
def sectionValue (c : Config) (id : String) : Except Failure SectionValue :=
  match c.bound with
  | none => .error .notInitialized
  | some values =>
    match values.find? fun entry => entry.1 == id with
    | some entry => .ok entry.2
    | none => .error (.unknownSection id)

/-- The value of a key of a slot. -/
def get (c : Config) (sectionId keyId : String) : Except Failure Value := do
  (← c.sectionValue sectionId).get keyId

end Config

end TypedConfig
