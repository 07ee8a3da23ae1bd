import TypedConfig.Value.Basic

/-!
# Schemas

A schema has slots, each backed by a section, and a section has keys. Every slot and key has two
names: the identifier it is read back by, and the name it has in configuration files.
-/
namespace TypedConfig

/-!
## Types of configuration values

A type is a scalar type, tested on a value as a whole, or one of three containers around other types.
Integers are not floats and booleans are not integers: a scalar type accepts its own kind only.
-/

/-- A named type of the schema's own, which accepts what its test accepts. -/
structure CustomType where
  name : String
  accepts : Value → Bool

/-- Types that look at a value's kind only, and custom ones. -/
inductive ScalarType where
  | boolean
  | integer
  | float
  | string
  | anySequence
  | anyMapping
  | custom (type : CustomType)

namespace ScalarType

def name : ScalarType → String
  | .boolean => "boolean"
  | .integer => "integer"
  | .float => "float"
  | .string => "string"
  | .anySequence => "sequence"
  | .anyMapping => "mapping"
  | .custom type => type.name

def accepts : ScalarType → Value → Bool
  | .boolean, .boolean _ => true
  | .integer, .integer _ => true
  | .float, .float _ => true
  | .string, .string _ => true
  | .anySequence, .sequence _ => true
  | .anyMapping, .mapping _ => true
  | .custom type, v => type.accepts v
  | _, _ => false

end ScalarType

/-- The shape that a schema asks of a value. -/
inductive TypeDescriptor where
  | scalar (type : ScalarType)
  /-- Null or a value of the inner type. -/
  | optional (inner : TypeDescriptor)
  | sequence (item : TypeDescriptor)
  | mapping (key value : TypeDescriptor)

namespace TypeDescriptor

def boolean : TypeDescriptor := .scalar .boolean
def integer : TypeDescriptor := .scalar .integer
def float : TypeDescriptor := .scalar .float
def string : TypeDescriptor := .scalar .string
def anySequence : TypeDescriptor := .scalar .anySequence
def anyMapping : TypeDescriptor := .scalar .anyMapping

/-- The name of a type, with the types inside a container in square brackets. -/
def text : TypeDescriptor → String
  | .scalar type => type.name
  | .optional inner => "Optional[" ++ inner.text ++ "]"
  | .sequence item => "Sequence[" ++ item.text ++ "]"
  | .mapping key value => "Mapping[" ++ key.text ++ ", " ++ value.text ++ "]"

def scalar? : TypeDescriptor → Option ScalarType
  | .scalar type => some type
  | _ => none

end TypeDescriptor

/-!
## Declarations

An ordered table of items under distinct identifiers. Declaring an identifier again replaces its item
in place. A table inherits from a parent by taking over the parent's items first; its own items win
over inherited ones and keep the parent's places.
-/

/-- Items in order of declaration, under distinct identifiers. -/
structure Declarations (α : Type) where
  entries : List (String × α)
  distinct : (entries.map Prod.fst).Nodup

namespace Declarations
variable {α : Type}

/-- Puts an item under an identifier, in place of the one it has or at the end. -/
def put (id : String) (item : α) : List (String × α) → List (String × α)
  | [] => [(id, item)]
  | (i, x) :: rest => if i = id then (i, item) :: rest else (i, x) :: put id item rest

theorem mem_map_fst_put {id j : String} {item : α} (entries : List (String × α)) :
    j ∈ (put id item entries).map Prod.fst ↔ j = id ∨ j ∈ entries.map Prod.fst := by
  induction entries with
  | nil => simp [put]
  | cons e rest ih =>
    obtain ⟨i, x⟩ := e
    by_cases h : i = id
    · subst h; simp [put]
    · simp only [put, if_neg h, List.map_cons, List.mem_cons, ih]
      grind

theorem nodup_put {id : String} {item : α} {entries : List (String × α)}
    (distinct : (entries.map Prod.fst).Nodup) : ((put id item entries).map Prod.fst).Nodup := by
  induction entries with
  | nil => simp [put]
  | cons e rest ih =>
    obtain ⟨i, x⟩ := e
    rw [List.map_cons, List.nodup_cons] at distinct
    by_cases h : i = id
    · simp only [put, if_pos h, List.map_cons, List.nodup_cons]
      exact distinct
    · simp only [put, if_neg h, List.map_cons, List.nodup_cons]
      refine ⟨fun member => ?_, ih distinct.2⟩
      rcases (mem_map_fst_put rest).1 member with same | inside
      · exact h same
      · exact distinct.1 inside

/-- No items. -/
def empty : Declarations α := ⟨[], List.nodup_nil⟩

/-- The table with an item declared under an identifier. -/
def declare (d : Declarations α) (id : String) (item : α) : Declarations α :=
  ⟨put id item d.entries, nodup_put d.distinct⟩

/-- The parent's items, with the table's own items declared over them in order. -/
def inherit (d parent : Declarations α) : Declarations α :=
  d.entries.foldl (fun table entry => table.declare entry.1 entry.2) parent

/-- The item under an identifier. -/
def find? (d : Declarations α) (id : String) : Option α :=
  (d.entries.find? fun entry => entry.1 == id).map Prod.snd

def ids (d : Declarations α) : List String := d.entries.map Prod.fst

def size (d : Declarations α) : Nat := d.entries.length

end Declarations

/-! ## Sections and slots -/

/-- A configurable field. -/
structure Key where
  /-- The name in configuration files. -/
  name : String
  type : TypeDescriptor

/-- A named group of keys. -/
structure Section where
  /-- The name in configuration files. -/
  name : String
  keys : Declarations Key

namespace Section

def empty (name : String) : Section := ⟨name, .empty⟩

/-- The section with a key declared under an identifier. -/
def declare (s : Section) (id : String) (key : Key) : Section := { s with keys := s.keys.declare id key }

/-- The section with the keys of a parent inherited; its own keys win. -/
def extend (s parent : Section) : Section := { s with keys := s.keys.inherit parent.keys }

end Section

/-- The sections of a configuration, under the identifiers of their slots. -/
structure Schema where
  slots : Declarations Section

namespace Schema

def empty : Schema := ⟨.empty⟩

/-- The schema with a section declared under a slot's identifier. -/
def declare (s : Schema) (id : String) (sectionSchema : Section) : Schema := ⟨s.slots.declare id sectionSchema⟩

/-- The schema with the slots of a parent inherited; its own slots win. -/
def extend (s parent : Schema) : Schema := ⟨s.slots.inherit parent.slots⟩

/-- The sections in order of declaration. -/
def sections (s : Schema) : List Section := s.slots.entries.map Prod.snd

end Schema

end TypedConfig
