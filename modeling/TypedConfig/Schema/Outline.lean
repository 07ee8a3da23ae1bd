import TypedConfig.Config.Basic
import TypedConfig.Text

/-!
# The outline of a configuration

A text on one line that tells a configuration's schema and whether it is bound, for diagnostics.
-/
namespace TypedConfig

namespace ScalarType

def outline : ScalarType → String
  | .boolean => "Boolean"
  | .integer => "Integer"
  | .float => "Float"
  | .string => "String"
  | .anySequence => "AnySequence"
  | .anyMapping => "AnyMapping"
  | .custom type => "Custom(" ++ Text.quoted type.name ++ ")"

end ScalarType

namespace TypeDescriptor

def outline : TypeDescriptor → String
  | .scalar type => "Scalar(" ++ type.outline ++ ")"
  | .optional inner => "Optional(" ++ inner.outline ++ ")"
  | .sequence item => "Sequence(" ++ item.outline ++ ")"
  | .mapping key value => "Mapping(" ++ key.outline ++ ", " ++ value.outline ++ ")"

end TypeDescriptor

namespace Outline

/-- A name and the texts of fields between braces. -/
def record (name : String) (fields : List (String × String)) : String :=
  name ++ " \x7b " ++ ", ".intercalate (fields.map fun field => field.1 ++ ": " ++ field.2) ++ " \x7d"

/-- The items of a table as pairs of identifier and text. -/
def table {α : Type} (text : α → String) (d : Declarations α) : String :=
  "[" ++ ", ".intercalate (d.entries.map fun entry => "(" ++ Text.quoted entry.1 ++ ", " ++ text entry.2 ++ ")")
    ++ "]"

def key (k : Key) : String := record "Key" [("name", Text.quoted k.name), ("ty", k.type.outline)]

def sectionText (s : Section) : String := record "Section" [("name", Text.quoted s.name), ("keys", table key s.keys)]

def schema (s : Schema) : String := record "Compose" [("sections", table sectionText s.slots)]

end Outline

/-- The outline of a configuration. -/
def Config.outline (c : Config) : String :=
  Outline.record "Config" [("schema", Outline.schema c.schema), ("initialized", toString c.isInitialized)]

end TypedConfig
