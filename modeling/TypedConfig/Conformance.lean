import TypedConfig.Schema.Basic

/-!
# Checking a value against a type

The walk goes down a value and a type together and records every node whose value is not of its type.
Nothing below such a node is looked at; all its siblings are. A violation's message begins with the
route from the checked value to the node.
-/
namespace TypedConfig

/-!
## Violations

A violation is one problem in configuration data: where it is and what it is. A report lists
violations in the order in which they were found, one below the other.
-/

/-- A place in the configuration: the whole document, a section, or one key. -/
structure Context where
  sectionName : Option String
  keyName : Option String
deriving DecidableEq, Repr

namespace Context

/-- The whole document. -/
def root : Context := ⟨none, none⟩

def ofSection (name : String) : Context := ⟨some name, none⟩

def ofKey (sectionName keyName : String) : Context := ⟨some sectionName, some keyName⟩

def text : Context → String
  | ⟨some s, some k⟩ => s ++ "[" ++ k ++ "]"
  | ⟨some s, none⟩ => s
  | ⟨none, some k⟩ => "<config>[" ++ k ++ "]"
  | ⟨none, none⟩ => "<config>"

end Context

/-- One problem in configuration data. -/
structure Violation where
  context : Context
  message : String
deriving DecidableEq, Repr

namespace Violation

def text (v : Violation) : String := v.context.text ++ " => " ++ v.message

/-- The line of a violation in a report. -/
def line (v : Violation) : String := " - " ++ v.text

/-- The lines of a list of violations, with a line break between any two. -/
def report (vs : List Violation) : String := "\n".intercalate (vs.map line)

end Violation

/-! ## The walk -/

/-- One step from a container to a part of it. An entry's key and value are both reached by its key. -/
inductive Step where
  | index (i : Nat)
  | key (k : Value)

namespace Step

def segment : Step → String
  | .index i => "[" ++ toString i ++ "]"
  | .key k => "[" ++ k.literal ++ "]"

end Step

/-- The steps from the checked value to a node. -/
abbrev Route := List Step

/-- The segments of a route, one after the other. -/
def Route.text (route : Route) : String := String.join (route.map Step.segment)

namespace Conformance

/-- What a mismatch says: the kind that was found and the type that was expected there. -/
def mismatch (route : Route) (value : Value) (expected : TypeDescriptor) : String :=
  let found := "\"" ++ value.typeName ++ "\" instead of \"" ++ expected.text ++ "\""
  if route.isEmpty then found else route.text ++ " - " ++ found

/-- Where a walk stands, and what it has found so far. -/
structure Walk where
  route : Route
  found : List Violation

namespace Walk

/-- Records a mismatch at the node where the walk stands. -/
def fail (context : Context) (value : Value) (expected : TypeDescriptor) (w : Walk) : Walk :=
  { w with found := w.found ++ [⟨context, mismatch w.route value expected⟩] }

/-- Takes a step, does some work there and steps back. -/
def descend (step : Step) (work : Walk → Walk) (w : Walk) : Walk :=
  let after := work { w with route := w.route ++ [step] }
  { after with route := after.route.dropLast }

/-- Works on the elements of a sequence in order, the first of which has the index `i`. -/
def items (work : Value → Walk → Walk) : Nat → List Value → Walk → Walk
  | _, [], w => w
  | i, v :: vs, w => items work (i + 1) vs (w.descend (.index i) (work v))

/-- Works on the entries of a mapping in order, on each key before its value. -/
def entries (onKey onValue : Value → Walk → Walk) : Mapping → Walk → Walk
  | [], w => w
  | (k, v) :: es, w =>
    entries onKey onValue es ((w.descend (.key k) (onKey k)).descend (.key k) (onValue v))

/-- Walks a value and a type. `shown` is the type that a mismatch at this node names: an optional type
    is transparent to the check, but keeps its own name in messages. -/
def visit (context : Context) : TypeDescriptor → TypeDescriptor → Value → Walk → Walk
  | .scalar type, shown, value, w => if type.accepts value then w else w.fail context value shown
  | .optional inner, shown, value, w => if value.isNull then w else visit context inner shown value w
  | .sequence item, shown, value, w =>
    match value with
    | .sequence vs => items (visit context item item) 0 vs w
    | _ => w.fail context value shown
  | .mapping keyType valueType, shown, value, w =>
    match value with
    | .mapping es => entries (visit context keyType keyType) (visit context valueType valueType) es w
    | _ => w.fail context value shown

end Walk

/-- The violations of a list followed by those of a value against a type. -/
def checkInto (context : Context) (value : Value) (type : TypeDescriptor) (found : List Violation) :
    List Violation :=
  (Walk.visit context type type value ⟨[], found⟩).found

/-- Every mismatch of a value against a type. -/
def check (context : Context) (value : Value) (type : TypeDescriptor) : List Violation :=
  checkInto context value type []

end Conformance

end TypedConfig
