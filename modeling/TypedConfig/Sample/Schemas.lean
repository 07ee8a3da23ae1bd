import TypedConfig.Schema.Basic

/-!
# Sample schemas

A schema of one slot, one of two slots, and some custom types.
-/
namespace TypedConfig.Sample

/-- One slot of one key, each with an identifier other than its name in files. -/
def parma : Schema :=
  Schema.empty.declare "asor" ((Section.empty "parma").declare "culex" ⟨"chatty", .integer⟩)

def server : Section :=
  (Section.empty "server").declare "host" ⟨"host", .string⟩ |>.declare "port" ⟨"port", .integer⟩

def database : Section :=
  (Section.empty "db").declare "url" ⟨"url", .string⟩
    |>.declare "pool_size" ⟨"pool_size", .optional .integer⟩
    |>.declare "replicas" ⟨"replicas", .sequence .string⟩

/-- A server and a database. -/
def service : Schema := (Schema.empty.declare "server" server).declare "database" database

/-- The schema with a name. -/
def schema? (name : String) : Option Schema :=
  match name with
  | "empty" => some .empty
  | "parma" => some parma
  | "service" => some service
  | _ => none

/-- The test of custom types with a name. -/
def test? (name : String) : Option (Value → Bool) :=
  match name with
  | "port" => some fun
    | .integer n => 1 ≤ n ∧ n ≤ 65535
    | _ => false
  | "nonempty" => some fun
    | .string s => !s.isEmpty
    | _ => false
  | "number" => some fun
    | .integer _ => true
    | .float _ => true
    | _ => false
  | "pair" => some fun
    | .sequence [_, _] => true
    | _ => false
  | "any" => some fun _ => true
  | "never" => some fun _ => false
  | _ => none

end TypedConfig.Sample
