import TypedConfig.Config.Derived

/-!
# Sample derived values

Derived values of the sample schemas, and sessions in which several configurations share them. Each
computation first counts itself, so a session can tell how often it ran.
-/
namespace TypedConfig.Sample
open Derived (Computation)

/-- The derived values. -/
inductive DerivedName where
  /-- The integer of the one-key schema, plus one. -/
  | plus
  /-- Twice `plus`. -/
  | next
  /-- The address and the replicas of the database. -/
  | dsn
  /-- Fails the first time it is computed. -/
  | flaky
  /-- Asks for itself while it is computed. -/
  | reentrant
deriving DecidableEq, Repr

namespace DerivedName

def all : List DerivedName := [.plus, .next, .dsn, .flaky, .reentrant]

def name : DerivedName → String
  | .plus => "plus"
  | .next => "next"
  | .dsn => "dsn"
  | .flaky => "flaky"
  | .reentrant => "reentrant"

/-- The type of a derived value. -/
abbrev Carrier : DerivedName → Type
  | .dsn => String
  | _ => Int64

end DerivedName

/-- How often each computation ran. -/
abbrev Counts := DerivedName → Nat

abbrev Compute (α : Type) := Computation DerivedName.Carrier Counts α

/-- Counts a computation, and tells how often it ran then. -/
def tick (d : DerivedName) : Compute Nat := do
  let s ← get
  let count := s.own d + 1
  set { s with own := fun e => if e = d then count else s.own e }
  return count

/-- The integer of the one-key schema. -/
def culex (c : Config) : Except Failure Int64 := do
  (← c.sectionValue "asor").getAs "culex" .int64

def plus (c : Config) : Compute Int64 :=
  Derived.read c DerivedName.plus do
    let _ ← tick .plus
    return (← culex c) + 1

def next (c : Config) : Compute Int64 :=
  Derived.read c DerivedName.next do
    let _ ← tick .next
    return (← plus c) * 2

def dsn (c : Config) : Compute String :=
  Derived.read c DerivedName.dsn do
    let _ ← tick .dsn
    let database ← c.sectionValue "database"
    let url ← database.getAs "url" .string
    let replicas ← database.getAs "replicas" (.list .string)
    return url ++ "|" ++ ",".intercalate replicas

def flaky (c : Config) : Compute Int64 :=
  Derived.read c DerivedName.flaky do
    let count ← tick .flaky
    if count = 1 then throw (.missingEntry "flaky")
    return (← culex c) * 100 + Int64.ofNat count

/-- The inner of the two computations of `reentrant`. -/
def reentrantInside (c : Config) : Compute Int64 :=
  Derived.read c DerivedName.reentrant do
    let _ ← tick .reentrant
    culex c

def reentrant (c : Config) : Compute Int64 :=
  Derived.read c DerivedName.reentrant do
    let _ ← tick .reentrant
    return (← reentrantInside c) * 10 + 1

/-- The derived value of a configuration, under its name. -/
def compute (c : Config) : (d : DerivedName) → Compute d.Carrier
  | .plus => plus c
  | .next => next c
  | .dsn => dsn c
  | .flaky => flaky c
  | .reentrant => reentrant c

/-- A configuration with the derived values kept with it. -/
structure Instance where
  config : Config
  cache : Derived.Cache DerivedName.Carrier

/-- Configurations that share derived values. -/
structure Session where
  instances : List Instance
  numbering : Derived.Numbering DerivedName
  counts : Counts

namespace Session

/-- A session of configurations that are not bound. -/
def ofSchemas (schemas : List Schema) : Session :=
  ⟨schemas.map fun schema => ⟨.ofSchema schema, []⟩, .empty, fun _ => 0⟩

/-- The session with a configuration in place of another. -/
def setConfig (s : Session) (i : Nat) (c : Config) : Session :=
  { s with instances := s.instances.modify i fun each => { each with config := c } }

/-- A derived value of a configuration, and the session then. -/
def read (s : Session) (i : Nat) (each : Instance) (d : DerivedName) :
    Except Failure d.Carrier × Session :=
  let (result, state) := (compute each.config d).run ⟨s.numbering, each.cache, s.counts⟩
  (result, {
    instances := s.instances.modify i fun each => { each with cache := state.cache }
    numbering := state.numbering
    counts := state.own })

end Session

end TypedConfig.Sample
