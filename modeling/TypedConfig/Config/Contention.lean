import TypedConfig.Config.Basic

/-!
# Binding from several places at once

Callers that bind one configuration take steps in any order. The tests whether the configuration is
bound and the storing of values are single steps; between them a caller works on its own data only.
-/
namespace TypedConfig.Contention

/-- What a caller wants. -/
inductive Request where
  | bind (composed : Mapping)
  | init (data : Value) (variant separator : String)

/-- Where a caller stands. -/
inductive Caller where
  /-- Nothing is done yet. -/
  | waiting (request : Request)
  /-- The configuration was not bound when the document was to be checked. -/
  | checking (data : Value) (variant separator : String)
  /-- The data is composed. -/
  | composed (data : Mapping)
  /-- The configuration was not bound when the values were to be built. -/
  | building (data : Mapping)
  /-- The values are built. -/
  | storing (values : Bindings)
  | finished (result : Except Failure Unit)

/-- The step of a caller that first asks whether the configuration is bound. -/
def Caller.admitted (c : Config) (next : Caller) : Caller :=
  match c.requireUnbound with
  | .ok () => next
  | .error failure => .finished (.error failure)

/-- One step of a caller: where it stands then, the configuration, and the notes made. -/
def Caller.step (c : Config) : Caller → Caller × Config × List Note
  | .waiting (.bind data) => (Caller.admitted c (.building data), c, [])
  | .waiting (.init data variant separator) =>
    (Caller.admitted c (.checking data variant separator), c, [])
  | .checking data variant separator =>
    let found := Validation.violations c.schema data variant separator
    let next : Caller :=
      if found.isEmpty then
        match Composition.composeDeclared c.schema data variant separator with
        | .ok m => .composed m
        | .error failure => .finished (.error failure)
      else .finished (.error (.invalid found))
    (next, c, [.validated variant found.length])
  | .composed data => (Caller.admitted c (.building data), c, [])
  | .building data =>
    match Config.bindings data c.schema.slots.entries with
    | .ok values => (.storing values, c, [])
    | .error failure => (.finished (.error failure), c, [])
  | .storing values =>
    match c.store values with
    | .ok after => (.finished (.ok ()), after, [.bound c.schema.slots.size])
    | .error failure => (.finished (.error failure), c, [])
  | .finished result => (.finished result, c, [])

/-- A configuration, the callers that bind it, and the notes made so far. -/
structure Contest where
  config : Config
  callers : List Caller
  notes : List Note

namespace Contest

/-- The contest after the caller at a position has taken a step. -/
def step (s : Contest) (i : Nat) : Contest :=
  match s.callers[i]? with
  | none => s
  | some caller =>
    let (next, config, notes) := caller.step s.config
    ⟨config, s.callers.set i next, s.notes ++ notes⟩

/-- The contest after the steps of a schedule. -/
def run (s : Contest) (schedule : List Nat) : Contest := schedule.foldl step s

/-- Each caller in turn, as often as the longest way takes. -/
def rounds (s : Contest) : List Nat := (List.replicate 5 (List.range s.callers.length)).flatten

/-- How many callers have succeeded. -/
def successes (s : Contest) : Nat :=
  (s.callers.filter fun
    | .finished (.ok ()) => true
    | _ => false).length

end Contest

/-- Several callers bind the same data, each in turn: how many succeed, and the configuration then. -/
def bindTogether (c : Config) (composed : Mapping) (callers : Nat) : Contest :=
  let start : Contest := ⟨c, List.replicate callers (.waiting (.bind composed)), []⟩
  start.run start.rounds

end TypedConfig.Contention
