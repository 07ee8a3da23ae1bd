import TypedConfig.Config.Contention

/-!
What one call does to a configuration when nobody else uses it. A caller that is
left alone finishes, and has then done what `Config.bind` or `Config.init` says
(`submit_bind`, `submit_init`). A configuration that is not bound is left as it
was unless the call succeeds, and one that is bound is always left as it was
(`submit_of_unbound`, `submit_of_bound`).
-/
namespace TypedConfig

namespace Traced
variable {α β : Type}

@[simp] theorem result_bind (run : Traced α) (next : α → Traced β) :
    (run >>= next).result = run.result >>= fun a => (next a).result := by
  obtain ⟨notes, result⟩ := run
  cases result <;> rfl

@[simp] theorem result_pure (a : α) : (pure a : Traced α).result = .ok a := rfl

@[simp] theorem result_lift (result : Except Failure α) : (lift result).result = result := rfl

@[simp] theorem result_note (n : Note) : (note n).result = .ok () := rfl

@[simp] theorem result_fail (failure : Failure) : (fail failure : Traced α).result = .error failure := rfl

/-- What follows a run that ends well need only agree on what it ends in. -/
theorem bind_congr_of_ok {run : Traced α} {a : α} (ended : run.result = .ok a)
    {next other : α → Traced β} (same : next a = other a) : run >>= next = run >>= other := by
  obtain ⟨notes, result⟩ := run
  cases ended
  change Traced.mk _ _ = Traced.mk _ _
  rw [same]

end Traced

namespace Contention

/-- How many steps a caller has left at most. -/
def Caller.remaining : Caller → Nat
  | .waiting (.init _ _ _) => 5
  | .checking _ _ _ => 4
  | .waiting (.bind _) => 3
  | .composed _ => 3
  | .building _ => 2
  | .storing _ => 1
  | .finished _ => 0

theorem Caller.remaining_admitted (c : Config) (next : Caller) :
    (Caller.admitted c next).remaining ≤ next.remaining := by
  unfold Caller.admitted
  split
  · exact Nat.le_refl _
  · exact Nat.zero_le _

/-- What a caller was told, once it has finished. -/
def Caller.result? : Caller → Option (Except Failure Unit)
  | .finished result => some result
  | _ => none

theorem Caller.remaining_step (c : Config) (caller : Caller) (unfinished : caller.result? = none) :
    (caller.step c).1.remaining < caller.remaining := by
  cases caller with
  | waiting request =>
    cases request with
    | bind data => exact Nat.lt_of_le_of_lt (Caller.remaining_admitted c _) (by simp [Caller.remaining])
    | init data variant separator =>
      exact Nat.lt_of_le_of_lt (Caller.remaining_admitted c _) (by simp [Caller.remaining])
  | checking data variant separator =>
    simp only [Caller.step]
    split
    · split <;> simp [Caller.remaining]
    · simp [Caller.remaining]
  | composed data => exact Nat.lt_of_le_of_lt (Caller.remaining_admitted c _) (by simp [Caller.remaining])
  | building data =>
    simp only [Caller.step]
    split <;> simp [Caller.remaining]
  | storing values =>
    simp only [Caller.step]
    split <;> simp [Caller.remaining]
  | finished result => simp [Caller.result?] at unfinished

/-- What a caller is told that takes all its steps alone, and the configuration then. -/
def Caller.complete (c : Config) (caller : Caller) : Except Failure Unit × Config :=
  match _told : caller.result? with
  | some result => (result, c)
  | none => complete (caller.step c).2.1 (caller.step c).1
termination_by caller.remaining
decreasing_by exact Caller.remaining_step c caller _told

theorem Caller.complete_finished (c : Config) (result : Except Failure Unit) :
    Caller.complete c (.finished result) = (result, c) := by
  rw [Caller.complete]
  rfl

theorem Caller.complete_step (c : Config) {caller : Caller} (unfinished : caller.result? = none) :
    Caller.complete c caller = Caller.complete (caller.step c).2.1 (caller.step c).1 := by
  rw [Caller.complete]
  split
  · next result told => rw [unfinished] at told; cases told
  · rfl

end Contention

namespace Config
open Contention

/-- What a call is told, and the configuration that it leaves behind. -/
def submit (c : Config) (request : Request) : Except Failure Unit × Config :=
  Caller.complete c (.waiting request)

/-- A run that ends in a configuration, seen by its caller: after a failure the
    configuration is the one that the run began with. -/
def settle (c : Config) : Except Failure Config → Except Failure Unit × Config
  | .ok after => (.ok (), after)
  | .error failure => (.error failure, c)

theorem bind_result (c : Config) (composed : Mapping) :
    (c.bind composed).result =
      c.requireUnbound >>= fun _ => bindings composed c.schema.slots.entries >>= fun values => c.store values := by
  simp only [Config.bind, Traced.result_bind, Traced.result_lift, Traced.result_note, Traced.result_pure]
  congr 1
  funext _
  congr 1
  funext values
  cases c.store values <;> rfl

theorem validate_result (schema : Schema) (data : Value) (variant separator : String) :
    (validate schema data variant separator).result = .ok (Validation.violations schema data variant separator) := rfl

theorem init_result (c : Config) (data : Value) (variant separator : String) :
    (c.init data variant separator).result =
      c.requireUnbound >>= fun _ =>
        if (Validation.violations c.schema data variant separator).isEmpty then
          Composition.composeDeclared c.schema data variant separator >>= fun composed => (c.bind composed).result
        else .error (.invalid (Validation.violations c.schema data variant separator)) := by
  simp only [Config.init, Traced.result_bind, Traced.result_lift, validate_result]
  congr 1
  funext _
  by_cases valid : (Validation.violations c.schema data variant separator).isEmpty = true
  · rw [if_pos valid]
    change (ite _ _ _ : Traced Config).result = _
    rw [if_pos valid, Traced.result_bind, Traced.result_lift]
  · rw [if_neg valid]
    change (ite _ _ _ : Traced Config).result = _
    rw [if_neg valid, Traced.result_fail]

/-- Alone, a caller that has built its values stores them. -/
theorem complete_storing (c : Config) (values : Bindings) :
    Caller.complete c (.storing values) = c.settle (c.store values) := by
  rw [Caller.complete_step c rfl]
  simp only [Caller.step]
  cases c.store values <;> exact Caller.complete_finished _ _

theorem complete_building (c : Config) (composed : Mapping) :
    Caller.complete c (.building composed) =
      c.settle (bindings composed c.schema.slots.entries >>= fun values => c.store values) := by
  rw [Caller.complete_step c rfl]
  simp only [Caller.step]
  cases bindings composed c.schema.slots.entries with
  | error failure => exact Caller.complete_finished c _
  | ok values => exact complete_storing c values

theorem complete_admitted (c : Config) (next : Caller) :
    Caller.complete c (Caller.admitted c next) =
      match c.requireUnbound with
      | .ok () => Caller.complete c next
      | .error failure => (.error failure, c) := by
  unfold Caller.admitted
  cases c.requireUnbound with
  | error failure => exact Caller.complete_finished c _
  | ok _ => rfl

theorem complete_composed (c : Config) (composed : Mapping) :
    Caller.complete c (.composed composed) = c.settle (c.bind composed).result := by
  rw [Caller.complete_step c rfl, bind_result]
  simp only [Caller.step, complete_admitted, complete_building]
  cases c.requireUnbound <;> rfl

/-- A caller that binds, left alone, does what `Config.bind` says. -/
theorem submit_bind (c : Config) (composed : Mapping) :
    c.submit (.bind composed) = c.settle (c.bind composed).result := by
  unfold submit
  rw [Caller.complete_step c rfl, bind_result]
  simp only [Caller.step, complete_admitted, complete_building]
  cases c.requireUnbound <;> rfl

/-- A caller that initializes, left alone, does what `Config.init` says. -/
theorem submit_init (c : Config) (data : Value) (variant separator : String) :
    c.submit (.init data variant separator) = c.settle (c.init data variant separator).result := by
  unfold submit
  rw [Caller.complete_step c rfl, init_result]
  simp only [Caller.step, complete_admitted]
  cases c.requireUnbound with
  | error failure => rfl
  | ok _ =>
    dsimp only
    rw [Caller.complete_step c rfl]
    simp only [Caller.step]
    by_cases valid : (Validation.violations c.schema data variant separator).isEmpty = true
    · simp only [valid, ↓reduceIte]
      cases Composition.composeDeclared c.schema data variant separator with
      | error failure => exact Caller.complete_finished c _
      | ok composed => exact complete_composed c composed
    · simp only [valid]
      exact Caller.complete_finished c _

theorem bind_ofSchema (schema : Schema) (composed : Mapping) :
    ((ofSchema schema).bind composed).result =
      (bindings composed schema.slots.entries).map fun values => ⟨schema, some values⟩ := by
  rw [bind_result]
  change (bindings composed schema.slots.entries >>= fun values => (ofSchema schema).store values) = _
  cases bindings composed schema.slots.entries <;> rfl

theorem init_ofSchema (schema : Schema) (data : Value) (variant separator : String) :
    ((ofSchema schema).init data variant separator).result =
      if Validation.violations schema data variant separator = [] then
        Composition.composeDeclared schema data variant separator >>= fun composed =>
          (bindings composed schema.slots.entries).map fun values => ⟨schema, some values⟩
      else .error (.invalid (Validation.violations schema data variant separator)) := by
  rw [init_result]
  change (if (Validation.violations schema data variant separator).isEmpty then _ else _) = _
  simp only [bind_ofSchema, List.isEmpty_iff]
  rfl

/-- Every call on a bound configuration is refused. -/
theorem submit_of_bound {c : Config} (bound : c.isInitialized = true) (request : Request) :
    c.submit request = (.error .alreadyInitialized, c) := by
  have refused : c.requireUnbound = .error .alreadyInitialized := by simp [requireUnbound, bound]
  cases request with
  | bind composed => rw [submit_bind, bind_result, refused]; rfl
  | init data variant separator => rw [submit_init, init_result, refused]; rfl

/-- A call on a configuration that is not bound either binds it to values for all of its
    slots, or fails and leaves it as it was. -/
theorem submit_of_unbound (schema : Schema) (request : Request) :
    (∃ composed values, bindings composed schema.slots.entries = .ok values ∧
      (ofSchema schema).submit request = (.ok (), ⟨schema, some values⟩)) ∨
      ∃ failure, (ofSchema schema).submit request = (.error failure, ofSchema schema) := by
  have settled : ∀ m : Mapping,
      (∃ composed values, bindings composed schema.slots.entries = .ok values ∧
        (ofSchema schema).settle ((bindings m schema.slots.entries).map fun values => ⟨schema, some values⟩) =
          (.ok (), ⟨schema, some values⟩)) ∨
      ∃ failure, (ofSchema schema).settle ((bindings m schema.slots.entries).map fun values => ⟨schema, some values⟩) =
        (.error failure, ofSchema schema) := by
    intro m
    cases built : bindings m schema.slots.entries with
    | ok values => exact .inl ⟨m, values, built, rfl⟩
    | error failure => exact .inr ⟨failure, rfl⟩
  cases request with
  | bind composed =>
    rw [submit_bind, bind_ofSchema]
    exact settled composed
  | init data variant separator =>
    rw [submit_init, init_ofSchema]
    by_cases clean : Validation.violations schema data variant separator = []
    · rw [if_pos clean]
      cases Composition.composeDeclared schema data variant separator with
      | error failure => exact .inr ⟨failure, rfl⟩
      | ok composed => exact settled composed
    · rw [if_neg clean]
      exact .inr ⟨_, rfl⟩

end Config

end TypedConfig
