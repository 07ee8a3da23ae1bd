import TypedConfig.Proofs.Calls

/-!
Callers that bind one configuration, in any interleaving of their steps. A step of
a caller works on its own data, is refused because the configuration is bound,
fails on its own data, or binds a configuration that was not bound
(`Caller.advance`). So callers stand where their requests can have led them, and at
most one has bound the configuration, whatever the schedule (`Coherent.run`).
-/
namespace TypedConfig

namespace Contention

/-! ### One step -/

/-- Whether a note tells that a configuration was bound. -/
def tellsBound : Note → Bool
  | .bound _ => true
  | _ => false

/-- What one step of a caller can do. -/
inductive Advance (c : Config) (caller : Caller) : Caller × Config × List Note → Prop
  /-- The caller works on its own data. -/
  | works {next : Caller} {notes : List Note} (unfinished : next.result? = none)
      (same : Caller.complete (.ofSchema c.schema) next = Caller.complete (.ofSchema c.schema) caller)
      (silent : notes.filter tellsBound = []) : Advance c caller (next, c, notes)
  /-- The caller finds the configuration bound. -/
  | refused {notes : List Note} (bound : c.isInitialized = true) (silent : notes.filter tellsBound = []) :
      Advance c caller (.finished (.error .alreadyInitialized), c, notes)
  /-- The caller finds a fault in its own data. -/
  | fails {failure : Failure} {notes : List Note}
      (own : Caller.complete (.ofSchema c.schema) caller = (.error failure, .ofSchema c.schema))
      (silent : notes.filter tellsBound = []) : Advance c caller (.finished (.error failure), c, notes)
  /-- The caller stores the values that it has built. -/
  | binds {values : Bindings} (unbound : c.bound = none)
      (own : Caller.complete (.ofSchema c.schema) caller = (.ok (), ⟨c.schema, some values⟩)) :
      Advance c caller (.finished (.ok ()), ⟨c.schema, some values⟩, [.bound c.schema.slots.size])

theorem advance_admitted {c : Config} {caller next : Caller} (unfinished : next.result? = none)
    (same : Caller.complete (.ofSchema c.schema) next = Caller.complete (.ofSchema c.schema) caller) :
    Advance c caller (Caller.admitted c next, c, []) := by
  unfold Caller.admitted Config.requireUnbound
  by_cases bound : c.isInitialized = true
  · rw [if_pos bound]
    exact .refused bound rfl
  · rw [if_neg bound]
    exact .works unfinished same rfl

/-- A caller that has not finished advances by its next step. -/
theorem Caller.advance (c : Config) {caller : Caller} (unfinished : caller.result? = none) :
    Advance c caller (caller.step c) := by
  have alone := Caller.complete_step (.ofSchema c.schema) unfinished
  cases caller with
  | waiting request =>
    cases request with
    | bind data => exact advance_admitted rfl alone.symm
    | init data variant separator => exact advance_admitted rfl alone.symm
  | checking data variant separator =>
    simp only [Caller.step, Config.ofSchema] at alone ⊢
    by_cases clean : (Validation.violations c.schema data variant separator).isEmpty = true
    · simp only [clean, ↓reduceIte] at alone ⊢
      cases composes : Composition.composeDeclared c.schema data variant separator with
      | ok m =>
        rw [composes] at alone
        exact .works rfl alone.symm rfl
      | error failure =>
        rw [composes] at alone
        exact .fails (alone.trans (Caller.complete_finished _ _)) rfl
    · simp only [clean] at alone ⊢
      exact .fails (alone.trans (Caller.complete_finished _ _)) rfl
  | composed data => exact advance_admitted rfl alone.symm
  | building data =>
    simp only [Caller.step, Config.ofSchema] at alone ⊢
    cases builds : Config.bindings data c.schema.slots.entries with
    | ok values =>
      rw [builds] at alone
      exact .works rfl alone.symm rfl
    | error failure =>
      rw [builds] at alone
      exact .fails (alone.trans (Caller.complete_finished _ _)) rfl
  | storing values =>
    have own : Caller.complete (.ofSchema c.schema) (.storing values) = (.ok (), ⟨c.schema, some values⟩) :=
      alone.trans (Caller.complete_finished _ _)
    cases bound : c.bound with
    | none =>
      simp only [Caller.step, Config.store, bound]
      exact .binds bound own
    | some there =>
      simp only [Caller.step, Config.store, bound]
      exact .refused (by simp [Config.isInitialized, bound]) rfl
  | finished result => cases unfinished

/-! ### Positions of callers -/

/-- Where the caller of a request can stand when the configuration is `c`. -/
inductive Standing (c : Config) (request : Request) : Caller → Prop
  | underway {caller : Caller} (unfinished : caller.result? = none)
      (same : Caller.complete (.ofSchema c.schema) caller = (Config.ofSchema c.schema).submit request) :
      Standing c request caller
  | refused (bound : c.isInitialized = true) : Standing c request (.finished (.error .alreadyInitialized))
  | failed {failure : Failure}
      (own : (Config.ofSchema c.schema).submit request = (.error failure, .ofSchema c.schema)) :
      Standing c request (.finished (.error failure))
  | bound (bound : c.isInitialized = true) (own : (Config.ofSchema c.schema).submit request = (.ok (), c)) :
      Standing c request (.finished (.ok ()))

/-- When another caller binds a configuration, a caller keeps its standing, and has not
    succeeded. -/
theorem Standing.after_binding {c : Config} {request : Request} {caller : Caller} (unbound : c.bound = none)
    (standing : Standing c request caller) (values : Bindings) :
    Standing ⟨c.schema, some values⟩ request caller ∧ caller ≠ .finished (.ok ()) := by
  have notInitialized : c.isInitialized ≠ true := by simp [Config.isInitialized, unbound]
  cases standing with
  | underway unfinished same =>
    refine ⟨.underway unfinished same, ?_⟩
    rintro rfl
    cases unfinished
  | refused bound => exact absurd bound notInitialized
  | failed own => exact ⟨.failed own, by simp⟩
  | bound bound => exact absurd bound notInitialized

/-- A step leads a caller from where its request can have led it to such a place again. -/
theorem Standing.advance {c : Config} {request : Request} {caller : Caller} (unfinished : caller.result? = none)
    (standing : Standing c request caller) {out : Caller × Config × List Note} (step : Advance c caller out) :
    Standing out.2.1 request out.1 := by
  have underway : Caller.complete (.ofSchema c.schema) caller = (Config.ofSchema c.schema).submit request := by
    cases standing with
    | underway _ same => exact same
    | refused => cases unfinished
    | failed => cases unfinished
    | bound => cases unfinished
  cases step with
  | works unfinished same => exact .underway unfinished (same.trans underway)
  | refused bound => exact .refused bound
  | fails own => exact .failed (underway.symm.trans own)
  | binds unbound own => exact .bound rfl (underway.symm.trans own)

namespace Contest

/-- The notes that the next step of a caller makes. -/
def notesOf (s : Contest) (i : Nat) : List Note :=
  match s.callers[i]? with
  | none => []
  | some caller => (caller.step s.config).2.2

/-- The notes that a schedule makes, each with the caller that makes it. -/
def log (s : Contest) : List Nat → List (Nat × Note)
  | [] => []
  | i :: schedule => (s.notesOf i).map (i, ·) ++ log (s.step i) schedule

theorem step_eq_of_caller {s : Contest} {i : Nat} {caller : Caller} (there : s.callers[i]? = some caller) :
    s.step i = ⟨(caller.step s.config).2.1, s.callers.set i (caller.step s.config).1,
      s.notes ++ (caller.step s.config).2.2⟩ := by
  simp [step, there]

theorem step_eq_of_absent {s : Contest} {i : Nat} (absent : s.callers[i]? = none) : s.step i = s := by
  simp [step, absent]

theorem step_notes (s : Contest) (i : Nat) : (s.step i).notes = s.notes ++ s.notesOf i := by
  cases there : s.callers[i]? with
  | none => simp [step_eq_of_absent there, notesOf, there]
  | some caller => simp [step_eq_of_caller there, notesOf, there]

theorem run_notes (schedule : List Nat) :
    ∀ s : Contest, (s.run schedule).notes = s.notes ++ (s.log schedule).map Prod.snd := by
  induction schedule with
  | nil => intro s; simp [run, log]
  | cons i schedule ih =>
    intro s
    have rest := ih (s.step i)
    simp only [run, List.foldl_cons] at rest ⊢
    rw [rest, step_notes]
    simp [log, Function.comp_def]

theorem getElem?_set_of {callers : List Caller} {i : Nat} {caller : Caller} (there : callers[i]? = some caller)
    (next : Caller) (j : Nat) : (callers.set i next)[j]? = if i = j then some next else callers[j]? := by
  have inside : i < callers.length := (List.getElem?_eq_some_iff.mp there).1
  rw [List.getElem?_set, if_pos inside]

theorem step_callers (s : Contest) (i j : Nat) :
    (s.step i).callers[j]? =
      if i = j then s.callers[j]?.map (fun caller => (caller.step s.config).1) else s.callers[j]? := by
  cases there : s.callers[i]? with
  | none =>
    rw [step_eq_of_absent there]
    split
    · next same => subst same; simp [there]
    · rfl
  | some caller =>
    rw [step_eq_of_caller there]
    dsimp only
    rw [getElem?_set_of there]
    split
    · next same => subst same; simp [there]
    · rfl

theorem step_eq_of_finished {s : Contest} {i : Nat} {result : Except Failure Unit}
    (there : s.callers[i]? = some (.finished result)) : s.step i = s := by
  obtain ⟨inside, at_i⟩ := List.getElem?_eq_some_iff.mp there
  rw [step_eq_of_caller there]
  simp only [Caller.step, List.append_nil, ← at_i, List.set_getElem_self]

theorem notesOf_of_finished {s : Contest} {i : Nat} {result : Except Failure Unit}
    (there : s.callers[i]? = some (.finished result)) : s.notesOf i = [] := by
  simp [notesOf, there, Caller.step]

/-! ### Runs -/

/-- The part of a log that tells of bindings. -/
def bindingsTold (log : List (Nat × Note)) : List (Nat × Note) := log.filter fun entry => tellsBound entry.2

theorem bindingsTold_append_silent (log : List (Nat × Note)) (i : Nat) {notes : List Note}
    (silent : notes.filter tellsBound = []) : bindingsTold (log ++ notes.map (i, ·)) = bindingsTold log := by
  have mapped : bindingsTold (notes.map (i, ·)) = (notes.filter tellsBound).map (i, ·) := by
    simp [bindingsTold, List.filter_map, Function.comp_def]
  rw [bindingsTold, List.filter_append]
  change bindingsTold log ++ bindingsTold (notes.map (i, ·)) = _
  rw [mapped, silent]
  simp

/-- Who has bound the configuration, and what the log tells about it. -/
inductive Binder (s : Contest) (log : List (Nat × Note)) : Prop
  | nobody (unbound : s.config.bound = none) (silent : bindingsTold log = [])
  | caller (i : Nat) (bound : s.config.isInitialized = true)
      (alone : ∀ j, s.callers[j]? = some (.finished (.ok ())) ↔ j = i)
      (told : bindingsTold log = [(i, .bound s.config.schema.slots.size)])

/-- What holds throughout a contest of requests, with the log so far. -/
structure Coherent (schema : Schema) (requests : List Request) (s : Contest) (log : List (Nat × Note)) : Prop where
  schema_eq : s.config.schema = schema
  length_eq : s.callers.length = requests.length
  standing : ∀ (i : Nat) (request : Request) (caller : Caller), requests[i]? = some request →
    s.callers[i]? = some caller → Standing s.config request caller
  binder : Binder s log

/-- A caller's step that binds nothing. -/
theorem Coherent.keep {schema : Schema} {requests : List Request} {s : Contest} {log : List (Nat × Note)}
    (coherent : Coherent schema requests s log) {i : Nat} {caller next : Caller} {notes : List Note}
    (there : s.callers[i]? = some caller) (unfinished : caller.result? = none)
    (standing : ∀ request, requests[i]? = some request → Standing s.config request next)
    (fruitless : next ≠ .finished (.ok ())) (silent : notes.filter tellsBound = []) :
    Coherent schema requests ⟨s.config, s.callers.set i next, s.notes ++ notes⟩ (log ++ notes.map (i, ·)) := by
  refine ⟨coherent.schema_eq, by simp [coherent.length_eq], ?_, ?_⟩
  · intro j request other asked stands
    rw [getElem?_set_of there] at stands
    split at stands
    · next same =>
      subst same
      cases stands
      exact standing request asked
    · exact coherent.standing j request other asked stands
  · cases coherent.binder with
    | nobody unbound none => exact .nobody unbound ((bindingsTold_append_silent log i silent).trans none)
    | caller k bound alone told =>
      refine .caller k bound (fun j => ?_) ((bindingsTold_append_silent log i silent).trans told)
      rw [getElem?_set_of there]
      split
      · next same =>
        subst same
        have open_i : ¬ i = k := by
          intro won
          have finished := (alone i).mpr won
          rw [there] at finished
          cases finished
          cases unfinished
        simp [fruitless, open_i]
      · exact alone j

/-- A caller's step that binds the configuration. -/
theorem Coherent.bind {schema : Schema} {requests : List Request} {s : Contest} {log : List (Nat × Note)}
    (coherent : Coherent schema requests s log) {i : Nat} {caller : Caller} {values : Bindings}
    (there : s.callers[i]? = some caller) (unbound : s.config.bound = none)
    (standing : ∀ request, requests[i]? = some request →
      Standing ⟨s.config.schema, some values⟩ request (.finished (.ok ()))) :
    Coherent schema requests
      ⟨⟨s.config.schema, some values⟩, s.callers.set i (.finished (.ok ())),
        s.notes ++ [.bound s.config.schema.slots.size]⟩
      (log ++ [(i, .bound s.config.schema.slots.size)]) := by
  have others : ∀ (j : Nat) (request : Request) (other : Caller), requests[j]? = some request →
      s.callers[j]? = some other →
      Standing ⟨s.config.schema, some values⟩ request other ∧ other ≠ .finished (.ok ()) :=
    fun j request other asked stands => (coherent.standing j request other asked stands).after_binding unbound values
  refine ⟨coherent.schema_eq, by simp [coherent.length_eq], ?_, ?_⟩
  · intro j request other asked stands
    rw [getElem?_set_of there] at stands
    split at stands
    · next same =>
      subst same
      cases stands
      exact standing request asked
    · exact (others j request other asked stands).1
  · refine .caller i rfl (fun j => ?_) ?_
    · rw [getElem?_set_of there]
      split
      · next same => simp [same]
      · next different =>
        refine ⟨fun finished => ?_, fun same => absurd same.symm different⟩
        have inside : j < requests.length :=
          coherent.length_eq ▸ (List.getElem?_eq_some_iff.mp finished).1
        exact absurd rfl (others j _ _ (List.getElem?_eq_getElem inside) finished).2
    · cases coherent.binder with
      | nobody _ silent =>
        have split : bindingsTold (log ++ [(i, .bound s.config.schema.slots.size)]) =
          bindingsTold log ++ [(i, .bound s.config.schema.slots.size)] := by simp [bindingsTold, tellsBound]
        rw [split, silent]
        rfl
      | caller k bound => simp [Config.isInitialized, unbound] at bound

theorem Coherent.step {schema : Schema} {requests : List Request} {s : Contest} {log : List (Nat × Note)}
    (coherent : Coherent schema requests s log) (i : Nat) :
    Coherent schema requests (s.step i) (log ++ (s.notesOf i).map (i, ·)) := by
  cases there : s.callers[i]? with
  | none => simpa [step_eq_of_absent there, notesOf, there] using coherent
  | some caller =>
    cases told : caller.result? with
    | some result =>
      cases caller with
      | finished result => simpa [step_eq_of_finished there, notesOf_of_finished there] using coherent
      | _ => cases told
    | none =>
      have advance := Caller.advance s.config told
      have standing : ∀ request, requests[i]? = some request →
          Standing (caller.step s.config).2.1 request (caller.step s.config).1 := fun request asked =>
        (coherent.standing i request caller asked there).advance told advance
      have noted : s.notesOf i = (caller.step s.config).2.2 := by simp [notesOf, there]
      rw [step_eq_of_caller there, noted]
      generalize caller.step s.config = out at advance standing
      cases advance with
      | works unfinished same silent =>
        refine coherent.keep there told standing ?_ silent
        rintro rfl
        cases unfinished
      | refused bound silent => exact coherent.keep there told standing (by simp) silent
      | fails own silent => exact coherent.keep there told standing (by simp) silent
      | binds unbound own => exact coherent.bind there unbound standing

theorem Coherent.run {schema : Schema} {requests : List Request} (schedule : List Nat) :
    ∀ {s : Contest} {log : List (Nat × Note)}, Coherent schema requests s log →
      Coherent schema requests (s.run schedule) (log ++ s.log schedule) := by
  induction schedule with
  | nil =>
    intro s log coherent
    simpa [Contest.run, Contest.log] using coherent
  | cons i schedule ih =>
    intro s log coherent
    have rest := ih (coherent.step i)
    simpa [Contest.run, Contest.log] using rest

end Contest

end Contention

end TypedConfig
