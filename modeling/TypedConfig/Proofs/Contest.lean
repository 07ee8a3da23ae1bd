import TypedConfig.Proofs.Binding
import TypedConfig.Proofs.Contention
import TypedConfig.Sample.Schemas

/-!
How a contest of callers for one configuration ends. Callers that get five steps
each finish. In the end exactly one has succeeded if there is one whose data can
be bound; the configuration is then as this caller alone makes it, and nothing
else tells of a binding (`one_caller_binds`).
-/
namespace TypedConfig

namespace Contention

namespace Contest

/-! ### Completion -/

/-- All callers have finished. -/
def Completed (s : Contest) : Prop := ∀ caller ∈ s.callers, ∃ result, caller = .finished result

theorem remaining_step_le (c : Config) (caller : Caller) : (caller.step c).1.remaining ≤ caller.remaining - 1 := by
  cases told : caller.result? with
  | none =>
    have less := Caller.remaining_step c caller told
    omega
  | some result =>
    cases caller with
    | finished result => simp [Caller.step, Caller.remaining]
    | _ => cases told

/-- A caller has fewer steps left by as many as a schedule gives it. -/
theorem remaining_run (i : Nat) (schedule : List Nat) :
    ∀ {s : Contest} {caller : Caller}, s.callers[i]? = some caller →
      ∃ after, (s.run schedule).callers[i]? = some after ∧ after.remaining ≤ caller.remaining - schedule.count i := by
  induction schedule with
  | nil =>
    intro s caller there
    exact ⟨caller, there, Nat.le_refl _⟩
  | cons j schedule ih =>
    intro s caller there
    have moved := step_callers s j i
    by_cases same : j = i
    · subst same
      rw [if_pos rfl, there] at moved
      obtain ⟨after, ends, bound⟩ := ih moved
      refine ⟨after, ends, ?_⟩
      have less := remaining_step_le s.config caller
      rw [List.count_cons_self]
      dsimp only at bound
      omega
    · rw [if_neg same, there] at moved
      obtain ⟨after, ends, bound⟩ := ih moved
      refine ⟨after, ends, ?_⟩
      rw [List.count_cons_of_ne same]
      exact bound

theorem finished_of_remaining {caller : Caller} (done : caller.remaining = 0) :
    ∃ result, caller = .finished result := by
  cases caller with
  | finished result => exact ⟨result, rfl⟩
  | waiting request => cases request <;> cases done
  | _ => cases done

theorem remaining_waiting_le (request : Request) : (Caller.waiting request).remaining ≤ 5 := by
  cases request <;> simp [Caller.remaining]

/-- A contest that nobody has begun. -/
def ofRequests (schema : Schema) (requests : List Request) : Contest :=
  ⟨.ofSchema schema, requests.map .waiting, []⟩

theorem callers_ofRequests (schema : Schema) (requests : List Request) (i : Nat) :
    (ofRequests schema requests).callers[i]? = requests[i]?.map .waiting := by
  simp [ofRequests]

theorem length_run (s : Contest) (schedule : List Nat) : (s.run schedule).callers.length = s.callers.length := by
  induction schedule generalizing s with
  | nil => rfl
  | cons i schedule ih =>
    have rest := ih (s.step i)
    simp only [run, List.foldl_cons] at rest ⊢
    rw [rest]
    cases there : s.callers[i]? with
    | none => rw [step_eq_of_absent there]
    | some caller => simp [step_eq_of_caller there]

/-- Five steps of each caller complete every contest. -/
theorem completed_of_five_steps {schema : Schema} {requests : List Request} {schedule : List Nat}
    (enough : ∀ i < requests.length, 5 ≤ schedule.count i) :
    ((ofRequests schema requests).run schedule).Completed := by
  intro caller member
  obtain ⟨i, there⟩ := List.mem_iff_getElem?.mp member
  have inside : i < requests.length := by
    have bound := (List.getElem?_eq_some_iff.mp there).1
    rw [length_run] at bound
    simpa [ofRequests] using bound
  have starts : (ofRequests schema requests).callers[i]? = some (.waiting requests[i]) := by
    simp [callers_ofRequests, inside]
  obtain ⟨after, ends, left⟩ := remaining_run i schedule starts
  obtain rfl : after = caller := Option.some.inj (ends.symm.trans there)
  have atMost := remaining_waiting_le requests[i]
  have often := enough i inside
  exact finished_of_remaining (by omega)

/-! ### Results -/

theorem coherent_ofRequests (schema : Schema) (requests : List Request) :
    Coherent schema requests (ofRequests schema requests) [] := by
  refine ⟨rfl, by simp [ofRequests], ?_, .nobody rfl rfl⟩
  intro i request caller asked there
  rw [callers_ofRequests, asked] at there
  cases there
  exact .underway rfl rfl

end Contest

/-! ### A request alone -/

/-- What a request does to a configuration that nobody else uses. -/
def Request.alone (c : Config) : Request → Traced Config
  | .bind composed => c.bind composed
  | .init data variant separator => c.init data variant separator

theorem submit_eq_settle_alone (c : Config) (request : Request) :
    c.submit request = c.settle (request.alone c).result := by
  cases request with
  | bind composed => exact Config.submit_bind c composed
  | init data variant separator => exact Config.submit_init c data variant separator

/-- The request would succeed on a configuration of its own. -/
def Request.Bindable (schema : Schema) (request : Request) : Prop :=
  ∃ after, (request.alone (.ofSchema schema)).result = .ok after

/-- The failure that a request meets on a configuration of its own, because of its data. -/
def Request.FailsWith (schema : Schema) (request : Request) (failure : Failure) : Prop :=
  (request.alone (.ofSchema schema)).result = .error failure ∧
    ((∃ violations, failure = .invalid violations) ∨ ∃ entry, failure = .missingEntry entry)

/-- The data of a request holds a value under the names of a section and a key. -/
def Request.Holds (s : Section) (key : Key) (v : Value) : Request → Prop
  | .bind composed => ∃ entries, composed.get? s.name = some (.mapping entries) ∧
      Mapping.get? entries key.name = some v
  | .init data variant separator => ∃ root selection label entries, data = .mapping root ∧
      Mapping.get? root (selectionName variant separator) = some (.mapping selection) ∧
      Mapping.get? selection s.name = some (.string label) ∧
      Mapping.get? root (entryName s.name separator label) = some (.mapping entries) ∧
      Mapping.get? entries key.name = some v

/-- Alone, a request either makes a configuration that reads what its data holds, or fails
    because of its data. -/
theorem alone_cases (schema : Schema) (request : Request) :
    (∃ values, (request.alone (.ofSchema schema)).result = .ok ⟨schema, some values⟩ ∧
      ∀ slot ∈ schema.slots.entries, ∀ key ∈ slot.2.keys.entries, ∃ v,
        (Config.mk schema (some values)).get slot.1 key.1 = .ok v ∧ request.Holds slot.2 key.2 v) ∨
      ∃ failure, request.FailsWith schema failure := by
  cases request with
  | bind composed =>
    have run := Config.bind_ofSchema schema composed
    cases built : Config.bindings composed schema.slots.entries with
    | ok values =>
      rw [built] at run
      refine .inl ⟨values, run, fun slot declared key has => ?_⟩
      obtain ⟨entries, v, there, found, read⟩ := Config.get_of_bindings built declared has
      exact ⟨v, read, entries, there, found⟩
    | error failure =>
      rw [built] at run
      exact .inr ⟨failure, run, .inr (Config.missingEntry_of_bindings built)⟩
  | init data variant separator =>
    by_cases clean : Validation.violations schema data variant separator = []
    · obtain ⟨values, run, root, selection, isRoot, selected, reads⟩ :=
        Config.init_of_valid (Validation.valid_of_clean clean)
      refine .inl ⟨values, run, fun slot declared key has => ?_⟩
      obtain ⟨label, entries, labelled, held, keys⟩ := reads slot declared
      obtain ⟨v, found, read, _⟩ := keys key has
      exact ⟨v, read, root, selection, label, entries, isRoot, selected, labelled, held, found⟩
    · exact .inr ⟨_, Config.init_of_violations clean, .inl ⟨_, rfl⟩⟩

/-! ### The contest -/

theorem alone_of_submit_ok {schema : Schema} {request : Request} {after : Config}
    (told : (Config.ofSchema schema).submit request = (.ok (), after)) :
    (request.alone (.ofSchema schema)).result = .ok after := by
  rw [submit_eq_settle_alone] at told
  cases run : (request.alone (.ofSchema schema)).result with
  | ok made => rw [run] at told; cases told; rfl
  | error failure => rw [run] at told; cases told

theorem failsWith_of_submit_error {schema : Schema} {request : Request} {failure : Failure} {after : Config}
    (told : (Config.ofSchema schema).submit request = (.error failure, after)) :
    request.FailsWith schema failure := by
  rw [submit_eq_settle_alone] at told
  rcases alone_cases schema request with ⟨values, run, _⟩ | ⟨other, run, ofData⟩
  · rw [run] at told
    cases told
  · rw [run] at told
    cases told
    exact ⟨run, ofData⟩

theorem not_bindable_of_failsWith {schema : Schema} {request : Request} {failure : Failure}
    (fails : request.FailsWith schema failure) : ¬ request.Bindable schema := by
  rintro ⟨after, succeeds⟩
  rw [fails.1] at succeeds
  cases succeeds

/-- The caller of a request has finished: it has succeeded, it was refused, or it failed on its own data. -/
def Answered (schema : Schema) (request : Request) (caller : Caller) : Prop :=
  caller = .finished (.ok ()) ∨ caller = .finished (.error .alreadyInitialized) ∨
    ∃ failure, caller = .finished (.error failure) ∧ request.FailsWith schema failure

/-- One request and no other has succeeded, the configuration is as this request alone
    makes it, and the log tells of this binding only. -/
structure WonBy (schema : Schema) (requests : List Request) (s : Contest) (log : List (Nat × Note)) (winner : Nat)
    (request : Request) : Prop where
  asked : requests[winner]? = some request
  whole : (request.alone (.ofSchema schema)).result = .ok s.config
  reads : ∀ slot ∈ schema.slots.entries, ∀ key ∈ slot.2.keys.entries, ∃ v,
    s.config.get slot.1 key.1 = .ok v ∧ request.Holds slot.2 key.2 v
  only : ∀ i : Nat, s.callers[i]? = some (.finished (.ok ())) ↔ i = winner
  told : Contest.bindingsTold log = [(winner, .bound schema.slots.size)]

/-- No request has succeeded, and the configuration is as it was made. -/
structure Unwon (schema : Schema) (s : Contest) (log : List (Nat × Note)) : Prop where
  untouched : s.config = .ofSchema schema
  none : ∀ i : Nat, s.callers[i]? ≠ some (.finished (.ok ()))
  silent : Contest.bindingsTold log = []

section
variable {schema : Schema} {requests : List Request} {s : Contest} {log : List (Nat × Note)}

theorem Standing.answered {c : Config} {request : Request} {result : Except Failure Unit}
    (standing : Standing c request (.finished result)) :
    Answered c.schema request (.finished result) := by
  cases standing with
  | underway unfinished => cases unfinished
  | refused => exact .inr (.inl rfl)
  | failed own => exact .inr (.inr ⟨_, rfl, failsWith_of_submit_error own⟩)
  | bound => exact .inl rfl

/-- In a completed contest the caller of every request has finished where it can. -/
theorem Contest.Coherent.finished (coherent : Contest.Coherent schema requests s log) (completed : s.Completed)
    {i : Nat} {request : Request} (asked : requests[i]? = some request) :
    ∃ result, s.callers[i]? = some (.finished result) ∧ Standing s.config request (.finished result) := by
  have inside : i < s.callers.length := by
    rw [coherent.length_eq]
    exact (List.getElem?_eq_some_iff.mp asked).1
  obtain ⟨result, finished⟩ := completed _ (List.getElem_mem inside)
  have there : s.callers[i]? = some (.finished result) := by rw [List.getElem?_eq_getElem inside, finished]
  exact ⟨result, there, coherent.standing i request _ asked there⟩

theorem Contest.Coherent.wonBy (coherent : Contest.Coherent schema requests s log) {winner : Nat}
    (only : ∀ i : Nat, s.callers[i]? = some (.finished (.ok ())) ↔ i = winner)
    (told : Contest.bindingsTold log = [(winner, .bound s.config.schema.slots.size)]) :
    ∃ request ∈ requests, request.Bindable schema ∧ WonBy schema requests s log winner request := by
  have there := (only winner).mpr rfl
  have inside : winner < requests.length :=
    coherent.length_eq ▸ (List.getElem?_eq_some_iff.mp there).1
  have asked : requests[winner]? = some requests[winner] := List.getElem?_eq_getElem inside
  have standing := coherent.standing winner _ _ asked there
  obtain rfl := coherent.schema_eq
  refine ⟨requests[winner], List.getElem_mem inside, ?_⟩
  cases standing with
  | underway unfinished => cases unfinished
  | bound _ own =>
    have run := alone_of_submit_ok own
    refine ⟨⟨_, run⟩, asked, run, ?_, only, told⟩
    rcases alone_cases s.config.schema requests[winner] with ⟨values, made, reads⟩ | ⟨failure, fails⟩
    · have same : s.config = ⟨s.config.schema, some values⟩ := Except.ok.inj (run.symm.trans made)
      rw [same]
      exact reads
    · exact absurd ⟨_, run⟩ (not_bindable_of_failsWith fails)

theorem Contest.Coherent.unwon (coherent : Contest.Coherent schema requests s log) (unbound : s.config.bound = none)
    (silent : Contest.bindingsTold log = []) : Unwon schema s log := by
  refine ⟨?_, fun i there => ?_, silent⟩
  · rw [← coherent.schema_eq, Config.ofSchema, ← unbound]
  · have inside : i < requests.length := coherent.length_eq ▸ (List.getElem?_eq_some_iff.mp there).1
    cases coherent.standing i _ _ (List.getElem?_eq_getElem inside) there with
    | underway unfinished => cases unfinished
    | bound bound => simp [Config.isInitialized, unbound] at bound

/-- No request that could be bound fails while the configuration is not bound. -/
theorem Contest.Coherent.not_bindable (coherent : Contest.Coherent schema requests s log) (completed : s.Completed)
    (unbound : s.config.bound = none) {request : Request} (member : request ∈ requests) :
    ¬ request.Bindable schema := by
  obtain ⟨i, asked⟩ := List.mem_iff_getElem?.mp member
  obtain ⟨result, _, standing⟩ := coherent.finished completed asked
  obtain rfl := coherent.schema_eq
  cases standing with
  | underway unfinished => cases unfinished
  | refused bound => simp [Config.isInitialized, unbound] at bound
  | failed own => exact not_bindable_of_failsWith (failsWith_of_submit_error own)
  | bound bound => simp [Config.isInitialized, unbound] at bound

end

/-- However the steps of requests interleave on a configuration that is not bound: five steps of
    each complete the contest. In a completed contest every caller has succeeded, was refused, or
    failed on its own data. If some request can be bound, one and no other has won; otherwise none
    has. -/
theorem one_caller_binds (schema : Schema) (requests : List Request) (schedule : List Nat) :
    let start := Contest.ofRequests schema requests
    let final := start.run schedule
    let log := start.log schedule
    final.notes = log.map Prod.snd ∧
    ((∀ i < requests.length, 5 ≤ schedule.count i) → final.Completed) ∧
    (final.Completed →
      (∀ (i : Nat) (request : Request), requests[i]? = some request →
        ∃ caller, final.callers[i]? = some caller ∧ Answered schema request caller) ∧
      ((∃ request ∈ requests, request.Bindable schema) →
        ∃ winner request, WonBy schema requests final log winner request) ∧
      ((¬ ∃ request ∈ requests, request.Bindable schema) → Unwon schema final log)) := by
  intro start final log
  have coherent : Contest.Coherent schema requests final log := by
    simpa using (Contest.coherent_ofRequests schema requests).run schedule
  refine ⟨Contest.run_notes schedule start, Contest.completed_of_five_steps, fun completed => ⟨?_, ?_, ?_⟩⟩
  · intro i request asked
    obtain ⟨result, there, standing⟩ := coherent.finished completed asked
    exact ⟨_, there, coherent.schema_eq ▸ standing.answered⟩
  · rintro ⟨request, member, bindable⟩
    cases coherent.binder with
    | nobody unbound => exact absurd bindable (coherent.not_bindable completed unbound member)
    | caller winner _ only told =>
      obtain ⟨winning, _, _, won⟩ := coherent.wonBy only told
      exact ⟨winner, winning, won⟩
  · intro noneBindable
    cases coherent.binder with
    | nobody unbound silent => exact coherent.unwon unbound silent
    | caller winner _ only told =>
      obtain ⟨request, member, bindable, _⟩ := coherent.wonBy only told
      exact absurd ⟨request, member, bindable⟩ noneBindable

/-- Two callers pass the tests before one of them stores, among callers without proper data. -/
theorem one_caller_binds_parma :
    let composed (n : Int64) : Mapping := [(.string "parma", .mapping [(.string "chatty", .integer n)])]
    let requests : List Request :=
      [.bind [], .bind (composed 1), .init (.sequence []) "prod" ".", .bind (composed 2)]
    let schedule := [1, 3, 1, 3, 2, 0, 3, 1, 2, 0, 1, 3, 2, 0, 1, 3, 2, 0, 2, 0]
    let final := (Contest.ofRequests Sample.parma requests).run schedule
    (∀ i < requests.length, 5 ≤ schedule.count i) ∧ final.Completed ∧
      (∃ request ∈ requests, request.Bindable Sample.parma) ∧
      final.config.get "asor" "culex" = .ok (.integer 2) ∧
      Contest.bindingsTold ((Contest.ofRequests Sample.parma requests).log schedule) = [(3, .bound 1)] := by
  intro composed requests schedule final
  have enough : ∀ i < requests.length, 5 ≤ schedule.count i := by decide
  obtain ⟨_, completes, decided⟩ := one_caller_binds Sample.parma requests schedule
  have completed : final.Completed := completes enough
  have bindable : ∃ request ∈ requests, request.Bindable Sample.parma :=
    ⟨.bind (composed 2), by simp [requests], _, Config.bind_ofSchema Sample.parma (composed 2)⟩
  obtain ⟨_, wins, _⟩ := decided completed
  obtain ⟨winner, request, won⟩ := wins bindable
  have third : final.callers[3]? = some (.finished (.ok ())) := by
    simp only [final, schedule, requests, composed]
    rfl
  obtain rfl : 3 = winner := (won.only 3).mp third
  obtain rfl : .bind (composed 2) = request := Option.some.inj won.asked
  obtain ⟨v, read, entries, there, found⟩ := won.reads ("asor", _) List.mem_cons_self ("culex", _) List.mem_cons_self
  cases there
  cases found
  exact ⟨enough, completed, bindable, read, won.told⟩

end Contention

end TypedConfig
