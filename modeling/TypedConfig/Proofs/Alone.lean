import TypedConfig.Proofs.Sharing

/-!
A reader of a derived value that is left alone, with the readers that it starts,
does what `read` does (`read_alone`): the same answer, the same numbers and the same
results that are kept.
-/
namespace TypedConfig.Derived
variable {δ : Type} {Carrier : δ → Type} {κ : Type}

/-- Derived values each of a type of its own. -/
abbrev Typing.separate (Carrier : δ → Type) : Typing δ δ := ⟨fun d => d, Carrier⟩

/-- What a computation answers and leaves behind. -/
def outcome {α : Type} (computation : Computation Carrier κ α) (s : State Carrier κ) :
    Except Failure α × State Carrier κ := computation.run s

theorem outcome_bind {α β : Type} (x : Computation Carrier κ α) (f : α → Computation Carrier κ β)
    (s : State Carrier κ) :
    outcome (x >>= f) s =
      match outcome x s with
      | (.ok a, s) => outcome (f a) s
      | (.error failure, s) => (.error failure, s) := by
  have unfolded : outcome (x >>= f) s = (ExceptT.bindCont f (outcome x s).1) (outcome x s).2 := rfl
  rw [unfolded]
  obtain ⟨_ | _, _⟩ := outcome x s
  · rfl
  · rfl

variable [DecidableEq δ]

/-- What a plan computes, one thing after the other. -/
def Plan.perform (c : Config) : {d : δ} → Plan (.separate Carrier) d → Computation Carrier κ (Carrier d)
  | _, .finish result => ExceptT.mk (pure result)
  | d, .ask e compute next => ExceptT.mk do
    let answer ← (Derived.read c e (compute.perform c)).run
    ((next answer).perform c : Computation Carrier κ (Carrier d)).run

theorem outcome_finish (c : Config) {d : δ} (result : Except Failure (Carrier d)) (s : State Carrier κ) :
    outcome ((Plan.finish result : Plan (.separate Carrier) d).perform c) s = (result, s) := rfl

theorem outcome_ask (c : Config) {d : δ} (e : δ) (compute : Plan (.separate Carrier) e)
    (next : Except Failure (Carrier e) → Plan (.separate Carrier) d) (s : State Carrier κ) :
    let asked := outcome (Derived.read c e (compute.perform c)) s
    outcome ((Plan.ask e compute next).perform c) s = outcome ((next asked.1).perform c) asked.2 := rfl

theorem outcome_read_unbound {c : Config} (unbound : c.isInitialized = false) (d : δ)
    (compute : Computation Carrier κ (Carrier d)) (s : State Carrier κ) :
    outcome (Derived.read c d compute) s = (.error .notInitialized, s) := by
  simp only [outcome, Derived.read, unbound]
  rfl

theorem outcome_read {c : Config} (bound : c.isInitialized = true) (d : δ) (compute : Computation Carrier κ (Carrier d))
    (s : State Carrier κ) :
    outcome (Derived.read c d compute) s =
      let number := (s.numbering.number d).1
      let numbered : State Carrier κ := { s with numbering := (s.numbering.number d).2 }
      match s.cache.get? number d with
      | some v => (.ok v, numbered)
      | none =>
        match outcome compute numbered with
        | (.ok v, s) => (.ok (s.cache.keep number v).1, { s with cache := (s.cache.keep number v).2 })
        | (.error failure, s) => (.error failure, s) := by
  have entered : outcome (Derived.read c d compute) s = outcome (do
      let number ← takeNumber d
      match ← memoised number d with
      | some value => return value
      | none => keep number d (← compute)) s := by
    simp only [outcome, Derived.read, bound]
    rfl
  have taken : outcome (takeNumber d) s =
      (.ok (s.numbering.number d).1, { s with numbering := (s.numbering.number d).2 }) := rfl
  have looked : ∀ number (s : State Carrier κ), outcome (memoised number d) s = (.ok (s.cache.get? number d), s) :=
    fun _ _ => rfl
  rw [entered, outcome_bind, taken]
  dsimp only
  rw [outcome_bind, looked]
  dsimp only
  cases s.cache.get? (s.numbering.number d).1 d with
  | some v => rfl
  | none =>
    dsimp only
    rw [outcome_bind]
    obtain ⟨_ | _, _⟩ := outcome compute _
    · rfl
    · rfl

/-! ### Steps of one reader and of those that it starts -/

section
variable {τ : Type} [DecidableEq τ] {T : Typing δ τ}

/-- The numbers handed out and the site after readers have taken steps. -/
def Site.advances (n : Numbering δ) (site : Site T) : List Nat → Numbering δ × Site T
  | [] => (n, site)
  | j :: js => (site.advance n j).2.advances (site.advance n j).1 js

theorem Site.advances_append (js ks : List Nat) : ∀ (n : Numbering δ) (site : Site T),
    site.advances n (js ++ ks) = (site.advances n js).2.advances (site.advances n js).1 ks := by
  induction js with
  | nil => exact fun _ _ => rfl
  | cons j js ih => exact fun n site => ih (site.advance n j).1 (site.advance n j).2

theorem Sharing.run_advances {i : Nat} (js : List Nat) : ∀ {s : Sharing T} {site : Site T}, s.sites[i]? = some site →
    (s.run (js.map (.advance i))).numbering = (site.advances s.numbering js).1 ∧
      (s.run (js.map (.advance i))).sites[i]? = some (site.advances s.numbering js).2 := by
  induction js with
  | nil => exact fun there => ⟨rfl, there⟩
  | cons j js ih =>
    intro s site there
    obtain ⟨numbering, there'⟩ := Sharing.step_own there j
    have rest := ih there'
    rw [numbering] at rest
    exact rest

/-- Steps of a reader, and of readers that were not there, lead from one site to another. -/
structure Site.Leads (j : Nat) (n : Numbering δ) (site : Site T) (n' : Numbering δ) (site' : Site T) : Prop where
  steps : ∃ js, site.advances n js = (n', site')
  config : site'.config = site.config
  others : ∀ m r, m ≠ j → site.readers[m]? = some r → site'.readers[m]? = some r

namespace Site.Leads

theorem trans {j l : Nat} {n n' n'' : Numbering δ} {site site' site'' : Site T} (first : site.Leads j n n' site')
    (rest : site'.Leads l n' n'' site'') (own : l = j ∨ site.readers[l]? = none) : site.Leads j n n'' site'' := by
  refine ⟨?_, rest.config.trans first.config, fun m r other there => ?_⟩
  · obtain ⟨js, eq⟩ := first.steps
    obtain ⟨ks, eq'⟩ := rest.steps
    exact ⟨js ++ ks, by rw [advances_append, eq, eq']⟩
  · refine rest.others m r ?_ (first.others m r other there)
    rintro rfl
    rcases own with same | absent
    · exact other same
    · cases absent.symm.trans there

/-- The next step of a reader. -/
theorem step (n : Numbering δ) {site : Site T} {j : Nat} {d : δ} {stage : Stage T d}
    (there : site.readers[j]? = some ⟨d, stage⟩) :
    let out := stage.step site.config n site.cache site.readers
    ∃ site', site.Leads j n out.numbering site' ∧ site'.cache = out.cache ∧
      site'.readers[j]? = some ⟨d, out.stage⟩ ∧
      ∀ r, out.started = [r] → site'.readers[site.readers.length]? = some r := by
  have at_j := getElem?_put (r := ⟨d, (stage.step site.config n site.cache site.readers).stage⟩) there
    (stage.step site.config n site.cache site.readers).cache (stage.step site.config n site.cache site.readers).started
    there
  rw [if_pos rfl] at at_j
  refine ⟨_, ⟨⟨[j], advance_of_reader n there⟩, rfl, fun m r other at_m => ?_⟩, rfl, at_j, fun r started => ?_⟩
  · rw [getElem?_put there _ _ at_m, if_neg (Ne.symm other)]
  · simp [put, started]

/-- A reader of a configuration that is bound comes to its lookup. -/
theorem numbered (n : Numbering δ) {site : Site T} {j : Nat} {d : δ} {compute : Plan T d}
    (bound : site.config.isInitialized = true) (there : site.readers[j]? = some ⟨d, .asked compute⟩) :
    ∃ site', site.Leads j n (n.number d).2 site' ∧ site'.cache = site.cache ∧
      site'.readers[j]? = some ⟨d, .numbered (n.number d).1 compute⟩ := by
  obtain ⟨site₁, leads₁, cache₁, at_j₁, _⟩ := step n there
  simp only [Stage.step, bound, if_true] at leads₁ cache₁ at_j₁
  obtain ⟨site₂, leads₂, cache₂, at_j₂, _⟩ := step n at_j₁
  simp only [Stage.step] at leads₂ cache₂ at_j₂
  exact ⟨site₂, leads₁.trans leads₂ (.inl rfl), cache₂.trans cache₁, at_j₂⟩

/-- A reader that has computed its value returns what is kept then. -/
theorem kept (n : Numbering δ) {site : Site T} {j : Nat} {d : δ} {k : UInt64} {v : T.Value d}
    (there : site.readers[j]? = some ⟨d, .keeping k v⟩) :
    ∃ site', site.Leads j n n site' ∧ site'.cache = (site.cache.keep k v).2 ∧
      site'.readers[j]? = some ⟨d, .finished (.ok (site.cache.keep k v).1)⟩ := by
  obtain ⟨site₁, leads₁, cache₁, at_j₁, _⟩ := step n there
  simp only [Stage.step] at leads₁ cache₁ at_j₁
  obtain ⟨site₂, leads₂, cache₂, at_j₂, _⟩ := step n at_j₁
  simp only [Stage.step] at leads₂ cache₂ at_j₂
  exact ⟨site₂, leads₁.trans leads₂ (.inl rfl), cache₂.trans cache₁, at_j₂⟩

end Site.Leads

end

/-! ### A reader alone -/

/-- Where the reader of a derived value stands when its computation is done. -/
def Stage.done {T : Typing δ δ} {d : δ} (k : UInt64) : Except Failure (T.Value d) → Stage T d
  | .ok v => .keeping k v
  | .error failure => .finished (.error failure)

/-- The reader at a position gets from one stage to another, and leaves behind what a computation does. -/
def Site.Performs (site : Site (.separate Carrier)) (n : Numbering δ) (j : Nat) (own : κ) {d : δ}
    (last : Except Failure ((Typing.separate Carrier).Value d) → Stage (.separate Carrier) d)
    (computation : Computation Carrier κ (Carrier d)) : Prop :=
  ∃ n' site' result, outcome computation ⟨n, site.cache, own⟩ = (result, ⟨n', site'.cache, own⟩) ∧
    site.Leads j n n' site' ∧ site'.readers[j]? = some ⟨d, last result⟩

/-- A reader whose computation can be performed does what `read` does. -/
theorem performs_read (own : κ) {e : δ} {compute : Plan (.separate Carrier) e}
    (performs : ∀ (n : Numbering δ) (site : Site (.separate Carrier)) (j : Nat) (k : UInt64),
      site.readers[j]? = some ⟨e, .computing k compute⟩ →
      site.Performs n j own (Stage.done k) (compute.perform site.config))
    (n : Numbering δ) {site : Site (.separate Carrier)} {j : Nat}
    (there : site.readers[j]? = some ⟨e, .asked compute⟩) :
    site.Performs n j own .finished (Derived.read site.config e (compute.perform site.config)) := by
  cases bound : site.config.isInitialized with
  | false =>
    obtain ⟨site₁, leads₁, cache₁, at_j₁, _⟩ := Site.Leads.step n there
    simp only [Stage.step, bound] at leads₁ cache₁ at_j₁
    refine ⟨n, site₁, .error .notInitialized, ?_, leads₁, at_j₁⟩
    rw [outcome_read_unbound bound, cache₁]
  | true =>
    obtain ⟨site₁, leads₁, cache₁, at_j₁⟩ := Site.Leads.numbered n bound there
    obtain ⟨site₂, leads₂, cache₂, at_j₂, _⟩ := Site.Leads.step (n.number e).2 at_j₁
    have read := outcome_read bound e (compute.perform site.config) ⟨n, site.cache, own⟩
    simp only [Stage.step, cache₁] at leads₂ cache₂ at_j₂
    dsimp only at read
    cases kept : site.cache.get? (n.number e).1 e with
    | some v =>
      simp only [kept] at leads₂ cache₂ at_j₂ read
      obtain ⟨site₃, leads₃, cache₃, at_j₃, _⟩ := Site.Leads.step (n.number e).2 at_j₂
      simp only [Stage.step] at leads₃ cache₃ at_j₃
      refine ⟨_, site₃, .ok v, ?_, (leads₁.trans leads₂ (.inl rfl)).trans leads₃ (.inl rfl), at_j₃⟩
      rw [read, cache₃, cache₂]
    | none =>
      simp only [kept] at leads₂ cache₂ at_j₂ read
      have looked := leads₁.trans leads₂ (.inl rfl)
      obtain ⟨n', site₃, result, eq, leads₃, at_j₃⟩ := performs (n.number e).2 site₂ j _ at_j₂
      rw [looked.config, cache₂] at eq
      rw [eq] at read
      have computed := looked.trans leads₃ (.inl rfl)
      cases result with
      | error failure => exact ⟨n', site₃, .error failure, read, computed, at_j₃⟩
      | ok v =>
        obtain ⟨site₄, leads₄, cache₄, at_j₄⟩ := Site.Leads.kept n' at_j₃
        exact ⟨n', site₄, _, by rw [read, cache₄], computed.trans leads₄ (.inl rfl), at_j₄⟩

/-- A computation goes on as its plan says. -/
theorem performs_plan (own : κ) {d : δ} (plan : Plan (.separate Carrier) d) :
    ∀ (n : Numbering δ) (site : Site (.separate Carrier)) (j : Nat) (k : UInt64),
      site.readers[j]? = some ⟨d, .computing k plan⟩ →
      site.Performs n j own (Stage.done k) (plan.perform site.config) := by
  induction plan with
  | finish result =>
    intro n site j k there
    obtain ⟨site', leads, cache, at_j, _⟩ := Site.Leads.step n there
    cases result with
    | ok v =>
      simp only [Stage.step] at leads cache at_j
      refine ⟨n, site', .ok v, ?_, leads, at_j⟩
      rw [cache]
      exact outcome_finish _ _ _
    | error failure =>
      simp only [Stage.step] at leads cache at_j
      refine ⟨n, site', .error failure, ?_, leads, at_j⟩
      rw [cache]
      exact outcome_finish _ _ _
  | @ask d e compute next ih_compute ih_next =>
    intro n site j k there
    obtain ⟨site₁, leads₁, cache₁, at_j₁, started⟩ := Site.Leads.step n there
    simp only [Stage.step] at leads₁ cache₁ at_j₁ started
    have absent : site.readers[site.readers.length]? = none := List.getElem?_eq_none (Nat.le_refl _)
    have asked := started _ rfl
    obtain ⟨n', site₂, answer, eq, leads₂, at_l⟩ := performs_read own ih_compute n asked
    have other : j ≠ site.readers.length := by
      rintro rfl
      cases absent.symm.trans there
    have at_j₂ := leads₂.others j _ other at_j₁
    obtain ⟨site₃, leads₃, cache₃, at_j₃, _⟩ := Site.Leads.step n' at_j₂
    have answered : site₂.readers[site.readers.length]?.bind (·.answer? e) = some answer := by
      rw [at_l]
      simp [Reader.answer?]
    simp only [Stage.step, answered] at leads₃ cache₃ at_j₃
    obtain ⟨n'', site₄, result, eq', leads₄, at_j₄⟩ := ih_next answer n' site₃ j k at_j₃
    have reached := (leads₁.trans leads₂ (.inr absent)).trans leads₃ (.inl rfl)
    rw [reached.config, cache₃] at eq'
    rw [leads₁.config, cache₁] at eq
    refine ⟨n'', site₄, result, ?_, reached.trans leads₄ (.inl rfl), at_j₄⟩
    rw [outcome_ask, eq]
    exact eq'

/-- A reader of a derived value that is left alone, with the readers that it starts, answers and leaves behind what
    `read` does. -/
theorem read_alone {s : Sharing (.separate Carrier)} {i k : Nat} {site : Site (.separate Carrier)}
    (there : s.sites[i]? = some site) {d : δ} {plan : Plan (.separate Carrier) d}
    (asked : site.readers[k]? = some ⟨d, .asked plan⟩) (own : κ) :
    ∃ (js : List Nat) (site' : Site (.separate Carrier)) (result : Except Failure (Carrier d)),
      let after := s.run (js.map (.advance i))
      after.sites[i]? = some site' ∧ site'.readers[k]? = some ⟨d, .finished result⟩ ∧
        outcome (Derived.read site.config d (plan.perform site.config)) ⟨s.numbering, site.cache, own⟩ =
          (result, ⟨after.numbering, site'.cache, own⟩) ∧
        ∀ m r, m ≠ k → site.readers[m]? = some r → site'.readers[m]? = some r := by
  obtain ⟨n', site', result, eq, leads, at_k⟩ := performs_read own (performs_plan own plan) s.numbering asked
  obtain ⟨js, steps⟩ := leads.steps
  obtain ⟨numbering, there'⟩ := Sharing.run_advances js there
  rw [steps] at numbering there'
  exact ⟨js, site', result, there', at_k, by rw [eq, numbering], leads.others⟩

end TypedConfig.Derived
