import Mathlib.Data.List.Perm.Subperm
import TypedConfig.Proofs.Sharing
import TypedConfig.Sample.Schemas
import TypedConfig.Sample.Session

/-!
Derived values are assigned once for each configuration (`run_assigns_once`): in any
interleaving of the readers the first value that is kept is the one that all of them
return, a reader that comes later computes nothing, and what happens at a
configuration depends on its own readers only.
-/
namespace TypedConfig.Derived
variable {δ τ : Type} {T : Typing δ τ}

/-! ### Readers that come late -/

/-- A reader that has not come to its lookup yet, or has the value. -/
def Stage.Served {d : δ} (v : T.Value d) : Stage T d → Prop
  | .asked _ | .admitted _ | .numbered _ _ => True
  | .returning w | .finished (.ok w) => w = v
  | _ => False

/-- How many steps a reader has ahead that computes nothing. -/
def Stage.ahead {d : δ} : Stage T d → Nat
  | .asked _ => 4
  | .admitted _ => 3
  | .numbered _ _ => 2
  | .returning _ => 1
  | _ => 0

/-- The reader at a position computes nothing, if it reads the derived value that `v` is one of. -/
def Site.Serves (site : Site T) (k : Nat) {d : δ} (v : T.Value d) : Prop :=
  ∀ stage : Stage T d, site.readers[k]? = some ⟨d, stage⟩ → stage.Served v

theorem Stage.Served.finished {d : δ} {v : T.Value d} {stage : Stage T d} (served : stage.Served v)
    (arrived : stage.ahead = 0) : stage = .finished (.ok v) := by
  cases stage with
  | finished result =>
    cases result with
    | ok w =>
      obtain rfl : w = v := served
      rfl
    | error failure => cases served
  | asked _ | admitted _ | numbered _ _ | returning _ => cases arrived
  | computing _ _ | awaiting _ _ _ _ | keeping _ _ => cases served

/-- Whether a reader takes a step. -/
def Action.isStepOf (i k : Nat) : Action → Bool
  | .advance i' k' => i' == i && k' == k
  | .bind _ _ => false

section
variable [DecidableEq δ] [DecidableEq τ]

/-- Once a value is got, the readers that are not past their lookup get it. -/
theorem Site.Coherent.served_step {n : Numbering δ} {site : Site T} (coherent : site.Coherent n) (sound : n.Sound)
    (few : n.given.length ≤ UInt64.size) {d : δ} {v : T.Value d} (got : site.Got d v) {stage : Stage T d}
    (member : ⟨d, stage⟩ ∈ site.readers) (served : stage.Served v) :
    let out := stage.step site.config n site.cache site.readers
    out.stage.Served v ∧ out.stage.ahead = stage.ahead - 1 := by
  cases stage with
  | asked compute =>
    obtain ⟨other, there, has⟩ := got
    have bound := coherent.bound there (Stage.entered_of_value? has)
    simp [Stage.step, bound, Stage.Served, Stage.ahead]
  | admitted compute => exact ⟨trivial, rfl⟩
  | numbered k compute =>
    have kept := (coherent.get?_eq_some_iff sound few (coherent.numbered member rfl)).mpr got
    simp [Stage.step, kept, Stage.Served, Stage.ahead]
  | returning w => exact ⟨served, rfl⟩
  | finished result => exact ⟨served, rfl⟩
  | computing _ _ | awaiting _ _ _ _ | keeping _ _ => cases served

/-- A reader takes its own steps only. -/
theorem Site.reader_after (n : Numbering δ) {site : Site T} {k : Nat} {d : δ} {stage : Stage T d}
    (at_k : site.readers[k]? = some ⟨d, stage⟩) (i : Nat) (action : Action) :
    (site.after n i action).readers[k]? = some ⟨d, if action.isStepOf i k then
      (stage.step site.config n site.cache site.readers).stage else stage⟩ := by
  cases action with
  | advance i' j =>
    by_cases here : i' = i
    · rw [Site.after, if_pos here]
      cases at_j : site.readers[j]? with
      | none =>
        have other : j ≠ k := by
          rintro rfl
          cases at_j.symm.trans at_k
        rw [Site.advance_of_absent n at_j, at_k]
        simp [Action.isStepOf, other]
      | some r =>
        rw [Site.advance_of_reader n at_j, Site.getElem?_put at_j _ _ at_k]
        by_cases same : j = k
        · subst same
          cases at_j.symm.trans at_k
          simp [Action.isStepOf, here]
        · simp [Action.isStepOf, same]
    · rw [Site.after, if_neg here, at_k]
      simp [Action.isStepOf, here]
  | bind i' values =>
    by_cases here : i' = i
    · rw [Site.after, if_pos here, Site.readers_bind, at_k]
      rfl
    · rw [Site.after, if_neg here, at_k]
      rfl

/-- The readers after something has happened were there before, or have just been started. -/
theorem Site.reader_of_after {n : Numbering δ} {site : Site T} {i k : Nat} {action : Action} {d : δ}
    {stage : Stage T d} (at_k : (site.after n i action).readers[k]? = some ⟨d, stage⟩) :
    (∃ before : Stage T d, site.readers[k]? = some ⟨d, before⟩) ∨ ∃ compute, stage = .asked compute := by
  obtain eq | ⟨j, _, eq⟩ | ⟨values, _, eq⟩ := site.after_cases n i action
  · exact .inl ⟨stage, eq ▸ at_k⟩
  · rw [eq] at at_k
    cases at_j : site.readers[j]? with
    | none =>
      rw [Site.advance_of_absent n at_j] at at_k
      exact .inl ⟨stage, at_k⟩
    | some r =>
      rw [Site.advance_of_reader n at_j] at at_k
      obtain ⟨rfl, moved, _⟩ | ⟨_, old⟩ | new := Site.of_getElem?_put at_k
      · cases moved
        exact .inl ⟨r.stage, at_j⟩
      · exact .inl ⟨stage, old⟩
      · exact .inr (Reader.unstarted_iff.mp ((Stage.advance n site r.stage).unstarted _ new))
  · rw [eq, Site.readers_bind] at at_k
    exact .inl ⟨stage, at_k⟩

/-- When something happens, a reader that computes nothing goes on so, and comes nearer if the step is its own. -/
theorem Site.Coherent.serves_after {n : Numbering δ} {site : Site T} (coherent : site.Coherent n) (sound : n.Sound)
    (few : n.given.length ≤ UInt64.size) {d : δ} {v : T.Value d} (got : site.Got d v) {k : Nat}
    (serves : site.Serves k v) (i : Nat) (action : Action) :
    (site.after n i action).Serves k v ∧ ∀ stage : Stage T d, site.readers[k]? = some ⟨d, stage⟩ →
      ∃ next : Stage T d, (site.after n i action).readers[k]? = some ⟨d, next⟩ ∧
        next.ahead = stage.ahead - [action].countP (·.isStepOf i k) := by
  have steps : ∀ stage : Stage T d, site.readers[k]? = some ⟨d, stage⟩ →
      ∃ next : Stage T d, (site.after n i action).readers[k]? = some ⟨d, next⟩ ∧ next.Served v ∧
        next.ahead = stage.ahead - [action].countP (·.isStepOf i k) := by
    intro stage at_k
    have own := coherent.served_step sound few got (List.mem_of_getElem? at_k) (serves stage at_k)
    refine ⟨_, reader_after n at_k i action, ?_⟩
    by_cases mine : action.isStepOf i k = true
    · simpa [mine] using own
    · simpa [mine] using serves stage at_k
  constructor
  · intro stage at_k
    obtain ⟨before, at_k'⟩ | ⟨compute, rfl⟩ := reader_of_after at_k
    · obtain ⟨next, at_k'', served, _⟩ := steps before at_k'
      cases at_k.symm.trans at_k''
      exact served
    · trivial
  · intro stage at_k
    obtain ⟨next, at_k', _, nearer⟩ := steps stage at_k
    exact ⟨next, at_k', nearer⟩

/-- A reader that comes after a value was got computes nothing, and has the value after four steps. -/
theorem Sharing.Coherent.run_serves {i k : Nat} {d : δ} {v : T.Value d} (later : List Action) :
    ∀ {s : Sharing T} {site : Site T}, s.Coherent → (s.run later).numbering.given.length ≤ UInt64.size →
      s.sites[i]? = some site → site.Got d v → site.Serves k v →
      ∃ after, (s.run later).sites[i]? = some after ∧ after.Serves k v ∧
        ∀ stage : Stage T d, site.readers[k]? = some ⟨d, stage⟩ → ∃ next : Stage T d,
          after.readers[k]? = some ⟨d, next⟩ ∧ next.ahead = stage.ahead - later.countP (·.isStepOf i k) := by
  induction later with
  | nil =>
    intro s site _ _ there _ serves
    exact ⟨site, there, serves, fun stage at_k => ⟨stage, at_k, rfl⟩⟩
  | cons action later ih =>
    intro s site coherent few there got serves
    have few' := Nat.le_trans (prefix_run (action :: later) s).length_le few
    have there' : (s.step action).sites[i]? = some (site.after s.numbering i action) := by
      rw [step_sites, there]
      rfl
    obtain ⟨serves', first⟩ := (coherent.sites there).serves_after coherent.sound few' got serves i action
    obtain ⟨after, there'', serves'', rest⟩ := ih (coherent.step few' action) few there' (got.after i action) serves'
    refine ⟨after, there'', serves'', fun stage at_k => ?_⟩
    obtain ⟨next, at_k', one⟩ := first stage at_k
    obtain ⟨last, at_k'', others⟩ := rest next at_k'
    refine ⟨last, at_k'', ?_⟩
    rw [others, one, Nat.sub_sub, ← List.countP_append, List.singleton_append]

end

/-! ### Two runs -/

/-- Where a reader stands, with a number in place of its own. -/
def Stage.withNumber {d : δ} (k : UInt64) : Stage T d → Stage T d
  | .numbered _ compute => .numbered k compute
  | .computing _ rest => .computing k rest
  | .awaiting _ reader e next => .awaiting k reader e next
  | .keeping _ v => .keeping k v
  | stage => stage

/-- Where a reader stands, apart from its number. -/
def Reader.plain (r : Reader T) : Reader T := ⟨r.derived, r.stage.withNumber 0⟩

namespace Stage

theorem value?_withNumber {d : δ} (k : UInt64) (stage : Stage T d) : (stage.withNumber k).value? = stage.value? := by
  cases stage <;> rfl

theorem withNumber_withNumber {d : δ} (k l : UInt64) (stage : Stage T d) :
    (stage.withNumber l).withNumber k = stage.withNumber k := by
  cases stage <;> rfl

theorem exists_withNumber {d : δ} {stage stage' : Stage T d} (same : stage.withNumber 0 = stage'.withNumber 0) :
    ∃ k, stage' = stage.withNumber k := by
  have own : stage' = stage'.withNumber (stage'.number?.getD 0) := by
    cases stage' <;> rfl
  exact ⟨_, by rw [← withNumber_withNumber _ 0 stage, same, withNumber_withNumber, ← own]⟩

end Stage

/-- Two sites have the same configuration, and readers that stand in the same places. -/
structure Site.Alike (site site' : Site T) : Prop where
  config : site.config = site'.config
  readers : site.readers.map Reader.plain = site'.readers.map Reader.plain

theorem Site.got_iff_plain {site : Site T} {d : δ} {v : T.Value d} :
    site.Got d v ↔ ∃ stage : Stage T d, ⟨d, stage⟩ ∈ site.readers.map Reader.plain ∧ stage.value? = some v := by
  constructor
  · rintro ⟨stage, member, has⟩
    exact ⟨stage.withNumber 0, List.mem_map_of_mem member, (stage.value?_withNumber 0).trans has⟩
  · rintro ⟨_, member, has⟩
    obtain ⟨⟨e, stage⟩, member', same⟩ := List.mem_map.mp member
    cases same
    exact ⟨stage, member', (stage.value?_withNumber 0).symm.trans has⟩

theorem Site.Alike.got_iff {site site' : Site T} (alike : site.Alike site') {d : δ} {v : T.Value d} :
    site.Got d v ↔ site'.Got d v := by
  rw [got_iff_plain, alike.readers, ← got_iff_plain]

theorem Reader.answer?_plain [DecidableEq δ] (r : Reader T) (e : δ) : r.plain.answer? e = r.answer? e := by
  obtain ⟨d, stage⟩ := r
  cases stage <;> rfl

/-- At sites that are alike, readers at the same position stand in the same place. -/
theorem Site.Alike.reader_cases {site site' : Site T} (alike : site.Alike site') (j : Nat) :
    (site.readers[j]? = none ∧ site'.readers[j]? = none) ∨
      ∃ d, ∃ stage stage' : Stage T d, site.readers[j]? = some ⟨d, stage⟩ ∧ site'.readers[j]? = some ⟨d, stage'⟩ ∧
        stage.withNumber 0 = stage'.withNumber 0 := by
  have plain : site'.readers[j]?.map Reader.plain = site.readers[j]?.map Reader.plain := by
    rw [← List.getElem?_map, ← alike.readers, List.getElem?_map]
  cases there : site.readers[j]? with
  | none =>
    rw [there, Option.map_none, Option.map_eq_none_iff] at plain
    exact .inl ⟨rfl, plain⟩
  | some r =>
    rw [there, Option.map_some, Option.map_eq_some_iff] at plain
    obtain ⟨d, stage⟩ := r
    obtain ⟨⟨e, stage'⟩, there', same⟩ := plain
    obtain rfl : e = d := congrArg Reader.derived same
    exact .inr ⟨e, stage, stage', rfl, there', by simpa [Reader.plain, eq_comm] using same⟩

theorem Site.Alike.answer? [DecidableEq δ] {site site' : Site T} (alike : site.Alike site') (k : Nat) (e : δ) :
    site.readers[k]?.bind (·.answer? e) = site'.readers[k]?.bind (·.answer? e) := by
  have plain : ∀ readers : List (Reader T),
      readers[k]?.bind (·.answer? e) = (readers.map Reader.plain)[k]?.bind (·.answer? e) := by
    intro readers
    rw [List.getElem?_map, Option.bind_map]
    exact congrArg _ (funext fun r => (r.answer?_plain e).symm)
  rw [plain, alike.readers, ← plain]

theorem Site.Alike.bind {site site' : Site T} (alike : site.Alike site') (values : Bindings) :
    (site.bind values).Alike (site'.bind values) := by
  have readers : (site.bind values).readers.map Reader.plain = (site'.bind values).readers.map Reader.plain := by
    rw [readers_bind, readers_bind, alike.readers]
  refine ⟨?_, readers⟩
  unfold Site.bind
  rw [alike.config]
  cases site'.config.store values with
  | ok c => rfl
  | error failure => exact alike.config

/-- Two runs agree about the site at a position, and the second has given no number that the first has not. -/
structure Sharing.AlikeAt (i : Nat) (s s' : Sharing T) : Prop where
  ids : s'.numbering.given.map Prod.fst ⊆ s.numbering.given.map Prod.fst
  sites : (s.sites[i]? = none ∧ s'.sites[i]? = none) ∨
    ∃ site site', s.sites[i]? = some site ∧ s'.sites[i]? = some site' ∧ site.Alike site'

/-- The second run has numbers left as long as the first has. -/
theorem Sharing.AlikeAt.few {i : Nat} {s s' : Sharing T} (alike : s.AlikeAt i s') (coherent' : s'.Coherent)
    (few : s.numbering.given.length ≤ UInt64.size) : s'.numbering.given.length ≤ UInt64.size := by
  have within := (List.subperm_of_subset coherent'.sound.distinct alike.ids).length_le
  rw [List.length_map, List.length_map] at within
  exact Nat.le_trans within few

theorem Sharing.AlikeAt.refl (i : Nat) (s : Sharing T) : s.AlikeAt i s := by
  refine ⟨List.Subset.refl _, ?_⟩
  cases there : s.sites[i]? with
  | none => exact .inl ⟨rfl, rfl⟩
  | some site => exact .inr ⟨site, site, rfl, rfl, rfl, rfl⟩

/-- What a reader has returned, once it has finished. -/
def Stage.result? {d : δ} : Stage T d → Option (Except Failure (T.Value d))
  | .finished result => some result
  | _ => none

/-- What the readers at a site read, and have returned. -/
def Site.results (site : Site T) : List ((d : δ) × Option (Except Failure (T.Value d))) :=
  site.readers.map fun r => ⟨r.derived, r.stage.result?⟩

theorem Site.Alike.results {site site' : Site T} (alike : site.Alike site') : site.results = site'.results := by
  have plain : ∀ site : Site T, site.results =
      (site.readers.map Reader.plain).map fun r => ⟨r.derived, r.stage.result?⟩ := by
    intro site
    rw [List.map_map]
    refine List.map_congr_left fun r _ => ?_
    obtain ⟨d, stage⟩ := r
    cases stage <;> rfl
  rw [plain, alike.readers, ← plain]

section
variable [DecidableEq δ] [DecidableEq τ]

/-- Readers that stand in the same place at sites that are alike take the same step. -/
theorem Site.Alike.step (n n' : Numbering δ) {site site' : Site T} (alike : site.Alike site') {d : δ}
    {stage stage' : Stage T d} (same : stage.withNumber 0 = stage'.withNumber 0)
    (kept : ∀ k k', stage.number? = some k → stage'.number? = some k' →
      site.cache.get? k (T.type d) = site'.cache.get? k' (T.type d)) :
    let out := stage.step site.config n site.cache site.readers
    let out' := stage'.step site'.config n' site'.cache site'.readers
    out.stage.withNumber 0 = out'.stage.withNumber 0 ∧ out.started = out'.started := by
  obtain ⟨k', rfl⟩ := Stage.exists_withNumber same
  cases stage with
  | asked compute =>
    simp [Stage.withNumber, Stage.step, alike.config]
  | admitted compute => exact ⟨rfl, rfl⟩
  | numbered k compute =>
    simp only [Stage.withNumber, Stage.step, kept k k' rfl rfl]
    cases site'.cache.get? k' (T.type d) with
    | some v => exact ⟨rfl, rfl⟩
    | none => exact ⟨rfl, rfl⟩
  | computing k rest =>
    cases rest with
    | finish result =>
      cases result with
      | ok v => exact ⟨rfl, rfl⟩
      | error failure => exact ⟨rfl, rfl⟩
    | ask e compute next =>
      have length : site.readers.length = site'.readers.length := by
        simpa using congrArg List.length alike.readers
      simp [Stage.withNumber, Stage.step, length]
  | awaiting k reader e next =>
    simp only [Stage.withNumber, Stage.step, alike.answer? reader e]
    cases site'.readers[reader]?.bind (·.answer? e) with
    | some result => exact ⟨rfl, rfl⟩
    | none => exact ⟨rfl, rfl⟩
  | keeping k v =>
    simp [Stage.withNumber, Stage.step, Cache.fst_keep, kept k k' rfl rfl]
  | returning v => exact ⟨rfl, rfl⟩
  | finished result => exact ⟨rfl, rfl⟩

/-- Sites that are alike stay so when their readers at the same position take a step. -/
theorem Site.Alike.advance {n n' : Numbering δ} {site site' : Site T} (alike : site.Alike site')
    (coherent : site.Coherent n) (coherent' : site'.Coherent n') (sound : n.Sound) (sound' : n'.Sound)
    (few : n.given.length ≤ UInt64.size) (few' : n'.given.length ≤ UInt64.size) (j : Nat) :
    (site.advance n j).2.Alike (site'.advance n' j).2 := by
  obtain ⟨absent, absent'⟩ | ⟨d, stage, stage', there, there', same⟩ := alike.reader_cases j
  · rwa [advance_of_absent n absent, advance_of_absent n' absent']
  · have kept : ∀ k k', stage.number? = some k → stage'.number? = some k' →
        site.cache.get? k (T.type d) = site'.cache.get? k' (T.type d) := fun k k' look look' => Option.ext fun v => by
      rw [coherent.get?_eq_some_iff sound few (coherent.numbered (List.mem_of_getElem? there) look),
        coherent'.get?_eq_some_iff sound' few' (coherent'.numbered (List.mem_of_getElem? there') look'), alike.got_iff]
    obtain ⟨stands, started⟩ := alike.step n n' same kept
    rw [advance_of_reader n there, advance_of_reader n' there']
    refine ⟨alike.config, ?_⟩
    simp only [put, List.map_append, List.map_set, alike.readers, started]
    exact congrArg (fun r => List.set _ j r ++ _) (congrArg (Reader.mk d) stands)

/-- Only a reader that was admitted is given a number. -/
theorem Stage.numbering_step (c : Config) (n : Numbering δ) (cache : Cache T.Carrier) (readers : List (Reader T))
    {d : δ} (stage : Stage T d) :
    (∃ compute, stage = .admitted compute) ∨ (stage.step c n cache readers).numbering = n := by
  cases stage with
  | admitted compute => exact .inl ⟨compute, rfl⟩
  | numbered k compute =>
    refine .inr ?_
    simp only [Stage.step]
    split <;> rfl
  | computing k rest =>
    refine .inr ?_
    cases rest with
    | finish result => cases result <;> rfl
    | ask e compute next => rfl
  | awaiting k reader e next =>
    refine .inr ?_
    simp only [Stage.step]
    split <;> rfl
  | _ => exact .inr rfl

/-- When readers that stand in the same place take a step, no derived value gets a number in the second run only. -/
theorem Site.Alike.ids_advance {n n' : Numbering δ} {site site' : Site T} (alike : site.Alike site')
    (ids : n'.given.map Prod.fst ⊆ n.given.map Prod.fst) (j : Nat) :
    (site'.advance n' j).1.given.map Prod.fst ⊆ (site.advance n j).1.given.map Prod.fst := by
  obtain ⟨absent, absent'⟩ | ⟨d, stage, stage', there, there', same⟩ := alike.reader_cases j
  · rwa [advance_of_absent n absent, advance_of_absent n' absent']
  · rw [advance_of_reader n there, advance_of_reader n' there']
    obtain ⟨compute, rfl⟩ | kept := stage'.numbering_step site'.config n' site'.cache site'.readers
    · obtain ⟨k, rfl⟩ := Stage.exists_withNumber same.symm
      intro e known
      refine (n.fst_number d e).mpr (((n'.fst_number d e).mp known).imp (fun old => ids old) id)
    · dsimp only
      rw [kept]
      exact List.Subset.trans ids ((Stage.advance n site stage).grows.map Prod.fst).subset

namespace Sharing.AlikeAt

theorem step_own {i : Nat} {s s' : Sharing T} (alike : s.AlikeAt i s') (coherent : s.Coherent) (coherent' : s'.Coherent)
    (few : s.numbering.given.length ≤ UInt64.size) {action : Action} (own : action.site = i) :
    (s.step action).AlikeAt i (s'.step action) := by
  have few' := alike.few coherent' few
  obtain ⟨absent, absent'⟩ | ⟨site, site', there, there', here⟩ := alike.sites
  · refine ⟨?_, .inl ⟨?_, ?_⟩⟩
    · rw [step_numbering_of_absent (s := s) (own ▸ absent), step_numbering_of_absent (s := s') (own ▸ absent')]
      exact alike.ids
    · rw [step_sites, absent, Option.map_none]
    · rw [step_sites, absent', Option.map_none]
  · have at_i : ∀ {s : Sharing T} {site : Site T}, s.sites[i]? = some site →
        (s.step action).sites[i]? = some (site.after s.numbering i action) := by
      intro s site there
      rw [step_sites, there, Option.map_some]
    refine ⟨?_, .inr ⟨_, _, at_i there, at_i there', ?_⟩⟩
    · cases action with
      | advance k j =>
        obtain rfl : k = i := own
        rw [step_advance there, step_advance there']
        exact here.ids_advance alike.ids j
      | bind k values => exact alike.ids
    · cases action with
      | advance k j =>
        obtain rfl : k = i := own
        rw [Site.after, Site.after, if_pos rfl, if_pos rfl]
        exact here.advance (coherent.sites there) (coherent'.sites there') coherent.sound coherent'.sound few few' j
      | bind k values =>
        obtain rfl : k = i := own
        rw [Site.after, Site.after, if_pos rfl, if_pos rfl]
        exact here.bind values

theorem step_other {i : Nat} {s s' : Sharing T} (alike : s.AlikeAt i s') {action : Action} (other : action.site ≠ i) :
    (s.step action).AlikeAt i s' := by
  have untouched : ∀ site : Site T, site.after s.numbering i action = site := by
    intro site
    cases action with
    | advance k j => exact if_neg other
    | bind k values => exact if_neg other
  refine ⟨List.Subset.trans alike.ids ((s.prefix_step action).map Prod.fst).subset, ?_⟩
  rw [step_sites, funext untouched, Option.map_id']
  exact alike.sites

/-- What happens elsewhere can be left out. -/
theorem run {i : Nat} (schedule : List Action) : ∀ {s s' : Sharing T}, s.AlikeAt i s' → s.Coherent → s'.Coherent →
    (s.run schedule).numbering.given.length ≤ UInt64.size →
    (s.run schedule).AlikeAt i (s'.run (schedule.filter (·.site == i))) := by
  induction schedule with
  | nil => exact fun alike _ _ _ => alike
  | cons action schedule ih =>
    intro s s' alike coherent coherent' few
    have few_s := Nat.le_trans (prefix_run (action :: schedule) s).length_le few
    have coherent_next := coherent.step few_s action
    by_cases own : action.site = i
    · rw [List.filter_cons_of_pos (by simpa using own)]
      have few_s' := alike.few coherent' few_s
      exact ih (alike.step_own coherent coherent' few_s own) coherent_next (coherent'.step few_s' action) few
    · rw [List.filter_cons_of_neg (by simpa using own)]
      exact ih (alike.step_other own) coherent_next coherent' few

end Sharing.AlikeAt

/-! ### What a schedule leaves behind -/

/-- A reader at a site has returned a value of a derived value. -/
def Site.Returned (site : Site T) (d : δ) (v : T.Value d) : Prop := ⟨d, .finished (.ok v)⟩ ∈ site.readers

/-- Derived values are assigned once for each configuration, throughout a schedule. -/
structure AssignsOnce (start : Sharing T) (schedule : List Action) : Prop where
  /-- Readers of one derived value of one configuration that return a value return the same. -/
  agree : ∀ (i : Nat) (site : Site T) (d : δ) (v w : T.Value d), (start.run schedule).sites[i]? = some site →
    site.Returned d v → site.Returned d w → v = w
  /-- A reader that starts after such a return never computes, and returns that value after four steps. -/
  late : ∀ earlier later rest, schedule = earlier ++ later ++ rest →
    ∀ (i k : Nat) (before : Site T) (d : δ) (v : T.Value d), (start.run earlier).sites[i]? = some before →
    before.Returned d v → (∀ r, before.readers[k]? = some r → r.Unstarted) →
    ∃ after, (start.run (earlier ++ later)).sites[i]? = some after ∧ after.Serves k v ∧
      ∀ compute, before.readers[k]? = some ⟨d, .asked compute⟩ → 4 ≤ later.countP (·.isStepOf i k) →
        after.readers[k]? = some ⟨d, .finished (.ok v)⟩
  /-- At its lookup a reader gets what a reader of the same derived value has got, or computes if none has. -/
  lookup : ∀ earlier i k rest, schedule = earlier ++ .advance i k :: rest →
    ∀ (site : Site T) (d : δ) (number : UInt64) (compute : Plan T d), (start.run earlier).sites[i]? = some site →
    site.readers[k]? = some ⟨d, .numbered number compute⟩ →
    ∃ after stage, (start.run (earlier ++ [.advance i k])).sites[i]? = some after ∧
      after.readers[k]? = some ⟨d, stage⟩ ∧
      ((∃ v, site.Got d v ∧ stage = .returning v) ∨ ((∀ v, ¬ site.Got d v) ∧ stage = .computing number compute))
  /-- A step after which a reader has failed, on its own or because the configuration is not bound, leaves the
      numbers and what is kept as they were. -/
  failure : ∀ earlier i k rest, schedule = earlier ++ .advance i k :: rest →
    ∀ (site after : Site T) (d : δ) (failure : Failure), (start.run earlier).sites[i]? = some site →
    (start.run (earlier ++ [.advance i k])).sites[i]? = some after →
    after.readers[k]? = some ⟨d, .finished (.error failure)⟩ →
    (start.run (earlier ++ [.advance i k])).numbering = (start.run earlier).numbering ∧ after.cache = site.cache
  /-- Nothing is kept for a configuration that is not bound. -/
  unbound : ∀ (i : Nat) (site : Site T), (start.run schedule).sites[i]? = some site →
    site.config.isInitialized = false → site.cache = []
  /-- No number belongs to two derived values. -/
  numbers : ∀ (d e : δ) (number : UInt64), (d, number) ∈ (start.run schedule).numbering.given →
    (e, number) ∈ (start.run schedule).numbering.given → d = e
  /-- A reader looks under the number of its derived value. -/
  numbered : ∀ (i : Nat) (site : Site T) (d : δ) (stage : Stage T d) (number : UInt64),
    (start.run schedule).sites[i]? = some site → ⟨d, stage⟩ ∈ site.readers → stage.number? = some number →
    (d, number) ∈ (start.run schedule).numbering.given
  /-- What is kept under a number is of the type of the derived value that has it, and was got by its readers. -/
  owned : ∀ (i : Nat) (site : Site T) (number : UInt64) (kept : Kept T.Carrier),
    (start.run schedule).sites[i]? = some site → site.cache.find? number = some kept →
    ∃ d v, (d, number) ∈ (start.run schedule).numbering.given ∧ kept = ⟨T.type d, v⟩ ∧ site.Got d v
  /-- The readers of a configuration return what they do if nothing happens elsewhere. -/
  apart : ∀ i : Nat, (start.run schedule).sites[i]?.map Site.results =
    (start.run (schedule.filter (·.site == i))).sites[i]?.map Site.results

/-- What a lookup leads to, given that the site is coherent. -/
theorem Site.Coherent.lookup_step {n : Numbering δ} {site : Site T} (coherent : site.Coherent n) (sound : n.Sound)
    (few : n.given.length ≤ UInt64.size) {d : δ} {number : UInt64} {compute : Plan T d}
    (member : ⟨d, .numbered number compute⟩ ∈ site.readers) :
    let stage := ((Stage.numbered number compute).step site.config n site.cache site.readers).stage
    (∃ v, site.Got d v ∧ stage = .returning v) ∨ ((∀ v, ¬ site.Got d v) ∧ stage = .computing number compute) := by
  have kept_iff := fun v => coherent.get?_eq_some_iff sound few (coherent.numbered member rfl) (v := v)
  simp only [Stage.step]
  cases kept : site.cache.get? number (T.type d) with
  | some v => exact .inl ⟨v, (kept_iff v).mp kept, rfl⟩
  | none =>
    refine .inr ⟨fun v got => ?_, rfl⟩
    cases kept.symm.trans ((kept_iff v).mpr got)

/-- A step with which a reader fails leaves the numbers and what is kept as they were. -/
theorem Site.advance_failed {n : Numbering δ} {site : Site T} {k : Nat} {d : δ} {failure : Failure}
    (failed : (site.advance n k).2.readers[k]? = some ⟨d, .finished (.error failure)⟩) :
    (site.advance n k).1 = n ∧ (site.advance n k).2.cache = site.cache := by
  cases there : site.readers[k]? with
  | none =>
    rw [advance_of_absent n there]
    exact ⟨rfl, rfl⟩
  | some r =>
    obtain ⟨e, stage⟩ := r
    rw [advance_of_reader n there] at failed ⊢
    rw [getElem?_put there _ _ there, if_pos rfl] at failed
    have step := Stage.advance n site stage
    generalize stage.step site.config n site.cache site.readers = out at failed step
    cases step with
    | works => exact ⟨rfl, rfl⟩
    | numbers => cases failed
    | finds => cases failed
    | keeps => cases failed
    | returns => cases failed

/-- The runs that a schedule begins with are coherent, and have numbers left. -/
theorem Sharing.Coherent.run_prefix {s : Sharing T} (start : s.Coherent) {schedule earlier later : List Action}
    (split : schedule = earlier ++ later) (few : (s.run schedule).numbering.given.length ≤ UInt64.size) :
    (s.run earlier).Coherent ∧ (s.run earlier).numbering.given.length ≤ UInt64.size := by
  rw [split, run_append] at few
  have few' := Nat.le_trans (prefix_run later (s.run earlier)).length_le few
  exact ⟨start.run earlier few', few'⟩

/-- However the readers of derived values interleave with each other and with the binding of their configurations,
    derived values are assigned once for each configuration, as long as no number is handed out twice. -/
theorem run_assigns_once (calls : List (Config × List (Call T))) (schedule : List Action)
    (few : ((Sharing.ofCalls calls).run schedule).numbering.given.length ≤ UInt64.size) :
    AssignsOnce (Sharing.ofCalls calls) schedule := by
  have start := Sharing.Coherent.ofCalls calls
  generalize Sharing.ofCalls calls = s at few start
  have coherent := start.run schedule few
  have step_at : ∀ {earlier : List Action} {i k : Nat} {site : Site T}, (s.run earlier).sites[i]? = some site →
      (s.run (earlier ++ [.advance i k])).numbering = (site.advance (s.run earlier).numbering k).1 ∧
        (s.run (earlier ++ [.advance i k])).sites[i]? = some (site.advance (s.run earlier).numbering k).2 := by
    intro earlier i k site there
    rw [Sharing.run_append]
    exact Sharing.step_own there k
  constructor
  case agree =>
    intro i site d v w there returned returned'
    exact (coherent.sites there).got_unique coherent.sound (.of_mem returned rfl) (.of_mem returned' rfl)
  case late =>
    rintro earlier later rest split i k before d v there returned unstarted
    obtain ⟨_, few'⟩ := start.run_prefix split few
    obtain ⟨coherent', _⟩ := start.run_prefix (split.trans (List.append_assoc _ _ _)) few
    rw [Sharing.run_append] at few' ⊢
    have serves : before.Serves k v := by
      intro stage at_k
      obtain ⟨compute, rfl⟩ := Reader.unstarted_iff.mp (unstarted _ at_k)
      trivial
    obtain ⟨after, there', serves', nearer⟩ := coherent'.run_serves later few' there (.of_mem returned rfl) serves
    refine ⟨after, there', serves', fun compute at_k enough => ?_⟩
    obtain ⟨stage, at_k', ahead⟩ := nearer _ at_k
    have arrived : stage.ahead = 0 := ahead.trans (Nat.sub_eq_zero_of_le enough)
    rw [at_k', (serves' stage at_k').finished arrived]
  case lookup =>
    rintro earlier i k rest split site d number compute there at_k
    obtain ⟨coherent', few'⟩ := start.run_prefix split few
    have outcome := (coherent'.sites there).lookup_step coherent'.sound few' (List.mem_of_getElem? at_k)
    refine ⟨_, _, (step_at there).2, ?_, outcome⟩
    rw [Site.advance_of_reader _ at_k, Site.getElem?_put at_k _ _ at_k, if_pos rfl]
  case failure =>
    rintro earlier i k rest split site after d failure there there' failed
    rw [(step_at there).2] at there'
    cases there'
    rw [(step_at there).1]
    exact Site.advance_failed failed
  case unbound =>
    intro i site there unbound
    exact (coherent.sites there).cache_of_unbound unbound
  case numbers =>
    intro d e number has has'
    exact coherent.sound.owner_unique few has has'
  case numbered =>
    intro i site d stage number there member look
    exact (coherent.sites there).numbered member look
  case owned =>
    intro i site number kept there found
    exact (coherent.sites there).owned found
  case apart =>
    intro i
    have alike := (Sharing.AlikeAt.refl i s).run schedule start start few
    obtain ⟨absent, absent'⟩ | ⟨site, site', there, there', here⟩ := alike.sites
    · rw [absent, absent']
    · rw [there, there', Option.map_some, Option.map_some, here.results]

end

namespace Race

/-- Sample derived values that are all of one type. -/
def typing : Typing Sample.DerivedName Unit := ⟨fun _ => (), fun _ => Int64⟩

/-- At a configuration that is bound `next` is read, which asks for `plus`, and `plus` twice, with a computation that
    succeeds and one that fails; at one that is not bound `plus` is read. -/
def calls : List (Config × List (Call typing)) :=
  [(⟨Sample.parma, some []⟩,
    [⟨.next, .ask .plus (.finish (.ok (6 : Int64))) fun answer => .finish (answer.map fun n : Int64 => n * 2)⟩,
      ⟨.plus, .finish (.ok (7 : Int64))⟩, ⟨.plus, .finish (.error (.missingEntry "plus"))⟩]),
    (.ofSchema Sample.parma, [⟨.plus, .finish (.ok (8 : Int64))⟩])]

/-- The second reader and the one that `next` has started compute `plus` at the same time, and the second keeps its
    value first; the third starts after that. -/
def schedule : List Action :=
  [1, 1, 0, 0, 0, 1, 0, 3, 3, 3, 3, 1].map (.advance 0) ++
    .advance 1 0 :: [1, 1, 3, 3, 0, 0, 0, 0, 2, 2, 2, 2].map (.advance 0)

end Race

theorem run_assigns_once_race :
    let start := Sharing.ofCalls Race.calls
    (start.run Race.schedule).sites.map Site.results =
        [[⟨.next, some (.ok (14 : Int64))⟩, ⟨.plus, some (.ok (7 : Int64))⟩, ⟨.plus, some (.ok (7 : Int64))⟩,
            ⟨.plus, some (.ok (7 : Int64))⟩],
          [⟨.plus, some (.error .notInitialized)⟩]] ∧
      (start.run Race.schedule).numbering.given.length ≤ UInt64.size ∧ AssignsOnce start Race.schedule := by
  have few : ((Sharing.ofCalls Race.calls).run Race.schedule).numbering.given.length ≤ UInt64.size := by decide +kernel
  exact ⟨rfl, few, run_assigns_once Race.calls Race.schedule few⟩

end TypedConfig.Derived
