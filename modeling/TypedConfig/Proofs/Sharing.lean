import Mathlib.Data.List.Nodup
import TypedConfig.Config.Derived

/-!
Readers of derived values, in any interleaving of their steps. A reader works on
its own, is given a number, finds what is kept, keeps its value, or gives it back
(`Stage.advance`). So what is kept under a number belongs to the one derived value
that has it, and is what its readers have got (`Sharing.Coherent.run`), as long as
no number is handed out twice.
-/
namespace TypedConfig.Derived
variable {δ τ : Type} {T : Typing δ τ}

/-! ### Numbers -/

namespace Numbering

/-- Each derived value has one number, and the numbers are handed out in turn. -/
structure Sound (n : Numbering δ) : Prop where
  distinct : (n.given.map Prod.fst).Nodup
  counted : n.given.map Prod.snd = (List.range n.given.length).map UInt64.ofNat
  next_eq : n.next = .ofNat n.given.length

theorem sound_empty : (empty : Numbering δ).Sound := ⟨List.nodup_nil, rfl, rfl⟩

theorem Sound.number_unique {n : Numbering δ} (sound : n.Sound) {d : δ} {k l : UInt64} (has : (d, k) ∈ n.given)
    (has' : (d, l) ∈ n.given) : k = l :=
  congrArg Prod.snd (List.inj_on_of_nodup_map sound.distinct has has' rfl)

/-- As long as there are numbers left, no two derived values share one. -/
theorem Sound.owner_unique {n : Numbering δ} (sound : n.Sound) (few : n.given.length ≤ UInt64.size) {d e : δ}
    {k : UInt64} (has : (d, k) ∈ n.given) (has' : (e, k) ∈ n.given) : d = e := by
  have numbers : (n.given.map Prod.snd).Nodup := by
    rw [sound.counted]
    refine List.nodup_range.map_on fun a below b below' same => ?_
    have bound : a < UInt64.size := Nat.lt_of_lt_of_le (List.mem_range.mp below) few
    have bound' : b < UInt64.size := Nat.lt_of_lt_of_le (List.mem_range.mp below') few
    rw [← UInt64.toNat_ofNat_of_lt' bound, same, UInt64.toNat_ofNat_of_lt' bound']
  exact congrArg Prod.fst (List.inj_on_of_nodup_map numbers has has' rfl)

variable [DecidableEq δ]

/-- A derived value keeps the number that it has, or is given the next. -/
theorem number_cases (n : Numbering δ) (d : δ) :
    (∃ k, (d, k) ∈ n.given ∧ n.number d = (k, n)) ∨
      (d ∉ n.given.map Prod.fst ∧ n.number d = (n.next, ⟨n.given ++ [(d, n.next)], n.next + 1⟩)) := by
  unfold number
  cases found : n.given.find? fun entry => entry.1 == d with
  | some entry =>
    obtain rfl : entry.1 = d := by simpa using List.find?_some found
    exact .inl ⟨entry.2, List.mem_of_find?_eq_some found, rfl⟩
  | none =>
    refine .inr ⟨fun has => ?_, rfl⟩
    obtain ⟨entry, member, same⟩ := List.mem_map.mp has
    exact List.find?_eq_none.mp found entry member (by simpa using same)

theorem mem_number (n : Numbering δ) (d : δ) : (d, (n.number d).1) ∈ (n.number d).2.given := by
  obtain ⟨k, has, eq⟩ | ⟨_, eq⟩ := n.number_cases d
  · rw [eq]
    exact has
  · rw [eq]
    exact List.mem_append_right _ List.mem_cons_self

theorem prefix_number (n : Numbering δ) (d : δ) : n.given <+: (n.number d).2.given := by
  obtain ⟨k, has, eq⟩ | ⟨_, eq⟩ := n.number_cases d
  · simp [eq]
  · simp [eq]

theorem fst_number (n : Numbering δ) (d e : δ) :
    e ∈ (n.number d).2.given.map Prod.fst ↔ e ∈ n.given.map Prod.fst ∨ e = d := by
  obtain ⟨k, has, eq⟩ | ⟨_, eq⟩ := n.number_cases d
  · rw [eq]
    refine ⟨.inl, ?_⟩
    rintro (known | rfl)
    · exact known
    · exact List.mem_map_of_mem has
  · rw [eq]
    simp

theorem Sound.number {n : Numbering δ} (sound : n.Sound) (d : δ) : (n.number d).2.Sound := by
  obtain ⟨k, has, eq⟩ | ⟨absent, eq⟩ := n.number_cases d
  · rw [eq]
    exact sound
  · rw [eq]
    refine ⟨?_, ?_, ?_⟩
    · simpa using List.nodup_append_comm.mp (List.nodup_cons.mpr ⟨absent, sound.distinct⟩)
    · simp [sound.counted, sound.next_eq, List.range_succ]
    · simp [sound.next_eq]

end Numbering

/-! ### Results that are kept -/

namespace Cache
variable {Carrier : τ → Type}

theorem find?_append (cache : Cache Carrier) (k l : UInt64) (kept : Kept Carrier) :
    Cache.find? (cache ++ [(l, kept)]) k = (cache.find? k).or (if l = k then some kept else none) := by
  unfold find?
  rw [List.find?_append, Option.map_or]
  by_cases same : l = k
  · simp [same]
  · simp [same]

variable [DecidableEq τ]

theorem get?_of_find? {cache : Cache Carrier} {k : UInt64} {t : τ} {v : Carrier t}
    (found : cache.find? k = some ⟨t, v⟩) : cache.get? k t = some v := by
  simp [get?, found, Kept.as?]

theorem find?_of_get? {cache : Cache Carrier} {k : UInt64} {t : τ} {v : Carrier t} (got : cache.get? k t = some v) :
    cache.find? k = some ⟨t, v⟩ := by
  obtain ⟨⟨u, w⟩, found, same⟩ := Option.bind_eq_some_iff.mp got
  unfold Kept.as? at same
  split at same
  · next h =>
    cases h
    cases same
    exact found
  · cases same

/-- A value is not kept if there is one under its number, which is the answer if it is of the right type. -/
theorem keep_cases (cache : Cache Carrier) (k : UInt64) {t : τ} (value : Carrier t) :
    (∃ kept, cache.find? k = some kept ∧ cache.keep k value = ((kept.as? t).getD value, cache)) ∨
      (cache.find? k = none ∧ cache.keep k value = (value, cache ++ [(k, ⟨t, value⟩)])) := by
  unfold keep
  cases found : cache.find? k with
  | some kept => exact .inl ⟨kept, rfl, rfl⟩
  | none => exact .inr ⟨rfl, rfl⟩

theorem fst_keep (cache : Cache Carrier) (k : UInt64) {t : τ} (value : Carrier t) :
    (cache.keep k value).1 = (cache.get? k t).getD value := by
  obtain ⟨kept, found, eq⟩ | ⟨free, eq⟩ := cache.keep_cases k value
  · simp [eq, get?, found]
  · simp [eq, get?, free]

/-- Something that is found after a value was to be kept was there before, or is that value. -/
theorem find?_of_keep {cache : Cache Carrier} {k l : UInt64} {t : τ} {v : Carrier t} {kept : Kept Carrier}
    (found : (cache.keep k v).2.find? l = some kept) :
    cache.find? l = some kept ∨ (k = l ∧ kept = ⟨t, (cache.keep k v).1⟩) := by
  obtain ⟨_, _, eq⟩ | ⟨_, eq⟩ := cache.keep_cases k v
  · rw [eq] at found
    exact .inl found
  · rw [eq, find?_append, Option.or_eq_some_iff] at found
    rw [eq]
    obtain old | ⟨_, new⟩ := found
    · exact .inl old
    · split at new
      · next same =>
        cases new
        exact .inr ⟨same, rfl⟩
      · cases new

theorem find?_keep {cache : Cache Carrier} {k : UInt64} {kept : Kept Carrier} (found : cache.find? k = some kept)
    (l : UInt64) {t : τ} (value : Carrier t) : (cache.keep l value).2.find? k = some kept := by
  obtain ⟨_, _, eq⟩ | ⟨_, eq⟩ := cache.keep_cases l value
  · rw [eq]
    exact found
  · rw [eq]
    simp [find?_append, found]

end Cache

/-! ### What a reader has -/

/-- The number under which a reader looks. -/
def Stage.number? {d : δ} : Stage T d → Option UInt64
  | .numbered k _ | .computing k _ | .awaiting k _ _ _ | .keeping k _ => some k
  | _ => none

/-- The value that a reader has got: the one that is kept. -/
def Stage.value? {d : δ} : Stage T d → Option (T.Value d)
  | .returning v | .finished (.ok v) => some v
  | _ => none

/-- Whether a reader has found the configuration bound. -/
def Stage.entered {d : δ} : Stage T d → Bool
  | .asked _ | .finished (.error _) => false
  | _ => true

theorem Stage.entered_of_value? {d : δ} {stage : Stage T d} {v : T.Value d} (has : stage.value? = some v) :
    stage.entered = true := by
  cases stage with
  | returning w => rfl
  | finished result =>
    cases result with
    | ok w => rfl
    | error failure => cases has
  | _ => cases has

/-- Nothing is done yet for a reader. -/
def Reader.Unstarted (r : Reader T) : Prop := ∃ compute, r.stage = .asked compute

theorem Reader.unstarted_iff {d : δ} {stage : Stage T d} :
    (⟨d, stage⟩ : Reader T).Unstarted ↔ ∃ compute, stage = .asked compute := .rfl

/-- A reader at a site has got a value for a derived value. -/
def Site.Got (site : Site T) (d : δ) (v : T.Value d) : Prop :=
  ∃ stage : Stage T d, ⟨d, stage⟩ ∈ site.readers ∧ stage.value? = some v

/-- What a step of a reader of `d` can do. -/
inductive Stage.Advance [DecidableEq δ] [DecidableEq τ] (n : Numbering δ) (site : Site T) {d : δ} :
    Stage T d → Outcome T d → Prop
  /-- The reader has no value and goes on without one. -/
  | works {stage next : Stage T d} {started : List (Reader T)} (without : stage.value? = none)
      (without' : next.value? = none) (number : ∀ k, next.number? = some k → stage.number? = some k)
      (entered : next.entered = true → stage.entered = true ∨ site.config.isInitialized = true)
      (unstarted : ∀ r ∈ started, r.Unstarted) : Advance n site stage ⟨next, n, site.cache, started⟩
  /-- The derived value gets its number. -/
  | numbers {compute : Plan T d} : Advance n site (.admitted compute)
      ⟨.numbered (n.number d).1 compute, (n.number d).2, site.cache, []⟩
  /-- There is a value under the number. -/
  | finds {k : UInt64} {compute : Plan T d} {v : T.Value d} (kept : site.cache.get? k (T.type d) = some v) :
      Advance n site (.numbered k compute) ⟨.returning v, n, site.cache, []⟩
  /-- The reader keeps the value that it has computed. -/
  | keeps {k : UInt64} {v : T.Value d} : Advance n site (.keeping k v)
      ⟨.returning (site.cache.keep k v).1, n, (site.cache.keep k v).2, []⟩
  /-- The reader has a value and returns it. -/
  | returns {stage : Stage T d} {v : T.Value d} (has : stage.value? = some v) :
      Advance n site stage ⟨.finished (.ok v), n, site.cache, []⟩

/-- A reader advances by each of its steps. -/
theorem Stage.advance [DecidableEq δ] [DecidableEq τ] (n : Numbering δ) (site : Site T) {d : δ} (stage : Stage T d) :
    Stage.Advance n site stage (stage.step site.config n site.cache site.readers) := by
  cases stage with
  | asked compute =>
    simp only [Stage.step]
    by_cases bound : site.config.isInitialized = true
    · rw [if_pos bound]
      exact .works rfl rfl (by simp [number?]) (fun _ => .inr bound) (by simp)
    · rw [if_neg bound]
      exact .works rfl rfl (by simp [number?]) (by simp [entered]) (by simp)
  | admitted compute => exact .numbers
  | numbered k compute =>
    simp only [Stage.step]
    cases kept : site.cache.get? k (T.type d) with
    | some v => exact .finds kept
    | none => exact .works rfl rfl (fun _ same => same) (fun _ => .inl rfl) (by simp)
  | computing k plan =>
    cases plan with
    | finish result =>
      cases result with
      | ok v => exact .works rfl rfl (fun _ same => same) (fun _ => .inl rfl) (by simp)
      | error failure => exact .works rfl rfl (by simp [number?]) (by simp [entered]) (by simp)
    | ask e compute next =>
      exact .works rfl rfl (fun _ same => same) (fun _ => .inl rfl) (by simp [Reader.Unstarted])
  | awaiting k reader e next =>
    simp only [Stage.step]
    cases site.readers[reader]?.bind (·.answer? e) with
    | some result => exact .works rfl rfl (fun _ same => same) (fun _ => .inl rfl) (by simp)
    | none => exact .works rfl rfl (fun _ same => same) (fun _ => .inl rfl) (by simp)
  | keeping k v => exact .keeps
  | returning v => exact .returns rfl
  | finished result =>
    cases result with
    | ok v => exact .returns rfl
    | error failure => exact .works rfl rfl (by simp [number?]) (by simp [entered]) (by simp)

namespace Stage.Advance
variable [DecidableEq δ] [DecidableEq τ] {n : Numbering δ} {site : Site T} {d : δ} {stage : Stage T d}
  {out : Outcome T d}

theorem grows (step : Stage.Advance n site stage out) : n.given <+: out.numbering.given := by
  cases step with
  | numbers => exact n.prefix_number d
  | _ => exact List.prefix_rfl

theorem sound (step : Stage.Advance n site stage out) (sound : n.Sound) : out.numbering.Sound := by
  cases step with
  | numbers => exact sound.number d
  | _ => exact sound

theorem unstarted (step : Stage.Advance n site stage out) : ∀ r ∈ out.started, r.Unstarted := by
  cases step with
  | works _ _ _ _ unstarted => exact unstarted
  | _ => simp

/-- A value that a reader has got stays its value. -/
theorem retains (step : Stage.Advance n site stage out) (v : T.Value d) (has : stage.value? = some v) :
    out.stage.value? = some v := by
  cases step with
  | works without => cases has.symm.trans without
  | returns has' =>
    cases has.symm.trans has'
    rfl
  | _ => cases has

theorem number (step : Stage.Advance n site stage out) {k : UInt64} (look : out.stage.number? = some k) :
    stage.number? = some k ∨ (d, k) ∈ out.numbering.given := by
  cases step with
  | works _ _ number => exact .inl (number k look)
  | numbers =>
    cases look
    exact .inr (n.mem_number d)
  | _ => cases look

theorem entered (step : Stage.Advance n site stage out) (enters : out.stage.entered = true) :
    stage.entered = true ∨ site.config.isInitialized = true := by
  cases step with
  | works _ _ _ entered => exact entered enters
  | returns has => exact .inl (Stage.entered_of_value? has)
  | _ => exact .inl rfl

theorem preserves (step : Stage.Advance n site stage out) (k : UInt64) (kept : Kept T.Carrier)
    (found : site.cache.find? k = some kept) : out.cache.find? k = some kept := by
  cases step with
  | keeps => exact Cache.find?_keep found _ _
  | _ => exact found

/-- Only a value that a reader has got then, and under its number, is new among what is kept. -/
theorem new (step : Stage.Advance n site stage out) {k : UInt64} {kept : Kept T.Carrier}
    (found : out.cache.find? k = some kept) : site.cache.find? k = some kept ∨
      ∃ v, stage.number? = some k ∧ kept = ⟨T.type d, v⟩ ∧ out.stage.value? = some v := by
  cases step with
  | keeps =>
    obtain old | ⟨rfl, rfl⟩ := Cache.find?_of_keep found
    · exact .inl old
    · exact .inr ⟨_, rfl, rfl, rfl⟩
  | _ => exact .inl found

end Stage.Advance

/-! ### The readers of one configuration -/

namespace Site

theorem Got.of_mem {site : Site T} {d : δ} {stage : Stage T d} {v : T.Value d} (member : ⟨d, stage⟩ ∈ site.readers)
    (has : stage.value? = some v) : site.Got d v := ⟨stage, member, has⟩

/-- The site after the reader at a position has moved on, and has started others. -/
def put (site : Site T) (j : Nat) (r : Reader T) (cache : Cache T.Carrier) (started : List (Reader T)) : Site T :=
  ⟨site.config, cache, site.readers.set j r ++ started⟩

theorem mem_put {site : Site T} {j : Nat} {r other : Reader T} {cache : Cache T.Carrier} {started : List (Reader T)}
    (member : other ∈ (site.put j r cache started).readers) : other = r ∨ other ∈ site.readers ∨ other ∈ started := by
  rcases List.mem_append.mp member with moved | new
  · exact (List.mem_or_eq_of_mem_set moved).elim (fun old => .inr (.inl old)) .inl
  · exact .inr (.inr new)

theorem getElem?_put {site : Site T} {j : Nat} {r there : Reader T} (at_j : site.readers[j]? = some there)
    (cache : Cache T.Carrier) (started : List (Reader T)) {m : Nat} {other : Reader T}
    (at_m : site.readers[m]? = some other) :
    (site.put j r cache started).readers[m]? = some (if j = m then r else other) := by
  have inside : m < (site.readers.set j r).length := by
    rw [List.length_set]
    exact (List.getElem?_eq_some_iff.mp at_m).1
  have inside_j : j < site.readers.length := (List.getElem?_eq_some_iff.mp at_j).1
  simp only [put]
  rw [List.getElem?_append_left inside, List.getElem?_set, if_pos inside_j]
  split
  · rfl
  · exact at_m

theorem of_getElem?_put {site : Site T} {j k : Nat} {r other : Reader T} {cache : Cache T.Carrier}
    {started : List (Reader T)} (at_k : (site.put j r cache started).readers[k]? = some other) :
    (j = k ∧ other = r ∧ site.readers[k]?.isSome) ∨ (j ≠ k ∧ site.readers[k]? = some other) ∨ other ∈ started := by
  simp only [put, List.getElem?_append, List.length_set] at at_k
  split at at_k
  · next inside =>
    rw [List.getElem?_set] at at_k
    split at at_k
    · next same =>
      rw [if_pos (same ▸ inside)] at at_k
      exact .inl ⟨same, (Option.some.inj at_k).symm, by simp [inside]⟩
    · next different => exact .inr (.inl ⟨different, at_k⟩)
  · exact .inr (.inr (List.mem_of_getElem? at_k))

/-- A reader that moves on without losing its value takes no value from anybody. -/
theorem Got.put {site : Site T} {j : Nat} {d : δ} {stage next : Stage T d} (there : site.readers[j]? = some ⟨d, stage⟩)
    (retains : ∀ v, stage.value? = some v → next.value? = some v) (cache : Cache T.Carrier)
    (started : List (Reader T)) {e : δ} {w : T.Value e} (got : site.Got e w) :
    (site.put j ⟨d, next⟩ cache started).Got e w := by
  obtain ⟨other, member, has⟩ := got
  obtain ⟨m, at_m⟩ := List.mem_iff_getElem?.mp member
  have after := getElem?_put (r := ⟨d, next⟩) there cache started at_m
  by_cases same : j = m
  · subst same
    rw [if_pos rfl] at after
    cases there.symm.trans at_m
    exact .of_mem (List.mem_of_getElem? after) (retains w has)
  · rw [if_neg same] at after
    exact .of_mem (List.mem_of_getElem? after) has

theorem got_of_put {site : Site T} {j : Nat} {d : δ} {next : Stage T d} {cache : Cache T.Carrier}
    {started : List (Reader T)} (unstarted : ∀ r ∈ started, r.Unstarted) {e : δ} {w : T.Value e}
    (got : (site.put j ⟨d, next⟩ cache started).Got e w) :
    site.Got e w ∨ ∃ same : d = e, next.value? = some (same ▸ w) := by
  obtain ⟨stage, member, has⟩ := got
  rcases mem_put member with moved | old | new
  · cases moved
    exact .inr ⟨rfl, has⟩
  · exact .inl (.of_mem old has)
  · obtain ⟨compute, rfl⟩ := Reader.unstarted_iff.mp (unstarted _ new)
    cases has

theorem readers_bind (site : Site T) (values : Bindings) : (site.bind values).readers = site.readers := by
  unfold Site.bind
  split
  · rfl
  · rfl

theorem advance_of_reader [DecidableEq δ] [DecidableEq τ] (n : Numbering δ) {site : Site T} {j : Nat} {d : δ}
    {stage : Stage T d} (there : site.readers[j]? = some ⟨d, stage⟩) :
    let out := stage.step site.config n site.cache site.readers
    site.advance n j = (out.numbering, site.put j ⟨d, out.stage⟩ out.cache out.started) := by
  simp only [advance, there, put]

theorem advance_of_absent [DecidableEq δ] [DecidableEq τ] (n : Numbering δ) {site : Site T} {j : Nat}
    (absent : site.readers[j]? = none) : site.advance n j = (n, site) := by
  simp only [advance, absent]

/-- What holds at a site throughout. -/
structure Coherent (n : Numbering δ) (site : Site T) : Prop where
  /-- A reader looks under the number of its derived value. -/
  numbered : ∀ {d : δ} {stage : Stage T d} {k : UInt64}, ⟨d, stage⟩ ∈ site.readers → stage.number? = some k →
    (d, k) ∈ n.given
  bound : ∀ {d : δ} {stage : Stage T d}, ⟨d, stage⟩ ∈ site.readers → stage.entered = true →
    site.config.isInitialized = true
  /-- What is kept was got by a reader of the derived value that has its number. -/
  owned : ∀ {k : UInt64} {kept : Kept T.Carrier}, site.cache.find? k = some kept →
    ∃ d v, (d, k) ∈ n.given ∧ kept = ⟨T.type d, v⟩ ∧ site.Got d v
  /-- What readers have got is kept. -/
  found : ∀ {d : δ} {v : T.Value d}, site.Got d v → ∃ k, (d, k) ∈ n.given ∧ site.cache.find? k = some ⟨T.type d, v⟩

namespace Coherent

theorem mono {n n' : Numbering δ} {site : Site T} (coherent : site.Coherent n) (grows : n.given <+: n'.given) :
    site.Coherent n' where
  numbered member number := grows.subset (coherent.numbered member number)
  bound := coherent.bound
  owned kept := by
    obtain ⟨d, v, has, same, got⟩ := coherent.owned kept
    exact ⟨d, v, grows.subset has, same, got⟩
  found got := by
    obtain ⟨k, has, kept⟩ := coherent.found got
    exact ⟨k, grows.subset has, kept⟩

theorem got_unique {n : Numbering δ} {site : Site T} (coherent : site.Coherent n) (sound : n.Sound) {d : δ}
    {v w : T.Value d} (got : site.Got d v) (got' : site.Got d w) : v = w := by
  obtain ⟨k, has, kept⟩ := coherent.found got
  obtain ⟨l, has', kept'⟩ := coherent.found got'
  obtain rfl := sound.number_unique has has'
  cases kept.symm.trans kept'
  rfl

theorem cache_of_unbound {n : Numbering δ} {site : Site T} (coherent : site.Coherent n)
    (unbound : site.config.isInitialized = false) : site.cache = [] := by
  cases entries : site.cache with
  | nil => rfl
  | cons entry rest =>
    have found : site.cache.find? entry.1 = some entry.2 := by simp [Cache.find?, entries]
    obtain ⟨d, v, _, _, stage, member, has⟩ := coherent.owned found
    cases unbound.symm.trans (coherent.bound member (Stage.entered_of_value? has))

/-- A reader moves on: it keeps its value if it has one, and a value that it gets is kept under its number. -/
theorem put {n n' : Numbering δ} {site : Site T} (coherent : site.Coherent n) {j : Nat} {d : δ} {stage next : Stage T d}
    {cache : Cache T.Carrier} {started : List (Reader T)} (there : site.readers[j]? = some ⟨d, stage⟩)
    (grows : n.given <+: n'.given) (unstarted : ∀ r ∈ started, r.Unstarted)
    (number : ∀ k, next.number? = some k → (d, k) ∈ n'.given)
    (entered : next.entered = true → site.config.isInitialized = true)
    (retains : ∀ v, stage.value? = some v → next.value? = some v)
    (keeps : ∀ k kept, site.cache.find? k = some kept → cache.find? k = some kept)
    (new : ∀ k kept, cache.find? k = some kept → site.cache.find? k = some kept ∨
      ∃ v, (d, k) ∈ n'.given ∧ kept = ⟨T.type d, v⟩ ∧ next.value? = some v)
    (found : ∀ v, next.value? = some v → ∃ k, (d, k) ∈ n'.given ∧ cache.find? k = some ⟨T.type d, v⟩) :
    (site.put j ⟨d, next⟩ cache started).Coherent n' where
  numbered := by
    intro e other k member look
    rcases mem_put member with moved | old | new
    · cases moved
      exact number k look
    · exact grows.subset (coherent.numbered old look)
    · obtain ⟨compute, rfl⟩ := Reader.unstarted_iff.mp (unstarted _ new)
      cases look
  bound := by
    intro e other member enters
    rcases mem_put member with moved | old | new
    · cases moved
      exact entered enters
    · exact coherent.bound old enters
    · obtain ⟨compute, rfl⟩ := Reader.unstarted_iff.mp (unstarted _ new)
      cases enters
  owned := by
    intro k kept there'
    rcases new k kept there' with old | ⟨v, has, same, value⟩
    · obtain ⟨e, w, has, same, got⟩ := coherent.owned old
      exact ⟨e, w, grows.subset has, same, got.put there retains cache started⟩
    · have at_j := getElem?_put (r := ⟨d, next⟩) there cache started there
      rw [if_pos rfl] at at_j
      exact ⟨d, v, has, same, .of_mem (List.mem_of_getElem? at_j) value⟩
  found := by
    intro e w got
    rcases got_of_put unstarted got with old | ⟨rfl, value⟩
    · obtain ⟨k, has, kept⟩ := coherent.found old
      exact ⟨k, grows.subset has, keeps k _ kept⟩
    · exact found w value

theorem bind {n : Numbering δ} {site : Site T} (coherent : site.Coherent n) (values : Bindings) :
    (site.bind values).Coherent n := by
  unfold Site.bind Config.store
  cases unbound : site.config.bound with
  | none => exact ⟨coherent.numbered, fun _ _ => rfl, coherent.owned, coherent.found⟩
  | some there => exact coherent

variable [DecidableEq τ]

/-- Under the number of a derived value, the value is kept that its readers have got. -/
theorem get?_eq_some_iff {n : Numbering δ} {site : Site T} (coherent : site.Coherent n) (sound : n.Sound)
    (few : n.given.length ≤ UInt64.size) {d : δ} {k : UInt64} (has : (d, k) ∈ n.given) {v : T.Value d} :
    site.cache.get? k (T.type d) = some v ↔ site.Got d v := by
  constructor
  · intro kept
    obtain ⟨e, w, has', same, got⟩ := coherent.owned (Cache.find?_of_get? kept)
    obtain rfl := sound.owner_unique few has has'
    cases same
    exact got
  · intro got
    obtain ⟨l, has', kept⟩ := coherent.found got
    obtain rfl := sound.number_unique has has'
    exact Cache.get?_of_find? kept

/-- The answer to keeping a value is what is kept then: whatever was there already belongs to the same derived value. -/
theorem find?_keep {n : Numbering δ} {site : Site T} (coherent : site.Coherent n) (sound : n.Sound)
    (few : n.given.length ≤ UInt64.size) {d : δ} {k : UInt64} (has : (d, k) ∈ n.given) (v : T.Value d) :
    (site.cache.keep k v).2.find? k = some ⟨T.type d, (site.cache.keep k v).1⟩ := by
  obtain ⟨kept, found, eq⟩ | ⟨free, eq⟩ := site.cache.keep_cases k v
  · obtain ⟨e, w, has', same, got⟩ := coherent.owned found
    obtain rfl := sound.owner_unique few has has'
    subst same
    rw [eq]
    simpa [Kept.as?] using found
  · rw [eq]
    simp [Cache.find?_append, free]

variable [DecidableEq δ]

/-- What a reader gets is kept under the number of its derived value. -/
theorem found_of_advance {n : Numbering δ} {site : Site T} (coherent : site.Coherent n) (sound : n.Sound)
    (few : n.given.length ≤ UInt64.size) {d : δ} {stage : Stage T d} (member : ⟨d, stage⟩ ∈ site.readers)
    {out : Outcome T d} (step : Stage.Advance n site stage out) {v : T.Value d} (has : out.stage.value? = some v) :
    ∃ k, (d, k) ∈ out.numbering.given ∧ out.cache.find? k = some ⟨T.type d, v⟩ := by
  cases step with
  | works _ without' => cases has.symm.trans without'
  | numbers => cases has
  | finds kept =>
    cases has
    exact ⟨_, coherent.numbered member rfl, Cache.find?_of_get? kept⟩
  | keeps =>
    cases has
    have numbered := coherent.numbered member rfl
    exact ⟨_, numbered, coherent.find?_keep sound few numbered _⟩
  | returns has' =>
    cases has
    exact coherent.found (.of_mem member has')

theorem advance {n : Numbering δ} {site : Site T} (coherent : site.Coherent n) (sound : n.Sound)
    (few : n.given.length ≤ UInt64.size) (j : Nat) : (site.advance n j).2.Coherent (site.advance n j).1 := by
  cases there : site.readers[j]? with
  | none =>
    rw [advance_of_absent n there]
    exact coherent
  | some r =>
    obtain ⟨d, stage⟩ := r
    have member := List.mem_of_getElem? there
    have step := Stage.advance n site stage
    rw [advance_of_reader n there]
    refine coherent.put there step.grows step.unstarted (fun k look => ?_) (fun enters => ?_) step.retains
      step.preserves (fun k kept found => ?_) (fun v has => coherent.found_of_advance sound few member step has)
    · exact (step.number look).elim (fun old => step.grows.subset (coherent.numbered member old)) id
    · exact (step.entered enters).elim (coherent.bound member) id
    · obtain old | ⟨v, look, same, value⟩ := step.new found
      · exact .inl old
      · exact .inr ⟨v, step.grows.subset (coherent.numbered member look), same, value⟩

end Coherent

variable [DecidableEq δ] [DecidableEq τ]

/-- A site, the first at a position, after something has happened. -/
def after (n : Numbering δ) (site : Site T) (i : Nat) : Action → Site T
  | .advance k j => if k = i then (site.advance n j).2 else site
  | .bind k values => if k = i then site.bind values else site

theorem after_cases (n : Numbering δ) (site : Site T) (i : Nat) (action : Action) :
    site.after n i action = site ∨
      (∃ j, action = .advance i j ∧ site.after n i action = (site.advance n j).2) ∨
      ∃ values, action = .bind i values ∧ site.after n i action = site.bind values := by
  cases action with
  | advance k j =>
    by_cases same : k = i
    · subst same
      exact .inr (.inl ⟨j, rfl, if_pos rfl⟩)
    · exact .inl (if_neg same)
  | bind k values =>
    by_cases same : k = i
    · subst same
      exact .inr (.inr ⟨values, rfl, if_pos rfl⟩)
    · exact .inl (if_neg same)

/-- A value that a reader has got stays got. -/
theorem Got.after {n : Numbering δ} {site : Site T} {d : δ} {v : T.Value d} (got : site.Got d v) (i : Nat)
    (action : Action) : (site.after n i action).Got d v := by
  obtain eq | ⟨j, _, eq⟩ | ⟨values, _, eq⟩ := site.after_cases n i action
  · rwa [eq]
  · rw [eq]
    cases there : site.readers[j]? with
    | none => rwa [advance_of_absent n there]
    | some r =>
      rw [advance_of_reader n there]
      exact got.put there (Stage.advance n site r.stage).retains _ _
  · rw [eq]
    obtain ⟨stage, member, has⟩ := got
    exact ⟨stage, (site.readers_bind values).symm ▸ member, has⟩

end Site

/-! ### Runs -/

/-- The position of the site at which something happens. -/
def Action.site : Action → Nat
  | .advance i _ => i
  | .bind i _ => i

namespace Sharing

/-- What holds throughout of configurations that share derived values. -/
structure Coherent (s : Sharing T) : Prop where
  sound : s.numbering.Sound
  sites : ∀ {i : Nat} {site : Site T}, s.sites[i]? = some site → site.Coherent s.numbering

theorem Coherent.ofCalls (calls : List (Config × List (Call T))) : (Sharing.ofCalls calls).Coherent := by
  refine ⟨Numbering.sound_empty, fun {i site} there => ?_⟩
  obtain ⟨⟨config, asked⟩, _, rfl⟩ := List.mem_map.mp (List.mem_of_getElem? there)
  have unstarted : ∀ {d : δ} {stage : Stage T d}, ⟨d, stage⟩ ∈ asked.map Call.reader →
      ∃ compute, stage = .asked compute := by
    intro d stage member
    obtain ⟨call, _, same⟩ := List.mem_map.mp member
    cases same
    exact ⟨call.compute, rfl⟩
  refine ⟨fun member look => ?_, fun member enters => ?_, fun kept => ?_, fun got => ?_⟩
  · obtain ⟨compute, rfl⟩ := unstarted member
    cases look
  · obtain ⟨compute, rfl⟩ := unstarted member
    cases enters
  · cases kept
  · obtain ⟨stage, member, has⟩ := got
    obtain ⟨compute, rfl⟩ := unstarted member
    cases has

variable [DecidableEq δ] [DecidableEq τ]

theorem run_append (s : Sharing T) (earlier later : List Action) :
    s.run (earlier ++ later) = (s.run earlier).run later := List.foldl_append

/-- Something that happens changes one site only. -/
theorem step_sites (s : Sharing T) (action : Action) (i : Nat) :
    (s.step action).sites[i]? = s.sites[i]?.map (·.after s.numbering i action) := by
  cases action with
  | advance k j =>
    simp only [step, Site.after]
    cases there : s.sites[k]? with
    | none =>
      by_cases same : k = i
      · simp [← same, there]
      · simp [same]
    | some site =>
      by_cases same : k = i
      · subst same
        simp [there, List.getElem?_set_self (List.getElem?_eq_some_iff.mp there).1]
      · simp [same]
  | bind k values =>
    simp only [step, Site.after, List.getElem?_modify]
    by_cases same : k = i
    · simp [same]
    · simp [same]

theorem step_advance {s : Sharing T} {i : Nat} {site : Site T} (there : s.sites[i]? = some site) (j : Nat) :
    s.step (.advance i j) = ⟨(site.advance s.numbering j).1, s.sites.set i (site.advance s.numbering j).2⟩ := by
  simp only [step, there]

theorem step_own {s : Sharing T} {i : Nat} {site : Site T} (there : s.sites[i]? = some site) (j : Nat) :
    (s.step (.advance i j)).numbering = (site.advance s.numbering j).1 ∧
      (s.step (.advance i j)).sites[i]? = some (site.advance s.numbering j).2 := by
  rw [step_advance there]
  exact ⟨rfl, List.getElem?_set_self (List.getElem?_eq_some_iff.mp there).1⟩

theorem step_numbering_of_absent {s : Sharing T} {action : Action} (absent : s.sites[action.site]? = none) :
    (s.step action).numbering = s.numbering := by
  cases action with
  | advance i j =>
    rw [Action.site] at absent
    simp only [step, absent]
  | bind i values => rfl

theorem step_cases (s : Sharing T) (action : Action) : (s.step action).numbering = s.numbering ∨
    ∃ i j site d stage, action = .advance i j ∧ s.sites[i]? = some site ∧ site.readers[j]? = some ⟨d, stage⟩ ∧
      Stage.Advance s.numbering site stage (stage.step site.config s.numbering site.cache site.readers) ∧
      (s.step action).numbering = (stage.step site.config s.numbering site.cache site.readers).numbering := by
  cases action with
  | advance i j =>
    cases there : s.sites[i]? with
    | none => exact .inl (by simp only [step, there])
    | some site =>
      rw [step_advance there]
      cases there' : site.readers[j]? with
      | none => exact .inl (by rw [Site.advance_of_absent _ there'])
      | some r =>
        refine .inr ⟨i, j, site, r.derived, r.stage, rfl, there, there', Stage.advance _ site r.stage, ?_⟩
        rw [Site.advance_of_reader _ there']
  | bind i values => exact .inl rfl

theorem prefix_step (s : Sharing T) (action : Action) : s.numbering.given <+: (s.step action).numbering.given := by
  obtain same | ⟨_, _, _, _, _, _, _, _, step, eq⟩ := s.step_cases action
  · simp [same]
  · rw [eq]
    exact step.grows

theorem prefix_run (schedule : List Action) :
    ∀ s : Sharing T, s.numbering.given <+: (s.run schedule).numbering.given := by
  induction schedule with
  | nil => exact fun s => List.prefix_rfl
  | cons action schedule ih => exact fun s => (s.prefix_step action).trans (ih (s.step action))

theorem sound_step {s : Sharing T} (sound : s.numbering.Sound) (action : Action) : (s.step action).numbering.Sound := by
  obtain same | ⟨_, _, _, _, _, _, _, _, step, eq⟩ := s.step_cases action
  · rwa [same]
  · rw [eq]
    exact step.sound sound

namespace Coherent

theorem step {s : Sharing T} (coherent : s.Coherent) (few : s.numbering.given.length ≤ UInt64.size) (action : Action) :
    (s.step action).Coherent := by
  refine ⟨sound_step coherent.sound action, fun {i site} there => ?_⟩
  rw [step_sites] at there
  obtain ⟨before, at_i, rfl⟩ := Option.map_eq_some_iff.mp there
  have here := coherent.sites at_i
  obtain eq | ⟨j, rfl, eq⟩ | ⟨values, rfl, eq⟩ := before.after_cases s.numbering i action
  · rw [eq]
    exact here.mono (s.prefix_step action)
  · rw [eq, step_advance at_i]
    exact here.advance coherent.sound few j
  · rw [eq]
    exact here.bind values

theorem run (schedule : List Action) : ∀ {s : Sharing T}, s.Coherent →
    (s.run schedule).numbering.given.length ≤ UInt64.size → (s.run schedule).Coherent := by
  induction schedule with
  | nil => exact fun coherent _ => coherent
  | cons action schedule ih =>
    intro s coherent few
    exact ih (coherent.step (Nat.le_trans (prefix_run (action :: schedule) s).length_le few) action) few

end Coherent

end Sharing

end TypedConfig.Derived
