import TypedConfig.Proofs.Overlay

/-!
Any run of operations on a mapping that begins empty. No two keys of it are ever equal
(`distinct_after`), and so every store and every removal touches one entry at most and
leaves the others as they are and where they are (`insertion_ordered`).
-/
namespace TypedConfig.Mapping

/-! ### Operations -/

/-- What can be done to a mapping. -/
inductive Operation where
  | insert (key value : Value)
  | remove (name : String)
  /-- To be made anew from a list of pairs. -/
  | collect (pairs : List (Value × Value))
  /-- To have all its entries taken out. -/
  | drain

/-- The mapping that an operation leaves behind. -/
def perform (m : Mapping) : Operation → Mapping
  | .insert key value => m.insert key value
  | .remove name => m.remove name
  | .collect pairs => ofPairs pairs
  | .drain => []

/-- An empty mapping after operations, one after the other. -/
def after (ops : List Operation) : Mapping := ops.foldl perform []

/-- What a store of `value` under `key` answers and leaves behind. -/
structure Stored (m : Mapping) (key value : Value) (old : Option Value) (next : Mapping) : Prop where
  answer : old = m.getValue? key
  /-- A key that differs from itself is not found. -/
  found : next.getValue? key = if key == key then some value else none
  others : ∀ k, (k == key) = false → next.getValue? k = m.getValue? k
  grows : next.length = m.length + 1 ↔ old = none
  /-- A new entry goes behind all others. A replaced one stays where it is, under the key it had. -/
  place : (old = none ∧ next = m ++ [(key, value)]) ∨
    ∃ before first replaced after, (first == key) = true ∧ old = some replaced ∧
      m = before ++ (first, replaced) :: after ∧ next = before ++ (first, value) :: after

/-- What the removal of a name answers and leaves behind. -/
structure Removed (m : Mapping) (name : String) (old : Option Value) (next : Mapping) : Prop where
  answer : old = m.get? name
  absent : next.get? name = none
  others : ∀ k, (k == .string name) = false → next.getValue? k = m.getValue? k
  /-- The one entry under the name is taken out, if there is one. -/
  place : (old = none ∧ next = m) ∨
    ∃ before value after, old = some value ∧ m = before ++ (.string name, value) :: after ∧ next = before ++ after

/-! ### Names -/

theorem get?_eq_getValue? (m : Mapping) (name : String) : m.get? name = m.getValue? (.string name) := by
  have sameTest : ∀ k : Value, (k.string? == some name) = (k == .string name) := by
    intro k
    rw [Bool.eq_iff_iff, Value.beq_string_iff, beq_iff_eq]
  simp only [get?, getValue?, sameTest]

theorem containsKey_iff {m : Mapping} {name : String} : m.containsKey name = true ↔ .string name ∈ m.keys := by
  simp [containsKey_eq_any, Value.string?_eq_some_iff]

/-! ### Stores -/

/-- A mapping has no key that is equal to one that differs from itself. -/
theorem not_has_of_irreflexive {key : Value} (irreflexive : (key == key) = false) (m : Mapping) : m.has key = false := by
  refine List.any_eq_false.mpr fun k _ same => ?_
  rw [BEq.trans (BEq.symm same) same] at irreflexive
  cases irreflexive

theorem exchange_cons (k v key value : Value) (m : Mapping) :
    exchange key value ((k, v) :: m) =
      if k == key then (some v, (k, value) :: m) else ((exchange key value m).1, (k, v) :: (exchange key value m).2) := rfl

/-- A store either finds the first entry whose key is equal to the one given, or adds an entry. -/
theorem exchange_cases (key value : Value) (m : Mapping) :
    (m.has key = false ∧ exchange key value m = (none, m ++ [(key, value)])) ∨
      ∃ before first replaced after, m = before ++ (first, replaced) :: after ∧ has before key = false ∧
        (first == key) = true ∧ exchange key value m = (some replaced, before ++ (first, value) :: after) := by
  induction m with
  | nil => exact .inl ⟨rfl, rfl⟩
  | cons e m ih =>
    obtain ⟨k, v⟩ := e
    rw [exchange_cons, has_cons]
    cases same : k == key with
    | true => exact .inr ⟨[], k, v, m, rfl, rfl, same, rfl⟩
    | false =>
      rcases ih with ⟨fresh, added⟩ | ⟨before, first, replaced, after, rfl, fresh, found, stored⟩
      · exact .inl ⟨fresh, by rw [added]; rfl⟩
      · refine .inr ⟨(k, v) :: before, first, replaced, after, rfl, ?_, found, by rw [stored]; rfl⟩
        rw [has_cons, same, fresh]
        rfl

theorem stored_exchange (key value : Value) (m : Mapping) :
    Stored m key value (exchange key value m).1 (exchange key value m).2 := by
  have found : (m.insert key value).getValue? key = if key == key then some value else none := by
    rw [getValue?_insert]
    cases itself : key == key with
    | true => rfl
    | false => exact getValue?_eq_none_iff.mpr (not_has_of_irreflexive itself m)
  have others : ∀ k, (k == key) = false → (m.insert key value).getValue? k = m.getValue? k := by
    intro k different
    rw [getValue?_insert, if_neg (by simp [BEq.symm_false different])]
  rcases exchange_cases key value m with ⟨fresh, stored⟩ | ⟨before, first, replaced, after, rfl, fresh, same, stored⟩
  · rw [insert, stored] at found others
    rw [stored]
    exact ⟨(getValue?_eq_none_iff.mpr fresh).symm, found, others, by simp, .inl ⟨rfl, rfl⟩⟩
  · rw [insert, stored] at found others
    rw [stored]
    refine ⟨?_, found, others, by simp, .inr ⟨before, first, replaced, after, same, rfl, rfl, rfl⟩⟩
    rw [getValue?_append, getValue?_eq_none_iff.mpr fresh, getValue?_cons, if_pos same]
    rfl

/-! ### Removals -/

theorem extract_cons (name : String) (k v : Value) (m : Mapping) :
    extract name ((k, v) :: m) =
      if k.string? == some name then (some v, m) else ((extract name m).1, (k, v) :: (extract name m).2) := rfl

/-- A removal either finds the first entry under the name, or nothing. -/
theorem extract_cases (name : String) (m : Mapping) :
    (m.get? name = none ∧ extract name m = (none, m)) ∨
      ∃ before value after, m = before ++ (.string name, value) :: after ∧ get? before name = none ∧
        extract name m = (some value, before ++ after) := by
  induction m with
  | nil => exact .inl ⟨rfl, rfl⟩
  | cons e m ih =>
    obtain ⟨k, v⟩ := e
    rw [extract_cons, get?_cons]
    by_cases same : k.string? = some name
    · obtain rfl := Value.string?_eq_some_iff.mp same
      exact .inr ⟨[], v, m, rfl, rfl, if_pos (beq_self_eq_true _)⟩
    · rw [if_neg same, if_neg (by simpa using same)]
      rcases ih with ⟨absent, kept⟩ | ⟨before, value, after, rfl, absent, taken⟩
      · exact .inl ⟨absent, by rw [kept]⟩
      · refine .inr ⟨(k, v) :: before, value, after, rfl, ?_, by rw [taken]; rfl⟩
        rw [get?_cons, if_neg same, absent]

theorem distinct_remove {m : Mapping} (distinct : m.Distinct) (name : String) : (m.remove name).Distinct := by
  rcases extract_cases name m with ⟨_, kept⟩ | ⟨before, value, after, rfl, _, taken⟩
  · rw [remove, kept]
    exact distinct
  · rw [remove, taken]
    exact distinct.sublist (((List.sublist_cons_self _ after).append_left before).map Prod.fst)

/-- In a mapping without equal keys, no entry behind another has its key. -/
theorem getValue?_of_distinct {before after : Mapping} {k v : Value} (distinct : Distinct (before ++ (k, v) :: after)) :
    getValue? after k = none := by
  unfold Distinct keys at distinct
  rw [List.map_append, List.map_cons] at distinct
  obtain ⟨fresh, _⟩ := List.pairwise_cons.mp (List.pairwise_append.mp distinct).2.1
  refine getValue?_eq_none_iff.mpr (List.any_eq_false.mpr fun l member => ?_)
  simp [BEq.symm_false (fresh l member)]

theorem removed_extract {m : Mapping} (distinct : m.Distinct) (name : String) :
    Removed m name (extract name m).1 (extract name m).2 := by
  rcases extract_cases name m with ⟨absent, kept⟩ | ⟨before, value, after, rfl, absent, taken⟩
  · rw [kept]
    exact ⟨absent.symm, absent, fun _ _ => rfl, .inl ⟨rfl, rfl⟩⟩
  · rw [taken]
    rw [get?_eq_getValue?] at absent
    refine ⟨?_, ?_, ?_, .inr ⟨before, value, after, rfl, rfl, rfl⟩⟩
    · rw [get?_eq_getValue?, getValue?_append, absent, getValue?_cons, if_pos (Value.beq_string_iff.mpr rfl)]
      rfl
    · rw [get?_eq_getValue?, getValue?_append, absent, getValue?_of_distinct distinct]
      rfl
    · intro k different
      rw [getValue?_append, getValue?_append, getValue?_cons, if_neg (by simp [BEq.symm_false different])]

/-! ### Runs -/

theorem distinct_perform {m : Mapping} (distinct : m.Distinct) (op : Operation) : (m.perform op).Distinct := by
  cases op with
  | insert key value => exact distinct_insert distinct key value
  | remove name => exact distinct_remove distinct name
  | collect pairs => exact distinct_ofPairs pairs
  | drain => exact distinct_nil

/-- No operations make two keys equal. -/
theorem distinct_after (ops : List Operation) : (after ops).Distinct := by
  suffices kept : ∀ m : Mapping, m.Distinct → (ops.foldl perform m).Distinct from kept [] distinct_nil
  induction ops with
  | nil => exact fun m distinct => distinct
  | cons op ops ih => exact fun m distinct => ih (m.perform op) (distinct_perform distinct op)

/-- After any operations, no two keys of a mapping are equal, names are found as the string keys they are, every store
    replaces one value in place or adds one entry behind the others, and every removal takes out the one entry under
    the name, if there is one. -/
theorem insertion_ordered (ops : List Operation) :
    let m := after ops
    (m.keys.Pairwise fun k l => (k == l) = false) ∧
    (∀ name, m.get? name = m.getValue? (.string name) ∧ (m.containsKey name = true ↔ .string name ∈ m.keys)) ∧
    (∀ key value, Stored m key value (exchange key value m).1 (m.insert key value)) ∧
    ∀ name, Removed m name (extract name m).1 (m.remove name) := by
  intro m
  have distinct : m.Distinct := distinct_after ops
  refine ⟨distinct, fun name => ⟨get?_eq_getValue? m name, containsKey_iff⟩, ?_, ?_⟩
  · exact fun key value => stored_exchange key value m
  · exact fun name => removed_extract distinct name

/-- Zeros of either sign are one key, NaNs are never the same, and what is stored again keeps its place. -/
example :
    let zero : Value := .float .zero
    let nan : Value := .float .nan
    after [.insert zero (.integer 1), .insert nan (.integer 2), .insert (.string "a") .null, .insert nan (.integer 3),
      .insert (.float Binary64.zero.negate) (.integer 4), .remove "a"] =
    [(zero, .integer 4), (nan, .integer 2), (nan, .integer 3)] := rfl

end TypedConfig.Mapping
