import TypedConfig.Proofs.Equality
import TypedConfig.Proofs.Lookup

/-!
Entries stored over a mapping. The keys are those that were there and then each new
key once, as it was first written (`keys_overlay`); under a key is what was stored
there last (`getValue?_overlay`); and keys that differ from themselves are all kept
(`unfindable_overlay`). Storing the entries of a mapping that was itself built by storing
comes to the same as storing everything in a row (`overlay_ofPairs`).
-/
namespace TypedConfig.Mapping

/-! ### Keys -/

/-- Whether a mapping has a key. -/
def has (m : Mapping) (key : Value) : Bool := m.keys.any (· == key)

/-- No key equals a later one. -/
def Distinct (m : Mapping) : Prop := m.keys.Pairwise fun k l => (k == l) = false

theorem keys_cons (k v : Value) (m : Mapping) : keys ((k, v) :: m) = k :: m.keys := rfl

theorem has_cons (k v q : Value) (m : Mapping) : has ((k, v) :: m) q = (k == q || m.has q) := rfl

theorem overlay_cons (base : Mapping) (k v : Value) (es : Mapping) :
    overlay base ((k, v) :: es) = overlay (base.insert k v) es := rfl

theorem has_congr (m : Mapping) {k q : Value} (same : (k == q) = true) : m.has k = m.has q := by
  unfold has
  congr 1
  funext l
  exact BEq.congr_right same

theorem keys_insert (m : Mapping) (k v : Value) :
    (m.insert k v).keys = if m.has k then m.keys else m.keys ++ [k] := by
  induction m with
  | nil => rfl
  | cons e m ih =>
    obtain ⟨l, w⟩ := e
    rw [insert_cons, has_cons]
    cases same : l == k with
    | true => rfl
    | false =>
      rw [if_neg (by simp), keys_cons, ih]
      cases has m k <;> rfl

theorem has_insert (m : Mapping) (k v q : Value) : (m.insert k v).has q = (m.has q || k == q) := by
  unfold has
  rw [keys_insert]
  cases present : m.has k with
  | true =>
    cases same : k == q with
    | false => simp
    | true =>
      have there : m.has q = true := (m.has_congr same).symm.trans present
      simpa [has] using there
  | false => simp

theorem has_overlay (es : Mapping) (q : Value) : ∀ base : Mapping, (overlay base es).has q = (base.has q || es.has q) := by
  induction es with
  | nil => exact fun base => (Bool.or_false _).symm
  | cons e es ih =>
    intro base
    obtain ⟨k, v⟩ := e
    rw [overlay_cons, ih, has_insert, has_cons, Bool.or_assoc]

theorem has_ofPairs (pairs : List (Value × Value)) (q : Value) : (ofPairs pairs).has q = has pairs q :=
  has_overlay pairs q []

theorem distinct_nil : Distinct [] := List.Pairwise.nil

/-- Keys that are distinct texts are not equal. -/
theorem distinct_of_texts {m : Mapping} {texts : List String} (named : m.keys = texts.map .string)
    (distinct : texts.Nodup) : m.Distinct := by
  rw [Distinct, named, List.pairwise_map]
  exact distinct.imp fun different => beq_eq_false_iff_ne.mpr different

theorem distinct_insert {m : Mapping} (distinct : m.Distinct) (k v : Value) : (m.insert k v).Distinct := by
  unfold Distinct
  rw [keys_insert]
  cases present : m.has k with
  | true => exact distinct
  | false =>
    refine List.pairwise_append.mpr ⟨distinct, List.pairwise_singleton _ k, fun l member other isKey => ?_⟩
    obtain rfl := List.mem_singleton.mp isKey
    simpa using List.any_eq_false.mp present l member

theorem distinct_overlay {es : Mapping} : ∀ {base : Mapping}, base.Distinct → (overlay base es).Distinct := by
  induction es with
  | nil => exact fun distinct => distinct
  | cons e es ih => exact fun distinct => ih (distinct_insert distinct e.1 e.2)

theorem distinct_ofPairs (pairs : List (Value × Value)) : (ofPairs pairs).Distinct := distinct_overlay distinct_nil

/-- The keys of a mapping come first, and then each key that it did not have. -/
theorem keys_overlay (es : Mapping) :
    ∀ base : Mapping, (overlay base es).keys = base.keys ++ (es.keys.filter fun k => !base.has k).eraseDups := by
  induction es with
  | nil => intro base; simp [overlay, keys]
  | cons e es ih =>
    intro base
    obtain ⟨k, v⟩ := e
    rw [overlay_cons, ih, keys_cons, keys_insert]
    cases present : base.has k with
    | true =>
      have fresh : ∀ q, (base.insert k v).has q = base.has q := by
        intro q
        rw [has_insert]
        cases same : k == q with
        | false => simp
        | true => simpa using (base.has_congr same).symm.trans present
      simp [fresh, present]
    | false =>
      have fresh : ∀ q, (!(base.insert k v).has q) = (!(q == k) && !base.has q) := by
        intro q
        rw [has_insert, Bool.not_or, BEq.comm (a := k), Bool.and_comm]
      simp only [fresh, List.filter_cons, present, Bool.not_false, Bool.false_eq_true, ↓reduceIte]
      rw [List.eraseDups_cons, List.filter_filter, List.append_assoc, List.singleton_append]

theorem keys_ofPairs (es : Mapping) : (ofPairs es).keys = es.keys.eraseDups := by
  rw [ofPairs, keys_overlay]
  simp [has, keys]

theorem insert_ne_nil (m : Mapping) (k v : Value) : m.insert k v ≠ [] := by
  cases m with
  | nil => simp [insert_nil]
  | cons e m =>
    obtain ⟨l, u⟩ := e
    rw [insert_cons]
    split
    · simp
    · simp

/-! ### Lookups -/

theorem getValue?_cons (k v q : Value) (m : Mapping) :
    getValue? ((k, v) :: m) q = if k == q then some v else m.getValue? q := by
  cases same : k == q <;> simp [getValue?, same]

theorem getValue?_append (m n : Mapping) (q : Value) :
    getValue? (m ++ n) q = (m.getValue? q).or (n.getValue? q) := by
  unfold getValue?
  rw [List.find?_append]
  cases m.find? _ <;> rfl

theorem getValue?_insert (m : Mapping) (k v q : Value) :
    (m.insert k v).getValue? q = if k == q then some v else m.getValue? q := by
  induction m with
  | nil => exact getValue?_cons k v q []
  | cons e m ih =>
    obtain ⟨l, w⟩ := e
    rw [insert_cons]
    cases replaced : l == k with
    | true =>
      rw [if_pos rfl, getValue?_cons, getValue?_cons, BEq.congr_left replaced]
      cases k == q <;> rfl
    | false =>
      rw [if_neg (by simp), getValue?_cons, ih, getValue?_cons]
      cases asked : l == q with
      | false => rfl
      | true =>
        -- Otherwise `l` would equal `k`.
        have other : (k == q) = false := BEq.symm_false (BEq.neq_of_beq_of_neq (BEq.symm asked) replaced)
        simp [other]

/-- Of the entries that are stored, the last under a key wins. -/
theorem getValue?_overlay (es : Mapping) (q : Value) :
    ∀ base : Mapping, (overlay base es).getValue? q = (getValue? es.reverse q).or (base.getValue? q) := by
  induction es with
  | nil => intro base; rfl
  | cons e es ih =>
    intro base
    obtain ⟨k, v⟩ := e
    rw [overlay_cons, ih, getValue?_insert, List.reverse_cons, getValue?_append, getValue?_cons, Option.or_assoc]
    cases k == q <;> rfl

theorem getValue?_eq_none_iff {m : Mapping} {q : Value} : m.getValue? q = none ↔ m.has q = false := by
  simp [getValue?, has, keys]

/-- In a mapping without equal keys, the last entry under a key is also the first. -/
theorem getValue?_reverse {m : Mapping} (distinct : m.Distinct) (q : Value) :
    getValue? m.reverse q = m.getValue? q := by
  induction m with
  | nil => rfl
  | cons e m ih =>
    obtain ⟨k, v⟩ := e
    obtain ⟨fresh, distinct⟩ := List.pairwise_cons.mp distinct
    rw [List.reverse_cons, getValue?_append, ih distinct, getValue?_cons, getValue?_cons]
    cases same : k == q with
    | false => simp [getValue?]
    | true =>
      have absent : getValue? m q = none := by
        refine getValue?_eq_none_iff.mpr (List.any_eq_false.mpr fun l member => ?_)
        have other := BEq.neq_of_beq_of_neq (BEq.symm same) (fresh l member)
        simp [BEq.symm_false other]
      rw [absent]
      rfl

theorem containsKey_eq_any (m : Mapping) (name : String) :
    m.containsKey name = m.keys.any fun k => k.string? == some name := by
  simp [containsKey, get?, keys, List.isSome_find?, Function.comp_def]

/-- In a mapping without equal keys, the entry under a name is the only one. -/
theorem get?_of_mem {m : Mapping} (distinct : m.Distinct) {name : String} {v : Value}
    (member : (.string name, v) ∈ m) : m.get? name = some v := by
  induction m with
  | nil => cases member
  | cons entry m ih =>
    obtain ⟨key, other⟩ := entry
    obtain ⟨fresh, distinct⟩ := List.pairwise_cons.mp distinct
    rw [get?_cons]
    rcases List.mem_cons.mp member with here | later
    · cases here
      exact if_pos rfl
    · have different : ¬ key.string? = some name := by
        intro same
        have equal := Value.beq_string_iff.mpr same
        rw [fresh _ (List.mem_map_of_mem later)] at equal
        cases equal
      rw [if_neg different, ih distinct later]

/-! ### Keys that differ from themselves -/

/-- The entries under keys that differ from themselves. -/
def unfindable (m : Mapping) : Mapping := m.filter fun entry => entry.1 != entry.1

theorem unfindable_insert (m : Mapping) (k v : Value) :
    (m.insert k v).unfindable = m.unfindable ++ unfindable [(k, v)] := by
  induction m with
  | nil => rfl
  | cons e m ih =>
    obtain ⟨l, w⟩ := e
    rw [insert_cons]
    cases replaced : l == k with
    | true =>
      -- A key that equals another one equals itself.
      have itself : (l == l) = true := BEq.trans replaced (BEq.symm replaced)
      have other : (k == k) = true := BEq.trans (BEq.symm replaced) replaced
      simp [unfindable, itself, other, bne]
    | false =>
      have tail := ih
      unfold unfindable at tail ⊢
      simp only [Bool.false_eq_true, ↓reduceIte, List.filter_cons, tail]
      split <;> simp

theorem unfindable_overlay (es : Mapping) :
    ∀ base : Mapping, (overlay base es).unfindable = base.unfindable ++ es.unfindable := by
  induction es with
  | nil => intro base; simp [overlay, unfindable]
  | cons e es ih =>
    intro base
    obtain ⟨k, v⟩ := e
    rw [overlay_cons, ih, unfindable_insert, List.append_assoc]
    exact congrArg _ (List.filter_append [(k, v)] es).symm

/-! ### Storing in a row -/

theorem overlay_append (base es fs : Mapping) : overlay base (es ++ fs) = overlay (overlay base es) fs :=
  List.foldl_append

theorem ofPairs_append (ps qs : List (Value × Value)) : ofPairs (ps ++ qs) = overlay (ofPairs ps) qs :=
  overlay_append [] ps qs

/-- Storing under a new key adds an entry behind the others. -/
theorem insert_of_not_has {m : Mapping} {k : Value} (absent : m.has k = false) (v : Value) :
    m.insert k v = m ++ [(k, v)] := by
  induction m with
  | nil => rfl
  | cons e m ih =>
    obtain ⟨l, w⟩ := e
    obtain ⟨different, later⟩ := Bool.or_eq_false_iff.mp absent
    rw [insert_cons, if_neg (by simp [different]), ih later, List.cons_append]

/-- In a mapping without equal keys, no entry before another has its key. -/
theorem not_has_of_distinct {base es : Mapping} {k v : Value} (distinct : Distinct (base ++ (k, v) :: es)) :
    base.has k = false := by
  unfold Distinct keys at distinct
  rw [List.map_append, List.map_cons] at distinct
  refine List.any_eq_false.mpr fun l member => ?_
  simp [(List.pairwise_append.mp distinct).2.2 l member k List.mem_cons_self]

/-- Storing entries whose keys are all new adds them as they are. -/
theorem overlay_of_distinct {es : Mapping} :
    ∀ {base : Mapping}, Distinct (base ++ es) → overlay base es = base ++ es := by
  induction es with
  | nil => intro base _; exact (List.append_nil base).symm
  | cons e es ih =>
    intro base distinct
    obtain ⟨k, v⟩ := e
    have rest : Distinct ((base ++ [(k, v)]) ++ es) := by rwa [List.append_assoc]
    rw [overlay_cons, insert_of_not_has (not_has_of_distinct distinct), ih rest, List.append_assoc, List.singleton_append]

theorem ofPairs_of_distinct {m : Mapping} (distinct : m.Distinct) : ofPairs m = m := overlay_of_distinct distinct

/-- Storing under a key again replaces the value. -/
theorem insert_insert {k l : Value} (same : (k == l) = true) (m : Mapping) (v w : Value) :
    (m.insert k v).insert l w = m.insert k w := by
  induction m with
  | nil => rw [insert_nil, insert_cons, if_pos same, insert_nil]
  | cons e m ih =>
    obtain ⟨j, u⟩ := e
    rw [insert_cons, insert_cons]
    cases replaced : j == k with
    | true => rw [if_pos rfl, if_pos rfl, insert_cons, if_pos (BEq.trans replaced same)]
    | false =>
      have other : (j == l) = false := BEq.neq_of_neq_of_beq replaced same
      rw [if_neg (by simp), if_neg (by simp), insert_cons, if_neg (by simp [other]), ih]

/-- Storing under a key that is there does not move it, so it may as well be done before other keys are stored. -/
theorem insert_comm {m : Mapping} {k l : Value} (present : m.has k = true) (different : (l == k) = false)
    (v w : Value) : (m.insert l w).insert k v = (m.insert k v).insert l w := by
  induction m with
  | nil => cases present
  | cons e m ih =>
    obtain ⟨j, u⟩ := e
    rw [insert_cons, insert_cons]
    cases first : j == k with
    | true =>
      have other : (j == l) = false := BEq.neq_of_beq_of_neq first (BEq.symm_false different)
      rw [other, if_neg (by simp), if_pos rfl, insert_cons, if_pos first, insert_cons, if_neg (by simp [other])]
    | false =>
      rw [has_cons, first, Bool.false_or] at present
      cases second : j == l with
      | true => rw [if_pos rfl, if_neg (by simp), insert_cons, first, insert_cons, second]; rfl
      | false =>
        rw [if_neg (by simp), if_neg (by simp), insert_cons, insert_cons, first, second, if_neg (by simp),
          if_neg (by simp), ih present]

/-- A key that is there and that none of the entries has may be stored before them. -/
theorem insert_overlay {es : Mapping} {k : Value} (fresh : ∀ l ∈ es.keys, (l == k) = false) (v : Value) :
    ∀ {base : Mapping}, base.has k = true → (overlay base es).insert k v = overlay (base.insert k v) es := by
  induction es with
  | nil => intro base _; rfl
  | cons e es ih =>
    intro base present
    obtain ⟨l, w⟩ := e
    obtain ⟨different, later⟩ := List.forall_mem_cons.mp fresh
    have still : (base.insert l w).has k = true := by rw [has_insert, present, Bool.true_or]
    calc (overlay (base.insert l w) es).insert k v
        = overlay ((base.insert l w).insert k v) es := ih later still
      _ = overlay ((base.insert k v).insert l w) es := by rw [insert_comm present different]

theorem overlay_insert {m : Mapping} (distinct : m.Distinct) (k v : Value) :
    ∀ base : Mapping, overlay base (m.insert k v) = (overlay base m).insert k v := by
  induction m with
  | nil => intro base; rfl
  | cons e m ih =>
    intro base
    obtain ⟨l, w⟩ := e
    obtain ⟨fresh, distinct⟩ := List.pairwise_cons.mp distinct
    rw [insert_cons]
    cases same : l == k with
    | true =>
      have later : ∀ q ∈ keys m, (q == k) = false := fun q member =>
        BEq.symm_false (BEq.neq_of_beq_of_neq (BEq.symm same) (fresh q member))
      have there : (base.insert l w).has k = true := by rw [has_insert, same, Bool.or_true]
      calc overlay (base.insert l v) m
          = overlay ((base.insert l w).insert k v) m := by rw [insert_insert same]
        _ = (overlay (base.insert l w) m).insert k v := (insert_overlay later v there).symm
    | false => exact ih distinct (base.insert l w)

theorem overlay_overlay {es : Mapping} :
    ∀ {m : Mapping}, m.Distinct → ∀ base, overlay base (overlay m es) = overlay (overlay base m) es := by
  induction es with
  | nil => intro m _ base; rfl
  | cons e es ih =>
    intro m distinct base
    obtain ⟨k, v⟩ := e
    calc overlay base (overlay (m.insert k v) es)
        = overlay (overlay base (m.insert k v)) es := ih (distinct_insert distinct k v) base
      _ = overlay ((overlay base m).insert k v) es := by rw [overlay_insert distinct]

/-- Entries may be stored one by one or gathered first. -/
theorem overlay_ofPairs (base es : Mapping) : overlay base (ofPairs es) = overlay base es :=
  overlay_overlay distinct_nil base

end TypedConfig.Mapping
