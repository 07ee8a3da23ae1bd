import Mathlib.Data.List.Induction
import TypedConfig.Proofs.Attainable

/-!
Pairs collected in a mapping. Each class of equal keys becomes one entry, in the place and with the key of its first
pair and with the value of its last (`classes_ofPairs`). Collecting two lists in a row is merging what each is
collected in, and a mapping that can be come by is collected again from its own entries (`ofPairs_collects`).
-/
namespace TypedConfig.Mapping
open Value (Attainable)

/-! ### Classes of equal keys -/

/-- The pair at a place is the first of its class: no pair before it has an equal key. -/
def Opens (pairs : List (Value × Value)) (place : Nat) : Prop :=
  ∃ p, pairs[place]? = some p ∧ ∀ q ∈ pairs.take place, (q.1 == p.1) = false

/-- An entry has the key of the pair at a place, and the value of the last pair of its class. The class is the pair
    with all that have an equal key; if the key differs from itself, these are none. -/
def Summarizes (pairs : List (Value × Value)) (place : Nat) (entry : Value × Value) : Prop :=
  (∃ v, pairs[place]? = some (entry.1, v)) ∧
    ∃ last k, pairs[last]? = some (k, entry.2) ∧ (last = place ∨ place < last ∧ (entry.1 == k) = true) ∧
      ∀ q ∈ pairs.drop (last + 1), (entry.1 == q.1) = false

/-- A mapping has one entry for each class of pairs, in the order of the first pairs. -/
def Classes (pairs : List (Value × Value)) (m : Mapping) : Prop :=
  ∃ places : List Nat, places.Pairwise (· < ·) ∧ (∀ place, place ∈ places ↔ Opens pairs place) ∧
    List.Forall₂ (Summarizes pairs) places m

section
variable {pairs : List (Value × Value)} {p : Value × Value}

theorem opens_append_iff {place : Nat} :
    Opens (pairs ++ [p]) place ↔ Opens pairs place ∨ place = pairs.length ∧ ∀ q ∈ pairs, (q.1 == p.1) = false := by
  rcases Nat.lt_trichotomy place pairs.length with before | rfl | behind
  · have other : ¬ place = pairs.length := Nat.ne_of_lt before
    simp [Opens, List.getElem?_append_left before, List.take_append_of_le_length (Nat.le_of_lt before), other]
  · simp [Opens]
  · have other : ¬ place = pairs.length := Nat.ne_of_gt behind
    have outside : (pairs ++ [p])[place]? = none := by simpa using Nat.succ_le_of_lt behind
    have before : pairs[place]? = none := by simpa using Nat.le_of_lt behind
    simp [Opens, outside, before, other]

/-- A pair that is added gives its value to the entry of its class, and leaves the others. -/
theorem Summarizes.append {place : Nat} {entry : Value × Value} (summarizes : Summarizes pairs place entry) :
    Summarizes (pairs ++ [p]) place (if entry.1 == p.1 then (entry.1, p.2) else entry) := by
  obtain ⟨⟨v, first⟩, last, k, there, within, after⟩ := summarizes
  have inside : place < pairs.length := (List.getElem?_eq_some_iff.mp first).1
  have still : (pairs ++ [p])[place]? = some (entry.1, v) := by rwa [List.getElem?_append_left inside]
  split
  · next same => exact ⟨⟨v, still⟩, pairs.length, p.1, by simp, .inr ⟨inside, same⟩, by simp⟩
  · next different =>
    have known : last < pairs.length := (List.getElem?_eq_some_iff.mp there).1
    refine ⟨⟨v, still⟩, last, k, by rwa [List.getElem?_append_left known], within, ?_⟩
    rw [List.drop_append_of_le_length known]
    refine List.forall_mem_append.mpr ⟨after, List.forall_mem_singleton.mpr ?_⟩
    simpa using different

theorem summarizes_last : Summarizes (pairs ++ [p]) pairs.length p :=
  ⟨⟨p.2, by simp⟩, pairs.length, p.1, by simp, .inl rfl, by simp⟩

end

/-! ### Stores, seen from the whole -/

/-- Where no two keys are equal, storing replaces the values of all entries with an equal key, or adds an entry. -/
theorem insert_eq {m : Mapping} (distinct : m.Distinct) (k v : Value) :
    m.insert k v = m.map (fun e => if e.1 == k then (e.1, v) else e) ++ if m.has k then [] else [(k, v)] := by
  induction m with
  | nil => rfl
  | cons e m ih =>
    obtain ⟨l, w⟩ := e
    obtain ⟨fresh, distinct⟩ := List.pairwise_cons.mp distinct
    rw [insert_cons, has_cons, List.map_cons, List.cons_append]
    cases same : l == k with
    | false => simp [ih distinct]
    | true =>
      -- No key behind this one is equal to it, so none is equal to `k`.
      have others : ∀ f ∈ m, (if f.1 == k then (f.1, v) else f) = f := fun f member => by
        have apart := BEq.neq_of_beq_of_neq (BEq.symm same) (fresh f.1 (List.mem_map_of_mem member))
        simp [BEq.symm_false apart]
      simp [List.map_congr_left others]

theorem classes_ofPairs (pairs : List (Value × Value)) : Classes pairs (ofPairs pairs) := by
  -- From the back: the last pair joins a class that is there, or opens one behind all others.
  induction pairs using List.reverseRecOn with
  | nil => exact ⟨[], .nil, by simp [Opens], .nil⟩
  | append_singleton pairs p ih =>
    obtain ⟨places, ascending, opens, each⟩ := ih
    have replaced := List.forall₂_map_right_iff.mpr (each.imp fun _ _ => Summarizes.append (p := p))
    have stored : ofPairs (pairs ++ [p]) = (ofPairs pairs).insert p.1 p.2 := ofPairs_append pairs [p]
    rw [stored, insert_eq (distinct_ofPairs pairs), has_ofPairs]
    cases present : has pairs p.1 with
    | true =>
      obtain ⟨q, member, same⟩ : ∃ q ∈ pairs, (q.1 == p.1) = true := by simpa [has, keys] using present
      refine ⟨places, ascending, fun place => ?_, by simpa using replaced⟩
      rw [opens, opens_append_iff]
      refine ⟨.inl, fun opened => opened.resolve_right ?_⟩
      rintro ⟨_, fresh⟩
      rw [fresh q member] at same
      cases same
    | false =>
      have fresh : ∀ q ∈ pairs, (q.1 == p.1) = false := by simpa [has, keys] using present
      have behind : ∀ place ∈ places, place < pairs.length := fun place member => by
        obtain ⟨_, there, _⟩ := (opens place).mp member
        exact (List.getElem?_eq_some_iff.mp there).1
      refine ⟨places ++ [pairs.length], ?_, fun place => ?_, List.rel_append replaced (.cons summarizes_last .nil)⟩
      · exact List.pairwise_append.mpr ⟨ascending, List.pairwise_singleton _ _, by simpa using behind⟩
      · rw [List.mem_append, List.mem_singleton, opens, opens_append_iff, and_iff_left fresh]

/-- Pairs are collected in one entry for each class of equal keys, in the order and with the keys of the first pairs and
    with the values of the last; a pair whose key differs from itself becomes an entry of its own. Collecting what
    stands behind is merging it over what stands before, once both are collected. What can be come by is
    collected again from its own entries as it is. -/
theorem ofPairs_collects (ps qs : List (Value × Value)) :
    Classes ps (ofPairs ps) ∧ unfindable (ofPairs ps) = unfindable ps ∧
      ofPairs (ps ++ qs) = overlay (ofPairs ps) (ofPairs qs) ∧
      ∀ m : Mapping, Attainable (.mapping m) → ofPairs m = m := by
  refine ⟨classes_ofPairs ps, unfindable_overlay ps [], ?_, fun m attainable => ?_⟩
  · rw [ofPairs_append, overlay_ofPairs]
  · exact ofPairs_of_distinct (attainable.distinct m (.whole _))

/-- Zeros of either sign are one class, whose first key stays; NaNs are a class each. -/
theorem ofPairs_collects_zeros :
    let zero : Value := .float .zero
    let nan : Value := .float .nan
    let ps : List (Value × Value) := [(zero, .integer 1), (nan, .integer 2), (.string "a", .null)]
    let qs : List (Value × Value) := [(nan, .integer 3), (.float Binary64.zero.negate, .integer 4)]
    let collected : Mapping := [(zero, .integer 4), (nan, .integer 2), (.string "a", .null), (nan, .integer 3)]
    overlay (ofPairs ps) (ofPairs qs) = collected ∧ ofPairs collected = collected := by
  intro zero nan ps qs collected
  obtain ⟨_, _, rows, again⟩ := ofPairs_collects ps qs
  have whole : ofPairs (ps ++ qs) = collected := rfl
  have scalars : ∀ p ∈ ps ++ qs,
      (p.1.sequence? = none ∧ p.1.mapping? = none) ∧ p.2.sequence? = none ∧ p.2.mapping? = none := by
    decide
  have attainable : Attainable (.mapping collected) := whole ▸
    .collect (fun p member => .scalar (scalars p member).1.1 (scalars p member).1.2)
      fun p member => .scalar (scalars p member).2.1 (scalars p member).2.2
  exact ⟨rows.symm.trans whole, again collected attainable⟩

end TypedConfig.Mapping
