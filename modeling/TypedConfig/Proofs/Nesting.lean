import TypedConfig.Value.Basic

/-!
Values inside values: the elements of sequences, and the keys and the values of mappings. What passes from these to
the value around them holds of every value (`Value.induct`).
-/
namespace TypedConfig.Value

/-- What holds of scalars, of sequences of values that it holds of and of mappings whose keys and values it holds of,
    holds of all. -/
theorem induct {P : Value → Prop} (null : P .null) (boolean : ∀ b, P (.boolean b)) (integer : ∀ n, P (.integer n))
    (float : ∀ x, P (.float x)) (string : ∀ s, P (.string s))
    (sequence : ∀ items, (∀ v ∈ items, P v) → P (.sequence items))
    (mapping : ∀ entries, (∀ e ∈ entries, P e.1 ∧ P e.2) → P (.mapping entries)) : ∀ v, P v
  | .null => null
  | .boolean b => boolean b
  | .integer n => integer n
  | .float x => float x
  | .string s => string s
  | .sequence items => sequence items fun v _ => induct null boolean integer float string sequence mapping v
  | .mapping entries => mapping entries fun e _ =>
    ⟨induct null boolean integer float string sequence mapping e.1,
      induct null boolean integer float string sequence mapping e.2⟩
decreasing_by
  · decreasing_tactic
  all_goals
    have within := List.sizeOf_lt_of_mem ‹e ∈ entries›
    obtain ⟨k, v⟩ := e
    simp only [Prod.mk.sizeOf_spec, Value.mapping.sizeOf_spec] at within ⊢
    omega

/-- A value is part of another: the other itself, or part of an element, of a key or of a value in it. -/
inductive Part : Value → Value → Prop
  | whole (v : Value) : Part v v
  | element {v item : Value} {items : List Value} (member : item ∈ items) (part : Part v item) :
    Part v (.sequence items)
  | key {v : Value} {entry : Value × Value} {entries : List (Value × Value)} (member : entry ∈ entries)
    (part : Part v entry.1) : Part v (.mapping entries)
  | value {v : Value} {entry : Value × Value} {entries : List (Value × Value)} (member : entry ∈ entries)
    (part : Part v entry.2) : Part v (.mapping entries)

theorem Part.trans {u v w : Value} (inner : Part u v) (outer : Part v w) : Part u w := by
  induction outer with
  | whole => exact inner
  | element member _ ih => exact .element member ih
  | key member _ ih => exact .key member ih
  | value member _ ih => exact .value member ih

/-- A value that is no sequence and no mapping has no part but itself. -/
theorem Part.eq_of_scalar {v w : Value} (part : Part v w) (noSequence : w.sequence? = none)
    (noMapping : w.mapping? = none) : v = w := by
  cases part with
  | whole => rfl
  | element => cases noSequence
  | key => cases noMapping
  | value => cases noMapping

/-- All mappings in a value, at any depth and also inside keys, have a property. -/
def Throughout (P : List (Value × Value) → Prop) (v : Value) : Prop := ∀ entries, Part (.mapping entries) v → P entries

section
variable {P : List (Value × Value) → Prop}

theorem Throughout.part {v w : Value} (all : w.Throughout P) (part : Part v w) : v.Throughout P :=
  fun entries inside => all entries (inside.trans part)

theorem throughout_sequence_iff {items : List Value} :
    Throughout P (.sequence items) ↔ ∀ v ∈ items, v.Throughout P := by
  constructor
  · intro all v member
    exact all.part (.element member (.whole v))
  · intro each entries part
    cases part with
    | element member part => exact each _ member entries part

theorem throughout_mapping_iff {m : List (Value × Value)} :
    Throughout P (.mapping m) ↔ P m ∧ ∀ e ∈ m, e.1.Throughout P ∧ e.2.Throughout P := by
  constructor
  · intro all
    refine ⟨all m (.whole _), fun e member => ⟨?_, ?_⟩⟩
    · exact all.part (.key member (.whole _))
    · exact all.part (.value member (.whole _))
  · rintro ⟨here, each⟩ entries part
    cases part with
    | whole => exact here
    | key member part => exact (each _ member).1 entries part
    | value member part => exact (each _ member).2 entries part

theorem throughout_of_scalar {v : Value} (noSequence : v.sequence? = none) (noMapping : v.mapping? = none) :
    v.Throughout P := by
  intro entries part
  cases part.eq_of_scalar noSequence noMapping
  cases noMapping

end

end TypedConfig.Value
