import Mathlib.Tactic.Tauto
import TypedConfig.Proofs.Nesting

/-!
Equality of values. Two values are equal exactly if neither holds a NaN and they are the same once the signs of zeros
are dropped (`equal_iff`). So equality is symmetric and transitive, and a value differs from itself exactly if it
holds a NaN (`beq_partial_equivalence`).
-/
namespace TypedConfig

namespace Binary64

/-- The number, but without its sign if it is zero. -/
def withoutZeroSign (x : Binary64) : Binary64 := if x.isZero then zero else x

theorem withoutZeroSign_eq_iff {x y : Binary64} :
    x.withoutZeroSign = y.withoutZeroSign ↔ x = y ∨ x.isZero = true ∧ y.isZero = true := by
  -- The number that stands for both zeros is one of them, so no other number is taken for it.
  have isZero : zero.isZero = true := by decide
  by_cases zeroX : x.isZero = true <;> by_cases zeroY : y.isZero = true
  · simp [withoutZeroSign, zeroX, zeroY]
  · have different : x ≠ y := fun same => zeroY (same ▸ zeroX)
    have notZero : zero ≠ y := fun same => zeroY (same ▸ isZero)
    simp [withoutZeroSign, zeroX, zeroY, different, notZero]
  · have different : x ≠ y := fun same => zeroX (same ▸ zeroY)
    have notZero : x ≠ zero := fun same => zeroX (same ▸ isZero)
    simp [withoutZeroSign, zeroX, zeroY, different, notZero]
  · simp [withoutZeroSign, zeroX, zeroY]

theorem same_iff {x y : Binary64} :
    x.same y = true ↔ x.isNaN = false ∧ y.isNaN = false ∧ x.withoutZeroSign = y.withoutZeroSign := by
  rw [withoutZeroSign_eq_iff]
  obtain ⟨a⟩ := x
  obtain ⟨b⟩ := y
  simp [same, and_assoc]

end Binary64

/-- What is left of a value without the contents of its scalars. -/
inductive Shape where
  | scalar (typeName : String)
  | sequence (items : List Shape)
  | mapping (entries : List (Shape × Shape))

namespace Value

mutual

def shape : Value → Shape
  | .sequence items => .sequence (itemShapes items)
  | .mapping entries => .mapping (entryShapes entries)
  | v => .scalar v.typeName
termination_by structural v => v

def itemShapes : List Value → List Shape
  | [] => []
  | v :: vs => shape v :: itemShapes vs
termination_by structural vs => vs

def entryShapes : List (Value × Value) → List (Shape × Shape)
  | [] => []
  | (k, v) :: es => (shape k, shape v) :: entryShapes es
termination_by structural es => es

end

mutual

/-- The value with all its zeros without a sign, also those in keys. -/
def withoutZeroSigns : Value → Value
  | .float x => .float x.withoutZeroSign
  | .sequence items => .sequence (itemsWithoutZeroSigns items)
  | .mapping entries => .mapping (entriesWithoutZeroSigns entries)
  | v => v
termination_by structural v => v

def itemsWithoutZeroSigns : List Value → List Value
  | [] => []
  | v :: vs => withoutZeroSigns v :: itemsWithoutZeroSigns vs
termination_by structural vs => vs

def entriesWithoutZeroSigns : List (Value × Value) → List (Value × Value)
  | [] => []
  | (k, v) :: es => (withoutZeroSigns k, withoutZeroSigns v) :: entriesWithoutZeroSigns es
termination_by structural es => es

end

mutual

theorem shape_withoutZeroSigns : ∀ v : Value, v.withoutZeroSigns.shape = v.shape
  | .null => rfl
  | .boolean _ => rfl
  | .integer _ => rfl
  | .float _ => rfl
  | .string _ => rfl
  | .sequence items => congrArg Shape.sequence (itemShapes_withoutZeroSigns items)
  | .mapping entries => congrArg Shape.mapping (entryShapes_withoutZeroSigns entries)
termination_by structural v => v

theorem itemShapes_withoutZeroSigns : ∀ vs, itemShapes (itemsWithoutZeroSigns vs) = itemShapes vs
  | [] => rfl
  | v :: vs => by
    rw [itemsWithoutZeroSigns, itemShapes, itemShapes, shape_withoutZeroSigns v, itemShapes_withoutZeroSigns vs]
termination_by structural vs => vs

theorem entryShapes_withoutZeroSigns : ∀ es, entryShapes (entriesWithoutZeroSigns es) = entryShapes es
  | [] => rfl
  | (k, v) :: es => by
    rw [entriesWithoutZeroSigns, entryShapes, entryShapes, shape_withoutZeroSigns k, shape_withoutZeroSigns v,
      entryShapes_withoutZeroSigns es]
termination_by structural es => es

end

theorem typeName_withoutZeroSigns (v : Value) : v.withoutZeroSigns.typeName = v.typeName := by
  cases v <;> rfl

/-! ### Values without NaN -/

/-- No number in a value is NaN, at any depth and also inside keys. -/
def NaNFree (v : Value) : Prop := ∀ x, Part (.float x) v → x.isNaN = false

theorem nanFree_of_scalar {v : Value} (noFloat : v.float? = none) (noSequence : v.sequence? = none)
    (noMapping : v.mapping? = none) : v.NaNFree := by
  intro x part
  cases part.eq_of_scalar noSequence noMapping
  cases noFloat

@[simp] theorem nanFree_null : Value.null.NaNFree := nanFree_of_scalar rfl rfl rfl
@[simp] theorem nanFree_boolean (b : Bool) : (Value.boolean b).NaNFree := nanFree_of_scalar rfl rfl rfl
@[simp] theorem nanFree_integer (n : Int64) : (Value.integer n).NaNFree := nanFree_of_scalar rfl rfl rfl
@[simp] theorem nanFree_string (s : String) : (Value.string s).NaNFree := nanFree_of_scalar rfl rfl rfl

@[simp] theorem nanFree_float_iff {x : Binary64} : (Value.float x).NaNFree ↔ x.isNaN = false := by
  constructor
  · intro free
    exact free x (.whole _)
  · intro number y part
    cases part.eq_of_scalar rfl rfl
    exact number

@[simp] theorem nanFree_sequence_iff {items : List Value} :
    (Value.sequence items).NaNFree ↔ ∀ v ∈ items, v.NaNFree := by
  constructor
  · intro free v member x part
    exact free x (.element member part)
  · intro each x part
    cases part with
    | element member part => exact each _ member x part

@[simp] theorem nanFree_mapping_iff {entries : List (Value × Value)} :
    (Value.mapping entries).NaNFree ↔ ∀ e ∈ entries, e.1.NaNFree ∧ e.2.NaNFree := by
  constructor
  · intro free e member
    exact ⟨fun x part => free x (.key member part), fun x part => free x (.value member part)⟩
  · intro each x part
    cases part with
    | key member part => exact (each _ member).1 x part
    | value member part => exact (each _ member).2 x part

/-! ### What equality compares -/

mutual

/-- Values are equal exactly if neither holds a NaN and they are the same but for the signs of zeros. -/
theorem equal_iff : ∀ {a b : Value},
    a.equal b = true ↔ a.NaNFree ∧ b.NaNFree ∧ a.withoutZeroSigns = b.withoutZeroSigns
  | .null, b => by cases b <;> simp [equal, withoutZeroSigns]
  | .boolean a, b => by cases b <;> simp [equal, withoutZeroSigns]
  | .integer a, b => by cases b <;> simp [equal, withoutZeroSigns]
  | .float x, b => by cases b <;> simp [equal, withoutZeroSigns, Binary64.same_iff]
  | .string a, b => by cases b <;> simp [equal, withoutZeroSigns]
  | .sequence as, b => by cases b <;> simp [equal, withoutZeroSigns, equalItems_iff]
  | .mapping as, b => by cases b <;> simp [equal, withoutZeroSigns, equalEntries_iff]
termination_by structural a => a

theorem equalItems_iff : ∀ {as bs : List Value}, equalItems as bs = true ↔
    (∀ a ∈ as, a.NaNFree) ∧ (∀ b ∈ bs, b.NaNFree) ∧ itemsWithoutZeroSigns as = itemsWithoutZeroSigns bs
  | [], bs => by cases bs <;> simp [equalItems, itemsWithoutZeroSigns]
  | a :: as, [] => by simp [equalItems, itemsWithoutZeroSigns]
  | a :: as, b :: bs => by
    rw [equalItems, Bool.and_eq_true, equal_iff, equalItems_iff]
    simp only [itemsWithoutZeroSigns, List.forall_mem_cons, List.cons.injEq]
    tauto
termination_by structural as => as

theorem equalEntries_iff : ∀ {as bs : List (Value × Value)}, equalEntries as bs = true ↔
    (∀ e ∈ as, e.1.NaNFree ∧ e.2.NaNFree) ∧ (∀ e ∈ bs, e.1.NaNFree ∧ e.2.NaNFree) ∧
      entriesWithoutZeroSigns as = entriesWithoutZeroSigns bs
  | [], bs => by cases bs <;> simp [equalEntries, entriesWithoutZeroSigns]
  | (k, v) :: as, [] => by simp [equalEntries, entriesWithoutZeroSigns]
  | (k, v) :: as, (l, w) :: bs => by
    rw [equalEntries, Bool.and_eq_true, Bool.and_eq_true, equal_iff, equal_iff, equalEntries_iff]
    simp only [entriesWithoutZeroSigns, List.forall_mem_cons, List.cons.injEq, Prod.mk.injEq]
    tauto
termination_by structural as => as

end

instance : PartialEquivBEq Value where
  symm same := by
    obtain ⟨free, free', bare⟩ := equal_iff.mp same
    exact equal_iff.mpr ⟨free', free, bare.symm⟩
  trans first second := by
    obtain ⟨free, _, bare⟩ := equal_iff.mp first
    obtain ⟨_, free', bare'⟩ := equal_iff.mp second
    exact equal_iff.mpr ⟨free, free', bare.trans bare'⟩

theorem typeName_eq_of_beq {a b : Value} (same : (a == b) = true) : a.typeName = b.typeName := by
  rw [← typeName_withoutZeroSigns a, (equal_iff.mp same).2.2, typeName_withoutZeroSigns]

theorem shape_eq_of_beq {a b : Value} (same : (a == b) = true) : a.shape = b.shape := by
  rw [← shape_withoutZeroSigns a, (equal_iff.mp same).2.2, shape_withoutZeroSigns]

/-- Equality of values is symmetric and transitive, and it holds between a value and itself exactly if no number in it
    is NaN. Equal values are of one kind and of one shape; they are those without NaN that differ at most in the signs
    of zeros. -/
theorem beq_partial_equivalence :
    (∀ a b : Value, (a == b) = true → (b == a) = true) ∧
    (∀ a b c : Value, (a == b) = true → (b == c) = true → (a == c) = true) ∧
    (∀ a : Value, (a == a) = true ↔ a.NaNFree) ∧
    (∀ a b : Value, (a == b) = true → a.typeName = b.typeName ∧ a.shape = b.shape) ∧
    ∀ a b : Value, (a == b) = true ↔ a.NaNFree ∧ b.NaNFree ∧ a.withoutZeroSigns = b.withoutZeroSigns := by
  refine ⟨fun a b => BEq.symm, fun a b c => BEq.trans, fun a => ?_, fun a b same => ?_, fun a b => equal_iff⟩
  · rw [beq_eq_equal, equal_iff]
    exact ⟨fun same => same.1, fun free => ⟨free, free, rfl⟩⟩
  · exact ⟨typeName_eq_of_beq same, shape_eq_of_beq same⟩

/-- Keys may differ in the sign of a zero; a NaN in a key sets a mapping apart from itself. -/
theorem beq_partial_equivalence_keys :
    let plus := Value.mapping [(.sequence [.float .zero], .string "a")]
    let minus := Value.mapping [(.sequence [.float Binary64.zero.negate], .string "a")]
    let nan := Value.mapping [(.sequence [.float .nan], .string "a")]
    (plus == minus) = true ∧ (minus == plus) = true ∧ (plus == plus) = true ∧ plus.shape = minus.shape ∧
      ¬ nan.NaNFree := by
  intro plus minus nan
  obtain ⟨symm, trans, self, shape, _⟩ := beq_partial_equivalence
  have same : (plus == minus) = true := by decide
  have back : (minus == plus) = true := symm plus minus same
  refine ⟨same, back, trans plus minus plus same back, (shape plus minus same).2, fun free => ?_⟩
  have equal : (nan == nan) = true := (self nan).mpr free
  exact absurd equal (by decide)

end Value

end TypedConfig
