import Mathlib.Data.List.Forall2
import TypedConfig.Schema.Basic
import TypedConfig.Value.Event

/-!
What lookups answer: by string keys in mappings, after values were stored there
(`get?_insert`), and by identifiers in tables that hold one item for each
declaration (`find?_of_forall₂`).
-/
namespace TypedConfig

/-! ### Mappings -/

theorem Value.mapping?_eq_some_iff {v : Value} {es : Mapping} : v.mapping? = some es ↔ v = .mapping es := by
  cases v <;> simp [Value.mapping?]

theorem Value.string?_eq_some_iff {v : Value} {s : String} : v.string? = some s ↔ v = .string s := by
  cases v <;> simp [Value.string?]

/-- Only a string equals a string. -/
theorem Value.beq_string_iff {v : Value} {s : String} : (v == .string s) = true ↔ v.string? = some s := by
  cases v <;> simp [Value.beq_eq_equal, Value.equal, Value.string?]

namespace Mapping

theorem standsForWhole_iff {m : Mapping} {key : Value} :
    m.standsForWhole key = true ↔ m = [] ∧ key = .string dateTimeMark := by
  simp [standsForWhole, Value.string?_eq_some_iff]

theorem get?_cons (k v : Value) (m : Mapping) (name : String) :
    get? ((k, v) :: m) name = if k.string? = some name then some v else get? m name := by
  by_cases same : k.string? = some name
  · simp [get?, same]
  · have other : (k.string? == some name) = false := by simpa using same
    simp [get?, same, other]

theorem insert_nil (k v : Value) : insert [] k v = [(k, v)] := rfl

theorem insert_cons (k l v w : Value) (m : Mapping) :
    insert ((k, v) :: m) l w = if k == l then (k, w) :: m else (k, v) :: insert m l w := by
  by_cases same : (k == l) = true
  · simp [insert, exchange, same]
  · simp [insert, exchange, same]

/-- A stored value is found under its name; other names are not affected. -/
theorem get?_insert (m : Mapping) (name other : String) (v : Value) :
    (m.insert (.string name) v).get? other = if other = name then some v else m.get? other := by
  induction m with
  | nil =>
    rw [insert_nil, get?_cons]
    simp [Value.string?, get?, eq_comm]
  | cons e m ih =>
    obtain ⟨k, w⟩ := e
    rw [insert_cons]
    by_cases same : (k == .string name) = true
    · have named := Value.beq_string_iff.mp same
      rw [if_pos same, get?_cons, get?_cons, named]
      by_cases asked : other = name
      · simp [asked]
      · simp [asked, Ne.symm asked]
    · rw [if_neg same, get?_cons, ih, get?_cons]
      by_cases here : k.string? = some other
      · have different : other ≠ name := fun equal => same (Value.beq_string_iff.mpr (equal ▸ here))
        simp [here, different]
      · simp [here]

end Mapping

/-! ### Tables -/

section
variable {α β : Type}

/-- In a table with one item for each declaration, the identifier of a declaration
    leads to its item. -/
theorem find?_of_forall₂ {R : α → β → Prop} {declared : List (String × α)} {items : List (String × β)}
    (related : List.Forall₂ (fun d i => i.1 = d.1 ∧ R d.2 i.2) declared items)
    (distinct : (declared.map Prod.fst).Nodup) {id : String} {a : α} (member : (id, a) ∈ declared) :
    ∃ b, items.find? (fun item => item.1 == id) = some (id, b) ∧ R a b := by
  induction related with
  | nil => cases member
  | @cons d i ds is here _ ih =>
    obtain ⟨fresh, distinct⟩ := List.nodup_cons.mp distinct
    obtain ⟨j, b⟩ := i
    obtain ⟨sameId, holds⟩ := here
    rcases List.mem_cons.mp member with same | later
    · subst same
      obtain rfl : j = id := sameId
      exact ⟨b, by simp, holds⟩
    · obtain ⟨c, found, relates⟩ := ih distinct later
      have different : ¬ j = id := by
        intro same
        apply fresh
        exact List.mem_map.mpr ⟨(id, a), later, same.symm.trans sameId⟩
      exact ⟨c, by simp [different, found], relates⟩

end

end TypedConfig
