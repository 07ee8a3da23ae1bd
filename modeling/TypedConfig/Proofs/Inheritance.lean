import TypedConfig.Proofs.Extension

/-!
What a table is made by, call by call. An item that is declared stays, whatever is inherited later; of the parents
that have an identifier, the first one inherited from gives its item (`find?_built`). Inheriting puts the parent's
identifiers in front (`ids_inherit`), declaring replaces in place or adds at the end (`entries_declare`). Sections and
schemas are both built so (`sections_and_schemas_built_in_order`).
-/
namespace TypedConfig

namespace Declarations
variable {α π : Type}

/-! ### One call -/

theorem mem_ids_declare {d : Declarations α} {id other : String} {item : α} :
    other ∈ (d.declare id item).ids ↔ other = id ∨ other ∈ d.ids := mem_map_fst_put d.entries

/-- Under an identifier that a list of items has, an item is put in place of the one that stands there. -/
theorem put_of_mem {id : String} {entries : List (String × α)} (distinct : (entries.map Prod.fst).Nodup)
    (present : id ∈ entries.map Prod.fst) (item : α) :
    put id item entries = entries.map fun entry => if entry.1 = id then (id, item) else entry := by
  induction entries with
  | nil => cases present
  | cons entry entries ih =>
    obtain ⟨i, x⟩ := entry
    obtain ⟨fresh, distinct⟩ := List.nodup_cons.mp distinct
    rw [put, List.map_cons]
    by_cases here : i = id
    · subst here
      have others : ∀ entry ∈ entries, (if entry.1 = i then (i, item) else entry) = entry :=
        fun entry member => if_neg fun same => fresh (List.mem_map.mpr ⟨entry, member, same⟩)
      rw [if_pos rfl, if_pos rfl, List.map_congr_left others, List.map_id']
    · have later : id ∈ entries.map Prod.fst := (List.mem_cons.mp present).resolve_left (Ne.symm here)
      rw [if_neg here, if_neg here, ih distinct later]

/-- An item is declared in place of the one under its identifier, or else behind all others. -/
theorem entries_declare (d : Declarations α) (id : String) (item : α) :
    (d.declare id item).entries =
      if id ∈ d.ids then d.entries.map fun entry => if entry.1 = id then (id, item) else entry
      else d.entries ++ [(id, item)] := by
  by_cases present : id ∈ d.ids
  · rw [if_pos present]
    exact put_of_mem d.distinct present item
  · rw [if_neg present]
    exact put_of_not_mem present item

theorem ids_declare (d : Declarations α) (id : String) (item : α) :
    (d.declare id item).ids = if id ∈ d.ids then d.ids else d.ids ++ [id] := by
  have keep : (Prod.fst ∘ fun entry : String × α => if entry.1 = id then (id, item) else entry) = Prod.fst := by
    funext entry
    by_cases here : entry.1 = id <;> simp [here]
  rw [ids, entries_declare, apply_ite (List.map Prod.fst), List.map_map, keep, List.map_append]
  rfl

theorem find?_declare (d : Declarations α) (id other : String) (item : α) :
    (d.declare id item).find? other = if id = other then some item else d.find? other := by
  obtain ⟨entries, distinct⟩ := d
  change ((put id item entries).find? _).map _ = if id = other then some item else (entries.find? _).map _
  clear distinct
  induction entries with
  | nil => by_cases same : id = other <;> simp [put, same]
  | cons entry entries ih =>
    obtain ⟨i, x⟩ := entry
    by_cases here : i = id
    · subst here
      by_cases same : i = other <;> simp [put, same]
    · rw [put, if_neg here]
      by_cases asked : i = other
      · have different : ¬ id = other := fun same => here (asked.trans same.symm)
        simp [asked, different]
      · simpa [asked] using ih

/-- Items are found as they were declared, others as they were before. -/
theorem find?_declareAll (items : List (String × α)) (id : String) :
    ∀ d : Declarations α, (items.map Prod.fst).Nodup →
      (d.declareAll items).find? id =
        ((items.find? fun entry => entry.1 == id).map Prod.snd).or (d.find? id) := by
  induction items with
  | nil => intro d _; rfl
  | cons item items ih =>
    intro d distinct
    obtain ⟨i, x⟩ := item
    obtain ⟨fresh, distinct⟩ := List.nodup_cons.mp distinct
    change ((d.declare i x).declareAll items).find? id = _
    rw [ih _ distinct, find?_declare]
    by_cases here : i = id
    · subst here
      have absent : items.find? (fun entry => entry.1 == i) = none :=
        List.find?_eq_none.mpr fun entry member same =>
          fresh (List.mem_map.mpr ⟨entry, member, beq_iff_eq.mp same⟩)
      simp [absent]
    · simp [here]

theorem ids_declareAll (items : List (String × α)) :
    ∀ d : Declarations α, (items.map Prod.fst).Nodup →
      (d.declareAll items).ids = d.ids ++ (items.map Prod.fst).filter fun id => id ∉ d.ids := by
  induction items with
  | nil => intro d _; exact (List.append_nil _).symm
  | cons item items ih =>
    intro d distinct
    obtain ⟨i, x⟩ := item
    obtain ⟨fresh, distinct⟩ := List.nodup_cons.mp distinct
    change ((d.declare i x).declareAll items).ids = _
    rw [ih _ distinct, ids_declare]
    by_cases there : i ∈ d.ids
    · simp [there]
    · -- The identifier that was added is none of those to come.
      have same : ∀ id ∈ items.map Prod.fst, decide (id ∉ d.ids ++ [i]) = decide (id ∉ d.ids) := by
        intro id member
        have other : id ≠ i := fun equal => fresh (equal ▸ member)
        simp [other]
      rw [if_neg there, List.filter_congr same, List.append_assoc, List.map_cons,
        List.filter_cons_of_pos (by simpa using there)]
      rfl

/-- What a table has itself wins over what it inherits. -/
theorem find?_inherit (d parent : Declarations α) (id : String) :
    (d.inherit parent).find? id = (d.find? id).or (parent.find? id) :=
  find?_declareAll d.entries id parent d.distinct

/-- The parent's identifiers come first, and then the others in the order that they had. -/
theorem ids_inherit (d parent : Declarations α) :
    (d.inherit parent).ids = parent.ids ++ d.ids.filter fun id => id ∉ parent.ids :=
  ids_declareAll d.entries parent d.distinct

/-! ### Calls in a row -/

/-- A call on a table that is being built: to declare an item, or to inherit from a parent. -/
inductive Call (α π : Type) where
  | declare (id : String) (item : α)
  | extend (parent : π)

namespace Call

/-- The item that a call declares under an identifier. -/
def declared? (id : String) : Call α π → Option α
  | .declare i item => if i = id then some item else none
  | .extend _ => none

/-- The item that the parent of a call has under an identifier. -/
def inherited? (table : π → Declarations α) (id : String) : Call α π → Option α
  | .declare _ _ => none
  | .extend parent => (table parent).find? id

end Call

/-- The table after a call. Parents are known by their tables. -/
def after (table : π → Declarations α) (d : Declarations α) : Call α π → Declarations α
  | .declare id item => d.declare id item
  | .extend parent => d.inherit (table parent)

/-- The table that calls come to, if there was nothing before. -/
def built (table : π → Declarations α) (calls : List (Call α π)) : Declarations α :=
  calls.foldl (after table) empty

theorem built_append (table : π → Declarations α) (calls : List (Call α π)) (call : Call α π) :
    built table (calls ++ [call]) = after table (built table calls) call := List.foldl_append

/-- Under an identifier is what was declared last, before or after any parent, or else what the first parent that
    has the identifier has. -/
theorem find?_built (table : π → Declarations α) (calls : List (Call α π)) (id : String) :
    (built table calls).find? id =
      (calls.reverse.findSome? (Call.declared? id)).or (calls.findSome? (Call.inherited? table id)) := by
  induction calls using List.reverseRecOn with
  | nil => rfl
  | append_singleton calls call ih =>
    rw [built_append, List.reverse_append, List.reverse_singleton, List.singleton_append, List.findSome?_cons,
      List.findSome?_append, List.findSome?_singleton]
    cases call with
    | declare i item =>
      change ((built table calls).declare i item).find? id = _
      rw [find?_declare, ih]
      by_cases here : i = id <;> simp [Call.declared?, Call.inherited?, here]
    | extend parent =>
      change ((built table calls).inherit (table parent)).find? id = _
      rw [find?_inherit, ih, Option.or_assoc]
      rfl

/-- Every identifier that was declared or inherited is there, and no other. -/
theorem mem_ids_built (table : π → Declarations α) (calls : List (Call α π)) (id : String) :
    id ∈ (built table calls).ids ↔
      (∃ item, .declare id item ∈ calls) ∨ ∃ parent, .extend parent ∈ calls ∧ id ∈ (table parent).ids := by
  induction calls using List.reverseRecOn with
  | nil => simp [built, ids, empty]
  | append_singleton calls call ih =>
    rw [built_append]
    cases call with
    | declare i item =>
      rw [after, mem_ids_declare, ih]
      simp only [List.mem_append, List.mem_singleton, Call.declare.injEq, reduceCtorEq, or_false]
      grind
    | extend parent =>
      rw [after, ids_inherit, List.mem_append, List.mem_filter, ih]
      simp only [List.mem_append, List.mem_singleton, Call.extend.injEq, reduceCtorEq, or_false]
      grind

/-- Tables that are built by calls: which identifiers they have and in which order, and which item stands under
    each of them. -/
structure BuiltInOrder (table : π → Declarations α) (build : List (Call α π) → Declarations α) : Prop where
  distinct : ∀ calls, (build calls).ids.Nodup
  ids : ∀ calls id, id ∈ (build calls).ids ↔
    (∃ item, .declare id item ∈ calls) ∨ ∃ parent, .extend parent ∈ calls ∧ id ∈ (table parent).ids
  item : ∀ calls id, (build calls).find? id =
    (calls.reverse.findSome? (Call.declared? id)).or (calls.findSome? (Call.inherited? table id))
  extend : ∀ calls parent, (build (calls ++ [.extend parent])).ids =
    (table parent).ids ++ (build calls).ids.filter fun id => id ∉ (table parent).ids
  declare : ∀ calls id item, (build (calls ++ [.declare id item])).entries =
    if id ∈ (build calls).ids then
      (build calls).entries.map fun entry => if entry.1 = id then (id, item) else entry
    else (build calls).entries ++ [(id, item)]

theorem builtInOrder (table : π → Declarations α) : BuiltInOrder table (built table) where
  distinct calls := (built table calls).distinct
  ids := mem_ids_built table
  item := find?_built table
  extend calls parent := by
    rw [built_append]
    exact ids_inherit _ _
  declare calls id item := by
    rw [built_append]
    exact entries_declare _ _ _

end Declarations

open Declarations (Call)

/-! ### Sections and schemas -/

/-- The section after a call. -/
def Section.after (s : Section) : Call Key Section → Section
  | .declare id key => s.declare id key
  | .extend parent => s.extend parent

/-- The section of a name that calls come to. -/
def Section.built (name : String) (calls : List (Call Key Section)) : Section := calls.foldl after (empty name)

/-- The schema after a call. -/
def Schema.after (s : Schema) : Call Section Schema → Schema
  | .declare id sectionSchema => s.declare id sectionSchema
  | .extend parent => s.extend parent

/-- The schema that calls come to. -/
def Schema.built (calls : List (Call Section Schema)) : Schema := calls.foldl after empty

theorem Section.keys_built (name : String) (calls : List (Call Key Section)) :
    (Section.built name calls).keys = Declarations.built Section.keys calls := by
  refine (List.foldl_hom Section.keys fun s call => ?_).symm
  cases call <;> rfl

theorem Schema.slots_built (calls : List (Call Section Schema)) :
    (Schema.built calls).slots = Declarations.built Schema.slots calls := by
  refine (List.foldl_hom Schema.slots fun s call => ?_).symm
  cases call <;> rfl

/-- Whatever calls build a section or a schema, in whatever order: identifiers are distinct, and are those that were
    declared or inherited; an item that was declared last, before or after any parent, wins over inherited ones, and
    the first parent wins over later ones; each parent's identifiers come to the front, and declaring again keeps the
    place. -/
theorem sections_and_schemas_built_in_order (name : String) :
    Declarations.BuiltInOrder Section.keys (fun calls => (Section.built name calls).keys) ∧
      Declarations.BuiltInOrder Schema.slots fun calls => (Schema.built calls).slots := by
  simp only [Section.keys_built, Schema.slots_built]
  exact ⟨Declarations.builtInOrder Section.keys, Declarations.builtInOrder Schema.slots⟩

end TypedConfig
