import TypedConfig.Proofs.Agreement

/-!
Composing every entry of a document's selection. It succeeds exactly if each entry names data
that the document has, and then gives that data under the keys of the selection. Otherwise
the failure is that of the first entry at fault, and what stands behind it plays no part
(`compose_iff_complete`).
-/
namespace TypedConfig.Composition
open Mapping (Distinct)

/-- A document that is a mapping with a selection under a name. -/
def Selects (data : Value) (name : String) (root selection : Mapping) : Prop :=
  data = .mapping root ∧ root.get? name = some (.mapping selection)

/-- An entry of a selection gives a section a label, and the document has data for the two. -/
def Names (root : Mapping) (separator : String) (entry pair : Value × Value) : Prop :=
  ∃ sectionName label found, entry = (.string sectionName, .string label) ∧
    root.get? (sectionName ++ separator ++ label) = some found ∧ pair = (.string sectionName, found)

/-- What is missing where an entry of a selection names no data. -/
inductive Fault (root : Mapping) (name separator : String) : Value × Value → String → Prop
  | unreadable {key label : Value} (noText : key.string? = none ∨ label.string? = none) :
      Fault root name separator (key, label) (name ++ "[" ++ key.literal ++ "]")
  | dangling {sectionName label : String} (absent : root.get? (sectionName ++ separator ++ label) = none) :
      Fault root name separator (.string sectionName, .string label) (sectionName ++ separator ++ label)

/-! ### Entries -/

theorem sectionData_eq_error_iff {root : Mapping} {sectionName separator label : String} {failure : Failure} :
    sectionData (.mapping root) sectionName separator label = .error failure ↔
      root.get? (sectionName ++ separator ++ label) = none ∧
        failure = .missingEntry (sectionName ++ separator ++ label) := by
  unfold sectionData entryName
  simp only [Value.mapping?, Option.bind_some]
  cases root.get? (sectionName ++ separator ++ label) <;> simp [eq_comm]

theorem resolve_iff_names {root : Mapping} {name separator : String} {entry pair : Value × Value} :
    resolve (.mapping root) name separator entry = .ok pair ↔ Names root separator entry pair := by
  obtain ⟨k, v⟩ := pair
  simp only [resolve_eq_ok_iff, sectionData_eq_ok_iff]
  constructor
  · rintro ⟨sectionName, label, named, rfl, found⟩
    exact ⟨sectionName, label, v, named, found, rfl⟩
  · rintro ⟨sectionName, label, found, named, there, same⟩
    cases same
    exact ⟨sectionName, label, named, rfl, there⟩

theorem resolve_iff_fault {root : Mapping} {name separator : String} {entry : Value × Value} {failure : Failure} :
    resolve (.mapping root) name separator entry = .error failure ↔
      ∃ missing, Fault root name separator entry missing ∧ failure = .missingEntry missing := by
  obtain ⟨key, label⟩ := entry
  constructor
  · intro fails
    unfold resolve at fails
    split at fails
    · next sectionName text named labelled =>
      obtain rfl := Value.string?_eq_some_iff.mp named
      obtain rfl := Value.string?_eq_some_iff.mp labelled
      cases there : sectionData (.mapping root) sectionName separator text with
      | ok found => rw [there] at fails; cases fails
      | error other =>
        rw [there] at fails
        cases fails
        obtain ⟨absent, rfl⟩ := sectionData_eq_error_iff.mp there
        exact ⟨_, .dangling absent, rfl⟩
    · next noText =>
      cases fails
      refine ⟨_, .unreadable ?_, rfl⟩
      cases keyText : key.string? with
      | none => exact .inl rfl
      | some sectionName =>
        cases labelText : label.string? with
        | none => exact .inr rfl
        | some text => exact absurd labelText (noText sectionName text keyText)
  · rintro ⟨missing, fault, rfl⟩
    cases fault with
    | unreadable noText =>
      unfold resolve
      rcases noText with key | label
      · simp [key]
      · cases key.string? <;> simp [label]
    | dangling absent =>
      have fails := sectionData_eq_error_iff.mpr ⟨absent, rfl⟩
      simp only [resolve, Value.string?, fails, Except.map]

/-! ### Selections -/

theorem selection_iff_selects {data : Value} {name : String} {selection : Mapping} :
    Composition.selection data name = .ok selection ↔ ∃ root, Selects data name root selection := selection_eq_ok_iff

theorem Selects.unique {data : Value} {name : String} {root other selection another : Mapping}
    (one : Selects data name root selection) (two : Selects data name other another) :
    root = other ∧ selection = another := by
  obtain ⟨rfl, found⟩ := one
  obtain ⟨same, also⟩ := two
  cases same
  cases found.symm.trans also
  exact ⟨rfl, rfl⟩

/-- With a selection, composing is naming the data of its entries, one by one. -/
theorem compose_of_selects {data : Value} {variant separator : String} {root selection : Mapping}
    (selects : Selects data ("compose" ++ separator ++ variant) root selection) :
    compose data variant separator =
      (selection.mapM (resolve (.mapping root) ("compose" ++ separator ++ variant) separator)).map Mapping.ofPairs := by
  have selected := selection_iff_selects.mpr ⟨root, selects⟩
  obtain ⟨rfl, _⟩ := selects
  exact compose_of_selection selected

/-- Without a selection, composing fails for lack of it. -/
theorem compose_of_no_selection {data : Value} {variant separator : String}
    (none : ¬ ∃ root selection, Selects data ("compose" ++ separator ++ variant) root selection) :
    compose data variant separator = .error (.missingEntry ("compose" ++ separator ++ variant)) := by
  have fails : Composition.selection data (selectionName variant separator) =
      .error (.missingEntry (selectionName variant separator)) := by
    cases selected : Composition.selection data (selectionName variant separator) with
    | ok selection =>
      obtain ⟨root, selects⟩ := selection_iff_selects.mp selected
      exact absurd ⟨root, selection, selects⟩ none
    | error failure =>
      unfold Composition.selection at selected
      split at selected
      · cases selected
      · exact selected.symm
  simp only [compose, fails]
  rfl

theorem exists_compose_iff {data : Value} {variant separator : String} :
    (∃ m, compose data variant separator = .ok m) ↔
      ∃ root selection, Selects data ("compose" ++ separator ++ variant) root selection ∧
        ∀ entry ∈ selection, ∃ pair, Names root separator entry pair := by
  have complete : ∀ {root selection}, Selects data ("compose" ++ separator ++ variant) root selection →
      ((∃ m, compose data variant separator = .ok m) ↔ ∀ entry ∈ selection, ∃ pair, Names root separator entry pair) := by
    intro root selection selects
    simp only [compose_of_selects selects, exists_map_iff, exists_mapM_iff, resolve_iff_names]
  constructor
  · intro succeeds
    by_cases there : ∃ root selection, Selects data ("compose" ++ separator ++ variant) root selection
    · obtain ⟨root, selection, selects⟩ := there
      exact ⟨root, selection, selects, (complete selects).mp succeeds⟩
    · rw [compose_of_no_selection there] at succeeds
      obtain ⟨m, composes⟩ := succeeds
      cases composes
  · rintro ⟨root, selection, selects, each⟩
    exact (complete selects).mpr each

/-- The entry at fault is the first that names no data. -/
theorem compose_fails_iff {data : Value} {variant separator : String} {root selection : Mapping} {failure : Failure}
    (selects : Selects data ("compose" ++ separator ++ variant) root selection) :
    compose data variant separator = .error failure ↔ ∃ before entry after missing,
      selection = before ++ entry :: after ∧ (∀ earlier ∈ before, ∃ pair, Names root separator earlier pair) ∧
      Fault root ("compose" ++ separator ++ variant) separator entry missing ∧ failure = .missingEntry missing := by
  simp only [compose_of_selects selects, map_eq_error_iff, mapM_eq_error_iff, resolve_iff_names, resolve_iff_fault,
    exists_and_left]

theorem compose_eq_error_iff {data : Value} {variant separator : String} {failure : Failure} :
    compose data variant separator = .error failure ↔
      ((¬ ∃ root selection, Selects data ("compose" ++ separator ++ variant) root selection) ∧
        failure = .missingEntry ("compose" ++ separator ++ variant)) ∨
      ∃ root before entry after missing,
        Selects data ("compose" ++ separator ++ variant) root (before ++ entry :: after) ∧
        (∀ earlier ∈ before, ∃ pair, Names root separator earlier pair) ∧
        Fault root ("compose" ++ separator ++ variant) separator entry missing ∧ failure = .missingEntry missing := by
  by_cases there : ∃ root selection, Selects data ("compose" ++ separator ++ variant) root selection
  · obtain ⟨root, selection, selects⟩ := there
    rw [compose_fails_iff selects]
    constructor
    · rintro ⟨before, entry, after, missing, rfl, fault⟩
      exact .inr ⟨root, before, entry, after, missing, selects, fault⟩
    · rintro (⟨none, _⟩ | ⟨other, before, entry, after, missing, also, fault⟩)
      · exact absurd ⟨root, selection, selects⟩ none
      · obtain ⟨rfl, rfl⟩ := selects.unique also
        exact ⟨before, entry, after, missing, rfl, fault⟩
  · rw [compose_of_no_selection there]
    constructor
    · intro failed
      exact .inl ⟨there, (Except.error.inj failed).symm⟩
    · rintro (⟨_, rfl⟩ | ⟨root, before, entry, after, _, selects, _⟩)
      · rfl
      · exact absurd ⟨root, _, selects⟩ there

theorem keys_of_names {root selection m : Mapping} {separator : String}
    (named : List.Forall₂ (Names root separator) selection m) : m.keys = selection.keys := by
  refine keys_of_forall₂ Prod.fst ?_ named
  rintro _ _ ⟨sectionName, label, found, rfl, _, rfl⟩
  rfl

/-- What the keys of a selection without equal keys are bound to. -/
theorem get?_of_names {root selection m : Mapping} {separator sectionName label : String}
    (named : List.Forall₂ (Names root separator) selection m) (distinct : Distinct selection)
    (member : (.string sectionName, .string label) ∈ selection) :
    m.get? sectionName = root.get? (sectionName ++ separator ++ label) := by
  have distinctKeys : Distinct m := by
    unfold Distinct
    rw [keys_of_names named]
    exact distinct
  obtain ⟨_, there, _, _, found, same, held, rfl⟩ := exists_of_mem_left named member
  cases same
  rw [Mapping.get?_of_mem distinctKeys there, held]

/-- Composing succeeds exactly if the document has a selection and each entry of it names data. If no two keys of the
    selection are equal, the result has its keys in their order, each bound to the data that its entry names. Otherwise
    the failure is the lack of a selection, or else that of the first entry at fault, whatever stands behind it. -/
theorem compose_iff_complete (data : Value) (variant separator : String) :
    let name := "compose" ++ separator ++ variant
    ((∃ m, compose data variant separator = .ok m) ↔ ∃ root selection, Selects data name root selection ∧
      ∀ entry ∈ selection, ∃ pair, Names root separator entry pair) ∧
    (∀ m root selection, compose data variant separator = .ok m → Selects data name root selection →
      Distinct selection →
      m.keys = selection.keys ∧ List.Forall₂ (Names root separator) selection m ∧
      ∀ sectionName label, (.string sectionName, .string label) ∈ selection →
        m.get? sectionName = root.get? (sectionName ++ separator ++ label)) ∧
    ∀ failure, compose data variant separator = .error failure ↔
      ((¬ ∃ root selection, Selects data name root selection) ∧ failure = .missingEntry name) ∨
      ∃ root before entry after missing, Selects data name root (before ++ entry :: after) ∧
        (∀ earlier ∈ before, ∃ pair, Names root separator earlier pair) ∧
        Fault root name separator entry missing ∧ failure = .missingEntry missing := by
  intro name
  refine ⟨exists_compose_iff, ?_, fun failure => compose_eq_error_iff⟩
  intro m root selection composes selects distinct
  have resolved := resolved_of_compose (selection_iff_selects.mpr ⟨root, selects⟩) distinct composes
  obtain ⟨rfl, _⟩ := id selects
  have named : List.Forall₂ (Names root separator) selection m := resolved.imp fun _ _ => resolve_iff_names.mp
  exact ⟨keys_of_names named, named, fun sectionName label => get?_of_names named distinct⟩

/-- A selection that composes in its own order, and one whose second entry has no text for a key, with an entry behind it
    that names no data either. -/
theorem compose_iff_complete_order :
    let nan : Value := .float .nan
    let complete : Mapping := [(.string "b", .string "1"), (.string "a", .string "1")]
    let faulty : Mapping := [(.string "b", .string "1"), (nan, .string "1"), (.string "a", .string "2")]
    let root (selection : Mapping) : Mapping :=
      [(.string "a_1", .null), (.string "compose_x", .mapping selection), (.string "b_1", .mapping [])]
    (∃ m, compose (.mapping (root complete)) "x" "_" = .ok m ∧ Distinct complete ∧
      m.keys = [.string "b", .string "a"] ∧ m.get? "a" = some .null ∧ m.get? "b" = some (.mapping [])) ∧
    Fault (root faulty) "compose_x" "_" (nan, .string "1") "compose_x[NaN]" ∧
    compose (.mapping (root faulty)) "x" "_" = .error (.missingEntry "compose_x[NaN]") := by
  intro nan complete faulty root
  obtain ⟨succeeds, binds, _⟩ := compose_iff_complete (.mapping (root complete)) "x" "_"
  obtain ⟨_, _, fails⟩ := compose_iff_complete (.mapping (root faulty)) "x" "_"
  have selects : ∀ selection, Selects (.mapping (root selection)) "compose_x" (root selection) selection :=
    fun _ => ⟨rfl, rfl⟩
  have first : ∀ selection, Names (root selection) "_" (.string "b", .string "1") (.string "b", .mapping []) :=
    fun _ => ⟨"b", "1", .mapping [], rfl, rfl, rfl⟩
  have second : Names (root complete) "_" (.string "a", .string "1") (.string "a", .null) :=
    ⟨"a", "1", .null, rfl, rfl, rfl⟩
  have distinct : Distinct complete :=
    List.pairwise_cons.mpr ⟨List.forall_mem_singleton.mpr rfl, List.pairwise_singleton _ _⟩
  have fault : Fault (root faulty) "compose_x" "_" (nan, .string "1") "compose_x[NaN]" := .unreadable (.inl rfl)
  obtain ⟨m, composes⟩ := succeeds.mpr ⟨root complete, complete, selects complete,
    List.forall_mem_cons.mpr ⟨⟨_, first complete⟩, List.forall_mem_singleton.mpr ⟨_, second⟩⟩⟩
  obtain ⟨keys, _, bound⟩ := binds m _ _ composes (selects complete) distinct
  refine ⟨⟨m, composes, distinct, keys, ?_, ?_⟩, fault, ?_⟩
  · exact bound "a" "1" (List.mem_cons_of_mem _ List.mem_cons_self)
  · exact bound "b" "1" List.mem_cons_self
  · exact (fails _).mpr (.inr ⟨root faulty, [(.string "b", .string "1")], _, _, _, selects faulty,
      List.forall_mem_singleton.mpr ⟨_, first faulty⟩, fault, rfl⟩)

end TypedConfig.Composition
