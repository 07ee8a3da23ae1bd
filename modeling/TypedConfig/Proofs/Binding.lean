import TypedConfig.Proofs.ReadSurface
import TypedConfig.Proofs.Validity
import TypedConfig.Sample.Schemas

/-!
What initializing a configuration binds. Composing gathers the data that the
selection assigns to each section (`composeDeclared_of_assigned`), and valid data
supplies every slot, so data that validates always binds and reads back the selected
values (`init_binds_iff_valid`).
-/
namespace TypedConfig

/-! ### Composed data -/

namespace Composition

/-- The data that a selection assigns to the sections of a name. -/
def assigned? (root selection : Mapping) (separator name : String) : Option Value :=
  ((selection.get? name).bind Value.string?).bind fun label => root.get? (entryName name separator label)

theorem assigned?_of_labelled {root selection : Mapping} {separator name label : String} {data : Value}
    (labelled : selection.get? name = some (.string label))
    (held : root.get? (name ++ separator ++ label) = some data) :
    assigned? root selection separator name = some data := by
  simp [assigned?, labelled, Value.string?, entryName, held]

theorem selection_mapping {root selection : Mapping} {name : String}
    (there : root.get? name = some (.mapping selection)) :
    Composition.selection (.mapping root) name = .ok selection := by
  simp [Composition.selection, Value.mapping?, there]

theorem sectionData_eq_ok_iff {root : Mapping} {sectionName separator label : String} {found : Value} :
    sectionData (.mapping root) sectionName separator label = .ok found ↔
      root.get? (sectionName ++ separator ++ label) = some found := by
  unfold sectionData entryName
  simp only [Value.mapping?, Option.bind_some]
  cases root.get? (sectionName ++ separator ++ label) <;> simp

/-- Sections that all have data assigned are gathered over what there was. Sections of
    one name have the same data, so gathering it again changes nothing. -/
theorem gatherDeclared_of_assigned {root selection : Mapping} {separator : String} (name : String)
    {sections : List Section} (all : ∀ s ∈ sections, ∃ data, assigned? root selection separator s.name = some data) :
    ∀ composed, ∃ after, gatherDeclared (.mapping root) name separator selection composed sections = .ok after ∧
      ∀ n, after.get? n =
        if n ∈ sections.map Section.name then assigned? root selection separator n else composed.get? n := by
  induction sections with
  | nil => intro composed; exact ⟨composed, rfl, by simp⟩
  | cons s sections ih =>
    intro composed
    obtain ⟨data, here⟩ := all s List.mem_cons_self
    obtain ⟨after, run, reads⟩ := ih (fun t member => all t (List.mem_cons_of_mem s member))
      (composed.insert (.string s.name) data)
    obtain ⟨label, labelled, there⟩ := Option.bind_eq_some_iff.mp here
    refine ⟨after, ?_, ?_⟩
    · rw [gatherDeclared, labelled]
      dsimp only
      rw [sectionData_eq_ok_iff.mpr there]
      exact run
    · intro n
      rw [reads, Mapping.get?_insert]
      by_cases later : n ∈ sections.map Section.name
      · simp [later]
      · by_cases same : n = s.name
        · subst same
          simp [later, here]
        · simp [later, same]

/-- When every section of a schema has data assigned, composing gives each of them
    just that. -/
theorem composeDeclared_of_assigned {schema : Schema} {root selection : Mapping} {variant separator : String}
    (selected : root.get? (selectionName variant separator) = some (.mapping selection))
    (all : ∀ s ∈ schema.sections, ∃ data, assigned? root selection separator s.name = some data) :
    ∃ composed, composeDeclared schema (.mapping root) variant separator = .ok composed ∧
      ∀ s ∈ schema.sections, composed.get? s.name = assigned? root selection separator s.name := by
  obtain ⟨composed, run, reads⟩ := gatherDeclared_of_assigned (selectionName variant separator) all []
  refine ⟨composed, ?_, ?_⟩
  · simp only [composeDeclared, selection_mapping selected]
    exact run
  · intro s member
    rw [reads, if_pos (List.mem_map_of_mem member)]

end Composition

namespace Config

/-! ### Initialization -/

/-- Valid data composes, and each section gets the entries that the selection assigns to it. -/
theorem composeDeclared_of_valid {schema : Schema} {root selection : Mapping} {variant separator : String}
    (selected : root.get? (selectionName variant separator) = some (.mapping selection))
    (each : ∀ s ∈ schema.sections, ∃ label entries,
      selection.get? s.name = some (.string label) ∧
      root.get? (s.name ++ separator ++ label) = some (.mapping entries) ∧ Validation.Complete s entries) :
    ∃ composed, Composition.composeDeclared schema (.mapping root) variant separator = .ok composed ∧
      ∀ s ∈ schema.sections, ∃ label entries,
        selection.get? s.name = some (.string label) ∧
        root.get? (s.name ++ separator ++ label) = some (.mapping entries) ∧
        composed.get? s.name = some (.mapping entries) ∧ Validation.Complete s entries := by
  have assigned : ∀ s ∈ schema.sections, ∃ data,
      Composition.assigned? root selection separator s.name = some data := by
    intro s member
    obtain ⟨label, entries, labelled, held, _⟩ := each s member
    exact ⟨.mapping entries, Composition.assigned?_of_labelled labelled held⟩
  obtain ⟨composed, composes, reads⟩ := Composition.composeDeclared_of_assigned selected assigned
  refine ⟨composed, composes, fun s member => ?_⟩
  obtain ⟨label, entries, labelled, held, complete⟩ := each s member
  refine ⟨label, entries, labelled, held, ?_, complete⟩
  rw [reads s member, Composition.assigned?_of_labelled labelled held]

/-- Valid data binds, and each key of each slot reads the value that the selection
    assigns to it. -/
theorem init_of_valid {schema : Schema} {data : Value} {variant separator : String}
    (valid : Validation.Valid schema data variant separator) :
    ∃ values, ((ofSchema schema).init data variant separator).result = .ok ⟨schema, some values⟩ ∧
      ∃ root selection, data = .mapping root ∧
        Mapping.get? root ("compose" ++ separator ++ variant) = some (.mapping selection) ∧
        ∀ slot ∈ schema.slots.entries, ∃ label entries,
          Mapping.get? selection slot.2.name = some (.string label) ∧
          Mapping.get? root (slot.2.name ++ separator ++ label) = some (.mapping entries) ∧
          ∀ key ∈ slot.2.keys.entries, ∃ v, Mapping.get? entries key.2.name = some v ∧
            (Config.mk schema (some values)).get slot.1 key.1 = .ok v ∧ Conformance.Conforms v key.2.type := by
  have clean := Validation.clean_of_valid valid
  obtain ⟨root, selection, rfl, selected, each⟩ := valid
  obtain ⟨composed, composes, gathered⟩ := composeDeclared_of_valid selected each
  have inSections : ∀ slot ∈ schema.slots.entries, slot.2 ∈ schema.sections :=
    fun slot member => List.mem_map_of_mem member
  have supplied : ∀ slot ∈ schema.slots.entries, Supplies composed slot.2 := by
    intro slot member
    obtain ⟨_, entries, _, _, there, complete⟩ := gathered slot.2 (inSections slot member)
    refine ⟨entries, there, fun key has => ?_⟩
    obtain ⟨v, found, _⟩ := complete key.2 (List.mem_map_of_mem has)
    simp [Mapping.containsKey, found]
  obtain ⟨values, built⟩ := exists_bindings_iff.mpr supplied
  refine ⟨values, ?_, root, selection, rfl, selected, ?_⟩
  · rw [init_ofSchema, if_pos clean, composes]
    change (bindings composed schema.slots.entries).map _ = _
    rw [built]
    rfl
  · intro slot member
    obtain ⟨label, entries, labelled, held, there, complete⟩ := gathered slot.2 (inSections slot member)
    refine ⟨label, entries, labelled, held, fun key has => ?_⟩
    obtain ⟨data, v, inComposed, found, read⟩ := get_of_bindings built member has
    obtain rfl : entries = data := by simpa using there.symm.trans inComposed
    obtain ⟨w, again, conforms⟩ := complete key.2 (List.mem_map_of_mem has)
    obtain rfl : v = w := Option.some.inj (found.symm.trans again)
    exact ⟨v, found, read, conforms⟩

theorem init_of_violations {schema : Schema} {data : Value} {variant separator : String}
    (dirty : Validation.violations schema data variant separator ≠ []) :
    ((ofSchema schema).init data variant separator).result =
      .error (.invalid (Validation.violations schema data variant separator)) := by
  rw [init_ofSchema, if_neg dirty]

/-- On a configuration that is not bound, data without violations binds, and each key
    reads the conforming value that the selection assigns to it; other data fails with
    its violations and binds nothing. -/
theorem init_binds_iff_valid (schema : Schema) (data : Value) (variant separator : String) :
    let found := Validation.violations schema data variant separator
    let run := (ofSchema schema).init data variant separator
    ((∃ after, run.result = .ok after) ↔ found = []) ∧
    (found ≠ [] → run.result = .error (.invalid found) ∧
      (ofSchema schema).submit (.init data variant separator) = (.error (.invalid found), ofSchema schema)) ∧
    (∀ entry, run.result ≠ .error (.missingEntry entry)) ∧
    ∀ after, run.result = .ok after →
      (ofSchema schema).submit (.init data variant separator) = (.ok (), after) ∧ after.isInitialized = true ∧
      ∃ root selection, data = .mapping root ∧
        Mapping.get? root ("compose" ++ separator ++ variant) = some (.mapping selection) ∧
        ∀ slot ∈ schema.slots.entries, ∃ label entries,
          Mapping.get? selection slot.2.name = some (.string label) ∧
          Mapping.get? root (slot.2.name ++ separator ++ label) = some (.mapping entries) ∧
          ∀ key ∈ slot.2.keys.entries, ∃ v, Mapping.get? entries key.2.name = some v ∧
            after.get slot.1 key.1 = .ok v ∧ Conformance.Conforms v key.2.type := by
  intro found run
  have submitted := submit_init (ofSchema schema) data variant separator
  by_cases clean : found = []
  · obtain ⟨values, bound, reads⟩ :=
      init_of_valid (Validation.valid_of_clean clean)
    have succeeded : run.result = .ok ⟨schema, some values⟩ := bound
    rw [bound] at submitted
    refine ⟨⟨fun _ => clean, fun _ => ⟨_, bound⟩⟩, fun dirty => absurd clean dirty, ?_, ?_⟩
    · intro entry failed
      rw [succeeded] at failed
      cases failed
    · intro after ended
      rw [succeeded] at ended
      cases ended
      exact ⟨submitted, rfl, reads⟩
  · have failed : run.result = .error (.invalid found) := init_of_violations clean
    rw [init_of_violations clean] at submitted
    refine ⟨⟨?_, fun none => absurd none clean⟩, fun _ => ⟨failed, submitted⟩, ?_, ?_⟩
    · rintro ⟨after, ended⟩
      rw [failed] at ended
      cases ended
    · intro entry missing
      rw [failed] at missing
      cases missing
    · intro after ended
      rw [failed] at ended
      cases ended

theorem init_binds_parma :
    let data : Value := .mapping [(.string "compose.prod", .mapping [(.string "parma", .string "main")]),
      (.string "parma.main", .mapping [(.string "chatty", .integer 5)])]
    Validation.violations Sample.parma data "prod" "." = [] ∧
      ∃ after, ((ofSchema Sample.parma).init data "prod" ".").result = .ok after ∧
        (ofSchema Sample.parma).submit (.init data "prod" ".") = (.ok (), after) ∧
        after.get "asor" "culex" = .ok (.integer 5) := by
  intro data
  have clean : Validation.violations Sample.parma data "prod" "." = [] := by decide
  obtain ⟨binds, _, _, reads⟩ := init_binds_iff_valid Sample.parma data "prod" "."
  obtain ⟨after, ended⟩ := binds.mpr clean
  obtain ⟨submitted, _, root, selection, isRoot, selected, slots⟩ := reads after ended
  obtain rfl := Value.mapping.inj isRoot
  cases selected
  obtain ⟨label, entries, labelled, held, keys⟩ := slots ("asor", _) List.mem_cons_self
  cases labelled
  cases held
  obtain ⟨v, found, read, _⟩ := keys ("culex", _) List.mem_cons_self
  cases found
  exact ⟨clean, after, ended, submitted, read⟩

end Config

end TypedConfig
