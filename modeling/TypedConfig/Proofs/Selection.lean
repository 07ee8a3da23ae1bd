import TypedConfig.Proofs.Binding

/-!
What initialization looks at. Documents that hold the same for every section, which
is the label that their selections give it and the values under the names of its
keys, are not told apart by validation, and bind to the same configuration
(`init_eq_of_sameFor`). So entries that nothing selects, keys that no section has
and the order of entries have no effect.
-/
namespace TypedConfig

namespace Validation

/-- Whether two places hold the same for a section: nothing, values of one kind that are no
    mappings, or mappings with the same values under the names of its keys. -/
inductive HoldSame (s : Section) : Option Value → Option Value → Prop
  | nothing : HoldSame s none none
  | noMapping {v w : Value} (first : v.mapping? = none) (second : w.mapping? = none)
      (kind : v.typeName = w.typeName) : HoldSame s (some v) (some w)
  | entries {es fs : Mapping}
      (values : ∀ key ∈ s.keys.entries.map Prod.snd, es.get? key.name = fs.get? key.name) :
      HoldSame s (some (.mapping es)) (some (.mapping fs))

/-- A document that has a selection for a variant, by its entries and by those of the selection. -/
structure Selected (variant separator : String) where
  root : Mapping
  selection : Mapping
  selected : root.get? ("compose" ++ separator ++ variant) = some (.mapping selection)

/-- Whether two documents hold the same for a section: under its name in the selections and, if that is
    a label, under the label. -/
structure SameFor {variant separator : String} (a b : Selected variant separator) (s : Section) : Prop where
  label : a.selection.get? s.name = b.selection.get? s.name
  data : ∀ label, a.selection.get? s.name = some (.string label) →
    HoldSame s (a.root.get? (s.name ++ separator ++ label)) (b.root.get? (s.name ++ separator ++ label))

theorem validateKey_congr {es fs : Mapping} {key : Key} (same : es.get? key.name = fs.get? key.name)
    (fullName : String) (found : List Violation) :
    validateKey es fullName found key = validateKey fs fullName found key := by
  unfold validateKey
  rw [same]

theorem validateSection_congr {s : Section} {v w : Value} (same : HoldSame s (some v) (some w))
    (fullName : String) : validateSection s v fullName [] = validateSection s w fullName [] := by
  cases same with
  | noMapping first second kind =>
    rw [validateSection_noMapping first, validateSection_noMapping second, kind]
  | entries values =>
    rw [validateSection_mapping, validateSection_mapping]
    simp only [List.nil_append]
    exact List.flatMap_congr fun key member => validateKey_congr (values key member) fullName []

theorem validateSlot_congr {variant separator : String} {a b : Selected variant separator} {s : Section}
    (same : SameFor a b s) (name : String) :
    validateSlot a.root a.selection name separator [] s = validateSlot b.root b.selection name separator [] s := by
  unfold validateSlot
  rw [← same.label]
  cases labelled : a.selection.get? s.name with
  | none => rfl
  | some value =>
    cases value with
    | string label =>
      dsimp only
      have held : HoldSame s (a.root.get? (entryName s.name separator label))
        (b.root.get? (entryName s.name separator label)) := same.data label labelled
      generalize a.root.get? (entryName s.name separator label) = first at held ⊢
      generalize b.root.get? (entryName s.name separator label) = second at held ⊢
      cases held with
      | nothing => rfl
      | noMapping first second kind => exact validateSection_congr (.noMapping first second kind) _
      | entries values => exact validateSection_congr (.entries values) _
    | _ => rfl

/-- Documents that hold the same for every section have the same problems. -/
theorem violations_congr {schema : Schema} {variant separator : String} {a b : Selected variant separator}
    (same : ∀ s ∈ schema.sections, SameFor a b s) :
    violations schema (.mapping a.root) variant separator = violations schema (.mapping b.root) variant separator := by
  rw [violations_of_selection a.selected, violations_of_selection b.selected]
  exact List.flatMap_congr fun s member => validateSlot_congr (same s member) _

end Validation

namespace SectionValue

theorem collect_congr (name : String) {es fs : Mapping} {keys : List (String × Key)}
    (values : ∀ key ∈ keys.map Prod.snd, es.get? key.name = fs.get? key.name) :
    collect name es keys = collect name fs keys := by
  induction keys with
  | nil => rfl
  | cons declared keys ih =>
    obtain ⟨id, key⟩ := declared
    obtain ⟨here, later⟩ := List.forall_mem_cons.mp values
    rw [collect, collect, here, ih later]

theorem ofData_congr {s : Section} {es fs : Mapping}
    (values : ∀ key ∈ s.keys.entries.map Prod.snd, es.get? key.name = fs.get? key.name) :
    ofData s es = ofData s fs := by
  rw [ofData, ofData, collect_congr s.name values]

end SectionValue

namespace Config
open Contention (Request)
open Validation (Selected SameFor)

/-- Composed data in which sections have entries with the same values gives slots the same values. -/
theorem bindings_congr {m n : Mapping} {slots : List (String × Section)}
    (same : ∀ s ∈ slots.map Prod.snd, ∃ es fs, m.get? s.name = some (.mapping es) ∧
      n.get? s.name = some (.mapping fs) ∧
      ∀ key ∈ s.keys.entries.map Prod.snd, Mapping.get? es key.name = Mapping.get? fs key.name) :
    bindings m slots = bindings n slots := by
  induction slots with
  | nil => rfl
  | cons slot slots ih =>
    obtain ⟨id, s⟩ := slot
    obtain ⟨here, later⟩ := List.forall_mem_cons.mp same
    obtain ⟨es, fs, first, second, values⟩ := here
    simp only [bindings, first, second, Option.bind_some, Value.mapping?]
    rw [SectionValue.ofData_congr values, ih later]

theorem bind_congr {c : Config} {m n : Mapping}
    (same : bindings m c.schema.slots.entries = bindings n c.schema.slots.entries) : c.bind m = c.bind n := by
  unfold Config.bind
  rw [same]

/-- A document without violations composes, and each section gets the entries under its label. -/
theorem composed_of_clean {schema : Schema} {variant separator : String} {a : Selected variant separator}
    (clean : Validation.violations schema (.mapping a.root) variant separator = []) :
    ∃ composed, Composition.composeDeclared schema (.mapping a.root) variant separator = .ok composed ∧
      ∀ s ∈ schema.sections, ∃ label entries, a.selection.get? s.name = some (.string label) ∧
        a.root.get? (s.name ++ separator ++ label) = some (.mapping entries) ∧
        composed.get? s.name = some (.mapping entries) := by
  obtain ⟨selection, found, each⟩ :=
    (Validation.violations_mapping_eq_nil_iff schema a.root variant separator).mp clean
  obtain rfl : a.selection = selection := by
    simpa using a.selected.symm.trans found
  obtain ⟨composed, composes, gathered⟩ := composeDeclared_of_valid a.selected each
  refine ⟨composed, composes, fun s member => ?_⟩
  obtain ⟨label, entries, labelled, held, there, _⟩ := gathered s member
  exact ⟨label, entries, labelled, held, there⟩

/-- What two documents compose to holds entries with the same values for a section for which they hold the same. -/
theorem entries_of_sameFor {variant separator : String} {a b : Selected variant separator} {s : Section}
    (same : SameFor a b s) {label other : String} {es fs : Mapping}
    (first : a.selection.get? s.name = some (.string label))
    (second : b.selection.get? s.name = some (.string other))
    (here : a.root.get? (s.name ++ separator ++ label) = some (.mapping es))
    (there : b.root.get? (s.name ++ separator ++ other) = some (.mapping fs)) :
    ∀ key ∈ s.keys.entries.map Prod.snd, es.get? key.name = fs.get? key.name := by
  obtain rfl : label = other := by
    simpa using first.symm.trans (same.label.trans second)
  have held := same.data label first
  rw [here, there] at held
  cases held with
  | noMapping first => cases first
  | entries values => exact values

theorem init_unbound (schema : Schema) (data : Value) (variant separator : String) :
    (ofSchema schema).init data variant separator =
      (validate schema data variant separator >>= fun found =>
        if found.isEmpty then
          Traced.lift (Composition.composeDeclared schema data variant separator) >>= (ofSchema schema).bind
        else Traced.fail (.invalid found)) := rfl

/-- Documents that hold the same for every section are initialized alike, notes included. -/
theorem init_congr {schema : Schema} {variant separator : String} {a b : Selected variant separator}
    (same : ∀ s ∈ schema.sections, SameFor a b s) :
    (ofSchema schema).init (.mapping a.root) variant separator =
      (ofSchema schema).init (.mapping b.root) variant separator := by
  have problems := Validation.violations_congr same
  have told : validate schema (.mapping b.root) variant separator =
      validate schema (.mapping a.root) variant separator := by
    simp only [validate, problems]
  rw [init_unbound, init_unbound, told]
  refine Traced.bind_congr_of_ok (validate_result schema _ variant separator) ?_
  by_cases clean : Validation.violations schema (.mapping a.root) variant separator = []
  · obtain ⟨composed, composes, gathered⟩ := composed_of_clean clean
    obtain ⟨others, composesOthers, gatheredOthers⟩ := composed_of_clean (problems.symm.trans clean)
    have bound : (ofSchema schema).bind composed = (ofSchema schema).bind others := by
      refine bind_congr (bindings_congr fun s member => ?_)
      obtain ⟨label, es, labelled, held, there⟩ := gathered s member
      obtain ⟨other, fs, labelledOther, heldOther, thereOther⟩ := gatheredOthers s member
      exact ⟨es, fs, there, thereOther,
        entries_of_sameFor (same s member) labelled labelledOther held heldOther⟩
    simp only [clean, List.isEmpty_nil, ↓reduceIte, composes, composesOthers]
    exact bound
  · have dirty : (Validation.violations schema (.mapping a.root) variant separator).isEmpty = false := by
      simpa using clean
    simp only [dirty, Bool.false_eq_true, ↓reduceIte]

/-- Documents that hold the same for every section have the same violations, are initialized alike on
    configurations that are not bound, and read the same afterwards. -/
theorem init_eq_of_sameFor (schema : Schema) {variant separator : String} (a b : Selected variant separator)
    (same : ∀ s ∈ schema.sections, SameFor a b s) :
    let first := Request.init (.mapping a.root) variant separator
    let second := Request.init (.mapping b.root) variant separator
    Validation.violations schema (.mapping a.root) variant separator =
        Validation.violations schema (.mapping b.root) variant separator ∧
      (ofSchema schema).init (.mapping a.root) variant separator =
        (ofSchema schema).init (.mapping b.root) variant separator ∧
      (ofSchema schema).submit first = (ofSchema schema).submit second ∧
      ∀ sectionId keyId, ((ofSchema schema).submit first).2.get sectionId keyId =
        ((ofSchema schema).submit second).2.get sectionId keyId := by
  intro first second
  have alike := init_congr same
  have calls : (ofSchema schema).submit first = (ofSchema schema).submit second := by
    rw [submit_init, submit_init, alike]
  exact ⟨Validation.violations_congr same, alike, calls, fun sectionId keyId => by rw [calls]⟩

/-- Entries in another order, beside another variant and a slot and a key that nothing declares. -/
theorem init_eq_of_sameFor_service :
    let main : Value := .mapping [(.string "url", .string "db:1"), (.string "pool_size", .null),
      (.string "replicas", .sequence [])]
    let a : Selected "prod" "." := ⟨[
      (.string "compose.prod", .mapping [(.string "server", .string "eu"), (.string "db", .string "main")]),
      (.string "server.eu", .mapping [(.string "host", .string "h"), (.string "port", .integer 80)]),
      (.string "db.main", main)], _, rfl⟩
    let b : Selected "prod" "." := ⟨[
      (.string "server.us", .sequence []), (.string "db.main", main),
      (.string "server.eu",
        .mapping [(.string "port", .integer 80), (.boolean true, .null), (.string "host", .string "h")]),
      (.string "compose.test", .integer 1),
      (.string "compose.prod",
        .mapping [(.string "cache", .integer 1), (.string "db", .string "main"), (.string "server", .string "eu")])],
      _, rfl⟩
    (∀ s ∈ Sample.service.sections, SameFor a b s) ∧
      (ofSchema Sample.service).submit (.init (.mapping a.root) "prod" ".") =
        (ofSchema Sample.service).submit (.init (.mapping b.root) "prod" ".") := by
  intro main a b
  have server : SameFor a b Sample.server := by
    refine ⟨rfl, fun label labelled => ?_⟩
    cases labelled
    exact .entries (List.forall_mem_cons.mpr ⟨rfl, List.forall_mem_cons.mpr ⟨rfl, List.forall_mem_nil _⟩⟩)
  have database : SameFor a b Sample.database := by
    refine ⟨rfl, fun label labelled => ?_⟩
    cases labelled
    exact .entries fun _ _ => rfl
  have same : ∀ s ∈ Sample.service.sections, SameFor a b s :=
    List.forall_mem_cons.mpr ⟨server, List.forall_mem_cons.mpr ⟨database, List.forall_mem_nil _⟩⟩
  exact ⟨same, (init_eq_of_sameFor Sample.service a b same).2.2.1⟩

end Config

end TypedConfig
