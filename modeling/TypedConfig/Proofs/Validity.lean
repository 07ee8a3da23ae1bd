import TypedConfig.Proofs.Conformance
import TypedConfig.Proofs.Lookup
import TypedConfig.Validation

/-!
When a document is valid for a schema. Every level of validation adds its
problems behind those found before, so validation finds nothing exactly if no
level has a problem (`violations_eq_nil_iff_valid`).
-/
namespace TypedConfig.Validation
open Conformance

/-- Entries hold a value of the right type under the name of every key. -/
def Complete (s : Section) (entries : Mapping) : Prop :=
  ∀ key ∈ s.keys.entries.map Prod.snd, ∃ v, entries.get? key.name = some v ∧ Conforms v key.type

/-- What a schema asks of a document: its selection for the variant labels every
    section, and the entry under the label is a mapping that is complete for the section. -/
def Valid (schema : Schema) (data : Value) (variant separator : String) : Prop :=
  ∃ root selection, data = .mapping root ∧
    Mapping.get? root ("compose" ++ separator ++ variant) = some (.mapping selection) ∧
    ∀ s ∈ schema.sections, ∃ label entries,
      Mapping.get? selection s.name = some (.string label) ∧
      Mapping.get? root (s.name ++ separator ++ label) = some (.mapping entries) ∧ Complete s entries

/-! ### Levels add up -/

theorem foldl_eq_append {α β : Type} {f : List β → α → List β} (adds : ∀ found a, f found a = found ++ f [] a)
    (as : List α) : ∀ found, as.foldl f found = found ++ as.flatMap (f []) := by
  induction as with
  | nil => intro found; simp
  | cons a as ih =>
    intro found
    rw [List.foldl_cons, ih, adds found a]
    simp

theorem validateKey_eq_append (entries : Mapping) (fullName : String) (found : List Violation) (key : Key) :
    validateKey entries fullName found key = found ++ validateKey entries fullName [] key := by
  unfold validateKey
  cases entries.get? key.name with
  | none => simp
  | some v =>
    simp only [checkInto_eq_append _ v key.type found, checkInto_eq_append _ v key.type [], List.nil_append]

theorem validateSection_mapping (s : Section) (entries : Mapping) (fullName : String) (found : List Violation) :
    validateSection s (.mapping entries) fullName found =
      found ++ (s.keys.entries.map Prod.snd).flatMap (validateKey entries fullName []) :=
  foldl_eq_append (validateKey_eq_append entries fullName) _ found

theorem validateSection_eq_append (s : Section) (data : Value) (fullName : String) (found : List Violation) :
    validateSection s data fullName found = found ++ validateSection s data fullName [] := by
  cases data with
  | mapping entries => simp only [validateSection_mapping, List.nil_append]
  | _ => exact checkInto_eq_append _ _ _ found

/-- A value that is no mapping mismatches as a whole. -/
theorem checkInto_anyMapping {v : Value} (noMapping : v.mapping? = none) (context : Context) :
    checkInto context v .anyMapping [] = [⟨context, "\"" ++ v.typeName ++ "\" instead of \"mapping\""⟩] := by
  have refused : ScalarType.anyMapping.accepts v = false := by
    cases v with
    | mapping => cases noMapping
    | _ => rfl
  simp [checkInto, TypeDescriptor.anyMapping, Walk.visit, refused, Walk.fail, mismatch, TypeDescriptor.text,
    ScalarType.name, String.append_assoc]

theorem validateSection_noMapping {v : Value} (noMapping : v.mapping? = none) (s : Section) (fullName : String) :
    validateSection s v fullName [] =
      [⟨.ofSection fullName, "\"" ++ v.typeName ++ "\" instead of \"mapping\""⟩] := by
  cases v with
  | mapping => cases noMapping
  | _ => exact checkInto_anyMapping rfl _

/-- A document that is no mapping has that one problem. -/
theorem violations_noMapping {data : Value} (noMapping : data.mapping? = none) (schema : Schema)
    (variant separator : String) :
    violations schema data variant separator = [⟨.root, "\"" ++ data.typeName ++ "\" instead of \"mapping\""⟩] := by
  cases data with
  | mapping => cases noMapping
  | _ => exact checkInto_anyMapping rfl _

theorem validateSlot_eq_append (root selection : Mapping) (name separator : String) (found : List Violation)
    (s : Section) :
    validateSlot root selection name separator found s =
      found ++ validateSlot root selection name separator [] s := by
  unfold validateSlot
  cases selection.get? s.name with
  | none => simp
  | some value =>
    cases value with
    | string label =>
      dsimp only
      cases root.get? (entryName s.name separator label) with
      | none => simp
      | some data => exact validateSection_eq_append s data _ found
    | _ => exact checkInto_eq_append _ _ _ found

/-! ### Levels without problems -/

theorem conforms_anyMapping_iff {v : Value} : Conforms v .anyMapping ↔ ∃ es, v = .mapping es := by
  constructor
  · intro conforms
    cases conforms with
    | scalar accepted => cases v <;> simp_all [ScalarType.accepts]
  · rintro ⟨es, rfl⟩
    exact .scalar rfl

theorem conforms_string_iff {v : Value} : Conforms v .string ↔ ∃ s, v = .string s := by
  constructor
  · intro conforms
    cases conforms with
    | scalar accepted => cases v <;> simp_all [ScalarType.accepts]
  · rintro ⟨s, rfl⟩
    exact .scalar rfl

theorem checkInto_nil_eq_nil_iff (context : Context) (v : Value) (t : TypeDescriptor) :
    checkInto context v t [] = [] ↔ Conforms v t := check_eq_nil_iff context v t

theorem validateKey_eq_nil_iff (entries : Mapping) (fullName : String) (key : Key) :
    validateKey entries fullName [] key = [] ↔ ∃ v, entries.get? key.name = some v ∧ Conforms v key.type := by
  unfold validateKey
  cases entries.get? key.name with
  | none => simp
  | some v => simp [checkInto_nil_eq_nil_iff]

theorem validateSection_eq_nil_iff (s : Section) (data : Value) (fullName : String) :
    validateSection s data fullName [] = [] ↔
      ∃ entries, data = .mapping entries ∧ Complete s entries := by
  cases data with
  | mapping entries =>
    rw [validateSection_mapping, List.nil_append, List.flatMap_eq_nil_iff]
    simp only [validateKey_eq_nil_iff, Complete, Value.mapping.injEq, exists_eq_left']
  | _ => simp [validateSection, checkInto_nil_eq_nil_iff, conforms_anyMapping_iff]

theorem validateSlot_eq_nil_iff (root selection : Mapping) (name separator : String) (s : Section) :
    validateSlot root selection name separator [] s = [] ↔
      ∃ label entries, selection.get? s.name = some (.string label) ∧
        root.get? (entryName s.name separator label) = some (.mapping entries) ∧ Complete s entries := by
  unfold validateSlot
  cases selection.get? s.name with
  | none => simp
  | some value =>
    cases value with
    | string label =>
      dsimp only
      cases held : root.get? (entryName s.name separator label) with
      | none => simp [held]
      | some data =>
        dsimp only
        rw [validateSection_eq_nil_iff]
        simp [held]
    | _ => simp [checkInto_nil_eq_nil_iff, conforms_string_iff]

/-- Once the selection is found, the problems are those of the sections, one after the other. -/
theorem violations_of_selection {root selection : Mapping} {variant separator : String}
    (selected : root.get? (selectionName variant separator) = some (.mapping selection)) (schema : Schema) :
    violations schema (.mapping root) variant separator =
      schema.sections.flatMap (validateSlot root selection (selectionName variant separator) separator []) := by
  simp only [violations, selected]
  exact foldl_eq_append (validateSlot_eq_append root selection _ separator) _ []

theorem violations_mapping_eq_nil_iff (schema : Schema) (root : Mapping) (variant separator : String) :
    violations schema (.mapping root) variant separator = [] ↔
      ∃ selection, root.get? ("compose" ++ separator ++ variant) = some (.mapping selection) ∧
        ∀ s ∈ schema.sections, ∃ label entries,
          Mapping.get? selection s.name = some (.string label) ∧
          root.get? (s.name ++ separator ++ label) = some (.mapping entries) ∧ Complete s entries := by
  cases found : root.get? ("compose" ++ separator ++ variant) with
  | none => simp [violations, selectionName, found]
  | some value =>
    cases value with
    | mapping selection =>
      rw [violations_of_selection found, List.flatMap_eq_nil_iff]
      simp only [validateSlot_eq_nil_iff, entryName, Option.some.injEq, Value.mapping.injEq, exists_and_left,
        exists_eq_left']
    | _ => simp [violations, selectionName, found, checkInto_nil_eq_nil_iff, conforms_anyMapping_iff]

theorem valid_of_clean {schema : Schema} {data : Value} {variant separator : String}
    (clean : violations schema data variant separator = []) : Valid schema data variant separator := by
  cases data with
  | mapping root =>
    obtain ⟨selection, selected, each⟩ := (violations_mapping_eq_nil_iff schema root variant separator).mp clean
    exact ⟨root, selection, rfl, selected, each⟩
  | _ => simp [violations, checkInto_nil_eq_nil_iff, conforms_anyMapping_iff] at clean

theorem clean_of_valid {schema : Schema} {data : Value} {variant separator : String}
    (valid : Valid schema data variant separator) : violations schema data variant separator = [] := by
  obtain ⟨root, selection, rfl, selected, each⟩ := valid
  exact (violations_mapping_eq_nil_iff schema root variant separator).mpr ⟨selection, selected, each⟩

/-- Validation finds nothing exactly in valid documents. -/
theorem violations_eq_nil_iff_valid (schema : Schema) (data : Value) (variant separator : String) :
    violations schema data variant separator = [] ↔ Valid schema data variant separator :=
  ⟨valid_of_clean, clean_of_valid⟩

end TypedConfig.Validation
