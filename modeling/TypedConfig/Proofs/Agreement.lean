import TypedConfig.Proofs.Overlay
import TypedConfig.Proofs.Selection

/-!
Two ways to compose a document: every entry of its selection, or the sections of a
schema. When the first succeeds and the selection lists all sections, the second
succeeds too and gives each section the same data; when the first fails on a valid
document, the entry at fault belongs to no section (`compose_agrees`).
-/
namespace TypedConfig

namespace Composition
open Mapping (Distinct)

/-! ### What an entry names -/

/-- The data that an entry of a selection names, under the section's name. -/
def resolve (data : Value) (name separator : String) (entry : Value × Value) : Except Failure (Value × Value) :=
  match entry.1.string?, entry.2.string? with
  | some sectionName, some label => (sectionData data sectionName separator label).map (.string sectionName, ·)
  | _, _ => .error (.missingEntry (name ++ "[" ++ entry.1.literal ++ "]"))

/-- The data that a selection names for a section, under the section's name. -/
def resolveDeclared (data : Value) (name separator : String) (entries : Mapping) (s : Section) :
    Except Failure (Value × Value) :=
  match (entries.get? s.name).bind Value.string? with
  | some label => (sectionData data s.name separator label).map (.string s.name, ·)
  | none => .error (.missingEntry (name ++ "[" ++ s.name ++ "]"))

/-- An entry of a selection names data that the document has. -/
def Resolves (data : Value) (separator : String) (entry : Value × Value) : Prop :=
  ∃ sectionName label found, entry = (.string sectionName, .string label) ∧
    sectionData data sectionName separator label = .ok found

theorem resolve_eq_ok_iff {data : Value} {name separator : String} {entry pair : Value × Value} :
    resolve data name separator entry = .ok pair ↔
      ∃ sectionName label, entry = (.string sectionName, .string label) ∧ pair.1 = .string sectionName ∧
        sectionData data sectionName separator label = .ok pair.2 := by
  obtain ⟨key, label⟩ := entry
  obtain ⟨k, v⟩ := pair
  constructor
  · intro resolved
    unfold resolve at resolved
    split at resolved
    · next sectionName text named labelled =>
      obtain rfl := Value.string?_eq_some_iff.mp named
      obtain rfl := Value.string?_eq_some_iff.mp labelled
      obtain ⟨found, there, same⟩ := map_eq_ok_iff.mp resolved
      cases same
      exact ⟨sectionName, text, rfl, rfl, there⟩
    · cases resolved
  · rintro ⟨sectionName, text, same, rfl, found⟩
    cases same
    exact map_eq_ok_iff.mpr ⟨v, found, rfl⟩

theorem resolves_iff {data : Value} {separator : String} (name : String) {entry : Value × Value} :
    Resolves data separator entry ↔ ∃ pair, resolve data name separator entry = .ok pair := by
  simp only [resolve_eq_ok_iff]
  constructor
  · rintro ⟨sectionName, label, found, named, there⟩
    exact ⟨(.string sectionName, found), sectionName, label, named, rfl, there⟩
  · rintro ⟨pair, sectionName, label, named, _, there⟩
    exact ⟨sectionName, label, pair.2, named, there⟩

theorem key_of_resolveDeclared {data : Value} {name separator : String} {entries : Mapping} {s : Section}
    {pair : Value × Value} (resolved : resolveDeclared data name separator entries s = .ok pair) :
    pair.1 = .string s.name := by
  unfold resolveDeclared at resolved
  split at resolved
  · obtain ⟨found, _, rfl⟩ := map_eq_ok_iff.mp resolved
    rfl
  · cases resolved

/-! ### Composing in one pass -/

theorem gather_eq_mapM (data : Value) (name separator : String) (entries : Mapping) :
    ∀ base, gather data name separator base entries =
      (entries.mapM (resolve data name separator)).map (Mapping.overlay base) := by
  induction entries with
  | nil => intro base; rfl
  | cons entry entries ih =>
    intro base
    obtain ⟨key, label⟩ := entry
    rw [gather, List.mapM_cons, resolve]
    cases key.string? with
    | none => rfl
    | some sectionName =>
      cases label.string? with
      | none => rfl
      | some label =>
        dsimp only
        cases sectionData data sectionName separator label with
        | error failure => rfl
        | ok found =>
          change gather data name separator (base.insert (.string sectionName) found) entries = _
          rw [ih]
          cases entries.mapM (resolve data name separator) <;> rfl

theorem gatherDeclared_eq_mapM (data : Value) (name separator : String) (entries : Mapping) (sections : List Section) :
    ∀ base, gatherDeclared data name separator entries base sections =
      (sections.mapM (resolveDeclared data name separator entries)).map (Mapping.overlay base) := by
  induction sections with
  | nil => intro base; rfl
  | cons s sections ih =>
    intro base
    rw [gatherDeclared, List.mapM_cons, resolveDeclared]
    cases (entries.get? s.name).bind Value.string? with
    | none => rfl
    | some label =>
      dsimp only
      cases sectionData data s.name separator label with
      | error failure => rfl
      | ok found =>
        change gatherDeclared data name separator entries (base.insert (.string s.name) found) sections = _
        rw [ih]
        cases sections.mapM (resolveDeclared data name separator entries) <;> rfl

theorem compose_of_selection {data : Value} {variant separator : String} {selection : Mapping}
    (selected : Composition.selection data (selectionName variant separator) = .ok selection) :
    compose data variant separator =
      (selection.mapM (resolve data (selectionName variant separator) separator)).map Mapping.ofPairs := by
  simp only [compose, selected]
  exact gather_eq_mapM data _ separator selection []

theorem composeDeclared_of_selection {data : Value} {variant separator : String} {selection : Mapping}
    (selected : Composition.selection data (selectionName variant separator) = .ok selection) (schema : Schema) :
    composeDeclared schema data variant separator =
      (schema.sections.mapM (resolveDeclared data (selectionName variant separator) separator selection)).map
        Mapping.ofPairs := by
  simp only [composeDeclared, selected]
  exact gatherDeclared_eq_mapM data _ separator selection schema.sections []

theorem selection_eq_ok_iff {data : Value} {name : String} {selection : Mapping} :
    Composition.selection data name = .ok selection ↔
      ∃ root, data = .mapping root ∧ Mapping.get? root name = some (.mapping selection) := by
  constructor
  · intro selected
    unfold Composition.selection at selected
    split at selected
    · next entries found =>
      cases selected
      obtain ⟨root, isRoot, held⟩ := Option.bind_eq_some_iff.mp found
      obtain ⟨v, there, isMapping⟩ := Option.bind_eq_some_iff.mp held
      obtain rfl := Value.mapping?_eq_some_iff.mp isMapping
      exact ⟨root, Value.mapping?_eq_some_iff.mp isRoot, there⟩
    · cases selected
  · rintro ⟨root, rfl, there⟩
    exact selection_mapping there

/-! ### Keys and lookups -/

theorem keys_of_forall₂ {α : Type} {R : α → Value × Value → Prop} (key : α → Value)
    (named : ∀ a pair, R a pair → pair.1 = key a) {as : List α} {pairs : Mapping} (related : List.Forall₂ R as pairs) :
    pairs.keys = as.map key :=
  map_eq_of_forall₂ key Prod.fst (fun slot _ => named slot) related

theorem key_of_resolve {data : Value} {name separator : String} {entry pair : Value × Value}
    (resolved : resolve data name separator entry = .ok pair) : pair.1 = entry.1 := by
  obtain ⟨sectionName, label, rfl, named, _⟩ := resolve_eq_ok_iff.mp resolved
  exact named

/-- What the entries of a selection name holds, under each name, the data assigned to it. -/
theorem get?_of_resolved {root selection pairs : Mapping} {name separator : String}
    (resolved :
      List.Forall₂ (fun entry pair => resolve (.mapping root) name separator entry = .ok pair) selection pairs)
    (asked : String) : pairs.get? asked = assigned? root selection separator asked := by
  induction resolved with
  | nil => rfl
  | @cons entry pair selection pairs here _ ih =>
    obtain ⟨sectionName, label, rfl, named, found⟩ := resolve_eq_ok_iff.mp here
    obtain ⟨k, v⟩ := pair
    obtain rfl : k = .string sectionName := named
    have held : root.get? (entryName sectionName separator label) = some v := by
      cases there : root.get? (entryName sectionName separator label) with
      | none => simp [sectionData, Value.mapping?, there] at found
      | some w => simpa [sectionData, Value.mapping?, there] using found
    rw [Mapping.get?_cons, ih]
    unfold assigned?
    rw [Mapping.get?_cons]
    by_cases same : sectionName = asked
    · subst same
      simp [Value.string?, held]
    · simp [Value.string?, same]

/-- Composing a selection without equal keys gives what its entries name, one by one. -/
theorem resolved_of_compose {data : Value} {variant separator : String} {selection m : Mapping}
    (selected : Composition.selection data (selectionName variant separator) = .ok selection)
    (distinct : Distinct selection) (composes : compose data variant separator = .ok m) :
    List.Forall₂ (fun entry pair => resolve data (selectionName variant separator) separator entry = .ok pair)
      selection m := by
  rw [compose_of_selection selected] at composes
  obtain ⟨pairs, run, rfl⟩ := map_eq_ok_iff.mp composes
  have resolved := mapM_eq_ok_iff.mp run
  have sameKeys : Mapping.keys pairs = selection.keys := keys_of_forall₂ Prod.fst (fun _ _ => key_of_resolve) resolved
  have distinctPairs : Distinct pairs := by
    unfold Distinct
    rw [sameKeys]
    exact distinct
  rw [Mapping.ofPairs_of_distinct distinctPairs]
  exact resolved

theorem eraseDups_map_string : ∀ names : List String, (names.map Value.string).eraseDups = names.eraseDups.map .string
  | [] => rfl
  | name :: names => by
    have others : (names.map Value.string).filter (fun k => !k == Value.string name) =
        (names.filter fun other => !other == name).map .string := by
      rw [List.filter_map]
      rfl
    rw [List.map_cons, List.eraseDups_cons, List.eraseDups_cons, List.map_cons, others, eraseDups_map_string]
termination_by names => names.length
decreasing_by exact Nat.lt_succ_of_le (List.length_filter_le _ names)

/-- What the sections of a schema compose to has their names as keys, each where it is first declared. -/
theorem keys_of_composeDeclared {schema : Schema} {data : Value} {variant separator : String} {selection m : Mapping}
    (selected : Composition.selection data (selectionName variant separator) = .ok selection)
    (composes : composeDeclared schema data variant separator = .ok m) :
    m.keys = (schema.sections.map Section.name).eraseDups.map .string := by
  rw [composeDeclared_of_selection selected] at composes
  obtain ⟨pairs, run, rfl⟩ := map_eq_ok_iff.mp composes
  have named : Mapping.keys pairs = schema.sections.map fun s => .string s.name :=
    keys_of_forall₂ (fun s => .string s.name) (fun _ _ => key_of_resolveDeclared) (mapM_eq_ok_iff.mp run)
  rw [Mapping.keys_ofPairs, named, ← eraseDups_map_string, List.map_map]
  rfl

end Composition

namespace Config
open Mapping (Distinct)
open TypedConfig.Composition (Resolves resolve)
open Contention (Request)

theorem bindings_congr_get? {m n : Mapping} {slots : List (String × Section)}
    (same : ∀ s ∈ slots.map Prod.snd, m.get? s.name = n.get? s.name) : bindings m slots = bindings n slots := by
  induction slots with
  | nil => rfl
  | cons slot slots ih =>
    obtain ⟨id, s⟩ := slot
    obtain ⟨here, later⟩ := List.forall_mem_cons.mp same
    rw [bindings, bindings, here, ih later]

/-- In a valid document, an entry of the selection that names no data is of no section. -/
theorem undeclared_of_valid {schema : Schema} {data : Value} {variant separator : String} {selection : Mapping}
    (selected : Composition.selection data (selectionName variant separator) = .ok selection)
    (distinct : Distinct selection) (valid : Validation.Valid schema data variant separator) {entry : Value × Value}
    (member : entry ∈ selection) (fails : ¬ Resolves data separator entry) :
    ∀ s ∈ schema.sections, entry.1 ≠ .string s.name := by
  intro s declared named
  obtain ⟨root, labels, rfl, there, each⟩ := valid
  obtain ⟨_, sameRoot, found⟩ := Composition.selection_eq_ok_iff.mp selected
  cases sameRoot
  cases there.symm.trans found
  obtain ⟨key, value⟩ := entry
  obtain rfl : key = .string s.name := named
  obtain ⟨label, entries, labelled, held, _⟩ := each s declared
  obtain rfl : value = .string label :=
    Option.some.inj ((Mapping.get?_of_mem distinct member).symm.trans labelled)
  exact fails ⟨s.name, label, .mapping entries, rfl, Composition.sectionData_eq_ok_iff.mpr held⟩

/-- When composing all entries succeeds and every section is listed, composing the sections succeeds as well and gives
    each the same data. -/
theorem composeDeclared_of_compose {schema : Schema} {data : Value} {variant separator : String} {selection m : Mapping}
    (selected : Composition.selection data (selectionName variant separator) = .ok selection)
    (distinct : Distinct selection) (composes : Composition.compose data variant separator = .ok m)
    (listed : ∀ s ∈ schema.sections, selection.containsKey s.name = true) :
    ∃ n, Composition.composeDeclared schema data variant separator = .ok n ∧
      ∀ s ∈ schema.sections, ∃ v, m.get? s.name = some v ∧ n.get? s.name = some v := by
  have resolved := Composition.resolved_of_compose selected distinct composes
  obtain ⟨root, rfl, there⟩ := Composition.selection_eq_ok_iff.mp selected
  have reads := Composition.get?_of_resolved resolved
  have assigned : ∀ s ∈ schema.sections, ∃ v, Composition.assigned? root selection separator s.name = some v := by
    intro s member
    have present : m.containsKey s.name = true := by
      rw [Mapping.containsKey_eq_any, Composition.keys_of_forall₂ Prod.fst (fun _ _ => Composition.key_of_resolve)
        resolved]
      exact (Mapping.containsKey_eq_any selection s.name).symm.trans (listed s member)
    exact reads s.name ▸ Option.isSome_iff_exists.mp present
  obtain ⟨n, composesDeclared, readsDeclared⟩ := Composition.composeDeclared_of_assigned there assigned
  refine ⟨n, composesDeclared, fun s member => ?_⟩
  obtain ⟨v, is⟩ := assigned s member
  exact ⟨v, (reads s.name).trans is, (readsDeclared s member).trans is⟩

/-- Composing all entries fails at the first that names no data. -/
theorem fault_of_compose {data : Value} {variant separator : String} {selection : Mapping} {failure : Failure}
    (selected : Composition.selection data (selectionName variant separator) = .ok selection)
    (fails : Composition.compose data variant separator = .error failure) :
    ∃ before entry after, selection = before ++ entry :: after ∧ (∀ e ∈ before, Resolves data separator e) ∧
      ¬ Resolves data separator entry ∧
      resolve data (selectionName variant separator) separator entry = .error failure := by
  rw [Composition.compose_of_selection selected] at fails
  obtain ⟨before, entry, after, split, succeed, atEntry⟩ := mapM_eq_error_iff.mp (map_eq_error_iff.mp fails)
  refine ⟨before, entry, after, split, fun e inFront => ?_, ?_, atEntry⟩
  · exact (Composition.resolves_iff _).mpr (succeed e inFront)
  · intro resolves
    obtain ⟨pair, succeeds⟩ := (Composition.resolves_iff _).mp resolves
    rw [succeeds] at atEntry
    cases atEntry

/-- Composing all entries of a selection without equal keys and composing the sections of a schema agree. If the
    first succeeds and the selection lists every section, the second gives each section the same data and has no
    other keys, each where it is first declared, and both bind alike. If the first fails on a document without
    violations, the first entry that names no data is of no section, and the failure is that entry's. -/
theorem compose_agrees (schema : Schema) (data : Value) (variant separator : String)
    (distinct : ∀ selection,
      Composition.selection data (selectionName variant separator) = .ok selection → Distinct selection) :
    (∀ selection m, Composition.selection data (selectionName variant separator) = .ok selection →
      Composition.compose data variant separator = .ok m →
      (∀ s ∈ schema.sections, selection.containsKey s.name = true) →
      ∃ n, Composition.composeDeclared schema data variant separator = .ok n ∧
        (∀ s ∈ schema.sections, ∃ v, m.get? s.name = some v ∧ n.get? s.name = some v) ∧
        n.keys = (schema.sections.map Section.name).eraseDups.map .string ∧
        (ofSchema schema).bind m = (ofSchema schema).bind n ∧
        ∀ sectionId keyId, ((ofSchema schema).submit (.bind m)).2.get sectionId keyId =
          ((ofSchema schema).submit (.bind n)).2.get sectionId keyId) ∧
    (Validation.violations schema data variant separator = [] →
      ∀ failure, Composition.compose data variant separator = .error failure →
        ∃ selection before entry after,
          Composition.selection data (selectionName variant separator) = .ok selection ∧
          selection = before ++ entry :: after ∧ (∀ e ∈ before, Resolves data separator e) ∧
          ¬ Resolves data separator entry ∧
          resolve data (selectionName variant separator) separator entry = .error failure ∧
          ∀ s ∈ schema.sections, entry.1 ≠ .string s.name) := by
  constructor
  · intro selection m selected composes listed
    obtain ⟨n, composesDeclared, same⟩ :=
      composeDeclared_of_compose selected (distinct selection selected) composes listed
    have agree : ∀ s ∈ schema.sections, m.get? s.name = n.get? s.name := by
      intro s member
      obtain ⟨v, is, isToo⟩ := same s member
      exact is.trans isToo.symm
    have bound : (ofSchema schema).bind m = (ofSchema schema).bind n := bind_congr (bindings_congr_get? agree)
    refine ⟨n, composesDeclared, same, Composition.keys_of_composeDeclared selected composesDeclared, bound, ?_⟩
    intro sectionId keyId
    rw [submit_bind, submit_bind, bound]
  · intro clean failure fails
    have valid := Validation.valid_of_clean clean
    obtain ⟨root, selection, isRoot, there, _⟩ := id valid
    have selected : Composition.selection data (selectionName variant separator) = .ok selection :=
      Composition.selection_eq_ok_iff.mpr ⟨root, isRoot, there⟩
    obtain ⟨before, entry, after, split, resolves, unresolved, atEntry⟩ := fault_of_compose selected fails
    have member : entry ∈ selection := split ▸ List.mem_append_right before List.mem_cons_self
    exact ⟨selection, before, entry, after, selected, split, resolves, unresolved, atEntry,
      undeclared_of_valid selected (distinct selection selected) valid member unresolved⟩

/-- Two slots of one section, beside an entry that no slot asks for and that need not name any data. -/
theorem compose_agrees_parma :
    let schema := Sample.parma.declare "again" ((Section.empty "parma").declare "chatty" ⟨"chatty", .integer⟩)
    let labels (cache : Value) : Mapping := [(.string "cache", cache), (.string "parma", .string "main")]
    let data (cache : Value) : Value := .mapping [(.string "parma.main", .mapping [(.string "chatty", .integer 5)]),
      (.string "compose.prod", .mapping (labels cache)), (.string "cache.big", .null)]
    (∃ m n, Composition.compose (data (.string "big")) "prod" "." = .ok m ∧
      m.keys = [.string "cache", .string "parma"] ∧
      Composition.composeDeclared schema (data (.string "big")) "prod" "." = .ok n ∧ n.keys = [.string "parma"] ∧
      (ofSchema schema).bind m = (ofSchema schema).bind n) ∧
    Validation.violations schema (data (.integer 1)) "prod" "." = [] ∧
    Composition.compose (data (.integer 1)) "prod" "." = .error (.missingEntry "compose.prod['cache']") ∧
    ∃ entry after, labels (.integer 1) = entry :: after ∧ ¬ Resolves (data (.integer 1)) "." entry ∧
      ∀ s ∈ schema.sections, entry.1 ≠ .string s.name := by
  intro schema labels data
  have selected : ∀ cache, Composition.selection (data cache) "compose.prod" = .ok (labels cache) := fun _ => rfl
  have distinct : ∀ cache selection,
      Composition.selection (data cache) "compose.prod" = .ok selection → Distinct selection := by
    intro cache selection found
    cases (selected cache).symm.trans found
    exact List.pairwise_cons.mpr ⟨List.forall_mem_singleton.mpr rfl, List.pairwise_singleton _ _⟩
  obtain ⟨agree, _⟩ := compose_agrees schema (data (.string "big")) "prod" "." (distinct _)
  obtain ⟨_, refuse⟩ := compose_agrees schema (data (.integer 1)) "prod" "." (distinct _)
  have clean : Validation.violations schema (data (.integer 1)) "prod" "." = [] := by decide
  have fails : Composition.compose (data (.integer 1)) "prod" "." =
    .error (.missingEntry "compose.prod['cache']") := rfl
  refine ⟨?_, clean, fails, ?_⟩
  · obtain ⟨n, composes, _, keys, bound, _⟩ := agree (labels (.string "big"))
      [(.string "cache", .null), (.string "parma", .mapping [(.string "chatty", .integer 5)])] (selected _) rfl
      (List.forall_mem_cons.mpr ⟨rfl, List.forall_mem_singleton.mpr rfl⟩)
    exact ⟨_, n, rfl, rfl, composes, keys.trans rfl, bound⟩
  · obtain ⟨selection, before, entry, after, found, split, succeed, unresolved, _, undeclared⟩ := refuse clean _ fails
    cases (selected (.integer 1)).symm.trans found
    cases before with
    | nil => exact ⟨entry, after, split, unresolved, undeclared⟩
    | cons first before =>
      obtain ⟨rfl, _⟩ := List.cons.inj split
      obtain ⟨_, _, _, wrong, _⟩ := succeed _ List.mem_cons_self
      cases wrong

end Config

end TypedConfig
