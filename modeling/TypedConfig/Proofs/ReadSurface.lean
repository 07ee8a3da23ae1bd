import TypedConfig.Proofs.Calls
import TypedConfig.Proofs.Lookup
import TypedConfig.Proofs.Loops

/-!
Binding a configuration to composed data. It succeeds exactly if every slot is supplied
and otherwise names what is lacking first, in order of declaration (`bindings_eq_error_iff`).
A bound configuration answers to the identifiers of its schema and to nothing else
(`bind_exposes_schema`).
-/
namespace TypedConfig

/-- Composed data has a mapping for a section, with an entry for each of its keys. -/
def Config.Supplies (composed : Mapping) (s : Section) : Prop :=
  ∃ data : Mapping, composed.get? s.name = some (.mapping data) ∧
    ∀ key ∈ s.keys.entries, data.containsKey key.2.name = true

/-- What composed data lacks for a section: the whole of it, or else the first of its keys that is not there. -/
inductive Config.Lacks (composed : Mapping) (s : Section) : String → Prop
  | whole (absent : ∀ data, composed.get? s.name ≠ some (.mapping data)) : Lacks composed s s.name
  | key {data : Mapping} {before after : List (String × Key)} {declared : String × Key}
      (there : composed.get? s.name = some (.mapping data)) (split : s.keys.entries = before ++ declared :: after)
      (present : ∀ key ∈ before, data.containsKey key.2.name = true)
      (missing : data.containsKey declared.2.name = false) :
      Lacks composed s (s.name ++ "[" ++ declared.2.name ++ "]")

/-! ### Values of slots -/

namespace SectionValue

/-- The value of one key, under its identifier. -/
def valueOf (name : String) (data : Mapping) (declared : String × Key) : Except Failure (String × Value) :=
  match data.get? declared.2.name with
  | some v => .ok (declared.1, v)
  | none => .error (.missingEntry (name ++ "[" ++ declared.2.name ++ "]"))

theorem collect_eq_mapM (name : String) (data : Mapping) (keys : List (String × Key)) :
    collect name data keys = keys.mapM (valueOf name data) := by
  induction keys with
  | nil => rfl
  | cons declared keys ih =>
    obtain ⟨id, key⟩ := declared
    rw [collect, List.mapM_cons, ih, valueOf]
    cases data.get? key.name <;> rfl

/-- The values of a section are those that its data has under the names of its
    keys, in order of declaration. -/
theorem collect_eq_ok_iff {name : String} {data : Mapping} {keys : List (String × Key)}
    {values : List (String × Value)} :
    collect name data keys = .ok values ↔
      List.Forall₂ (fun key value => value.1 = key.1 ∧ data.get? key.2.name = some value.2) keys values := by
  rw [collect_eq_mapM, mapM_eq_ok_iff]
  refine Iff.of_eq (congrArg (List.Forall₂ · keys values) ?_)
  funext key value
  obtain ⟨id, v⟩ := value
  unfold valueOf
  cases data.get? key.2.name <;> simp [eq_comm]

/-- A section is built exactly from data that has an entry for each of its keys. -/
theorem ofData_eq_ok_iff {s : Section} {data : Mapping} {value : SectionValue} :
    ofData s data = .ok value ↔ value.name = s.name ∧
      List.Forall₂ (fun key value => value.1 = key.1 ∧ data.get? key.2.name = some value.2)
        s.keys.entries value.values := by
  rw [← @collect_eq_ok_iff s.name]
  obtain ⟨name, values⟩ := value
  unfold ofData
  cases collect s.name data s.keys.entries with
  | error failure => simp [Bind.bind, Except.bind]
  | ok built => simp [Bind.bind, Except.bind, Pure.pure, Except.pure, eq_comm]

theorem ofData_eq_mapM (s : Section) (data : Mapping) :
    ofData s data = (s.keys.entries.mapM (valueOf s.name data)).map (SectionValue.mk s.name) := by
  rw [ofData, collect_eq_mapM]
  cases s.keys.entries.mapM (valueOf s.name data) <;> rfl

end SectionValue

namespace Config

/-- The values of one slot, under its identifier. -/
def valuesOf (composed : Mapping) (slot : String × Section) : Except Failure (String × SectionValue) :=
  match (composed.get? slot.2.name).bind Value.mapping? with
  | some data => (SectionValue.ofData slot.2 data).map (slot.1, ·)
  | none => .error (.missingEntry slot.2.name)

theorem bindings_eq_mapM (composed : Mapping) (slots : List (String × Section)) :
    bindings composed slots = slots.mapM (valuesOf composed) := by
  induction slots with
  | nil => rfl
  | cons slot slots ih =>
    obtain ⟨id, s⟩ := slot
    rw [bindings, List.mapM_cons, ih, valuesOf]
    cases (composed.get? s.name).bind Value.mapping? with
    | none => rfl
    | some data =>
      dsimp only
      cases SectionValue.ofData s data <;> rfl

/-- A section has its values from composed data. -/
def Populates (composed : Mapping) (s : Section) (value : SectionValue) : Prop :=
  ∃ data, composed.get? s.name = some (.mapping data) ∧ SectionValue.ofData s data = .ok value

theorem valuesOf_eq_ok_iff {composed : Mapping} {slot : String × Section} {value : String × SectionValue} :
    valuesOf composed slot = .ok value ↔ value.1 = slot.1 ∧ Populates composed slot.2 value.2 := by
  obtain ⟨id, built⟩ := value
  unfold valuesOf Populates
  cases found : (composed.get? slot.2.name).bind Value.mapping? with
  | none =>
    have absent : ∀ data, composed.get? slot.2.name ≠ some (.mapping data) := by
      intro data there
      simp [there, Value.mapping?] at found
    simp [absent]
  | some data =>
    obtain ⟨v, there, isMapping⟩ := Option.bind_eq_some_iff.mp found
    obtain rfl := Value.mapping?_eq_some_iff.mp isMapping
    rw [there]
    cases result : SectionValue.ofData slot.2 data with
    | error failure => simp [Except.map, result]
    | ok value => simp [Except.map, result, eq_comm]

/-- The bound values are those of the slots, in order of declaration. -/
theorem bindings_eq_ok_iff {composed : Mapping} {slots : List (String × Section)} {values : Bindings} :
    bindings composed slots = .ok values ↔
      List.Forall₂ (fun slot value => value.1 = slot.1 ∧ Populates composed slot.2 value.2) slots values := by
  rw [bindings_eq_mapM, mapM_eq_ok_iff]
  simp only [valuesOf_eq_ok_iff]

end Config

/-! ### What is lacking -/

namespace SectionValue

theorem exists_valueOf_iff {name : String} {data : Mapping} {declared : String × Key} :
    (∃ value, valueOf name data declared = .ok value) ↔ data.containsKey declared.2.name = true := by
  unfold valueOf Mapping.containsKey
  cases data.get? declared.2.name <;> simp

theorem valueOf_eq_error_iff {name : String} {data : Mapping} {declared : String × Key} {failure : Failure} :
    valueOf name data declared = .error failure ↔
      data.containsKey declared.2.name = false ∧ failure = .missingEntry (name ++ "[" ++ declared.2.name ++ "]") := by
  unfold valueOf Mapping.containsKey
  cases data.get? declared.2.name <;> simp [eq_comm]

theorem exists_ofData_iff {s : Section} {data : Mapping} :
    (∃ value, ofData s data = .ok value) ↔ ∀ key ∈ s.keys.entries, data.containsKey key.2.name = true := by
  simp only [ofData_eq_mapM, exists_map_iff, exists_mapM_iff, exists_valueOf_iff]

/-- A section is not built if a key of it is lacking, and then the first such key is named. -/
theorem ofData_eq_error_iff {s : Section} {data : Mapping} {failure : Failure} :
    ofData s data = .error failure ↔ ∃ before declared after, s.keys.entries = before ++ declared :: after ∧
      (∀ key ∈ before, data.containsKey key.2.name = true) ∧ data.containsKey declared.2.name = false ∧
      failure = .missingEntry (s.name ++ "[" ++ declared.2.name ++ "]") := by
  simp only [ofData_eq_mapM, map_eq_error_iff, mapM_eq_error_iff, exists_valueOf_iff, valueOf_eq_error_iff]

end SectionValue

namespace Config

theorem exists_valuesOf_iff {composed : Mapping} {slot : String × Section} :
    (∃ value, valuesOf composed slot = .ok value) ↔ Supplies composed slot.2 := by
  simp only [valuesOf_eq_ok_iff, Supplies, ← SectionValue.exists_ofData_iff]
  constructor
  · rintro ⟨value, _, data, there, built⟩
    exact ⟨data, there, value.2, built⟩
  · rintro ⟨data, there, value, built⟩
    exact ⟨(slot.1, value), rfl, data, there, built⟩

theorem valuesOf_eq_error_iff {composed : Mapping} {slot : String × Section} {failure : Failure} :
    valuesOf composed slot = .error failure ↔
      ∃ entry, Lacks composed slot.2 entry ∧ failure = .missingEntry entry := by
  unfold valuesOf
  cases found : (composed.get? slot.2.name).bind Value.mapping? with
  | none =>
    have absent : ∀ data, composed.get? slot.2.name ≠ some (.mapping data) := by
      intro data there
      simp [there, Value.mapping?] at found
    constructor
    · intro fails
      cases fails
      exact ⟨_, .whole absent, rfl⟩
    · rintro ⟨entry, lacks, rfl⟩
      cases lacks with
      | whole => rfl
      | key there => exact absurd there (absent _)
  | some data =>
    obtain ⟨v, there, isMapping⟩ := Option.bind_eq_some_iff.mp found
    obtain rfl := Value.mapping?_eq_some_iff.mp isMapping
    dsimp only
    rw [map_eq_error_iff, SectionValue.ofData_eq_error_iff]
    constructor
    · rintro ⟨before, declared, after, split, present, missing, rfl⟩
      exact ⟨_, .key there split present missing, rfl⟩
    · rintro ⟨entry, lacks, rfl⟩
      cases lacks with
      | whole absent => exact absurd there (absent data)
      | key also split present missing =>
        obtain rfl : data = _ := Value.mapping.inj (Option.some.inj (there.symm.trans also))
        exact ⟨_, _, _, split, present, missing, rfl⟩

theorem exists_bindings_iff {composed : Mapping} {slots : List (String × Section)} :
    (∃ values, bindings composed slots = .ok values) ↔ ∀ slot ∈ slots, Supplies composed slot.2 := by
  simp only [bindings_eq_mapM, exists_mapM_iff, exists_valuesOf_iff]

/-- The fault that is named is that of the first slot which is not supplied. -/
theorem bindings_eq_error_iff {composed : Mapping} {slots : List (String × Section)} {failure : Failure} :
    bindings composed slots = .error failure ↔ ∃ before slot after entry, slots = before ++ slot :: after ∧
      (∀ earlier ∈ before, Supplies composed earlier.2) ∧ Lacks composed slot.2 entry ∧
      failure = .missingEntry entry := by
  simp only [bindings_eq_mapM, mapM_eq_error_iff, exists_valuesOf_iff, valuesOf_eq_error_iff, exists_and_left]

theorem missingEntry_of_bindings {composed : Mapping} {slots : List (String × Section)} {failure : Failure}
    (failed : bindings composed slots = .error failure) : ∃ entry, failure = .missingEntry entry := by
  obtain ⟨_, _, _, entry, _, _, _, names⟩ := bindings_eq_error_iff.mp failed
  exact ⟨entry, names⟩

end Config

/-! ### What can be read -/

/-- In a table with one item for each declaration, no other identifier leads to an item. -/
theorem find?_eq_none_of_forall₂ {α β : Type} {R : α → β → Prop} {declared : List (String × α)}
    {items : List (String × β)} (related : List.Forall₂ (fun d i => i.1 = d.1 ∧ R d.2 i.2) declared items) {id : String}
    (undeclared : id ∉ declared.map Prod.fst) : items.find? (fun item => item.1 == id) = none := by
  have sameIds : items.map Prod.fst = declared.map Prod.fst :=
    map_eq_of_forall₂ Prod.fst Prod.fst (fun _ _ _ same => same.1) related
  rw [← sameIds] at undeclared
  refine List.find?_eq_none.mpr fun item member isIt => ?_
  exact undeclared (List.mem_map.mpr ⟨item, member, by simpa using isIt⟩)

namespace SectionValue

theorem get_of_ofData {s : Section} {data : Mapping} {value : SectionValue} (built : ofData s data = .ok value)
    {key : String × Key} (declared : key ∈ s.keys.entries) :
    ∃ v, data.get? key.2.name = some v ∧ value.get key.1 = .ok v := by
  obtain ⟨v, found, there⟩ :=
    find?_of_forall₂ (R := fun (key : Key) (v : Value) => data.get? key.name = some v)
      (ofData_eq_ok_iff.mp built).2 s.keys.distinct declared
  exact ⟨v, there, by simp [SectionValue.get, found]⟩

theorem get_of_undeclared {s : Section} {data : Mapping} {value : SectionValue} (built : ofData s data = .ok value)
    {keyId : String} (undeclared : keyId ∉ s.keys.ids) : value.get keyId = .error (.unknownKey s.name keyId) := by
  obtain ⟨name, related⟩ := ofData_eq_ok_iff.mp built
  have nothing := find?_eq_none_of_forall₂ (R := fun (key : Key) (v : Value) => data.get? key.name = some v) related
    undeclared
  simp [SectionValue.get, nothing, name]

end SectionValue

namespace Config

/-- A configuration answers to the identifiers of a schema, with what composed data has under the names that the schema
    gives them, and to no others. -/
structure Exposes (composed : Mapping) (schema : Schema) (c : Config) : Prop where
  unknownSection : ∀ id, id ∉ schema.slots.ids → c.sectionValue id = .error (.unknownSection id) ∧
    ∀ keyId, c.get id keyId = .error (.unknownSection id)
  sectionValue : ∀ id s, (id, s) ∈ schema.slots.entries → ∃ value, c.sectionValue id = .ok value ∧ value.name = s.name
  unknownKey : ∀ id s keyId, (id, s) ∈ schema.slots.entries → keyId ∉ s.keys.ids →
    c.get id keyId = .error (.unknownKey s.name keyId)
  value : ∀ id s keyId key, (id, s) ∈ schema.slots.entries → (keyId, key) ∈ s.keys.entries →
    ∃ (data : Mapping) (v : Value), composed.get? s.name = some (.mapping data) ∧ data.get? key.name = some v ∧
      c.get id keyId = .ok v

theorem exposes_of_bindings {schema : Schema} {composed : Mapping} {values : Bindings}
    (built : bindings composed schema.slots.entries = .ok values) : Exposes composed schema ⟨schema, some values⟩ := by
  have related := bindings_eq_ok_iff.mp built
  have populated : ∀ id s, (id, s) ∈ schema.slots.entries → ∃ value data,
      (Config.mk schema (some values)).sectionValue id = .ok value ∧
      composed.get? s.name = some (.mapping data) ∧ SectionValue.ofData s data = .ok value := by
    intro id s declared
    obtain ⟨value, found, data, there, ofData⟩ := find?_of_forall₂ related schema.slots.distinct declared
    exact ⟨value, data, by simp [Config.sectionValue, found], there, ofData⟩
  constructor
  case unknownSection =>
    intro id undeclared
    have unknown : (Config.mk schema (some values)).sectionValue id = .error (.unknownSection id) := by
      simp [Config.sectionValue, find?_eq_none_of_forall₂ related undeclared]
    exact ⟨unknown, fun keyId => by rw [Config.get, unknown]; rfl⟩
  case sectionValue =>
    intro id s declared
    obtain ⟨value, data, read, _, ofData⟩ := populated id s declared
    exact ⟨value, read, (SectionValue.ofData_eq_ok_iff.mp ofData).1⟩
  case unknownKey =>
    intro id s keyId declared undeclared
    obtain ⟨value, data, read, _, ofData⟩ := populated id s declared
    rw [Config.get, read]
    exact SectionValue.get_of_undeclared ofData undeclared
  case value =>
    intro id s keyId key declared has
    obtain ⟨value, data, read, there, ofData⟩ := populated id s declared
    obtain ⟨v, found, readKey⟩ := SectionValue.get_of_ofData ofData has
    refine ⟨data, v, there, found, ?_⟩
    rw [Config.get, read]
    exact readKey

/-- What a bound configuration reads under the identifiers of a slot and a key is
    what the composed data has under their names. -/
theorem get_of_bindings {schema : Schema} {composed : Mapping} {values : Bindings}
    (built : bindings composed schema.slots.entries = .ok values) {slot : String × Section}
    (declared : slot ∈ schema.slots.entries) {key : String × Key} (has : key ∈ slot.2.keys.entries) :
    ∃ data v, composed.get? slot.2.name = some (.mapping data) ∧ Mapping.get? data key.2.name = some v ∧
      (Config.mk schema (some values)).get slot.1 key.1 = .ok v :=
  (exposes_of_bindings built).value slot.1 slot.2 key.1 key.2 declared has

/-- A configuration that is not bound is bound by composed data exactly if that supplies every slot. Otherwise the
    failure names what the first slot that is not supplied lacks. Once bound, the configuration answers to the
    identifiers of its schema and to no others. -/
theorem bind_exposes_schema (schema : Schema) (composed : Mapping) :
    let run := ((ofSchema schema).bind composed).result
    ((∃ bound, run = .ok bound) ↔ ∀ slot ∈ schema.slots.entries, Supplies composed slot.2) ∧
    (∀ failure, run = .error failure ↔ ∃ before slot after entry,
      schema.slots.entries = before ++ slot :: after ∧ (∀ earlier ∈ before, Supplies composed earlier.2) ∧
      Lacks composed slot.2 entry ∧ failure = .missingEntry entry) ∧
    ∀ bound, run = .ok bound → Exposes composed schema bound := by
  intro run
  have same : run = (bindings composed schema.slots.entries).map fun values => ⟨schema, some values⟩ :=
    bind_ofSchema schema composed
  rw [same, ← exists_bindings_iff]
  simp only [← bindings_eq_error_iff]
  cases built : bindings composed schema.slots.entries with
  | error failure => simp [Except.map]
  | ok values =>
    have exposes := exposes_of_bindings built
    simp [Except.map, exposes]

/-- Two slots of one section, whose keys have each other's names as identifiers. -/
theorem bind_exposes_schema_crosswise :
    let crosswise := (Section.empty "b").declare "x" ⟨"y", .integer⟩ |>.declare "y" ⟨"x", .integer⟩
    let schema := (Schema.empty.declare "a" crosswise).declare "c" ((Section.empty "b").declare "y" ⟨"y", .integer⟩)
    let composed (data : Mapping) : Mapping := [(.string "b", .mapping data)]
    let data : Mapping := [(.string "y", .integer 1), (.string "x", .integer 2)]
    ((ofSchema schema).bind (composed [(.string "y", .null)])).result = .error (.missingEntry "b[x]") ∧
    ∃ bound, ((ofSchema schema).bind (composed data)).result = .ok bound ∧
      bound.get "a" "x" = .ok (.integer 1) ∧ bound.get "a" "y" = .ok (.integer 2) ∧
      bound.get "c" "y" = .ok (.integer 1) ∧ bound.get "c" "x" = .error (.unknownKey "b" "x") ∧
      bound.sectionValue "b" = .error (.unknownSection "b") := by
  intro crosswise schema composed data
  obtain ⟨_, refuses, _⟩ := bind_exposes_schema schema (composed [(.string "y", .null)])
  obtain ⟨binds, _, exposes⟩ := bind_exposes_schema schema (composed data)
  have supplies : ∀ slot ∈ schema.slots.entries, Supplies (composed data) slot.2 :=
    List.forall_mem_cons.mpr ⟨⟨data, rfl, by decide⟩, List.forall_mem_singleton.mpr ⟨data, rfl, by decide⟩⟩
  have lacks : Lacks (composed [(.string "y", .null)]) crosswise "b[x]" :=
    @Lacks.key _ crosswise _ [("x", ⟨"y", .integer⟩)] [] ("y", ⟨"x", .integer⟩) rfl rfl (by decide) (by decide)
  obtain ⟨bound, ended⟩ := binds.mpr supplies
  have reads := exposes bound ended
  have first : ("a", crosswise) ∈ schema.slots.entries := List.mem_cons_self
  have second : ("c", (Section.empty "b").declare "y" ⟨"y", .integer⟩) ∈ schema.slots.entries :=
    List.mem_cons_of_mem _ List.mem_cons_self
  obtain ⟨_, _, there, found, x⟩ := reads.value "a" _ "x" _ first List.mem_cons_self
  cases there
  cases found
  obtain ⟨_, _, there, found, y⟩ := reads.value "a" _ "y" _ first (List.mem_cons_of_mem _ List.mem_cons_self)
  cases there
  cases found
  obtain ⟨_, _, there, found, again⟩ := reads.value "c" _ "y" _ second List.mem_cons_self
  cases there
  cases found
  exact ⟨(refuses _).mpr ⟨[], ("a", crosswise), _, _, rfl, List.forall_mem_nil _, lacks, rfl⟩, bound, ended, x, y, again,
    reads.unknownKey "c" _ "x" second (by decide), (reads.unknownSection "b" (by decide)).1⟩

end Config

end TypedConfig
