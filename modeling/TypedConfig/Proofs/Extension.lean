import TypedConfig.Proofs.Binding

/-!
Schemas that inherit. Items declared before and after a table inherits stand behind
the parent's, if none of them has an identifier of the parent's
(`Declarations.entries_extended`). So the problems of a document for the schema are
those for the parent and then those for its own slots, and initialization succeeds
exactly if it does for both (`extension_adds_up`).
-/
namespace TypedConfig

/-! ### Tables -/

namespace Declarations
variable {α : Type}

/-- The table with items declared in order. -/
def declareAll (d : Declarations α) (items : List (String × α)) : Declarations α :=
  items.foldl (fun table item => table.declare item.1 item.2) d

/-- The table that items come to which are declared before and after a parent is inherited. -/
def extended (parent : Declarations α) (before after : List (String × α)) : Declarations α :=
  ((empty.declareAll before).inherit parent).declareAll after

theorem put_append {id : String} {front : List (String × α)} (absent : id ∉ front.map Prod.fst) (item : α)
    (back : List (String × α)) : put id item (front ++ back) = front ++ put id item back := by
  induction front with
  | nil => rfl
  | cons entry front ih =>
    obtain ⟨i, x⟩ := entry
    rw [List.map_cons, List.mem_cons, not_or] at absent
    rw [List.cons_append, put, if_neg (Ne.symm absent.1), ih absent.2, List.cons_append]

theorem put_of_not_mem {id : String} {entries : List (String × α)} (absent : id ∉ entries.map Prod.fst) (item : α) :
    put id item entries = entries ++ [(id, item)] := by
  have behind := put_append absent item []
  rwa [List.append_nil] at behind

/-- Items whose identifiers the front does not have are declared behind it. -/
theorem entries_declareAll_append (items : List (String × α)) :
    ∀ {d own : Declarations α} {front : List (String × α)}, d.entries = front ++ own.entries →
      (∀ item ∈ items, item.1 ∉ front.map Prod.fst) →
      (d.declareAll items).entries = front ++ (own.declareAll items).entries := by
  induction items with
  | nil => intro d own front split _; exact split
  | cons item items ih =>
    intro d own front split absent
    obtain ⟨here, later⟩ := List.forall_mem_cons.mp absent
    have first : (d.declare item.1 item.2).entries = front ++ (own.declare item.1 item.2).entries := by
      change put item.1 item.2 d.entries = _
      rw [split, put_append here]
      rfl
    exact ih first later

/-- Items with identifiers of their own are declared one behind the other. -/
theorem entries_declareAll_distinct (items : List (String × α)) :
    ∀ {d : Declarations α}, ((d.entries ++ items).map Prod.fst).Nodup →
      (d.declareAll items).entries = d.entries ++ items := by
  induction items with
  | nil => intro d _; exact (List.append_nil _).symm
  | cons item items ih =>
    intro d distinct
    have absent : item.1 ∉ d.entries.map Prod.fst := by
      rw [List.map_append, List.nodup_append] at distinct
      exact fun there => distinct.2.2 _ there _ List.mem_cons_self rfl
    have first : (d.declare item.1 item.2).entries = d.entries ++ [item] := put_of_not_mem absent item.2
    have rest : (((d.declare item.1 item.2).entries ++ items).map Prod.fst).Nodup := by
      rwa [first, List.append_assoc]
    change ((d.declare item.1 item.2).declareAll items).entries = _
    rw [ih rest, first, List.append_assoc, List.singleton_append]

theorem mem_ids_declareAll (items : List (String × α)) :
    ∀ {d : Declarations α} {entry : String × α}, entry ∈ (d.declareAll items).entries →
      entry.1 ∈ d.ids ∨ entry.1 ∈ items.map Prod.fst := by
  induction items with
  | nil => intro d entry member; exact .inl (List.mem_map_of_mem member)
  | cons item items ih =>
    intro d entry member
    rcases ih (d := d.declare item.1 item.2) member with inTable | later
    · rcases (mem_map_fst_put d.entries).mp inTable with same | there
      · exact .inr (same ▸ List.mem_cons_self)
      · exact .inl there
    · exact .inr (List.mem_cons_of_mem _ later)

/-- Wherever a parent is inherited, its items come first and all others as if nothing were inherited, if none of
    them has an identifier of the parent's. -/
theorem entries_extended {parent : Declarations α} {before after : List (String × α)}
    (disjoint : ∀ item ∈ before ++ after, item.1 ∉ parent.ids) :
    (extended parent before after).entries = parent.entries ++ (empty.declareAll (before ++ after)).entries := by
  obtain ⟨beforeDisjoint, afterDisjoint⟩ := List.forall_mem_append.mp disjoint
  have own : ∀ item ∈ (empty.declareAll before).entries, item.1 ∉ parent.entries.map Prod.fst := by
    intro item member
    rcases mem_ids_declareAll before member with inEmpty | declared
    · cases inEmpty
    · obtain ⟨call, called, same⟩ := List.mem_map.mp declared
      exact same ▸ beforeDisjoint call called
  have distinct : (((parent.entries ++ (empty.declareAll before).entries)).map Prod.fst).Nodup := by
    rw [List.map_append, List.nodup_append]
    refine ⟨parent.distinct, (empty.declareAll before).distinct, fun id inParent other inOwn same => ?_⟩
    obtain ⟨item, member, rfl⟩ := List.mem_map.mp inOwn
    exact own item member (same ▸ inParent)
  have inherited : ((empty.declareAll before).inherit parent).entries =
      parent.entries ++ (empty.declareAll before).entries := entries_declareAll_distinct _ distinct
  have inARow : empty.declareAll (before ++ after) = (empty.declareAll before).declareAll after := List.foldl_append
  rw [extended, entries_declareAll_append after inherited afterDisjoint, inARow]

end Declarations

/-! ### Schemas and sections -/

/-- The section with keys declared in order. -/
def Section.declareAll (s : Section) (keys : List (String × Key)) : Section :=
  keys.foldl (fun s key => s.declare key.1 key.2) s

/-- The schema with slots declared in order. -/
def Schema.declareAll (s : Schema) (slots : List (String × Section)) : Schema :=
  slots.foldl (fun s slot => s.declare slot.1 slot.2) s

theorem Section.declareAll_eq (keys : List (String × Key)) :
    ∀ s : Section, s.declareAll keys = ⟨s.name, s.keys.declareAll keys⟩ := by
  induction keys with
  | nil => intro s; rfl
  | cons key keys ih => intro s; exact ih (s.declare key.1 key.2)

theorem Schema.declareAll_eq (slots : List (String × Section)) :
    ∀ s : Schema, s.declareAll slots = ⟨s.slots.declareAll slots⟩ := by
  induction slots with
  | nil => intro s; rfl
  | cons slot slots ih => intro s; exact ih (s.declare slot.1 slot.2)

/-- The schema of slots of its own with the slots of a parent, inherited between two of them. -/
def Schema.extended (parent : Schema) (before after : List (String × Section)) : Schema :=
  ((Schema.empty.declareAll before).extend parent).declareAll after

/-- The section of keys of its own with the keys of a parent, inherited between two of them. -/
def Section.extended (parent : Section) (name : String) (before after : List (String × Key)) : Section :=
  (((Section.empty name).declareAll before).extend parent).declareAll after

theorem Schema.entries_extended {parent : Schema} {before after : List (String × Section)}
    (disjoint : ∀ slot ∈ before ++ after, slot.1 ∉ parent.slots.ids) :
    (parent.extended before after).slots.entries =
      parent.slots.entries ++ (Schema.empty.declareAll (before ++ after)).slots.entries := by
  simp only [Schema.extended, Schema.declareAll_eq, Schema.extend]
  exact Declarations.entries_extended disjoint

theorem Section.entries_extended {parent : Section} (name : String) {before after : List (String × Key)}
    (disjoint : ∀ key ∈ before ++ after, key.1 ∉ parent.keys.ids) :
    (parent.extended name before after).keys.entries =
      parent.keys.entries ++ ((Section.empty name).declareAll (before ++ after)).keys.entries := by
  simp only [Section.extended, Section.declareAll_eq, Section.extend]
  exact Declarations.entries_extended disjoint

namespace Validation

theorem violations_append {schema front back : Schema}
    (split : schema.slots.entries = front.slots.entries ++ back.slots.entries)
    {root selection : Mapping} {variant separator : String}
    (selected : root.get? (selectionName variant separator) = some (.mapping selection)) :
    violations schema (.mapping root) variant separator =
      violations front (.mapping root) variant separator ++ violations back (.mapping root) variant separator := by
  simp only [violations_of_selection selected, Schema.sections, split, List.map_append, List.flatMap_append]

theorem validateSection_append {s front back : Section}
    (split : s.keys.entries = front.keys.entries ++ back.keys.entries)
    (entries : Mapping) (fullName : String) (found : List Violation) :
    validateSection s (.mapping entries) fullName found =
      found ++ validateSection front (.mapping entries) fullName [] ++
        validateSection back (.mapping entries) fullName [] := by
  simp only [validateSection_mapping, split, List.map_append, List.flatMap_append, List.nil_append, List.append_assoc]

/-- A document is valid for slots in a row exactly if it is valid for all of them. -/
theorem valid_append_iff {schema front back : Schema}
    (split : schema.slots.entries = front.slots.entries ++ back.slots.entries) (data : Value)
    (variant separator : String) :
    Valid schema data variant separator ↔ Valid front data variant separator ∧ Valid back data variant separator := by
  have sections : schema.sections = front.sections ++ back.sections := by
    rw [Schema.sections, split, List.map_append]
    rfl
  constructor
  · rintro ⟨root, selection, isRoot, selected, each⟩
    rw [sections] at each
    obtain ⟨inFront, inBack⟩ := List.forall_mem_append.mp each
    exact ⟨⟨root, selection, isRoot, selected, inFront⟩, ⟨root, selection, isRoot, selected, inBack⟩⟩
  · rintro ⟨⟨root, selection, rfl, selected, inFront⟩, ⟨_, _, sameRoot, sameSelection, inBack⟩⟩
    cases sameRoot
    cases selected.symm.trans sameSelection
    refine ⟨root, selection, rfl, selected, ?_⟩
    rw [sections]
    exact List.forall_mem_append.mpr ⟨inFront, inBack⟩

end Validation

namespace Config

theorem init_succeeds_iff (schema : Schema) (data : Value) (variant separator : String) :
    (∃ c, ((ofSchema schema).init data variant separator).result = .ok c) ↔
      Validation.Valid schema data variant separator := by
  constructor
  · rintro ⟨c, succeeds⟩
    refine Validation.valid_of_clean (Classical.byContradiction fun dirty => ?_)
    cases succeeds.symm.trans (init_of_violations dirty)
  · intro valid
    obtain ⟨values, bound, _⟩ := init_of_valid valid
    exact ⟨_, bound⟩

/-- Schemas that share slots read the same from one document under these slots. -/
theorem get_eq_of_shared {schema other : Schema} {data : Value} {variant separator : String} {c d : Config}
    (bound : ((ofSchema schema).init data variant separator).result = .ok c)
    (boundOther : ((ofSchema other).init data variant separator).result = .ok d) {slot : String × Section}
    (declared : slot ∈ schema.slots.entries) (declaredOther : slot ∈ other.slots.entries) {key : String × Key}
    (has : key ∈ slot.2.keys.entries) : ∃ v, c.get slot.1 key.1 = .ok v ∧ d.get slot.1 key.1 = .ok v := by
  obtain ⟨_, run, root, selection, rfl, selected, reads⟩ :=
    init_of_valid ((init_succeeds_iff schema data variant separator).mp ⟨c, bound⟩)
  obtain ⟨_, runOther, _, _, sameRoot, sameSelection, readsOther⟩ :=
    init_of_valid ((init_succeeds_iff other _ variant separator).mp ⟨d, boundOther⟩)
  cases bound.symm.trans run
  cases boundOther.symm.trans runOther
  cases sameRoot
  cases selected.symm.trans sameSelection
  obtain ⟨label, entries, labelled, held, keys⟩ := reads slot declared
  obtain ⟨labelOther, entriesOther, labelledOther, heldOther, keysOther⟩ := readsOther slot declaredOther
  cases labelled.symm.trans labelledOther
  cases held.symm.trans heldOther
  obtain ⟨v, found, read, _⟩ := keys key has
  obtain ⟨w, foundOther, readOther, _⟩ := keysOther key has
  cases found.symm.trans foundOther
  exact ⟨v, read, readOther⟩

/-- Wherever among its own slots a schema inherits those of a parent, with other identifiers: the problems of a
    document with a selection are those for the parent and then those for the own slots; initialization succeeds
    exactly if it does for both; and the parent's slots then read as they do for the parent. Likewise the problems
    of a section's data are those for the parent's keys and then those for its own, behind those found before. -/
theorem extension_adds_up (parent : Schema) (before after : List (String × Section))
    (disjoint : ∀ slot ∈ before ++ after, slot.1 ∉ parent.slots.ids)
    (parentSection : Section) (name : String) (keysBefore keysAfter : List (String × Key))
    (disjointKeys : ∀ key ∈ keysBefore ++ keysAfter, key.1 ∉ parentSection.keys.ids) :
    let child := parent.extended before after
    let own := Schema.empty.declareAll (before ++ after)
    let childSection := parentSection.extended name keysBefore keysAfter
    let ownSection := (Section.empty name).declareAll (keysBefore ++ keysAfter)
    (∀ (root selection : Mapping) (variant separator : String),
      root.get? ("compose" ++ separator ++ variant) = some (.mapping selection) →
      Validation.violations child (.mapping root) variant separator =
        Validation.violations parent (.mapping root) variant separator ++
          Validation.violations own (.mapping root) variant separator) ∧
    (∀ (data : Value) (variant separator : String),
      ((∃ c, ((ofSchema child).init data variant separator).result = .ok c) ↔
        (∃ c, ((ofSchema parent).init data variant separator).result = .ok c) ∧
          ∃ c, ((ofSchema own).init data variant separator).result = .ok c) ∧
      ∀ c d, ((ofSchema child).init data variant separator).result = .ok c →
        ((ofSchema parent).init data variant separator).result = .ok d →
        ∀ slot ∈ parent.slots.entries, ∀ key ∈ slot.2.keys.entries,
          ∃ v, c.get slot.1 key.1 = .ok v ∧ d.get slot.1 key.1 = .ok v) ∧
    ∀ (entries : Mapping) (fullName : String) (found : List Violation),
      Validation.validateSection childSection (.mapping entries) fullName found =
        found ++ Validation.validateSection parentSection (.mapping entries) fullName [] ++
          Validation.validateSection ownSection (.mapping entries) fullName [] := by
  intro child own childSection ownSection
  have split := Schema.entries_extended disjoint
  have splitKeys := Section.entries_extended name disjointKeys
  refine ⟨fun root selection variant separator selected => Validation.violations_append split selected,
    fun data variant separator => ⟨?_, ?_⟩, Validation.validateSection_append splitKeys⟩
  · simp only [init_succeeds_iff]
    exact Validation.valid_append_iff split data variant separator
  · intro c d bound boundParent slot declared key has
    have inherited : slot ∈ child.slots.entries := by
      rw [split]
      exact List.mem_append_left _ declared
    exact get_eq_of_shared bound boundParent inherited declared has

/-- Inherited after one slot and before another: a faulty slot of each kind, and then a valid document. -/
theorem extension_adds_up_parma :
    let before := [("server", Sample.server)]
    let after := [("database", (Section.empty "db").declare "url" ⟨"url", .string⟩)]
    let child := Sample.parma.extended before after
    let labels : Value := .mapping [(.string "parma", .string "main"), (.string "server", .string "eu"),
      (.string "db", .string "main")]
    let faulty : Mapping := [(.string "compose.prod", labels), (.string "parma.main", .mapping []),
      (.string "server.eu", .mapping [(.string "host", .string "h")]), (.string "db.main", .integer 1)]
    let whole : Value := .mapping [(.string "compose.prod", labels),
      (.string "parma.main", .mapping [(.string "chatty", .integer 5)]),
      (.string "server.eu", .mapping [(.string "host", .string "h"), (.string "port", .integer 80)]),
      (.string "db.main", .mapping [(.string "url", .string "db:1")])]
    Validation.violations child (.mapping faulty) "prod" "." =
        [⟨.ofKey "parma.main" "chatty", "missing key"⟩, ⟨.ofKey "server.eu" "port", "missing key"⟩,
          ⟨.ofSection "db.main", "\"integer\" instead of \"mapping\""⟩] ∧
      (∃ c d, ((ofSchema child).init whole "prod" ".").result = .ok c ∧
        ((ofSchema Sample.parma).init whole "prod" ".").result = .ok d ∧
        ∃ v, c.get "asor" "culex" = .ok v ∧ d.get "asor" "culex" = .ok v) ∧
      Validation.validateSection (Sample.server.extended "edge" [("zone", ⟨"zone", .string⟩)] []) (.mapping [])
          "edge.eu" [⟨.root, "before"⟩] =
        [⟨.root, "before"⟩, ⟨.ofKey "edge.eu" "host", "missing key"⟩, ⟨.ofKey "edge.eu" "port", "missing key"⟩,
          ⟨.ofKey "edge.eu" "zone", "missing key"⟩] := by
  intro before after child labels faulty whole
  have disjoint : ∀ slot ∈ before ++ after, slot.1 ∉ Sample.parma.slots.ids := by decide
  have disjointKeys : ∀ key ∈ [("zone", Key.mk "zone" .string)] ++ [], key.1 ∉ Sample.server.keys.ids := by decide
  obtain ⟨adds, binds, keys⟩ := extension_adds_up Sample.parma before after disjoint Sample.server "edge"
    [("zone", ⟨"zone", .string⟩)] [] disjointKeys
  have both : Validation.Valid child whole "prod" "." := Validation.valid_of_clean (by decide)
  obtain ⟨succeeds, reads⟩ := binds whole "prod" "."
  obtain ⟨c, bound⟩ := (init_succeeds_iff child whole "prod" ".").mpr both
  obtain ⟨⟨d, boundParent⟩, _⟩ := succeeds.mp ⟨c, bound⟩
  exact ⟨(adds faulty _ "prod" "." rfl).trans (by decide),
    ⟨c, d, bound, boundParent,
      reads c d bound boundParent ("asor", _) List.mem_cons_self ("culex", _) List.mem_cons_self⟩,
    (keys [] "edge.eu" [⟨.root, "before"⟩]).trans (by decide)⟩

end Config

end TypedConfig
