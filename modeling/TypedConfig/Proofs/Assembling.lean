import TypedConfig.Proofs.Loops
import TypedConfig.Proofs.Overlay

/-!
How entries become a mapping, or what stands under the mark of dates and times (`Mapping.assemble?`). Every reader takes its
entries from a source of its own and stores them in this one way; here this is shown of the reader of events
(`Event.means_mapping_iff`). It alone overlooks what comes after the mark, so events are looked at in which nothing does.
-/
namespace TypedConfig

/-! ### Entries in a row -/

namespace Mapping

/-- What entries make, stored one after the other over those of a mapping. A marked entry stands for the whole, and none may
    come after it. -/
def assemble? (m : Mapping) : List (Value × Value) → Option Value
  | [] => some (.mapping m)
  | (k, v) :: es =>
    if m.standsForWhole k then if es.isEmpty then some v else none
    else assemble? (m.insert k v) es

theorem assemble?_of_whole {m : Mapping} {k v w : Value} {es : List (Value × Value)} (whole : m.standsForWhole k = true) :
    m.assemble? ((k, v) :: es) = some w ↔ es = [] ∧ v = w := by
  rw [assemble?, if_pos whole]
  cases es with
  | nil => simp
  | cons e es => simp

theorem assemble?_of_kept {m : Mapping} {k v : Value} {es : List (Value × Value)} (kept : ¬ m.standsForWhole k = true) :
    m.assemble? ((k, v) :: es) = (m.insert k v).assemble? es := if_neg kept

/-- Entries that do not begin with the mark add up to a mapping. -/
theorem assemble?_of_unmarked {es : Mapping} : ∀ {m : Mapping},
    (m = [] → es.keys.head? ≠ some (.string dateTimeMark)) → m.assemble? es = some (.mapping (m.overlay es)) := by
  induction es with
  | nil => exact fun _ => rfl
  | cons e es ih =>
    intro m unmarked
    obtain ⟨k, v⟩ := e
    have kept : ¬ m.standsForWhole k = true := by
      rw [standsForWhole_iff]
      rintro ⟨empty, rfl⟩
      exact unmarked empty rfl
    rw [assemble?_of_kept kept, overlay_cons]
    exact ih fun empty => absurd empty (insert_ne_nil m k v)

theorem assemble?_eq_ofPairs {es : Mapping} (unmarked : es.keys.head? ≠ some (.string dateTimeMark)) :
    assemble? [] es = some (.mapping (ofPairs es)) := assemble?_of_unmarked fun _ => unmarked

end Mapping

namespace Event

/-! ### Events in which nothing comes after the mark -/

/-- Events are part of others: the others themselves, or part of what stands inside them. -/
inductive Part : Event → Event → Prop
  | whole (e : Event) : Part e e
  | some {e inner : Event} (part : Part e inner) : Part e (.some inner)
  | wrapped {e inner : Event} (part : Part e inner) : Part e (.wrapped inner)
  | element {e item : Event} {items : List Event} (member : item ∈ items) (part : Part e item) : Part e (.sequence items)
  | key {e : Event} {entry : Event × Event} {entries : List (Event × Event)} (member : entry ∈ entries)
    (part : Part e entry.1) : Part e (.mapping entries)
  | value {e : Event} {entry : Event × Event} {entries : List (Event × Event)} (member : entry ∈ entries)
    (part : Part e entry.2) : Part e (.mapping entries)
  | tag {e tag inner : Event} (part : Part e tag) : Part e (.tagged tag inner)
  | tagged {e tag inner : Event} (part : Part e inner) : Part e (.tagged tag inner)

/-- If the first entry is marked, there is no other. -/
def FirstAlone (entries : List (Event × Event)) : Prop :=
  ∀ k v rest, entries = (k, v) :: rest → k.read = .ok (.string dateTimeMark) → rest = []

/-- In no mapping, at any depth, an entry comes after one that is marked. -/
def MarkAlone (e : Event) : Prop := ∀ entries, Part (.mapping entries) e → FirstAlone entries

/-- Whether no events stand inside. -/
def isLeaf : Event → Bool
  | .some _ => false
  | .wrapped _ => false
  | .sequence _ => false
  | .mapping _ => false
  | .tagged _ _ => false
  | _ => true

theorem markAlone_of_isLeaf {e : Event} (leaf : e.isLeaf = true) : e.MarkAlone := by
  intro entries part
  cases part <;> cases leaf

theorem markAlone_sequence_iff {items : List Event} : MarkAlone (.sequence items) ↔ ∀ e ∈ items, e.MarkAlone := by
  constructor
  · exact fun alone e member entries part => alone entries (.element member part)
  · intro each entries part
    cases part with
    | element member part => exact each _ member entries part

theorem markAlone_mapping_iff {entries : List (Event × Event)} :
    MarkAlone (.mapping entries) ↔ FirstAlone entries ∧ ∀ e ∈ entries, e.1.MarkAlone ∧ e.2.MarkAlone := by
  constructor
  · intro alone
    refine ⟨alone entries (.whole _), fun e member => ⟨fun inside part => ?_, fun inside part => ?_⟩⟩
    · exact alone inside (.key member part)
    · exact alone inside (.value member part)
  · rintro ⟨here, each⟩ inside part
    cases part with
    | whole => exact here
    | key member part => exact (each _ member).1 inside part
    | value member part => exact (each _ member).2 inside part

/-! ### What such events mean -/

/-- The value that events stand for, if in no mapping an entry comes after one that is marked. -/
def Means (e : Event) (v : Value) : Prop := e.MarkAlone ∧ e.read = .ok v

theorem means_iff_of_isLeaf {e : Event} (leaf : e.isLeaf = true) {v : Value} : e.Means v ↔ e.read = .ok v :=
  and_iff_right (markAlone_of_isLeaf leaf)

theorem means_text_iff {s : String} {v : Value} : (Event.text s).Means v ↔ v = .string s := by
  rw [means_iff_of_isLeaf rfl]
  exact ⟨fun read => (Except.ok.inj read).symm, fun same => congrArg Except.ok same.symm⟩

theorem readItems_eq_mapM (es : List Event) : readItems es = es.mapM read := by
  induction es with
  | nil => rfl
  | cons e es ih => rw [readItems, ih, List.mapM_cons]

theorem means_sequence_iff {items : List Event} {w : Value} :
    Means (.sequence items) w ↔ ∃ vs, List.Forall₂ Means items vs ∧ w = .sequence vs := by
  unfold Means
  rw [markAlone_sequence_iff, read, bind_eq_ok_iff]
  simp only [readItems_eq_mapM, mapM_eq_ok_iff, List.forall₂_and_left]
  constructor
  · rintro ⟨alone, vs, each, same⟩
    cases same
    exact ⟨vs, ⟨alone, each⟩, rfl⟩
  · rintro ⟨vs, ⟨alone, each⟩, rfl⟩
    exact ⟨alone, vs, each, rfl⟩

theorem readEntries_cons_eq_ok_iff {m : Mapping} {k v : Event} {es : List (Event × Event)} {w : Value} :
    readEntries m ((k, v) :: es) = .ok w ↔
      ∃ key value, k.read = .ok key ∧ v.read = .ok value ∧
        if m.standsForWhole key then value = w else readEntries (m.insert key value) es = .ok w := by
  rw [readEntries, bind_eq_ok_iff]
  simp only [bind_eq_ok_iff]
  constructor
  · rintro ⟨key, isKey, value, isValue, rest⟩
    refine ⟨key, value, isKey, isValue, ?_⟩
    split at rest
    · next whole => exact (if_pos whole).mpr (Except.ok.inj rest)
    · next kept => exact (if_neg kept).mpr rest
  · rintro ⟨key, value, isKey, isValue, rest⟩
    refine ⟨key, isKey, value, isValue, ?_⟩
    split at rest
    · next whole => rw [if_pos whole, rest]; rfl
    · next kept => rw [if_neg kept, rest]

/-- The entry that a key and a value are read as. -/
def ReadsAs (e : Event × Event) (f : Value × Value) : Prop := e.1.read = .ok f.1 ∧ e.2.read = .ok f.2

/-- Reading entries is to read each and to store them in a row. -/
theorem readEntries_eq_ok_iff {es : List (Event × Event)} {w : Value} : ∀ {m : Mapping}, (m = [] → FirstAlone es) →
    (readEntries m es = .ok w ↔ ∃ fs, List.Forall₂ ReadsAs es fs ∧ m.assemble? fs = Option.some w) := by
  induction es with
  | nil =>
    intro m _
    constructor
    · rintro ⟨⟩
      exact ⟨[], .nil, rfl⟩
    · rintro ⟨_, ⟨⟩, made⟩
      exact congrArg Except.ok (Option.some.inj made)
  | cons e es ih =>
    intro m alone
    obtain ⟨k, v⟩ := e
    rw [readEntries_cons_eq_ok_iff]
    have step {key value : Value} (isKey : k.read = .ok key) :
        (if m.standsForWhole key then value = w else readEntries (m.insert key value) es = .ok w) ↔
          ∃ fs, List.Forall₂ ReadsAs es fs ∧ m.assemble? ((key, value) :: fs) = Option.some w := by
      by_cases whole : m.standsForWhole key = true
      · obtain ⟨empty, rfl⟩ := Mapping.standsForWhole_iff.mp whole
        obtain rfl := alone empty k v es rfl isKey
        simp [Mapping.assemble?_of_whole whole, whole]
      · simp only [Mapping.assemble?_of_kept whole, if_neg whole]
        exact ih fun empty => absurd empty (Mapping.insert_ne_nil m key value)
    constructor
    · rintro ⟨key, value, isKey, isValue, rest⟩
      obtain ⟨fs, each, made⟩ := (step isKey).mp rest
      exact ⟨(key, value) :: fs, .cons ⟨isKey, isValue⟩ each, made⟩
    · rintro ⟨_, each, made⟩
      obtain ⟨⟨key, value⟩, fs, ⟨isKey, isValue⟩, others, rfl⟩ := List.forall₂_cons_left_iff.mp each
      exact ⟨key, value, isKey, isValue, (step isKey).mpr ⟨fs, others, made⟩⟩

theorem firstAlone_of_assemble? {es : List (Event × Event)} {fs : List (Value × Value)} {w : Value}
    (each : List.Forall₂ ReadsAs es fs) (made : Mapping.assemble? [] fs = Option.some w) : FirstAlone es := by
  rintro k v rest rfl marked
  obtain ⟨⟨key, value⟩, fs, ⟨isKey, _⟩, others, rfl⟩ := List.forall₂_cons_left_iff.mp each
  have whole : Mapping.standsForWhole [] key = true :=
    Mapping.standsForWhole_iff.mpr ⟨rfl, Except.ok.inj (isKey.symm.trans marked)⟩
  obtain ⟨rfl, _⟩ := (Mapping.assemble?_of_whole whole).mp made
  exact List.forall₂_nil_right_iff.mp others

theorem means_mapping_iff {entries : List (Event × Event)} {w : Value} :
    Means (.mapping entries) w ↔
      ∃ fs, List.Forall₂ (fun e f => e.1.Means f.1 ∧ e.2.Means f.2) entries fs ∧ Mapping.assemble? [] fs = Option.some w := by
  unfold Means
  simp only [and_and_and_comm, List.forall₂_and_left]
  rw [markAlone_mapping_iff, read]
  constructor
  · rintro ⟨⟨first, each⟩, run⟩
    obtain ⟨fs, read, made⟩ := (readEntries_eq_ok_iff fun _ => first).mp run
    exact ⟨fs, ⟨each, read⟩, made⟩
  · rintro ⟨fs, ⟨each, read⟩, made⟩
    have first : FirstAlone entries := firstAlone_of_assemble? read made
    exact ⟨⟨first, each⟩, (readEntries_eq_ok_iff fun _ => first).mpr ⟨fs, read, made⟩⟩

end Event

end TypedConfig
