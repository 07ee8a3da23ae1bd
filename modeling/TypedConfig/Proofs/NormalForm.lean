import TypedConfig.Proofs.Assembling
import TypedConfig.Proofs.Nesting

/-!
What comes out of reading. In a value that was read, no mapping at any depth has equal keys or begins with the mark
of dates and times, because each entry is stored over those before it and the mark never becomes a first key
(`normal_of_read`). Such a value is read again from its own events as it is (`read_events`); so reading leaves exactly
the values that it does not change (`read_iff_normal`).
-/
namespace TypedConfig

namespace Value

/-- No mapping in a value has equal keys, or the mark of dates and times as its first key. -/
def Normal (v : Value) : Prop :=
  ∀ entries, Part (.mapping entries) v →
    Mapping.Distinct entries ∧ (Mapping.keys entries).head? ≠ some (.string dateTimeMark)

theorem normal_sequence_iff {items : List Value} : Normal (.sequence items) ↔ ∀ v ∈ items, v.Normal :=
  throughout_sequence_iff

theorem normal_mapping_iff {m : Mapping} :
    Normal (.mapping m) ↔ (m.Distinct ∧ m.keys.head? ≠ some (.string dateTimeMark)) ∧
      ∀ e ∈ m, e.1.Normal ∧ e.2.Normal := throughout_mapping_iff

/-- A value that is no sequence and no mapping is normal. -/
theorem normal_of_scalar {v : Value} (noSequence : v.sequence? = none) (noMapping : v.mapping? = none) : v.Normal :=
  throughout_of_scalar noSequence noMapping

theorem Normal.distinct {v : Value} (normal : v.Normal) : v.Throughout Mapping.Distinct :=
  fun entries part => (normal entries part).1

end Value

namespace Mapping

theorem normal_nil : Value.Normal (.mapping []) := Value.normal_mapping_iff.mpr ⟨⟨distinct_nil, nofun⟩, nofun⟩

/-- An entry of a mapping in which a value was stored was there before, or has the new value, and perhaps the key
    under which it is stored. -/
theorem mem_insert {m : Mapping} {k v : Value} {e : Value × Value} (member : e ∈ m.insert k v) :
    (e.1 = k ∨ ∃ f ∈ m, e.1 = f.1) ∧ (e.2 = v ∨ ∃ f ∈ m, e.2 = f.2) := by
  induction m with
  | nil =>
    obtain rfl := List.mem_singleton.mp member
    exact ⟨.inl rfl, .inl rfl⟩
  | cons f m ih =>
    obtain ⟨l, w⟩ := f
    rw [insert_cons] at member
    by_cases same : (l == k) = true
    · rw [if_pos same] at member
      rcases List.mem_cons.mp member with rfl | later
      · exact ⟨.inr ⟨_, List.mem_cons_self, rfl⟩, .inl rfl⟩
      · have there := List.mem_cons_of_mem (l, w) later
        exact ⟨.inr ⟨e, there, rfl⟩, .inr ⟨e, there, rfl⟩⟩
    · rw [if_neg same] at member
      rcases List.mem_cons.mp member with rfl | later
      · exact ⟨.inr ⟨_, List.mem_cons_self, rfl⟩, .inr ⟨_, List.mem_cons_self, rfl⟩⟩
      · have widen : ∀ {P : Value × Value → Prop}, (∃ f ∈ m, P f) → ∃ f ∈ (l, w) :: m, P f :=
          fun ⟨f, there, holds⟩ => ⟨f, List.mem_cons_of_mem _ there, holds⟩
        exact ⟨(ih later).1.imp id widen, (ih later).2.imp id widen⟩

theorem head?_keys_insert (m : Mapping) (k v : Value) :
    (m.insert k v).keys.head? = if m = [] then some k else m.keys.head? := by
  rw [keys_insert]
  cases m with
  | nil => rfl
  | cons e m => split <;> rfl

/-- Storing an entry keeps a mapping normal, unless the entry would stand for the whole. -/
theorem normal_insert {m : Mapping} {k v : Value} (normal : Value.Normal (.mapping m)) (key : k.Normal)
    (value : v.Normal) (kept : ¬ m.standsForWhole k = true) : Value.Normal (.mapping (m.insert k v)) := by
  obtain ⟨⟨distinct, unmarked⟩, parts⟩ := Value.normal_mapping_iff.mp normal
  refine Value.normal_mapping_iff.mpr ⟨⟨distinct_insert distinct k v, ?_⟩, fun e member => ?_⟩
  · rw [head?_keys_insert]
    split
    · next empty => exact fun marked => kept (standsForWhole_iff.mpr ⟨empty, Option.some.inj marked⟩)
    · exact unmarked
  · obtain ⟨first, second⟩ := mem_insert member
    constructor
    · rcases first with same | ⟨f, there, same⟩
      · exact same ▸ key
      · exact same ▸ (parts f there).1
    · rcases second with same | ⟨f, there, same⟩
      · exact same ▸ value
      · exact same ▸ (parts f there).2

end Mapping

namespace Event
open Value

/-! ### What is read is normal -/

mutual

theorem normal_of_read : ∀ {e : Event} {v : Value}, e.read = .ok v → v.Normal
  | .none, _, rfl => normal_of_scalar rfl rfl
  | .unit, _, rfl => normal_of_scalar rfl rfl
  | .boolean _, _, rfl => normal_of_scalar rfl rfl
  | .signed _, _, rfl => normal_of_scalar rfl rfl
  | .unsigned n, v, run => by
    change Value.ofUnsigned n.toNat = .ok v at run
    unfold Value.ofUnsigned at run
    split at run
    · cases run
      exact normal_of_scalar rfl rfl
    · cases run
  | .float _, _, rfl => normal_of_scalar rfl rfl
  | .text _, _, rfl => normal_of_scalar rfl rfl
  | .some inner, _, run => normal_of_read (e := inner) run
  | .sequence items, _, run => by
    obtain ⟨vs, read, same⟩ := bind_eq_ok_iff.mp (run : readItems items >>= _ = _)
    cases same
    exact normal_sequence_iff.mpr (normal_of_readItems read)
  | .mapping entries, _, run => normal_of_readEntries Mapping.normal_nil (run : readEntries [] entries = _)
  | .tagged tag inner, _, run => by
    obtain ⟨_, _, read⟩ := bind_eq_ok_iff.mp (run : tag.read >>= _ = _)
    exact normal_of_read read
termination_by structural e => e

theorem normal_of_readItems : ∀ {es : List Event} {vs : List Value}, readItems es = .ok vs → ∀ v ∈ vs, v.Normal
  | [], _, rfl => nofun
  | e :: es, _, run => by
    obtain ⟨v, here, rest⟩ := bind_eq_ok_iff.mp (run : e.read >>= _ = _)
    obtain ⟨vs, later, same⟩ := bind_eq_ok_iff.mp rest
    cases same
    exact List.forall_mem_cons.mpr ⟨normal_of_read here, normal_of_readItems later⟩
termination_by structural es => es

/-- Each entry is stored over a mapping that is normal, or stands for all. -/
theorem normal_of_readEntries : ∀ {es : List (Event × Event)} {m : Mapping} {w : Value},
    Normal (.mapping m) → readEntries m es = .ok w → w.Normal
  | [], _, _, normal, rfl => normal
  | (k, v) :: es, m, w, normal, run => by
    obtain ⟨key, value, isKey, isValue, rest⟩ := readEntries_cons_eq_ok_iff.mp run
    split at rest
    · exact rest ▸ normal_of_read isValue
    · next kept =>
      exact normal_of_readEntries
        (Mapping.normal_insert normal (normal_of_read isKey) (normal_of_read isValue) kept) rest
termination_by structural es => es

end

/-! ### What is normal is read as it is -/

theorem forall₂_entryEvents {es : Mapping} (back : ∀ e ∈ es, e.1.events.read = .ok e.1 ∧ e.2.events.read = .ok e.2) :
    List.Forall₂ ReadsAs (entryEvents es) es := by
  induction es with
  | nil => exact .nil
  | cons e es ih =>
    obtain ⟨here, later⟩ := List.forall_mem_cons.mp back
    exact .cons here (ih later)

/-- Entries whose keys differ and do not begin with the mark add up to the mapping that they are. -/
theorem readEntries_entryEvents {es : Mapping}
    (back : ∀ e ∈ es, e.1.events.read = .ok e.1 ∧ e.2.events.read = .ok e.2) (distinct : es.Distinct)
    (unmarked : es.keys.head? ≠ Option.some (.string dateTimeMark)) :
    readEntries [] (entryEvents es) = .ok (.mapping es) := by
  have made : Mapping.assemble? [] es = Option.some (.mapping es) := by
    rw [Mapping.assemble?_eq_ofPairs unmarked, Mapping.ofPairs_of_distinct distinct]
  have each := forall₂_entryEvents back
  exact (readEntries_eq_ok_iff fun _ => firstAlone_of_assemble? each made).mpr ⟨es, each, made⟩

/-- A normal value is read from its own events as it is. -/
theorem read_events (v : Value) : v.Normal → v.events.read = .ok v := by
  induction v using Value.induct with
  | sequence items ih =>
    intro normal
    have each := normal_sequence_iff.mp normal
    have read : readItems (itemEvents items) = .ok items := by
      clear normal
      induction items with
      | nil => rfl
      | cons v vs rest =>
        obtain ⟨here, later⟩ := List.forall_mem_cons.mp ih
        obtain ⟨normal, others⟩ := List.forall_mem_cons.mp each
        exact bind_eq_ok_iff.mpr ⟨v, here normal, bind_eq_ok_iff.mpr ⟨vs, rest later others, rfl⟩⟩
    exact bind_eq_ok_iff.mpr ⟨items, read, rfl⟩
  | mapping entries ih =>
    intro normal
    obtain ⟨⟨distinct, unmarked⟩, parts⟩ := normal_mapping_iff.mp normal
    exact readEntries_entryEvents
      (fun e member => ⟨(ih e member).1 (parts e member).1, (ih e member).2 (parts e member).2⟩) distinct unmarked
  | _ => exact fun _ => rfl

/-- The values that can be read are those in which no mapping, at any depth and also inside keys, has equal keys or
    the mark of dates and times as its first key; and these are the values that their own events are read as. -/
theorem read_iff_normal (v : Value) :
    ((∃ e : Event, e.read = .ok v) ↔ v.Normal) ∧ (v.events.read = .ok v ↔ v.Normal) :=
  ⟨⟨fun ⟨_, run⟩ => normal_of_read run, fun normal => ⟨v.events, read_events v normal⟩⟩,
    ⟨normal_of_read, read_events v⟩⟩

/-- A mapping that begins with the mark can be written, but is read as what stands under the mark. -/
example : (Value.mapping [(.string dateTimeMark, .string "1979-05-27"), (.string "at", .null)]).events.read =
    .ok (.string "1979-05-27") := rfl

end Event

end TypedConfig
