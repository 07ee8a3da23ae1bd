import TypedConfig.Loading.Documents
import TypedConfig.Proofs.Agreement
import TypedConfig.Proofs.InsertionOrder
import TypedConfig.Proofs.JsonReading
import TypedConfig.Proofs.NormalForm
import TypedConfig.Proofs.ReadBack
import TypedConfig.Proofs.YamlReading

/-!
Every way to come by a value: to make it, to store into mappings and remove from them, to collect, merge, read, read
back and compose, and to take a value out of another. No way leads to equal keys in a mapping, at any depth
(`Attainable.distinct`).
-/
namespace TypedConfig

namespace Value

/-- Values that can be come by. -/
inductive Attainable : Value → Prop
  | scalar {v : Value} (noSequence : v.sequence? = none) (noMapping : v.mapping? = none) : Attainable v
  | sequence {items : List Value} (each : ∀ v ∈ items, Attainable v) : Attainable (.sequence items)
  | empty : Attainable (.mapping [])
  | insert {m : Mapping} {k v : Value} (before : Attainable (.mapping m)) (key : Attainable k) (value : Attainable v) :
      Attainable (.mapping (m.insert k v))
  | remove {m : Mapping} (before : Attainable (.mapping m)) (name : String) : Attainable (.mapping (m.remove name))
  | collect {pairs : List (Value × Value)} (keys : ∀ p ∈ pairs, Attainable p.1) (values : ∀ p ∈ pairs, Attainable p.2) :
      Attainable (.mapping (Mapping.ofPairs pairs))
  | overlay {base entries : Mapping} (below : Attainable (.mapping base)) (above : Attainable (.mapping entries)) :
      Attainable (.mapping (base.overlay entries))
  | merge {base document : Value} (below : Attainable base) (above : Attainable document) :
      Attainable (Merging.merge base document)
  | read {e : Event} {v : Value} (run : e.read = .ok v) : Attainable v
  | readJson {text : String} {v : Value} (run : Json.read text = .ok v) : Attainable v
  | parse {format : Format} {text : String} {v : Value} (run : format.parse text = .ok v) : Attainable v
  | readBack {v w : Value} (source : Attainable v) (run : v.ReadsBack w) : Attainable w
  | compose {data : Value} {variant separator : String} {m : Mapping} (source : Attainable data)
      (run : Composition.compose data variant separator = .ok m) : Attainable (.mapping m)
  | composeDeclared {schema : Schema} {data : Value} {variant separator : String} {m : Mapping} (source : Attainable data)
      (run : Composition.composeDeclared schema data variant separator = .ok m) : Attainable (.mapping m)
  | part {v w : Value} (source : Attainable w) (part : Part v w) : Attainable v

end Value

/-! ### Values that readers make -/

theorem Json.normal_of_read {text : String} {v : Value} (run : Json.read text = .ok v) : v.Normal := by
  obtain ⟨e, r, _, _, stands⟩ := Json.read_eq_ok_iff.mp run
  exact Event.normal_of_read stands.2

theorem Yaml.normal_of_read {text : String} {v : Value} (run : Yaml.read text = .ok v) : v.Normal := by
  obtain ⟨d, _, stands⟩ := Yaml.read_eq_ok_iff.mp run
  split at stands
  · exact stands ▸ Value.normal_of_scalar rfl rfl
  · obtain ⟨e, q, _, stands⟩ := stands
    exact Event.normal_of_read stands.2

theorem Format.normal_of_parse {format : Format} {text : String} {v : Value} (run : format.parse text = .ok v) :
    v.Normal := by
  cases format with
  | toml =>
    simp only [Format.parse] at run
    split at run
    · exact Event.normal_of_read (mapError_eq_ok_iff.mp run)
    · cases run
  | yaml => exact Yaml.normal_of_read run

theorem Value.normal_of_readsBack {v w : Value} (run : v.ReadsBack w) : w.Normal := by
  obtain ⟨t, _, value⟩ := readsBack_iff.mp run
  exact Event.normal_of_read ((Json.Tree.value_eq_ok_iff t).mp value).2

/-! ### Mappings made from others -/

namespace Mapping
open Value (Throughout throughout_mapping_iff)

theorem throughout_insert {m : Mapping} {k v : Value} (before : Throughout Distinct (.mapping m))
    (key : k.Throughout Distinct) (value : v.Throughout Distinct) : Throughout Distinct (.mapping (m.insert k v)) := by
  obtain ⟨distinct, parts⟩ := throughout_mapping_iff.mp before
  refine throughout_mapping_iff.mpr ⟨distinct_insert distinct k v, fun e member => ?_⟩
  obtain ⟨first, second⟩ := mem_insert member
  constructor
  · rcases first with same | ⟨f, there, same⟩
    · exact same ▸ key
    · exact same ▸ (parts f there).1
  · rcases second with same | ⟨f, there, same⟩
    · exact same ▸ value
    · exact same ▸ (parts f there).2

theorem throughout_overlay {es : Mapping} : ∀ {base : Mapping}, Throughout Distinct (.mapping base) →
    (∀ e ∈ es, e.1.Throughout Distinct ∧ e.2.Throughout Distinct) → Throughout Distinct (.mapping (base.overlay es)) := by
  induction es with
  | nil => exact fun below _ => below
  | cons e es ih =>
    intro base below each
    obtain ⟨⟨key, value⟩, later⟩ := List.forall_mem_cons.mp each
    exact ih (throughout_insert below key value) later

theorem throughout_remove {m : Mapping} (before : Throughout Distinct (.mapping m)) (name : String) :
    Throughout Distinct (.mapping (m.remove name)) := by
  obtain ⟨distinct, parts⟩ := throughout_mapping_iff.mp before
  have within : ∀ e ∈ m.remove name, e ∈ m := by
    rcases extract_cases name m with ⟨_, kept⟩ | ⟨front, value, back, rfl, _, taken⟩
    · rw [remove, kept]
      exact fun e member => member
    · rw [remove, taken]
      exact ((List.sublist_cons_self _ back).append_left front).subset
  exact throughout_mapping_iff.mpr ⟨distinct_remove distinct name, fun e member => parts e (within e member)⟩

end Mapping

/-! ### Composed data -/

namespace Composition
open Value (Part)

theorem part_of_sectionData {data found : Value} {sectionName separator label : String}
    (run : sectionData data sectionName separator label = .ok found) : Part found data := by
  unfold sectionData at run
  dsimp only at run
  split at run
  · next v there =>
    cases run
    obtain ⟨root, isRoot, held⟩ := Option.bind_eq_some_iff.mp there
    obtain rfl := Value.mapping?_eq_some_iff.mp isRoot
    obtain ⟨e, entry, rfl⟩ := Option.map_eq_some_iff.mp held
    exact .value (List.mem_of_find?_eq_some entry) (.whole _)
  · cases run

/-- Composed data is collected from pairs of a text and a part of the document. -/
def Gathered (data : Value) (m : Mapping) : Prop :=
  ∃ pairs : List (Value × Value), m = Mapping.ofPairs pairs ∧ ∀ p ∈ pairs, (∃ s, p.1 = .string s) ∧ Part p.2 data

theorem gathered_of_compose {data : Value} {variant separator : String} {m : Mapping}
    (run : compose data variant separator = .ok m) : Gathered data m := by
  obtain ⟨selection, selected, _⟩ := bind_eq_ok_iff.mp run
  rw [compose_of_selection selected] at run
  obtain ⟨pairs, each, rfl⟩ := map_eq_ok_iff.mp run
  refine ⟨pairs, rfl, fun p member => ?_⟩
  obtain ⟨entry, _, resolved⟩ := exists_of_mem_right (mapM_eq_ok_iff.mp each) member
  obtain ⟨sectionName, label, _, key, found⟩ := resolve_eq_ok_iff.mp resolved
  exact ⟨⟨sectionName, key⟩, part_of_sectionData found⟩

theorem gathered_of_composeDeclared {schema : Schema} {data : Value} {variant separator : String} {m : Mapping}
    (run : composeDeclared schema data variant separator = .ok m) : Gathered data m := by
  obtain ⟨selection, selected, _⟩ := bind_eq_ok_iff.mp run
  rw [composeDeclared_of_selection selected] at run
  obtain ⟨pairs, each, rfl⟩ := map_eq_ok_iff.mp run
  refine ⟨pairs, rfl, fun p member => ?_⟩
  obtain ⟨s, _, resolved⟩ := exists_of_mem_right (mapM_eq_ok_iff.mp each) member
  refine ⟨⟨s.name, key_of_resolveDeclared resolved⟩, ?_⟩
  unfold resolveDeclared at resolved
  split at resolved
  · obtain ⟨found, there, rfl⟩ := map_eq_ok_iff.mp resolved
    exact part_of_sectionData there
  · cases resolved

end Composition

namespace Value
open Mapping (Distinct)

theorem throughout_of_gathered {data : Value} {m : Mapping} (gathered : Composition.Gathered data m)
    (all : data.Throughout Distinct) : Throughout Distinct (.mapping m) := by
  obtain ⟨pairs, rfl, each⟩ := gathered
  refine Mapping.throughout_overlay Mapping.normal_nil.distinct fun p member => ?_
  obtain ⟨⟨s, key⟩, part⟩ := each p member
  exact ⟨key ▸ throughout_of_scalar rfl rfl, all.part part⟩

/-- In a value that can be come by, no mapping has equal keys. -/
theorem Attainable.distinct {v : Value} (attainable : v.Attainable) : v.Throughout Distinct := by
  induction attainable with
  | scalar noSequence noMapping => exact throughout_of_scalar noSequence noMapping
  | sequence _ ih => exact throughout_sequence_iff.mpr ih
  | empty => exact Mapping.normal_nil.distinct
  | insert _ _ _ before key value => exact Mapping.throughout_insert before key value
  | remove _ name before => exact Mapping.throughout_remove before name
  | collect _ _ keys values =>
    exact Mapping.throughout_overlay Mapping.normal_nil.distinct fun p member => ⟨keys p member, values p member⟩
  | overlay _ _ below above => exact Mapping.throughout_overlay below (throughout_mapping_iff.mp above).2
  | @merge base document _ _ below above =>
    unfold Merging.merge
    split
    · exact below
    · exact Mapping.throughout_overlay below (throughout_mapping_iff.mp above).2
    · exact above
  | read run => exact (Event.normal_of_read run).distinct
  | readJson run => exact (Json.normal_of_read run).distinct
  | parse run => exact (Format.normal_of_parse run).distinct
  | readBack _ run _ => exact (normal_of_readsBack run).distinct
  | compose _ run source => exact throughout_of_gathered (Composition.gathered_of_compose run) source
  | composeDeclared _ run source => exact throughout_of_gathered (Composition.gathered_of_composeDeclared run) source
  | part _ part source => exact source.part part

end Value

end TypedConfig
