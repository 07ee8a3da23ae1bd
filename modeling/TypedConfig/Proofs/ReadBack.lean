import TypedConfig.Config.Basic
import TypedConfig.Proofs.Members
import TypedConfig.Proofs.Nesting

/-!
Reading a value back as a value. The value goes through a tree with text keys, in
which numbers that are not finite are lost and keys become text; so it comes back
with the same data exactly if all its numbers are finite and all its keys are texts
that a tree keeps apart (`getAs_value_same_iff`).
-/
namespace TypedConfig
open Json (Tree)

namespace Value

/-! ### The same data -/

mutual

/-- Two values hold the same data: they differ at most in the order of the entries of mappings, and in which NaN a
    number is. -/
def SameData : Value → Value → Prop
  | .null, .null => True
  | .boolean a, .boolean b => a = b
  | .integer a, .integer b => a = b
  | .float x, .float y => x = y ∨ (x.isNaN = true ∧ y.isNaN = true)
  | .string a, .string b => a = b
  | .sequence vs, .sequence ws => SameItems vs ws
  | .mapping es, .mapping fs => SameEntries es fs
  | _, _ => False
termination_by structural v => v

/-- The elements of two sequences hold the same data, each in its place. -/
def SameItems : List Value → List Value → Prop
  | [], [] => True
  | v :: vs, w :: ws => SameData v w ∧ SameItems vs ws
  | _, _ => False
termination_by structural vs => vs

/-- Each entry of the one mapping has its own in the other, with the same data under the same key, and none is left. -/
def SameEntries : List (Value × Value) → List (Value × Value) → Prop
  | [], fs => fs = []
  | (k, v) :: es, fs => ∃ before l w after, fs = before ++ (l, w) :: after ∧ SameData k l ∧ SameData v w ∧
    SameEntries es (before ++ after)
termination_by structural es => es

end

/-- Keys that a tree keeps apart, and in which no date or time is seen: distinct texts, of which the mark of dates and
    times is not the least. -/
structure TextKeys (keys : List Value) : Prop where
  texts : ∀ key ∈ keys, ∃ text, key = .string text
  distinct : keys.Nodup
  unmarked : .string dateTimeMark ∈ keys → ∃ text, .string text ∈ keys ∧ text < dateTimeMark

mutual

/-- All numbers are finite, and all mappings have keys that a tree keeps apart. -/
def Faithful : Value → Prop
  | .float x => x.isFinite = true
  | .sequence items => FaithfulItems items
  | .mapping entries => TextKeys (entries.map Prod.fst) ∧ FaithfulEntries entries
  | _ => True
termination_by structural v => v

def FaithfulItems : List Value → Prop
  | [] => True
  | v :: vs => Faithful v ∧ FaithfulItems vs
termination_by structural vs => vs

/-- The values of all entries are so. -/
def FaithfulEntries : List (Value × Value) → Prop
  | [] => True
  | (_, v) :: es => Faithful v ∧ FaithfulEntries es
termination_by structural es => es

end

theorem sameItems_iff {vs : List Value} : ∀ {ws : List Value}, SameItems vs ws ↔ List.Forall₂ SameData vs ws := by
  induction vs with
  | nil =>
    intro ws
    cases ws with
    | nil => exact ⟨fun _ => .nil, fun _ => trivial⟩
    | cons w ws => exact ⟨fun same => same.elim, fun same => nomatch same⟩
  | cons v vs ih =>
    intro ws
    cases ws with
    | nil => exact ⟨fun same => same.elim, fun same => nomatch same⟩
    | cons w ws => rw [SameItems, ih, List.forall₂_cons]

/-- Two entries hold the same data. -/
def SameEntry (e f : Value × Value) : Prop := SameData e.1 f.1 ∧ SameData e.2 f.2

/-- Mappings hold the same data if the entries do, in some order. -/
theorem sameEntries_iff {es : List (Value × Value)} : ∀ {fs : List (Value × Value)},
    SameEntries es fs ↔ ∃ ordered, ordered.Perm fs ∧ List.Forall₂ SameEntry es ordered := by
  induction es with
  | nil =>
    intro fs
    constructor
    · rintro rfl
      exact ⟨[], .refl _, .nil⟩
    · rintro ⟨_, perm, ⟨⟩⟩
      exact perm.nil_eq.symm
  | cons e es ih =>
    intro fs
    obtain ⟨k, v⟩ := e
    constructor
    · rintro ⟨before, l, w, after, rfl, key, value, rest⟩
      obtain ⟨ordered, perm, same⟩ := ih.mp rest
      exact ⟨(l, w) :: ordered, (perm.cons _).trans List.perm_middle.symm, .cons ⟨key, value⟩ same⟩
    · rintro ⟨_, perm, same⟩
      obtain ⟨⟨l, w⟩, ordered, ⟨key, value⟩, others, rfl⟩ := List.forall₂_cons_left_iff.mp same
      obtain ⟨before, after, rfl⟩ := List.append_of_mem (perm.subset List.mem_cons_self)
      exact ⟨before, l, w, after, rfl, key, value, ih.mpr ⟨ordered, (perm.trans List.perm_middle).cons_inv, others⟩⟩

theorem faithfulItems_iff {vs : List Value} : FaithfulItems vs ↔ ∀ v ∈ vs, Faithful v := by
  induction vs with
  | nil => simp [FaithfulItems]
  | cons v vs ih => simp [FaithfulItems, ih]

theorem faithfulEntries_iff {es : List (Value × Value)} : FaithfulEntries es ↔ ∀ e ∈ es, Faithful e.2 := by
  induction es with
  | nil => simp [FaithfulEntries]
  | cons e es ih => simp [FaithfulEntries, ih]

end Value

namespace Value

/-! ### Reading back -/

/-- A value is read back as another. -/
def ReadsBack (v w : Value) : Prop := v.decode Decoder.value = .ok w

theorem readsBack_iff {v w : Value} : v.ReadsBack w ↔ ∃ t, Tree.ofValue v = .ok t ∧ t.value = .ok w := by
  unfold ReadsBack decode Decoder.value
  cases Tree.ofValue v with
  | ok t => simp
  | error fault => simp

theorem readsBack_float_iff {x : Binary64} {w : Value} :
    ReadsBack (.float x) w ↔ w = if x.isFinite then .float x else .null := by
  cases finite : x.isFinite with
  | true => simp [readsBack_iff, Tree.ofValue, Tree.value, finite, eq_comm]
  | false => simp [readsBack_iff, Tree.ofValue, Tree.value, finite, eq_comm]

theorem readsBack_sequence_iff {vs : List Value} {w : Value} :
    ReadsBack (.sequence vs) w ↔ ∃ ws, w = .sequence ws ∧ List.Forall₂ ReadsBack vs ws := by
  have both : List.Forall₂ ReadsBack vs =
      List.Forall₂ (fun v w => ∃ t, Tree.ofValue v = .ok t ∧ t.value = .ok w) vs := by
    simp only [← readsBack_iff]
  rw [readsBack_iff]
  constructor
  · rintro ⟨t, tree, value⟩
    obtain ⟨ts, items, same⟩ := bind_eq_ok_iff.mp (tree : Tree.ofItems vs >>= _ = _)
    cases same
    obtain ⟨ws, values, same⟩ := bind_eq_ok_iff.mp (value : Tree.valueItems ts >>= _ = _)
    cases same
    refine ⟨ws, rfl, ?_⟩
    rw [both, forall₂_comp_iff]
    exact ⟨ts, Tree.ofItems_eq_ok_iff.mp items, Tree.valueItems_eq_ok_iff.mp values⟩
  · rintro ⟨ws, rfl, related⟩
    rw [both, forall₂_comp_iff] at related
    obtain ⟨ts, items, values⟩ := related
    exact ⟨.array ts, bind_eq_ok_iff.mpr ⟨ts, Tree.ofItems_eq_ok_iff.mpr items, rfl⟩,
      bind_eq_ok_iff.mpr ⟨ws, Tree.valueItems_eq_ok_iff.mpr values, rfl⟩⟩

/-- Keys of a mapping that was read back: texts that ascend, and do not begin with the mark of dates and times. -/
def ReadKeys (keys : List Value) : Prop :=
  ∃ texts : List String, keys = texts.map .string ∧ texts.Pairwise (· < ·) ∧ ∀ text ∈ texts.head?, text ≠ dateTimeMark

theorem ReadKeys.textKeys {keys : List Value} (read : ReadKeys keys) : TextKeys keys := by
  obtain ⟨texts, rfl, ascending, unmarked⟩ := read
  refine ⟨fun key member => ?_, ?_, fun marked => ?_⟩
  · obtain ⟨text, _, rfl⟩ := List.mem_map.mp member
    exact ⟨text, rfl⟩
  · exact List.pairwise_map.mpr (ascending.imp fun before same => ne_of_lt before (Value.string.inj same))
  · obtain ⟨text, member, same⟩ := List.mem_map.mp marked
    obtain rfl := Value.string.inj same
    cases texts with
    | nil => cases member
    | cons first texts =>
      rcases List.mem_cons.mp member with rfl | later
      · exact absurd rfl (unmarked _ rfl)
      · exact ⟨first, List.mem_cons_self, (List.pairwise_cons.mp ascending).1 _ later⟩

theorem TextKeys.perm {keys others : List Value} (texts : TextKeys keys) (perm : keys.Perm others) :
    TextKeys others where
  texts key member := texts.texts key (perm.mem_iff.mpr member)
  distinct := perm.nodup_iff.mp texts.distinct
  unmarked marked := by
    obtain ⟨text, member, before⟩ := texts.unmarked (perm.mem_iff.mpr marked)
    exact ⟨text, perm.mem_iff.mp member, before⟩

/-- In ascending order such keys do not begin with the mark. -/
theorem TextKeys.head_ne_mark {texts : List String} (keys : TextKeys (texts.map .string))
    (ascending : texts.Pairwise (· < ·)) : ∀ text ∈ texts.head?, text ≠ dateTimeMark := by
  cases texts with
  | nil => exact fun _ none => nomatch none
  | cons first texts =>
    rintro _ ⟨⟩ rfl
    obtain ⟨text, member, before⟩ := keys.unmarked List.mem_cons_self
    obtain ⟨_, there, same⟩ := List.mem_map.mp member
    obtain rfl := Value.string.inj same
    rcases List.mem_cons.mp there with rfl | later
    · exact lt_irrefl _ before
    · exact lt_asymm before ((List.pairwise_cons.mp ascending).1 _ later)

/-- A mapping is read back as what is under the mark, or as a mapping whose entries come from its own. -/
theorem readsBack_mapping_cases {es : List (Value × Value)} {w : Value} (read : ReadsBack (.mapping es) w) :
    (∃ e ∈ es, e.2.ReadsBack w ∧ ∀ e ∈ es, Tree.KeyText e.1 dateTimeMark) ∨
      ∃ fs, w = .mapping fs ∧ ReadKeys (fs.map Prod.fst) ∧
        ∀ f ∈ fs, ∃ text, f.1 = .string text ∧ ∃ e ∈ es, Tree.KeyText e.1 text ∧ e.2.ReadsBack f.2 := by
  obtain ⟨t, tree, value⟩ := readsBack_iff.mp read
  obtain ⟨ms, run, same⟩ := bind_eq_ok_iff.mp (tree : Tree.ofEntries [] es >>= _ = _)
  cases same
  have origin : ∀ a ∈ ms, ∃ e ∈ es, Tree.KeyText e.1 a.1 ∧ Tree.ofValue e.2 = .ok a.2 :=
    fun a member => (Tree.mem_ofEntries run a member).resolve_left List.not_mem_nil
  by_cases marked : ∀ a ∈ ms.head?, a.1 ≠ dateTimeMark
  · obtain ⟨fs, readsAs, rfl⟩ := (Tree.value_unmarked_eq_ok_iff marked).mp value
    have ascending := Tree.ascending_ofEntries Tree.ascending_nil run
    rw [Tree.ofPairs_of_readsAs readsAs ascending]
    refine .inr ⟨fs, rfl, ⟨ms.map Prod.fst, Tree.keys_of_readsAs readsAs, ascending, ?_⟩, fun f member => ?_⟩
    · simpa using marked
    · obtain ⟨a, there, key, value⟩ := exists_of_mem_right readsAs member
      obtain ⟨e, entry, text, tree⟩ := origin a there
      exact ⟨a.1, key, e, entry, text, readsBack_iff.mpr ⟨a.2, tree, value⟩⟩
  · cases ms with
    | nil => exact absurd (fun a none => nomatch none) marked
    | cons a ms =>
      obtain ⟨key, t⟩ := a
      obtain rfl : key = dateTimeMark := by simpa using marked
      obtain ⟨rfl, inner⟩ := Tree.value_marked_eq_ok_iff.mp value
      obtain ⟨e, entry, text, tree⟩ := origin _ List.mem_cons_self
      refine .inl ⟨e, entry, readsBack_iff.mpr ⟨t, tree, inner⟩, fun other member => ?_⟩
      obtain ⟨text, only, its⟩ := (Tree.keys_ofEntries run).2 other member
      obtain rfl := List.mem_singleton.mp only
      exact its

/-- Entries with text keys that are kept apart are read back under their keys, in the order of these. -/
theorem readsBack_mapping_of_texts {es fs : List (Value × Value)} (keys : TextKeys (es.map Prod.fst))
    (entries : List.Forall₂ (fun e f => e.1 = f.1 ∧ e.2.ReadsBack f.2) es fs) :
    ∃ sorted, ReadsBack (.mapping es) (.mapping sorted) ∧ sorted.Perm fs := by
  have texts : ∀ e ∈ es, ∃ text, e.1 = .string text := fun e member => keys.texts e.1 (List.mem_map_of_mem member)
  -- Each entry goes through a member: the text of its key, and the tree of its value.
  have through : List.Forall₂ (fun e f => ∃ a : String × Tree,
      (e.1 = .string a.1 ∧ Tree.ofValue e.2 = .ok a.2) ∧ Tree.ReadsAs a f) es fs := by
    refine ((List.forall₂_and_left _ _).mpr ⟨texts, entries⟩).imp ?_
    rintro e f ⟨⟨text, key⟩, same, back⟩
    obtain ⟨t, tree, value⟩ := readsBack_iff.mp back
    exact ⟨(text, t), ⟨key, tree⟩, same.symm.trans key, value⟩
  obtain ⟨members, trees, values⟩ := forall₂_comp_iff.mp through
  have named : es.map Prod.fst = (members.map Prod.fst).map .string := Tree.keys_of_members trees
  have distinct : (([] ++ members).map Prod.fst).Nodup := List.Nodup.of_map Value.string (named ▸ keys.distinct)
  obtain ⟨ms, run, perm⟩ := Tree.ofEntries_of_texts trees distinct
  obtain ⟨sorted, readsAs, reordered⟩ := List.perm_comp_forall₂ perm values
  have ascending := Tree.ascending_ofEntries Tree.ascending_nil run
  have kept : TextKeys ((ms.map Prod.fst).map .string) := by
    refine keys.perm ?_
    rw [named]
    exact ((perm.map _).map _).symm
  have unmarked : ∀ a ∈ ms.head?, a.1 ≠ dateTimeMark := by
    simpa using kept.head_ne_mark ascending
  refine ⟨sorted, readsBack_iff.mpr ⟨.object ms, bind_eq_ok_iff.mpr ⟨ms, run, rfl⟩, ?_⟩, reordered⟩
  refine (Tree.value_unmarked_eq_ok_iff unmarked).mpr ⟨sorted, readsAs, ?_⟩
  rw [Tree.ofPairs_of_readsAs readsAs ascending]

theorem sameData_string_iff {k : Value} {text : String} : SameData k (.string text) ↔ k = .string text := by
  cases k <;> simp [SameData]

/-- The keys of a mapping that was read back ascend and do not begin with the mark. -/
theorem readKeys_of_readsBack (v : Value) : ∀ {fs}, v.ReadsBack (.mapping fs) → ReadKeys (fs.map Prod.fst) := by
  induction v using Value.induct with
  | float x =>
    intro fs read
    have same := readsBack_float_iff.mp read
    split at same
    · cases same
    · cases same
  | sequence items _ =>
    intro fs read
    obtain ⟨_, ⟨⟩, _⟩ := readsBack_sequence_iff.mp read
  | mapping es ih =>
    intro fs read
    obtain ⟨e, member, back, _⟩ | ⟨_, same, keys, _⟩ := readsBack_mapping_cases read
    · exact (ih e member).2 back
    · cases same
      exact keys
  | _ => rintro fs ⟨⟩

theorem keys_of_same {es fs : List (Value × Value)} (entries : List.Forall₂ SameEntry es fs)
    (texts : ∀ f ∈ fs, ∃ text, f.1 = .string text) : es.map Prod.fst = fs.map Prod.fst := by
  induction entries with
  | nil => rfl
  | @cons e f es fs here _ ih =>
    obtain ⟨text, key⟩ := texts f List.mem_cons_self
    have same : e.1 = f.1 := by
      rw [key]
      exact sameData_string_iff.mp (key ▸ here.1)
    rw [List.map_cons, List.map_cons, same, ih fun other member => texts other (List.mem_cons_of_mem f member)]

/-- Entries that are all under the mark have no counterparts in a mapping that was read back. -/
theorem eq_nil_of_marked {es ordered fs : List (Value × Value)} (perm : ordered.Perm fs)
    (entries : List.Forall₂ SameEntry es ordered) (keys : ReadKeys (fs.map Prod.fst))
    (marked : ∀ e ∈ es, Tree.KeyText e.1 dateTimeMark) : es = [] := by
  obtain ⟨texts, named, _, unmarked⟩ := keys
  cases fs with
  | nil =>
    obtain rfl := perm.eq_nil
    cases entries
    rfl
  | cons f fs =>
    cases texts with
    | nil => cases named
    | cons text texts =>
      obtain ⟨e, member, same, _⟩ := exists_of_mem_right entries (perm.mem_iff.mpr List.mem_cons_self)
      have key : f.1 = .string text := (List.cons.inj named).1
      have sameText : e.1 = .string text := sameData_string_iff.mp (key ▸ same)
      have its := marked e member
      rw [sameText, Tree.keyText_string_iff] at its
      exact absurd its (unmarked text rfl)

/-- If keys are texts and entries come back with the same data, so does the value of each: the entry that its
    counterpart comes from has the same key, and is the entry itself. -/
theorem readsBack_of_counterpart {es ordered : List (Value × Value)} (keys : TextKeys (es.map Prod.fst))
    (entries : List.Forall₂ SameEntry es ordered)
    (origin : ∀ f ∈ ordered, ∃ text, f.1 = .string text ∧ ∃ e ∈ es, Tree.KeyText e.1 text ∧ e.2.ReadsBack f.2)
    {e : Value × Value} (member : e ∈ es) : ∃ w, e.2.ReadsBack w ∧ SameData e.2 w := by
  obtain ⟨f, there, sameKey, sameValue⟩ := exists_of_mem_left entries member
  obtain ⟨text, key, other, comes, named, back⟩ := origin f there
  have sameText : e.1 = .string text := sameData_string_iff.mp (key ▸ sameKey)
  obtain ⟨otherText, otherKey⟩ := keys.texts other.1 (List.mem_map_of_mem comes)
  rw [otherKey, Tree.keyText_string_iff] at named
  have one : other = e := List.inj_on_of_nodup_map keys.distinct comes member (otherKey.trans (named ▸ sameText.symm))
  exact ⟨f.2, one ▸ back, sameValue⟩

/-- What is read back with the same data was faithful. -/
theorem faithful_of_sameData (v : Value) : ∀ {w}, v.ReadsBack w → SameData v w → Faithful v := by
  induction v using Value.induct with
  | float x =>
    intro w read same
    by_contra lost
    obtain rfl : w = .null := (readsBack_float_iff.mp read).trans (if_neg lost)
    exact same
  | sequence items ih =>
    intro w read same
    obtain ⟨ws, rfl, back⟩ := readsBack_sequence_iff.mp read
    have both := List.Forall₂.mp (fun _ _ back same => And.intro back same) back (sameItems_iff.mp same)
    refine faithfulItems_iff.mpr fun v member => ?_
    obtain ⟨w, _, back, same⟩ := exists_of_mem_left both member
    exact ih v member back same
  | mapping es ih =>
    intro w read same
    cases w with
    | mapping fs =>
      obtain ⟨ordered, perm, entries⟩ := sameEntries_iff.mp same
      obtain ⟨e, member, back, marked⟩ | ⟨_, ⟨⟩, keys, origin⟩ := readsBack_mapping_cases read
      · obtain rfl := eq_nil_of_marked perm entries (readKeys_of_readsBack e.2 back) marked
        cases member
      · have texts : ∀ f ∈ ordered, ∃ text, f.1 = .string text := fun f there =>
          keys.textKeys.texts f.1 (List.mem_map_of_mem (perm.mem_iff.mp there))
        have named := keys_of_same entries texts
        have textKeys : TextKeys (es.map Prod.fst) := by
          rw [named]
          exact keys.textKeys.perm (perm.map Prod.fst).symm
        refine ⟨textKeys, faithfulEntries_iff.mpr fun e member => ?_⟩
        obtain ⟨w, back, sameValue⟩ :=
          readsBack_of_counterpart textKeys entries (fun f there => origin f (perm.mem_iff.mp there)) member
        exact (ih e member).2 back sameValue
    | _ => exact same.elim
  | _ => exact fun _ _ => trivial

/-- A faithful value is read back with the same data. -/
theorem readsBack_of_faithful (v : Value) : Faithful v → ∃ w, v.ReadsBack w ∧ SameData v w := by
  induction v using Value.induct with
  | float x =>
    intro finite
    exact ⟨.float x, readsBack_float_iff.mpr (if_pos finite).symm, .inl rfl⟩
  | sequence items ih =>
    intro faithful
    obtain ⟨ws, both⟩ := exists_forall₂ fun v member => ih v member (faithfulItems_iff.mp faithful v member)
    exact ⟨.sequence ws, readsBack_sequence_iff.mpr ⟨ws, rfl, both.imp fun _ _ here => here.1⟩,
      sameItems_iff.mpr (both.imp fun _ _ here => here.2)⟩
  | mapping es ih =>
    rintro ⟨keys, values⟩
    obtain ⟨fs, entries⟩ := exists_forall₂ (R := fun (e f : Value × Value) =>
        (e.1 = f.1 ∧ e.2.ReadsBack f.2) ∧ SameData e.2 f.2) fun e member => by
      obtain ⟨w, back, same⟩ := (ih e member).2 (faithfulEntries_iff.mp values e member)
      exact ⟨(e.1, w), ⟨rfl, back⟩, same⟩
    obtain ⟨sorted, back, perm⟩ := readsBack_mapping_of_texts keys (entries.imp fun _ _ here => here.1)
    refine ⟨.mapping sorted, back, sameEntries_iff.mpr ⟨fs, perm.symm, ?_⟩⟩
    have texts : ∀ e ∈ es, ∃ text, e.1 = .string text := fun e member => keys.texts e.1 (List.mem_map_of_mem member)
    refine ((List.forall₂_and_left _ _).mpr ⟨texts, entries⟩).imp ?_
    rintro e f ⟨⟨text, key⟩, ⟨same, _⟩, value⟩
    refine ⟨?_, value⟩
    rw [← same, key]
    rfl
  | _ => exact fun _ => ⟨_, rfl, by trivial⟩

end Value

namespace SectionValue

/-- Reading a key as a type reads its value, and names the key if that fails. -/
theorem getAs_eq {α : Type} {s : SectionValue} {id : String} {v : Value} (found : s.get id = .ok v)
    (decoder : Decoder α) :
    s.getAs id decoder = (v.decode decoder).mapError (.invalidValue (s.name ++ "[" ++ id ++ "]")) := by
  unfold getAs
  rw [found]
  dsimp only [bind, Except.bind]
  cases v.decode decoder <;> rfl

theorem getAs_value_iff {s : SectionValue} {id : String} {v w : Value} (found : s.get id = .ok v) :
    s.getAs id Decoder.value = .ok w ↔ v.ReadsBack w := by
  rw [getAs_eq found]
  unfold Value.ReadsBack
  cases v.decode Decoder.value <;> simp [Except.mapError]

/-- What a value is read back as holds the same data exactly if the value is faithful, and then reading back succeeds:
    a number that is not finite, a key that is no text, two keys of one text or the mark of dates and times as the
    least key change the data, or the value is not read back at all. -/
theorem getAs_value_same_iff {s : SectionValue} {id : String} {v : Value} (found : s.get id = .ok v) :
    (v.Faithful → ∃ w, s.getAs id Decoder.value = .ok w) ∧
      ∀ w, s.getAs id Decoder.value = .ok w → (v.SameData w ↔ v.Faithful) := by
  constructor
  · intro faithful
    obtain ⟨w, back, _⟩ := Value.readsBack_of_faithful v faithful
    exact ⟨w, (getAs_value_iff found).mpr back⟩
  · intro w read
    have back := (getAs_value_iff found).mp read
    refine ⟨Value.faithful_of_sameData v back, fun faithful => ?_⟩
    obtain ⟨u, other, same⟩ := Value.readsBack_of_faithful v faithful
    cases back.symm.trans other
    exact same

/-- A mapping whose keys do not stand in order comes back in order; with a number that is not finite it comes back
    changed. -/
theorem getAs_value_same_iff_range :
    let range (max : Binary64) : Value := .mapping [(.string "min", .integer 1), (.string "max", .float max)]
    let ordered (max : Value) : Value := .mapping [(.string "max", max), (.string "min", .integer 1)]
    let s : SectionValue := ⟨"limits", [("ray", range (.infinity false)), ("interval", range .zero)]⟩
    s.getAs "interval" Decoder.value = .ok (ordered (.float .zero)) ∧
      (range .zero).SameData (ordered (.float .zero)) ∧
      s.getAs "ray" Decoder.value = .ok (ordered .null) ∧ ¬ (range (.infinity false)).SameData (ordered .null) := by
  intro range ordered s
  have interval : s.get "interval" = .ok (range .zero) := rfl
  have ray : s.get "ray" = .ok (range (.infinity false)) := rfl
  have read : s.getAs "interval" Decoder.value = .ok (ordered (.float .zero)) := rfl
  have readRay : s.getAs "ray" Decoder.value = .ok (ordered .null) := rfl
  have keys : Value.TextKeys [.string "min", .string "max"] :=
    ⟨by simp, by simp, by simp [dateTimeMark]⟩
  have faithful : (range .zero).Faithful := ⟨keys, trivial, (by decide : Binary64.zero.isFinite = true), trivial⟩
  have lost : ¬ (range (.infinity false)).Faithful := fun ⟨_, _, finite, _⟩ =>
    absurd finite (by decide : ¬ (Binary64.infinity false).isFinite = true)
  exact ⟨read, ((getAs_value_same_iff interval).2 _ read).mpr faithful,
    readRay, fun same => lost (((getAs_value_same_iff ray).2 _ readRay).mp same)⟩

/-- A valid configuration may hold a number that is read back as null. -/
theorem getAs_value_not_always_same :
    ¬ ∀ (schema : Schema) (data : Value) (variant separator : String) (c : Config),
      ((Config.ofSchema schema).init data variant separator).result = .ok c →
      ∀ (slot : String) (s : SectionValue), c.sectionValue slot = .ok s →
      ∀ (id : String) (v w : Value), s.get id = .ok v → s.getAs id Decoder.value = .ok w → v.SameData w := by
  intro always
  let schema := Schema.empty.declare "scale" ((Section.empty "scale").declare "factor" ⟨"factor", .float⟩)
  let data : Value := .mapping [(.string "scale_a", .mapping [(.string "factor", .float .nan)]),
    (.string "compose_v", .mapping [(.string "scale", .string "a")])]
  let values : SectionValue := ⟨"scale", [("factor", .float .nan)]⟩
  let bound : Config := ⟨schema, some [("scale", values)]⟩
  exact always schema data "v" "_" bound rfl "scale" values rfl "factor" (.float .nan) .null rfl rfl

end SectionValue

end TypedConfig
