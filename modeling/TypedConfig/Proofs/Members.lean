import Mathlib.Data.List.Nodup
import Mathlib.Data.List.Perm.Basic
import Mathlib.Data.String.Basic
import TypedConfig.Decoding
import TypedConfig.Proofs.Assembling

/-!
The members between a mapping and its reading. The entries of a mapping become
members of an object in the order of their keys, one for each key, and the members
are read as entries again; if the first is marked, it is read for the whole.
-/
namespace TypedConfig
open Json (Tree keyChars)

namespace Json.Tree

/-! ### Members in the order of their keys -/

/-- Members whose keys ascend. -/
def Ascending (ms : List (String × Tree)) : Prop := (ms.map Prod.fst).Pairwise (· < ·)

theorem ascending_nil : Ascending [] := List.Pairwise.nil

theorem keys_store (key : String) (t : Tree) (ms : List (String × Tree)) {k : String} :
    k ∈ (store key t ms).map Prod.fst ↔ k = key ∨ k ∈ ms.map Prod.fst := by
  induction ms with
  | nil => simp [store]
  | cons a ms ih =>
    obtain ⟨l, u⟩ := a
    unfold store
    split
    · next same => simp [same]
    · split
      · simp
      · simp only [List.map_cons, List.mem_cons, ih]
        exact or_left_comm

theorem mem_store {key : String} {t : Tree} {ms : List (String × Tree)} {a : String × Tree}
    (member : a ∈ store key t ms) : a = (key, t) ∨ a ∈ ms := by
  induction ms with
  | nil => exact .inl (List.mem_singleton.mp member)
  | cons b ms ih =>
    obtain ⟨l, u⟩ := b
    unfold store at member
    split at member
    · next same =>
      rw [same]
      exact (List.mem_cons.mp member).imp id (List.mem_cons_of_mem _)
    · split at member
      · exact List.mem_cons.mp member
      · rcases List.mem_cons.mp member with here | later
        · exact .inr (here ▸ List.mem_cons_self)
        · exact (ih later).imp id (List.mem_cons_of_mem _)

theorem ascending_store {ms : List (String × Tree)} (ascending : Ascending ms) (key : String) (t : Tree) :
    Ascending (store key t ms) := by
  induction ms with
  | nil => exact List.pairwise_singleton _ _
  | cons a ms ih =>
    obtain ⟨l, u⟩ := a
    obtain ⟨least, rest⟩ := List.pairwise_cons.mp ascending
    unfold store
    split
    · exact ascending
    · next different =>
      split
      · next before =>
        refine List.pairwise_cons.mpr ⟨fun k member => ?_, ascending⟩
        rcases List.mem_cons.mp member with rfl | later
        · exact before
        · exact before.trans (least k later)
      · next notBefore =>
        refine List.pairwise_cons.mpr ⟨fun k member => ?_, ih rest⟩
        rcases (keys_store key t ms).mp member with rfl | later
        · exact lt_of_le_of_ne (not_lt.mp notBefore) (Ne.symm different)
        · exact least k later

/-- Under a new key nothing is replaced. -/
theorem perm_store {key : String} {ms : List (String × Tree)} (absent : key ∉ ms.map Prod.fst) (t : Tree) :
    (store key t ms).Perm ((key, t) :: ms) := by
  induction ms with
  | nil => exact .refl _
  | cons a ms ih =>
    obtain ⟨l, u⟩ := a
    obtain ⟨different, later⟩ := not_or.mp fun member => absent (List.mem_cons.mpr member)
    unfold store
    rw [if_neg different]
    split
    · exact .refl _
    · exact ((ih later).cons _).trans (List.Perm.swap _ _ _)

/-! ### The tree of a value -/

theorem ofItems_eq_mapM (vs : List Value) : ofItems vs = vs.mapM ofValue := by
  induction vs with
  | nil => rfl
  | cons v vs ih => rw [ofItems, ih, List.mapM_cons]

theorem ofItems_eq_ok_iff {vs : List Value} {ts : List Tree} :
    ofItems vs = .ok ts ↔ List.Forall₂ (fun v t => ofValue v = .ok t) vs ts :=
  ofItems_eq_mapM vs ▸ mapM_eq_ok_iff

/-- The text of a key. -/
def KeyText (k : Value) (text : String) : Prop := keyChars k = .ok text.toList

theorem keyText_string_iff {s text : String} : KeyText (.string s) text ↔ s = text := by
  simp [KeyText, keyChars, String.toList_inj]

theorem ofEntries_cons_eq_ok_iff {acc ms : List (String × Tree)} {k v : Value} {es : List (Value × Value)} :
    ofEntries acc ((k, v) :: es) = .ok ms ↔
      ∃ text t, KeyText k text ∧ ofValue v = .ok t ∧ ofEntries (store text t acc) es = .ok ms := by
  rw [ofEntries, bind_eq_ok_iff]
  constructor
  · rintro ⟨chars, key, rest⟩
    obtain ⟨t, value, rest⟩ := bind_eq_ok_iff.mp rest
    exact ⟨String.ofList chars, t, by rw [KeyText, String.toList_ofList, key], value, rest⟩
  · rintro ⟨text, t, key, value, rest⟩
    exact ⟨text.toList, key, bind_eq_ok_iff.mpr ⟨t, value, by rwa [String.ofList_toList]⟩⟩

theorem ascending_ofEntries {es : List (Value × Value)} : ∀ {acc ms : List (String × Tree)}, Ascending acc →
    ofEntries acc es = .ok ms → Ascending ms := by
  induction es with
  | nil =>
    rintro acc _ ascending ⟨⟩
    exact ascending
  | cons e es ih =>
    intro acc ms ascending run
    obtain ⟨text, t, _, _, rest⟩ := ofEntries_cons_eq_ok_iff.mp run
    exact ih (ascending_store ascending text t) rest

/-- Each member was there before or comes from an entry. -/
theorem mem_ofEntries {es : List (Value × Value)} : ∀ {acc ms : List (String × Tree)},
    ofEntries acc es = .ok ms → ∀ a ∈ ms, a ∈ acc ∨ ∃ e ∈ es, KeyText e.1 a.1 ∧ ofValue e.2 = .ok a.2 := by
  induction es with
  | nil =>
    rintro acc _ ⟨⟩ a member
    exact .inl member
  | cons e es ih =>
    intro acc ms run a member
    obtain ⟨text, t, key, value, rest⟩ := ofEntries_cons_eq_ok_iff.mp run
    obtain before | ⟨other, later, from_other⟩ := ih rest a member
    · rcases mem_store before with rfl | before
      · exact .inr ⟨e, List.mem_cons_self, key, value⟩
      · exact .inl before
    · exact .inr ⟨other, List.mem_cons_of_mem e later, from_other⟩

/-- Each key that was there is a member's, and so is the text of the key of each entry. -/
theorem keys_ofEntries {es : List (Value × Value)} : ∀ {acc ms : List (String × Tree)},
    ofEntries acc es = .ok ms → (∀ k ∈ acc.map Prod.fst, k ∈ ms.map Prod.fst) ∧
      ∀ e ∈ es, ∃ text ∈ ms.map Prod.fst, KeyText e.1 text := by
  induction es with
  | nil =>
    rintro acc _ ⟨⟩
    exact ⟨fun _ member => member, fun _ member => nomatch member⟩
  | cons e es ih =>
    intro acc ms run
    obtain ⟨text, t, key, _, rest⟩ := ofEntries_cons_eq_ok_iff.mp run
    obtain ⟨kept, later⟩ := ih rest
    refine ⟨fun k member => kept k ((keys_store text t acc).mpr (.inr member)), fun other member => ?_⟩
    rcases List.mem_cons.mp member with rfl | member
    · exact ⟨text, kept text ((keys_store text t acc).mpr (.inl rfl)), key⟩
    · exact later other member

theorem keys_of_members {es : List (Value × Value)} {members : List (String × Tree)}
    (each : List.Forall₂ (fun e a => e.1 = .string a.1 ∧ ofValue e.2 = .ok a.2) es members) :
    es.map Prod.fst = (members.map Prod.fst).map .string := by
  rw [List.map_map]
  exact (map_eq_of_forall₂ Prod.fst _ (fun _ _ _ here => here.1.symm) each).symm

/-- Entries whose keys are distinct texts become one member each. -/
theorem ofEntries_of_texts {es : List (Value × Value)} {members : List (String × Tree)}
    (each : List.Forall₂ (fun e a => e.1 = .string a.1 ∧ ofValue e.2 = .ok a.2) es members) :
    ∀ {acc : List (String × Tree)}, ((acc ++ members).map Prod.fst).Nodup →
      ∃ ms, ofEntries acc es = .ok ms ∧ ms.Perm (acc ++ members) := by
  induction each with
  | nil => exact fun _ => ⟨_, rfl, by simp⟩
  | @cons e a es members here _ ih =>
    intro acc distinct
    obtain ⟨k, v⟩ := e
    obtain ⟨text, t⟩ := a
    obtain ⟨rfl, value⟩ := here
    have moved : (acc ++ (text, t) :: members).Perm ((text, t) :: acc ++ members) := List.perm_middle
    have distinct' := (moved.map Prod.fst).nodup_iff.mp distinct
    obtain ⟨absent, _⟩ := List.nodup_cons.mp distinct'
    have absent' : text ∉ acc.map Prod.fst := fun member => absent (by simp at member ⊢; exact .inl member)
    have stored := (perm_store absent' t).append_right members
    obtain ⟨ms, run, perm⟩ := ih (((stored.map Prod.fst).nodup_iff).mpr distinct')
    exact ⟨ms, ofEntries_cons_eq_ok_iff.mpr ⟨text, t, keyText_string_iff.mpr rfl, value, run⟩,
      perm.trans (stored.trans moved.symm)⟩

/-! ### The value of a tree -/

theorem valueItems_eq_mapM (ts : List Tree) : valueItems ts = ts.mapM value := by
  induction ts with
  | nil => rfl
  | cons t ts ih => rw [valueItems, ih, List.mapM_cons]

theorem valueItems_eq_ok_iff {ts : List Tree} {vs : List Value} :
    valueItems ts = .ok vs ↔ List.Forall₂ (fun t v => value t = .ok v) ts vs :=
  valueItems_eq_mapM ts ▸ mapM_eq_ok_iff

/-- The entry that a member is read as. -/
def ReadsAs (a : String × Tree) (f : Value × Value) : Prop := f.1 = .string a.1 ∧ value a.2 = .ok f.2

theorem valueMembers_cons_eq_ok_iff {count : Nat} {m : Mapping} {key : String} {t : Tree} {ms : List (String × Tree)}
    {w : Value} :
    valueMembers count m ((key, t) :: ms) = .ok w ↔
      ∃ v, value t = .ok v ∧
        if m.standsForWhole (.string key) then ms = [] ∧ v = w
        else valueMembers count (m.insert (.string key) v) ms = .ok w := by
  rw [valueMembers, bind_eq_ok_iff]
  refine exists_congr fun v => and_congr_right fun _ => ?_
  by_cases whole : m.standsForWhole (.string key) = true
  · rw [if_pos whole, if_pos whole]
    cases ms with
    | nil => simp [pure, Except.pure]
    | cons a ms => simp
  · rw [if_neg whole, if_neg whole]

/-- Reading members is to read each and to store them in a row. -/
theorem valueMembers_eq_ok_iff {count : Nat} {w : Value} {ms : List (String × Tree)} : ∀ {m : Mapping},
    valueMembers count m ms = .ok w ↔ ∃ fs, List.Forall₂ ReadsAs ms fs ∧ m.assemble? fs = some w := by
  induction ms with
  | nil =>
    intro m
    constructor
    · rintro ⟨⟩
      exact ⟨[], .nil, rfl⟩
    · rintro ⟨_, ⟨⟩, made⟩
      exact congrArg Except.ok (Option.some.inj made)
  | cons a ms ih =>
    intro m
    obtain ⟨key, t⟩ := a
    rw [valueMembers_cons_eq_ok_iff]
    have step (v : Value) :
        (if m.standsForWhole (.string key) then ms = [] ∧ v = w
          else valueMembers count (m.insert (.string key) v) ms = .ok w) ↔
          ∃ fs, List.Forall₂ ReadsAs ms fs ∧ m.assemble? ((.string key, v) :: fs) = some w := by
      by_cases whole : m.standsForWhole (.string key) = true
      · simp only [if_pos whole, Mapping.assemble?_of_whole whole]
        constructor
        · rintro ⟨rfl, same⟩
          exact ⟨[], .nil, rfl, same⟩
        · rintro ⟨_, each, rfl, same⟩
          exact ⟨List.forall₂_nil_right_iff.mp each, same⟩
      · simp only [if_neg whole, Mapping.assemble?_of_kept whole]
        exact ih
    constructor
    · rintro ⟨v, here, rest⟩
      obtain ⟨fs, each, made⟩ := (step v).mp rest
      exact ⟨(.string key, v) :: fs, .cons ⟨rfl, here⟩ each, made⟩
    · rintro ⟨_, each, made⟩
      obtain ⟨⟨k, v⟩, fs, ⟨rfl, here⟩, others, rfl⟩ := List.forall₂_cons_left_iff.mp each
      exact ⟨v, here, (step v).mpr ⟨fs, others, made⟩⟩

theorem value_object_eq_ok_iff {ms : List (String × Tree)} {w : Value} :
    value (.object ms) = .ok w ↔ ∃ fs, List.Forall₂ ReadsAs ms fs ∧ Mapping.assemble? [] fs = some w := by
  rw [value]
  exact valueMembers_eq_ok_iff

theorem keys_of_readsAs {ms : List (String × Tree)} {fs : Mapping} (read : List.Forall₂ ReadsAs ms fs) :
    fs.map Prod.fst = (ms.map Prod.fst).map .string := by
  rw [List.map_map]
  exact map_eq_of_forall₂ _ Prod.fst (fun _ _ _ here => here.1) read

theorem ofPairs_of_readsAs {ms : List (String × Tree)} {fs : Mapping} (read : List.Forall₂ ReadsAs ms fs)
    (ascending : Ascending ms) : Mapping.ofPairs fs = fs := by
  have distinct : (ms.map Prod.fst).Nodup := ascending.imp ne_of_lt
  exact Mapping.ofPairs_of_distinct (Mapping.distinct_of_texts (keys_of_readsAs read) distinct)

/-- An object whose first member is marked is read as what is under the mark, and has no other. -/
theorem value_marked_eq_ok_iff {t : Tree} {ms : List (String × Tree)} {w : Value} :
    value (.object ((dateTimeMark, t) :: ms)) = .ok w ↔ ms = [] ∧ value t = .ok w := by
  have whole : Mapping.standsForWhole [] (.string dateTimeMark) = true := Mapping.standsForWhole_iff.mpr ⟨rfl, rfl⟩
  rw [value_object_eq_ok_iff]
  constructor
  · rintro ⟨_, each, made⟩
    obtain ⟨⟨_, v⟩, fs, ⟨rfl, here⟩, others, rfl⟩ := List.forall₂_cons_left_iff.mp each
    obtain ⟨rfl, rfl⟩ := (Mapping.assemble?_of_whole whole).mp made
    exact ⟨List.forall₂_nil_right_iff.mp others, here⟩
  · rintro ⟨rfl, here⟩
    exact ⟨[(.string dateTimeMark, w)], .cons ⟨rfl, here⟩ .nil, (Mapping.assemble?_of_whole whole).mpr ⟨rfl, rfl⟩⟩

/-- An object that does not begin with the mark is read as a mapping. -/
theorem value_unmarked_eq_ok_iff {ms : List (String × Tree)} (unmarked : ∀ a ∈ ms.head?, a.1 ≠ dateTimeMark)
    {w : Value} :
    value (.object ms) = .ok w ↔ ∃ fs, List.Forall₂ ReadsAs ms fs ∧ w = .mapping (Mapping.ofPairs fs) := by
  rw [value_object_eq_ok_iff]
  refine exists_congr fun fs => and_congr_right fun each => ?_
  have first : (Mapping.keys fs).head? ≠ some (.string dateTimeMark) := by
    rw [Mapping.keys, keys_of_readsAs each]
    cases ms with
    | nil => simp
    | cons a ms => simpa using unmarked a rfl
  rw [Mapping.assemble?_eq_ofPairs first, Option.some.injEq, eq_comm]

/-! ### The events of a tree -/

mutual

/-- The events that tell a tree. -/
def events : Tree → Event
  | .null => .unit
  | .boolean b => .boolean b
  | .integer n => .signed n
  | .float x => .float x
  | .string s => .text s
  | .array items => .sequence (itemEvents items)
  | .object members => .mapping (memberEvents members)
termination_by structural t => t

def itemEvents : List Tree → List Event
  | [] => []
  | t :: ts => events t :: itemEvents ts
termination_by structural ts => ts

def memberEvents : List (String × Tree) → List (Event × Event)
  | [] => []
  | (key, t) :: rest => (.text key, events t) :: memberEvents rest
termination_by structural members => members

end

theorem value_eq_ok_iff_of_leaf {t : Tree} {u : Value} (tree : value t = .ok u) (leaf : t.events.isLeaf = true)
    (read : t.events.read = .ok u) {v : Value} : value t = .ok v ↔ t.events.Means v := by
  rw [tree, Event.means_iff_of_isLeaf leaf, read, Except.ok.injEq, Except.ok.injEq]

mutual

/-- A tree is read as a value exactly if its events stand for the value, and nothing comes after the mark. -/
theorem value_eq_ok_iff : ∀ (t : Tree) {v : Value}, value t = .ok v ↔ t.events.Means v
  | .null, _ => value_eq_ok_iff_of_leaf rfl rfl rfl
  | .boolean _, _ => value_eq_ok_iff_of_leaf rfl rfl rfl
  | .integer _, _ => value_eq_ok_iff_of_leaf rfl rfl rfl
  | .float _, _ => value_eq_ok_iff_of_leaf rfl rfl rfl
  | .string _, _ => value_eq_ok_iff_of_leaf rfl rfl rfl
  | .array items, v => by
    rw [value, events, Event.means_sequence_iff, bind_eq_ok_iff]
    refine exists_congr fun vs => and_congr ?_ ?_
    · rw [valueItems_eq_ok_iff]
      exact forall₂_means_iff items
    · exact ⟨fun same => (Except.ok.inj same).symm, fun same => congrArg Except.ok same.symm⟩
  | .object members, v => by
    rw [value_object_eq_ok_iff, events, Event.means_mapping_iff]
    exact exists_congr fun fs => and_congr_left fun _ => forall₂_meansMember_iff members
termination_by structural t => t

theorem forall₂_means_iff : ∀ (ts : List Tree) {vs : List Value},
    List.Forall₂ (fun t v => value t = .ok v) ts vs ↔ List.Forall₂ Event.Means (itemEvents ts) vs
  | [], vs => by rw [itemEvents, List.forall₂_nil_left_iff, List.forall₂_nil_left_iff]
  | t :: ts, vs => by
    rw [itemEvents, List.forall₂_cons_left_iff, List.forall₂_cons_left_iff]
    refine exists_congr fun v => exists_congr fun vs' => ?_
    rw [value_eq_ok_iff t, forall₂_means_iff ts]
termination_by structural ts => ts

theorem forall₂_meansMember_iff : ∀ (ms : List (String × Tree)) {fs : List (Value × Value)},
    List.Forall₂ ReadsAs ms fs ↔
      List.Forall₂ (fun e f => e.1.Means f.1 ∧ e.2.Means f.2) (memberEvents ms) fs
  | [], fs => by rw [memberEvents, List.forall₂_nil_left_iff, List.forall₂_nil_left_iff]
  | (key, t) :: ms, fs => by
    rw [memberEvents, List.forall₂_cons_left_iff, List.forall₂_cons_left_iff]
    refine exists_congr fun f => exists_congr fun fs' => ?_
    rw [ReadsAs, value_eq_ok_iff t, forall₂_meansMember_iff ms, Event.means_text_iff]
termination_by structural ms => ms

end

end Json.Tree

end TypedConfig
