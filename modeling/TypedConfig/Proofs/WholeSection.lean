import Mathlib.Data.List.Perm.Basic
import TypedConfig.Proofs.ReadBack
import TypedConfig.Proofs.ReadSurface

/-!
Reading a section whole. The values of a section become members of one object, and these are read one by one; so a
section is read as a map exactly if each of its keys is read alone, and then holds what each key is read as
(`decode_agrees_with_getAs`).
-/
namespace TypedConfig
open Json (Tree)

namespace Json.Tree

/-- If a value among entries with text keys becomes no tree, the entries become no members, for the fault of the first
    such value. -/
theorem exists_fault_of_ofEntries {es : List (String × Value)} (fails : ∃ e ∈ es, ∀ t, ofValue e.2 ≠ .ok t) :
    ∃ e ∈ es, ∃ fault, ofValue e.2 = .error fault ∧
      ∀ acc, ofEntries acc (es.map fun e => (.string e.1, e.2)) = .error fault := by
  induction es with
  | nil =>
    obtain ⟨e, member, _⟩ := fails
    cases member
  | cons e es ih =>
    have run (acc : List (String × Tree)) : ofEntries acc ((e :: es).map fun e => (.string e.1, e.2)) =
        (ofValue e.2 >>= fun t => ofEntries (store (String.ofList e.1.toList) t acc)
          (es.map fun e => (.string e.1, e.2))) := rfl
    cases tree : ofValue e.2 with
    | error fault =>
      refine ⟨e, List.mem_cons_self, fault, tree, fun acc => ?_⟩
      rw [run, tree]
      rfl
    | ok t =>
      obtain ⟨f, member, none⟩ := fails
      have later : f ∈ es := by
        rcases List.mem_cons.mp member with rfl | later
        · exact absurd tree (none t)
        · exact later
      obtain ⟨f, later, fault, here, there⟩ := ih ⟨f, later, none⟩
      refine ⟨f, List.mem_cons_of_mem e later, fault, here, fun acc => ?_⟩
      rw [run, tree]
      exact there _

end Json.Tree

namespace SectionValue

/-- The identifiers of the keys that a section has values for. -/
def ids (s : SectionValue) : List String := s.values.map Prod.fst

/-! ### The values of a section -/

theorem nodup_ids_of_ofData {declared : Section} {data : Mapping} {s : SectionValue}
    (built : ofData declared data = .ok s) : s.ids.Nodup := by
  have same : s.ids = declared.keys.entries.map Prod.fst :=
    map_eq_of_forall₂ Prod.fst Prod.fst (fun _ _ _ here => here.1) (ofData_eq_ok_iff.mp built).2
  rw [same]
  exact declared.keys.distinct

theorem get_of_mem {s : SectionValue} (distinct : s.ids.Nodup) {e : String × Value} (member : e ∈ s.values) :
    s.get e.1 = .ok e.2 := by
  have same : List.Forall₂ (fun (e f : String × Value) => f.1 = e.1 ∧ e.2 = f.2) s.values s.values :=
    List.forall₂_same.mpr fun _ _ => ⟨rfl, rfl⟩
  obtain ⟨v, found, rfl⟩ := find?_of_forall₂ same distinct member
  simp [get, found]

/-- The mapping that a section is read through has every value, in order, under its identifier. -/
theorem mapping_of_nodup {s : SectionValue} (distinct : s.ids.Nodup) :
    s.mapping = s.values.map fun e => (.string e.1, e.2) := by
  have keys : Mapping.keys (s.values.map fun e => (.string e.1, e.2)) = s.ids.map .string := by
    simp [Mapping.keys, ids]
  exact Mapping.ofPairs_of_distinct (Mapping.distinct_of_texts keys distinct)

theorem decode_eq {α : Type} (s : SectionValue) (decoder : Decoder α) :
    s.decode decoder = ((Value.mapping s.mapping).decode decoder).mapError (.invalidValue s.name) := by
  unfold decode
  cases (Value.mapping s.mapping).decode decoder <;> rfl

/-! ### The whole and its parts -/

section
variable {α : Type} {s : SectionValue} {member : Decoder α}

/-- If every value becomes a tree, the mapping of all becomes an object, with the trees as its members in some order. -/
theorem ofValue_of_members (distinct : s.ids.Nodup) {members : List (String × Tree)}
    (trees : List.Forall₂ (fun e a => a.1 = e.1 ∧ Tree.ofValue e.2 = .ok a.2) s.values members) :
    ∃ ms, Tree.ofValue (.mapping s.mapping) = .ok (.object ms) ∧ ms.Perm members := by
  have entries : List.Forall₂ (fun (e : Value × Value) a => e.1 = .string a.1 ∧ Tree.ofValue e.2 = .ok a.2)
      (s.values.map fun e => (.string e.1, e.2)) members := by
    rw [List.forall₂_map_left_iff]
    exact trees.imp fun e a ⟨id, tree⟩ => ⟨congrArg Value.string id.symm, tree⟩
  have named : members.map Prod.fst = s.ids := map_eq_of_forall₂ Prod.fst Prod.fst (fun _ _ _ here => here.1) trees
  have apart : (([] ++ members).map Prod.fst).Nodup := by rwa [List.nil_append, named]
  obtain ⟨ms, run, perm⟩ := Tree.ofEntries_of_texts entries apart
  refine ⟨ms, ?_, perm⟩
  rw [mapping_of_nodup distinct]
  exact bind_eq_ok_iff.mpr ⟨ms, run, rfl⟩

/-- If some value becomes no tree, neither does the mapping of all, for the fault of one of them. -/
theorem exists_fault_of_values (distinct : s.ids.Nodup) (fails : ∃ e ∈ s.values, ∀ t, Tree.ofValue e.2 ≠ .ok t) :
    ∃ e ∈ s.values, ∃ fault, Tree.ofValue e.2 = .error fault ∧ Tree.ofValue (.mapping s.mapping) = .error fault := by
  obtain ⟨e, member, fault, here, run⟩ := Tree.exists_fault_of_ofEntries fails
  refine ⟨e, member, fault, here, ?_⟩
  rw [mapping_of_nodup distinct, Tree.ofValue, run]
  rfl

theorem decoder_members_object (ms : List (String × Tree)) :
    Decoder.members member (.object ms) = ms.mapM fun a => (member a.2).map fun b => (a.1, b) := by
  have each : (fun a : String × Tree => (do return (a.1, ← member a.2) : Except Decoding.Fault (String × α))) =
      fun a => (member a.2).map fun b => (a.1, b) := by
    funext a
    cases member a.2 <;> rfl
  exact congrArg (List.mapM · ms) each

/-- A section is read as a map whose members are those that its values are read as, each under its identifier; or one of
    its values cannot be read, and the section cannot be read for the same fault. -/
theorem decode_cases (distinct : s.ids.Nodup) (member : Decoder α) :
    (∃ found ordered, s.decode (.members member) = .ok found ∧ found.Perm ordered ∧
        List.Forall₂ (fun e a => a.1 = e.1 ∧ e.2.decode member = .ok a.2) s.values ordered) ∨
      ∃ e ∈ s.values, ∃ fault, e.2.decode member = .error fault ∧
        s.decode (.members member) = .error (.invalidValue s.name fault) := by
  rw [decode_eq]
  by_cases trees : ∀ e ∈ s.values, ∃ t, Tree.ofValue e.2 = .ok t
  · -- The object has the members in the order of its keys, so what is read from it is carried back along a permutation.
    obtain ⟨members, trees⟩ := exists_forall₂ (R := fun (e : String × Value) (a : String × Tree) =>
        a.1 = e.1 ∧ Tree.ofValue e.2 = .ok a.2) fun e member => by
      obtain ⟨t, tree⟩ := trees e member
      exact ⟨(e.1, t), rfl, tree⟩
    obtain ⟨ms, tree, perm⟩ := ofValue_of_members distinct trees
    have whole : (Value.mapping s.mapping).decode (.members member) = Decoder.members member (.object ms) := by
      rw [Value.decode, tree]
    rw [whole, decoder_members_object]
    cases read : ms.mapM fun a => (member a.2).map fun b => (a.1, b) with
    | ok found =>
      obtain ⟨ordered, each, reordered⟩ := List.perm_comp_forall₂ perm.symm (mapM_eq_ok_iff.mp read)
      refine .inl ⟨found, ordered, rfl, reordered.symm, ?_⟩
      refine forall₂_comp_iff.mpr ⟨members, trees, each⟩ |>.imp ?_
      rintro e b ⟨a, ⟨id, tree⟩, here⟩
      obtain ⟨c, value, rfl⟩ := map_eq_ok_iff.mp here
      exact ⟨id, by rwa [Value.decode, tree]⟩
    | error fault =>
      obtain ⟨before, a, after, rfl, _, fails⟩ := mapM_eq_error_iff.mp read
      have among : a ∈ members := perm.mem_iff.mp (by simp)
      obtain ⟨e, there, _, tree⟩ := exists_of_mem_right trees among
      refine .inr ⟨e, there, fault, ?_, rfl⟩
      rw [Value.decode, tree]
      exact map_eq_error_iff.mp fails
  · simp only [not_forall, not_exists, exists_prop] at trees
    obtain ⟨e, there, fault, here, whole⟩ := exists_fault_of_values distinct trees
    refine .inr ⟨e, there, .key fault, by rw [Value.decode, here], ?_⟩
    rw [Value.decode, whole]
    rfl

/-- A section is read as a map exactly if every key of it is read alone. The map then has the identifiers of the section
    as its keys, and under each what the key is read as alone. Otherwise the failure names the section and has the fault
    of one of its keys; and all values are still there, in the mapping that was to be read and under their identifiers. -/
theorem decode_agrees_with_getAs (distinct : s.ids.Nodup) (member : Decoder α) :
    ((∃ found, s.decode (.members member) = .ok found) ↔ ∀ id ∈ s.ids, ∃ a, s.getAs id member = .ok a) ∧
      (∀ found, s.decode (.members member) = .ok found →
        (found.map Prod.fst).Perm s.ids ∧ ∀ a ∈ found, s.getAs a.1 member = .ok a.2) ∧
      ((∃ id ∈ s.ids, ∀ a, s.getAs id member ≠ .ok a) →
        (∃ fault, s.decode (.members member) = .error (.invalidValue s.name fault) ∧
          ∃ id ∈ s.ids, s.getAs id member = .error (.invalidValue (s.name ++ "[" ++ id ++ "]") fault)) ∧
        s.mapping = (s.values.map fun e => (.string e.1, e.2)) ∧ ∀ e ∈ s.values, s.get e.1 = .ok e.2) := by
  have alone (e : String × Value) (there : e ∈ s.values) := getAs_eq (get_of_mem distinct there) member
  rcases decode_cases distinct member with ⟨found, ordered, whole, perm, each⟩ | ⟨e, there, fault, fails, whole⟩
  · have read : ∀ id ∈ s.ids, ∃ a, s.getAs id member = .ok a := by
      intro id known
      obtain ⟨e, there, rfl⟩ := List.mem_map.mp known
      obtain ⟨a, _, _, value⟩ := exists_of_mem_left each there
      exact ⟨a.2, by rw [alone e there, value]; rfl⟩
    refine ⟨⟨fun _ => read, fun _ => ⟨found, whole⟩⟩, ?_, ?_⟩
    · intro other same
      obtain rfl : found = other := Except.ok.inj (whole.symm.trans same)
      refine ⟨?_, fun a among => ?_⟩
      · have named : ordered.map Prod.fst = s.ids := map_eq_of_forall₂ Prod.fst Prod.fst (fun _ _ _ here => here.1) each
        exact named ▸ perm.map Prod.fst
      · obtain ⟨e, there, id, value⟩ := exists_of_mem_right each (perm.mem_iff.mp among)
        rw [id, alone e there, value]
        rfl
    · rintro ⟨id, known, none⟩
      obtain ⟨a, value⟩ := read id known
      exact absurd value (none a)
  · have known : e.1 ∈ s.ids := List.mem_map_of_mem there
    have failed : s.getAs e.1 member = .error (.invalidValue (s.name ++ "[" ++ e.1 ++ "]") fault) := by
      rw [alone e there, fails]
      rfl
    refine ⟨⟨?_, ?_⟩, ?_, ?_⟩
    · rintro ⟨found, read⟩
      rw [whole] at read
      cases read
    · intro read
      obtain ⟨a, value⟩ := read e.1 known
      rw [failed] at value
      cases value
    · intro found read
      rw [whole] at read
      cases read
    · exact fun _ => ⟨⟨fault, whole, e.1, known, failed⟩, mapping_of_nodup distinct, fun _ => get_of_mem distinct⟩

/-- A section whose table has a key that is no text is not read whole, while its size is still read alone. -/
theorem decode_agrees_with_getAs_limits :
    let table : Value := .mapping [(.null, .null)]
    let limits (depth : Value) : SectionValue := ⟨"limits", [("size", .integer 1), ("depth", depth)]⟩
    (∃ found, (limits .null).decode (.members Decoder.value) = .ok found ∧
      (found.map Prod.fst).Perm ["size", "depth"] ∧
      ∀ a ∈ found, (limits .null).getAs a.1 Decoder.value = .ok a.2) ∧
      (∃ fault, (limits table).decode (.members Decoder.value) = .error (.invalidValue "limits" fault)) ∧
      (limits table).get "depth" = .ok table := by
  intro table limits
  have distinct (depth : Value) : (limits depth).ids.Nodup := by simp [limits, ids]
  obtain ⟨reads, agrees, _⟩ := decode_agrees_with_getAs (distinct .null) Decoder.value
  obtain ⟨_, _, fails⟩ := decode_agrees_with_getAs (distinct table) Decoder.value
  have each : ∀ id ∈ (limits .null).ids, ∃ a, (limits .null).getAs id Decoder.value = .ok a :=
    List.forall_mem_cons.mpr ⟨⟨.integer 1, rfl⟩, List.forall_mem_singleton.mpr ⟨.null, rfl⟩⟩
  obtain ⟨found, whole⟩ := reads.mpr each
  have unread : ∀ a, (limits table).getAs "depth" Decoder.value ≠ .ok a := fun _ read => nomatch read
  obtain ⟨⟨fault, failed, _⟩, _, kept⟩ := fails ⟨"depth", by simp [limits, ids], unread⟩
  exact ⟨⟨found, whole, agrees found whole⟩, ⟨fault, failed⟩, kept ("depth", table) (by simp [limits])⟩

end

end SectionValue

namespace Config

/-- Every section of a configuration that was bound by a call has distinct identifiers. -/
theorem nodup_ids_of_submit {schema : Schema} {request : Contention.Request} {c : Config}
    (bound : (ofSchema schema).submit request = (.ok (), c)) {id : String} {s : SectionValue}
    (there : c.sectionValue id = .ok s) : s.ids.Nodup := by
  rcases submit_of_unbound schema request with ⟨composed, values, built, run⟩ | ⟨failure, run⟩
  · obtain rfl : ⟨schema, some values⟩ = c := congrArg Prod.snd (run.symm.trans bound)
    unfold sectionValue at there
    cases found : values.find? fun entry => entry.1 == id with
    | none => simp [found] at there
    | some entry =>
      obtain rfl : entry.2 = s := by simpa [found] using there
      obtain ⟨_, _, _, data, _, ofData⟩ :=
        exists_of_mem_right (bindings_eq_ok_iff.mp built) (List.mem_of_find?_eq_some found)
      exact SectionValue.nodup_ids_of_ofData ofData
  · cases run.symm.trans bound

end Config

end TypedConfig
