import TypedConfig.Proofs.Assembling
import TypedConfig.Yaml.Reader

/-!
What the parts of a YAML document tell. From a position on, the parts tell events up to another position, aliases telling what
the parts tell that they stand for (`Tells`); and a value is read there exactly if such events stand for it
(`nodeToDepth_iff`). So the reader, which stores the entries of a mapping as it meets them, makes what reading the events
makes.
-/
namespace TypedConfig.Yaml

namespace Script

/-! ### Scalars -/

/-- The events that a scalar tells, unless it is not what its tag says. -/
def scalarEvent? (tag : Option Tag) (isPlain : Bool) (text : String) : Option Event :=
  let untagged : Event := if isPlain then plainEvent text else .text text
  match tag with
  | none => some untagged
  | some .own => some untagged
  | some .null => if isNull text then some .unit else none
  | some .boolean => (boolean? text).map .boolean
  | some .integer => integer? text.toList
  | some .float => (float? text).map .float
  | some .other => some (.text text)

theorem isLeaf_of_integer? {cs : List Char} {e : Event} (told : integer? cs = some e) : e.isLeaf = true := by
  unfold integer? at told
  dsimp only at told
  split at told
  · cases told
  · split at told
    · split at told
      · cases told
        rfl
      · split at told
        · cases told
          rfl
        · cases told
    · split at told
      · cases told
        rfl
      · split at told
        · cases told
          rfl
        · cases told

theorem isLeaf_plainEvent (text : String) : (plainEvent text).isLeaf = true := by
  unfold plainEvent
  split
  · rfl
  · split
    · rfl
    · next told => exact isLeaf_of_integer? told
    · split <;> rfl

theorem isLeaf_of_scalarEvent? {tag : Option Tag} {isPlain : Bool} {text : String} {e : Event}
    (told : scalarEvent? tag isPlain text = some e) : e.isLeaf = true := by
  have untagged : (if isPlain then plainEvent text else .text text).isLeaf = true := by
    split
    · exact isLeaf_plainEvent text
    · rfl
  unfold scalarEvent? at told
  dsimp only at told
  split at told
  · exact Option.some.inj told ▸ untagged
  · exact Option.some.inj told ▸ untagged
  · split at told
    · cases told
      rfl
    · cases told
  · obtain ⟨_, _, rfl⟩ := Option.map_eq_some_iff.mp told
    rfl
  · exact isLeaf_of_integer? told
  · obtain ⟨_, _, rfl⟩ := Option.map_eq_some_iff.mp told
    rfl
  · cases told
    rfl

theorem scalarValue_eq (tag : Option Tag) (isPlain : Bool) (text : String) :
    scalarValue tag isPlain text =
      match scalarEvent? tag isPlain text with
      | some e => e.read.mapError .value
      | none => .error .grammar := by
  unfold scalarValue scalarEvent? scalarValue.value
  dsimp only
  split
  · rfl
  · rfl
  · split <;> rfl
  · cases boolean? text <;> rfl
  · cases integer? text.toList <;> rfl
  · cases float? text <;> rfl
  · rfl

theorem scalarValue_eq_ok_iff {tag : Option Tag} {isPlain : Bool} {text : String} {v : Value} :
    scalarValue tag isPlain text = .ok v ↔ ∃ e, scalarEvent? tag isPlain text = some e ∧ e.Means v := by
  rw [scalarValue_eq]
  split
  · next e told =>
    rw [mapError_eq_ok_iff, told, ← Event.means_iff_of_isLeaf (isLeaf_of_scalarEvent? told)]
    exact ⟨fun stands => ⟨e, rfl, stands⟩, fun ⟨_, same, stands⟩ => Option.some.inj same ▸ stands⟩
  · next none =>
    rw [none]
    exact ⟨nofun, nofun⟩

/-! ### Parts in a row -/

/-- Where reading stands: at a part, after a number of aliases were followed. -/
abbrev Point := Nat × Nat

/-- Items one after the other up to the part that closes their collection. -/
inductive Listed {α : Type} (s : Script) (close : Part) (R : Point → α → Point → Prop) : Point → List α → Point → Prop
  | ends {p : Point} (there : s.parts[p.1]? = some close) : Listed s close R p [] (p.1 + 1, p.2)
  | item {p q r : Point} {part : Part} {a : α} {as : List α} (there : s.parts[p.1]? = some part) (inside : part ≠ close)
    (item : R p a q) (others : Listed s close R q as r) : Listed s close R p (a :: as) r

namespace Listed
variable {α β : Type} {s : Script} {close : Part} {R : Point → α → Point → Prop}

/-- Each item takes a part, and the closing part is there. -/
theorem length_lt (advances : ∀ {p a q}, R p a q → p.1 < q.1) {p q : Point} {as : List α} (listed : Listed s close R p as q) :
    p.1 + as.length < q.1 ∧ q.1 ≤ s.parts.size := by
  induction listed with
  | ends there =>
    obtain ⟨within, _⟩ := Array.getElem?_eq_some_iff.mp there
    exact ⟨Nat.lt_succ_self _, within⟩
  | item _ _ item _ ih =>
    have step := advances item
    refine ⟨?_, ih.2⟩
    have bound := ih.1
    rw [List.length_cons]
    omega

theorem comp_iff {S : α → β → Prop} : ∀ {p q : Point} {bs : List β},
    Listed s close (fun p b q => ∃ a, R p a q ∧ S a b) p bs q ↔ ∃ as, Listed s close R p as q ∧ List.Forall₂ S as bs := by
  intro p q bs
  constructor
  · intro listed
    induction listed with
    | ends there => exact ⟨[], .ends there, .nil⟩
    | item there inside item _ ih =>
      obtain ⟨a, item, stands⟩ := item
      obtain ⟨as, others, each⟩ := ih
      exact ⟨a :: as, .item there inside item others, .cons stands each⟩
  · rintro ⟨as, listed, each⟩
    induction listed generalizing bs with
    | ends there =>
      obtain rfl := List.forall₂_nil_left_iff.mp each
      exact .ends there
    | item there inside item _ ih =>
      obtain ⟨b, bs, stands, rest, rfl⟩ := List.forall₂_cons_left_iff.mp each
      exact .item there inside ⟨_, item, stands⟩ (ih rest)

end Listed

section
variable {s : Script} {node : Nat → Reading (Value × Nat)}

/-- What one round of reading elements reads. -/
def ReadsItem (node : Nat → Reading (Value × Nat)) (p : Point) (v : Value) (q : Point) : Prop :=
  node p.1 p.2 = .ok ((v, q.1), q.2)

/-- What one round of reading entries reads. -/
def ReadsEntry (node : Nat → Reading (Value × Nat)) (p : Point) (f : Value × Value) (q : Point) : Prop :=
  ∃ middle, ReadsItem node p f.1 middle ∧ ReadsItem node middle f.2 q

/-- Reading elements is to read each of a list, if the fuel lasts. -/
theorem items_eq_ok_iff {next after : Nat} : ∀ {fuel at_ followed : Nat} {vs : List Value},
    s.items node fuel at_ followed = .ok ((vs, next), after) ↔
      vs.length < fuel ∧ Listed s .sequenceEnd (ReadsItem node) (at_, followed) vs (next, after) := by
  intro fuel
  induction fuel with
  | zero =>
    intro at_ followed vs
    exact ⟨nofun, fun told => absurd told.1 (Nat.not_lt_zero _)⟩
  | succ fuel ih =>
    intro at_ followed vs
    constructor
    · intro run
      unfold items at run
      split at run
      · cases run
      · next there =>
        cases run
        exact ⟨Nat.succ_pos fuel, .ends there⟩
      · next part inside there =>
        obtain ⟨⟨⟨v, middle⟩, count⟩, here, run⟩ := bind_eq_ok_iff.mp run
        have read : ReadsItem node (at_, followed) v (middle, count) := here
        obtain ⟨⟨⟨vs, _⟩, _⟩, later, same⟩ := bind_eq_ok_iff.mp run
        cases same
        obtain ⟨few, others⟩ := ih.mp later
        exact ⟨Nat.succ_lt_succ few, .item there inside read others⟩
    · rintro ⟨few, listed⟩
      unfold items
      cases listed with
      | ends there => simp only [there]
      | @item _ middle _ part v vs there inside here others =>
        have rest := ih.mpr ⟨Nat.lt_of_succ_lt_succ few, others⟩
        split
        · next none => exact absurd (none.symm.trans there) nofun
        · next ends => exact absurd (Option.some.inj (there.symm.trans ends)) inside
        · exact bind_eq_ok_iff.mpr ⟨((v, middle.1), middle.2), here, bind_eq_ok_iff.mpr ⟨((vs, next), after), rest, rfl⟩⟩

theorem listed_of_entries {next after : Nat} {w : Value} : ∀ {fuel at_ followed : Nat} {m : Mapping},
    s.entries node fuel m at_ followed = .ok ((w, next), after) →
      ∃ fs, Listed s .mappingEnd (ReadsEntry node) (at_, followed) fs (next, after) ∧ m.assemble? fs = some w := by
  intro fuel
  induction fuel with
  | zero =>
    intro at_ followed m run
    cases run
  | succ fuel ih =>
    intro at_ followed m run
    unfold entries at run
    split at run
    · cases run
    · next there =>
      cases run
      exact ⟨[], .ends there, rfl⟩
    · next part inside there =>
      obtain ⟨⟨⟨k, first⟩, count⟩, isKey, run⟩ := bind_eq_ok_iff.mp run
      obtain ⟨⟨⟨v, second⟩, count'⟩, isValue, run⟩ := bind_eq_ok_iff.mp run
      have read : ReadsEntry node (at_, followed) (k, v) (second, count') := ⟨(first, count), isKey, isValue⟩
      dsimp only at run
      split at run
      · next whole =>
        split at run
        · next ends =>
          cases run
          exact ⟨[(k, w)], .item there inside read (.ends ends), (Mapping.assemble?_of_whole whole).mpr ⟨rfl, rfl⟩⟩
        · cases run
      · next kept =>
        obtain ⟨fs, others, made⟩ := ih run
        exact ⟨(k, v) :: fs, .item there inside read others, (Mapping.assemble?_of_kept kept).trans made⟩

theorem entries_of_listed {next after : Nat} {w : Value} : ∀ {fuel at_ followed : Nat} {m : Mapping} {fs : List (Value × Value)},
    fs.length < fuel → Listed s .mappingEnd (ReadsEntry node) (at_, followed) fs (next, after) → m.assemble? fs = some w →
      s.entries node fuel m at_ followed = .ok ((w, next), after) := by
  intro fuel
  induction fuel with
  | zero => exact fun few => absurd few (Nat.not_lt_zero _)
  | succ fuel ih =>
    intro at_ followed m fs few listed made
    unfold entries
    cases listed with
    | ends there =>
      cases made
      simp only [there]
    | @item _ second _ part f fs there inside read others =>
      obtain ⟨k, v⟩ := f
      obtain ⟨first, isKey, isValue⟩ := read
      split
      · next none => exact absurd (none.symm.trans there) nofun
      · next ends => exact absurd (Option.some.inj (there.symm.trans ends)) inside
      · refine bind_eq_ok_iff.mpr ⟨((k, first.1), first.2), isKey, bind_eq_ok_iff.mpr ⟨((v, second.1), second.2), isValue, ?_⟩⟩
        by_cases whole : m.standsForWhole k = true
        · obtain ⟨rfl, rfl⟩ := (Mapping.assemble?_of_whole whole).mp made
          cases others with
          | ends ends =>
            simp only [if_pos whole, if_pos ends]
            rfl
        · rw [Mapping.assemble?_of_kept whole] at made
          simp only [if_neg whole]
          exact ih (Nat.lt_of_succ_lt_succ few) others made

end

/-! ### Nodes -/

/-- An entry of a mapping, `inner` telling the events of its key and of its value. -/
def Entry (inner : Point → Event → Point → Prop) (p : Point) (entry : Event × Event) (q : Point) : Prop :=
  ∃ middle, inner p entry.1 middle ∧ inner middle entry.2 q

/-- The events that a part which is no alias tells with those inside it, `inner` telling those, if there may be any, and
    the point behind. -/
inductive Node (s : Script) (inner : Option (Point → Event → Point → Prop)) : Point → Event → Point → Prop
  | scalar {p : Point} {tag : Option Tag} {isPlain : Bool} {text : String} {e : Event}
    (there : s.parts[p.1]? = some (.scalar tag isPlain text)) (told : scalarEvent? tag isPlain text = some e) :
    Node s inner p e (p.1 + 1, p.2)
  | sequence {p q : Point} {R : Point → Event → Point → Prop} {es : List Event}
    (there : s.parts[p.1]? = some .sequenceStart) (inside : inner = some R)
    (listed : Listed s .sequenceEnd R (p.1 + 1, p.2) es q) : Node s inner p (.sequence es) q
  | mapping {p q : Point} {R : Point → Event → Point → Prop} {es : List (Event × Event)}
    (there : s.parts[p.1]? = some .mappingStart) (inside : inner = some R)
    (listed : Listed s .mappingEnd (Entry R) (p.1 + 1, p.2) es q) : Node s inner p (.mapping es) q

/-- The events that a part tells, which may be an alias. -/
inductive NodeOrAlias (s : Script) (inner : Option (Point → Event → Point → Prop)) : Point → Event → Point → Prop
  | node {p q : Point} {e : Event} (node : Node s inner p e q) : NodeOrAlias s inner p e q
  | follow {p q : Point} {number place : Nat} {e : Event} (there : s.parts[p.1]? = some (.alias number))
    (known : s.places.lookup number = some place) (few : p.2 < aliasesPerPart * s.parts.size)
    (node : Node s inner (place, p.2 + 1) e q) : NodeOrAlias s inner p e (p.1 + 1, q.2)

/-- The events that a part tells, if collections may stand inside each other to a depth, and the point behind. -/
def Tells (s : Script) : Nat → Point → Event → Point → Prop
  | 0 => NodeOrAlias s none
  | depth + 1 => NodeOrAlias s (some (Tells s depth))

theorem Node.no_alias {s : Script} {inner : Option (Point → Event → Point → Prop)} {p q : Point} {e : Event}
    (node : Node s inner p e q) {number : Nat} : s.parts[p.1]? ≠ some (.alias number) := by
  cases node with
  | scalar there => exact fun other => absurd (there.symm.trans other) nofun
  | sequence there => exact fun other => absurd (there.symm.trans other) nofun
  | mapping there => exact fun other => absurd (there.symm.trans other) nofun

theorem Entry.lt {inner : Point → Event → Point → Prop} (advances : ∀ {p e q}, inner p e q → p.1 < q.1) {p q : Point}
    {entry : Event × Event} (told : Entry inner p entry q) : p.1 < q.1 := by
  obtain ⟨middle, key, value⟩ := told
  exact Nat.lt_trans (advances key) (advances value)

section
variable {s : Script} {inner : Option (Point → Event → Point → Prop)}
  (advances : ∀ R, inner = some R → ∀ {p e q}, R p e q → p.1 < q.1)
include advances

theorem Node.lt {p q : Point} {e : Event} (node : Node s inner p e q) : p.1 < q.1 := by
  cases node with
  | scalar => exact Nat.lt_succ_self _
  | @sequence _ R es _ inside listed =>
    have bound := (listed.length_lt (advances R inside)).1
    dsimp only at bound
    omega
  | @mapping _ R es _ inside listed =>
    have bound := (listed.length_lt (Entry.lt (advances R inside))).1
    dsimp only at bound
    omega

theorem NodeOrAlias.lt {p q : Point} {e : Event} (told : NodeOrAlias s inner p e q) : p.1 < q.1 := by
  cases told with
  | node node => exact node.lt advances
  | follow => exact Nat.lt_succ_self _

end

theorem Tells.lt {s : Script} : ∀ {depth : Nat} {p q : Point} {e : Event}, Tells s depth p e q → p.1 < q.1 := by
  intro depth
  induction depth with
  | zero =>
    refine NodeOrAlias.lt ?_
    rintro _ ⟨⟩
  | succ depth ih =>
    refine NodeOrAlias.lt ?_
    rintro _ ⟨⟩ p e q
    exact ih

section
variable {s : Script} {read : Nat → Reading (Value × Nat)} {R : Point → Event → Point → Prop}
  (same : ∀ {p v q}, ReadsItem read p v q ↔ ∃ e, R p e q ∧ e.Means v) (advances : ∀ {p e q}, R p e q → p.1 < q.1)
include same

theorem readsEntry_iff {p q : Point} {f : Value × Value} :
    ReadsEntry read p f q ↔ ∃ entry, Entry R p entry q ∧ entry.1.Means f.1 ∧ entry.2.Means f.2 := by
  unfold ReadsEntry Entry
  simp only [same]
  constructor
  · rintro ⟨middle, ⟨k, toldKey, key⟩, v, toldValue, value⟩
    exact ⟨(k, v), ⟨middle, toldKey, toldValue⟩, key, value⟩
  · rintro ⟨⟨k, v⟩, ⟨middle, toldKey, toldValue⟩, key, value⟩
    exact ⟨middle, ⟨k, toldKey, key⟩, v, toldValue, value⟩

include advances

theorem items_iff {at_ followed next after : Nat} {vs : List Value} :
    s.items read s.parts.size at_ followed = .ok ((vs, next), after) ↔
      ∃ es, Listed s .sequenceEnd R (at_, followed) es (next, after) ∧ List.Forall₂ Event.Means es vs := by
  have each : ReadsItem read = fun p v q => ∃ e, R p e q ∧ e.Means v := by
    funext p v q
    exact propext same
  rw [items_eq_ok_iff, each, Listed.comp_iff]
  refine ⟨fun ⟨_, told⟩ => told, fun ⟨es, listed, stands⟩ => ⟨?_, es, listed, stands⟩⟩
  obtain ⟨few, within⟩ := listed.length_lt advances
  rw [← stands.length_eq]
  dsimp only at few within
  omega

theorem entries_iff {at_ followed next after : Nat} {w : Value} :
    s.entries read s.parts.size [] at_ followed = .ok ((w, next), after) ↔
      ∃ es, Listed s .mappingEnd (Entry R) (at_, followed) es (next, after) ∧ (Event.mapping es).Means w := by
  have each : ReadsEntry read = fun p f q => ∃ entry, Entry R p entry q ∧ entry.1.Means f.1 ∧ entry.2.Means f.2 := by
    funext p f q
    exact propext (readsEntry_iff same)
  simp only [Event.means_mapping_iff]
  constructor
  · intro run
    obtain ⟨fs, listed, made⟩ := listed_of_entries run
    obtain ⟨es, listed, stands⟩ := Listed.comp_iff.mp (each ▸ listed)
    exact ⟨es, listed, fs, stands, made⟩
  · rintro ⟨es, listed, fs, stands, made⟩
    obtain ⟨few, within⟩ := listed.length_lt (Entry.lt advances)
    refine entries_of_listed ?_ (each ▸ Listed.comp_iff.mpr ⟨es, listed, stands⟩) made
    rw [← stands.length_eq]
    dsimp only at few within
    omega

end

section
variable {s : Script} {inside : Option (Nat → Reading (Value × Nat))} {inner : Option (Point → Event → Point → Prop)}
  (same : Option.Rel (fun read R => (∀ {p v q}, ReadsItem read p v q ↔ ∃ e, R p e q ∧ e.Means v) ∧
    ∀ {p e q}, R p e q → p.1 < q.1) inside inner)
include same

theorem node_iff {p q : Point} {v : Value} :
    ReadsItem (s.node inside) p v q ↔ ∃ e, Node s inner p e q ∧ e.Means v := by
  obtain ⟨at_, followed⟩ := p
  obtain ⟨next, after⟩ := q
  unfold ReadsItem
  constructor
  · intro run
    unfold node at run
    split at run
    · next there =>
      obtain ⟨w, scalar, rest⟩ := bind_eq_ok_iff.mp run
      obtain ⟨e, told, stands⟩ := scalarValue_eq_ok_iff.mp scalar
      cases rest
      exact ⟨e, .scalar there told, stands⟩
    · next read there =>
      obtain ⟨⟨⟨vs, _⟩, _⟩, run, rest⟩ := bind_eq_ok_iff.mp run
      cases rest
      cases same with
      | some told =>
        obtain ⟨es, listed, each⟩ := (items_iff told.1 told.2).mp run
        exact ⟨.sequence es, .sequence there rfl listed, Event.means_sequence_iff.mpr ⟨vs, each, rfl⟩⟩
    · next read there =>
      cases same with
      | some told =>
        obtain ⟨es, listed, stands⟩ := (entries_iff told.1 told.2).mp run
        exact ⟨.mapping es, .mapping there rfl listed, stands⟩
    · cases run
  · rintro ⟨e, told, stands⟩
    unfold node
    cases told with
    | scalar there told =>
      simp only [there]
      exact bind_eq_ok_iff.mpr ⟨v, scalarValue_eq_ok_iff.mpr ⟨e, told, stands⟩, rfl⟩
    | sequence there inside listed =>
      subst inside
      cases same with
      | some told =>
        obtain ⟨vs, each, rfl⟩ := Event.means_sequence_iff.mp stands
        simp only [there]
        exact bind_eq_ok_iff.mpr ⟨((vs, next), after), (items_iff told.1 told.2).mpr ⟨_, listed, each⟩, rfl⟩
    | mapping there inside listed =>
      subst inside
      cases same with
      | some told =>
        simp only [there]
        exact (entries_iff told.1 told.2).mpr ⟨_, listed, stands⟩

theorem nodeOrAlias_iff {p q : Point} {v : Value} :
    ReadsItem (s.nodeOrAlias inside) p v q ↔ ∃ e, NodeOrAlias s inner p e q ∧ e.Means v := by
  obtain ⟨at_, followed⟩ := p
  obtain ⟨next, after⟩ := q
  unfold ReadsItem
  constructor
  · intro run
    unfold nodeOrAlias at run
    split at run
    · next number there =>
      split at run
      · next place known =>
        split at run
        · cases run
        · next few =>
          obtain ⟨⟨⟨w, behind⟩, count⟩, run, rest⟩ := bind_eq_ok_iff.mp run
          have read : ReadsItem (s.node inside) (place, followed + 1) w (behind, count) := run
          obtain ⟨e, told, stands⟩ := (node_iff same).mp read
          cases rest
          exact ⟨e, .follow there known (Nat.lt_of_not_le few) told, stands⟩
      · cases run
    · obtain ⟨e, told, stands⟩ := (node_iff same).mp run
      exact ⟨e, .node told, stands⟩
  · rintro ⟨e, told, stands⟩
    unfold nodeOrAlias
    cases told with
    | node told =>
      split
      · next there => exact absurd there told.no_alias
      · exact (node_iff same).mpr ⟨e, told, stands⟩
    | @follow behind number place _ there known few told =>
      have read := (node_iff same).mpr ⟨e, told, stands⟩
      simp only [there, known, if_neg (Nat.not_le_of_lt few)]
      exact bind_eq_ok_iff.mpr ⟨((v, behind.1), behind.2), read, rfl⟩

end

/-! ### Documents -/

/-- A value is read at a part exactly if the part tells events that stand for it, in which nothing comes after the mark. -/
theorem nodeToDepth_iff {s : Script} : ∀ {depth : Nat} {p q : Point} {v : Value},
    ReadsItem (s.nodeToDepth depth) p v q ↔ ∃ e, Tells s depth p e q ∧ e.Means v := by
  intro depth
  induction depth with
  | zero =>
    intro p q v
    exact nodeOrAlias_iff .none
  | succ depth ih =>
    intro p q v
    exact nodeOrAlias_iff (.some ⟨ih, Tells.lt⟩)

end Script

theorem Document.read_eq_ok_iff {d : Document} {v : Value} :
    d.read = .ok v ↔ ∃ e q, (Script.ofDocument d).Tells depthLimit (0, 0) e q ∧ e.Means v := by
  unfold Document.read
  constructor
  · intro run
    obtain ⟨⟨⟨w, next⟩, after⟩, run, same⟩ := bind_eq_ok_iff.mp run
    have read : Script.ReadsItem _ (0, 0) w (next, after) := run
    obtain ⟨e, told, stands⟩ := Script.nodeToDepth_iff.mp read
    cases same
    exact ⟨e, (next, after), told, stands⟩
  · rintro ⟨e, q, told, stands⟩
    have read := Script.nodeToDepth_iff.mpr ⟨e, told, stands⟩
    exact bind_eq_ok_iff.mpr ⟨((v, q.1), q.2), read, rfl⟩

/-- A value is read from a text exactly if all of the text makes up a document that has no part, and the value is null, or
    that tells events which stand for the value. -/
theorem read_eq_ok_iff {text : String} {v : Value} :
    read text = .ok v ↔
      ∃ d, documentOf (tokensOf text.toList).1 (tokensOf text.toList).2 = (d, true) ∧
        if d.parts.isEmpty then v = .null
        else ∃ e q, (Script.ofDocument d).Tells depthLimit (0, 0) e q ∧ e.Means v := by
  unfold read
  dsimp only
  generalize documentOf (tokensOf text.toList).1 (tokensOf text.toList).2 = result
  obtain ⟨d, complete⟩ := result
  constructor
  · intro run
    split at run
    · next both =>
      obtain ⟨empty, whole⟩ := Bool.and_eq_true_iff.mp both
      cases run
      exact ⟨d, Prod.ext rfl whole, by rw [if_pos empty]⟩
    · next notBoth =>
      obtain ⟨w, read, run⟩ := bind_eq_ok_iff.mp run
      split at run
      · next whole =>
        have some : ¬ d.parts.isEmpty = true := fun empty => notBoth (Bool.and_eq_true_iff.mpr ⟨empty, whole⟩)
        cases run
        exact ⟨d, Prod.ext rfl whole, by rw [if_neg some]; exact Document.read_eq_ok_iff.mp read⟩
      · cases run
  · rintro ⟨d, same, stands⟩
    cases same
    by_cases empty : d.parts.isEmpty = true
    · rw [if_pos empty] at stands
      rw [if_pos (Bool.and_eq_true_iff.mpr ⟨empty, rfl⟩), stands]
      rfl
    · rw [if_neg empty] at stands
      rw [if_neg fun both => empty (Bool.and_eq_true_iff.mp both).1]
      exact bind_eq_ok_iff.mpr ⟨v, Document.read_eq_ok_iff.mpr stands, rfl⟩

end TypedConfig.Yaml
