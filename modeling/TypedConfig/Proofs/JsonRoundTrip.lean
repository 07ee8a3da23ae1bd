import TypedConfig.Proofs.JsonReading
import TypedConfig.Proofs.JsonTokens
import TypedConfig.Proofs.NormalForm

/-!
Values through JSON text. A value is read from its compact text as it was, if the text can hold it: without
floating-point numbers and with strings as keys, in the normal form of what is read, and with no more containers inside
each other than the reader follows (`read_text`). For such a text tells events that stand for the value (`exists_written`).
-/
namespace TypedConfig

namespace Value

/-! ### What text can hold -/

/-- A value that text can hold: no part of it is a floating-point number, and all keys of mappings are strings. -/
structure Textual (v : Value) : Prop where
  floatless : ∀ x, ¬ Part (.float x) v
  named : ∀ entries, Part (.mapping entries) v → ∀ e ∈ entries, ∃ name, e.1 = .string name

theorem Textual.part {v w : Value} (textual : w.Textual) (part : Part v w) : v.Textual where
  floatless x inside := textual.floatless x (inside.trans part)
  named entries inside := textual.named entries (inside.trans part)

theorem textual_sequence_iff {items : List Value} : Textual (.sequence items) ↔ ∀ v ∈ items, v.Textual := by
  constructor
  · intro textual v member
    exact textual.part (.element member (.whole v))
  · intro each
    refine ⟨fun x part => ?_, throughout_sequence_iff.mpr fun v member => (each v member).named⟩
    cases part with
    | element member part => exact (each _ member).floatless x part

theorem textual_mapping_iff {entries : List (Value × Value)} :
    Textual (.mapping entries) ↔
      (∀ e ∈ entries, ∃ name, e.1 = .string name) ∧ ∀ e ∈ entries, e.1.Textual ∧ e.2.Textual := by
  constructor
  · intro textual
    refine ⟨textual.named entries (.whole _), fun e member => ⟨?_, ?_⟩⟩
    · exact textual.part (.key member (.whole _))
    · exact textual.part (.value member (.whole _))
  · rintro ⟨here, each⟩
    refine ⟨fun x part => ?_,
      throughout_mapping_iff.mpr ⟨here, fun e member => ⟨(each e member).1.named, (each e member).2.named⟩⟩⟩
    cases part with
    | key member part => exact (each _ member).1.floatless x part
    | value member part => exact (each _ member).2.floatless x part

theorem textual_of_scalar {v : Value} (noFloat : v.float? = none) (noSequence : v.sequence? = none)
    (noMapping : v.mapping? = none) : v.Textual := by
  refine ⟨fun x part => ?_, throughout_of_scalar noSequence noMapping⟩
  cases part.eq_of_scalar noSequence noMapping
  cases noFloat

mutual

/-- How many containers stand inside each other. -/
def depth : Value → Nat
  | .sequence items => depthOfItems items + 1
  | .mapping entries => depthOfEntries entries + 1
  | _ => 0
termination_by structural v => v

def depthOfItems : List Value → Nat
  | [] => 0
  | v :: vs => max (depth v) (depthOfItems vs)
termination_by structural vs => vs

def depthOfEntries : List (Value × Value) → Nat
  | [] => 0
  | (k, v) :: es => max (max (depth k) (depth v)) (depthOfEntries es)
termination_by structural es => es

end

theorem depth_le_of_mem {items : List Value} {v : Value} (member : v ∈ items) : v.depth ≤ depthOfItems items := by
  induction items with
  | nil => cases member
  | cons w items ih =>
    rw [depthOfItems]
    rcases List.mem_cons.mp member with rfl | later
    · exact Nat.le_max_left _ _
    · exact Nat.le_trans (ih later) (Nat.le_max_right _ _)

theorem depth_value_le_of_mem {entries : List (Value × Value)} {e : Value × Value} (member : e ∈ entries) :
    e.2.depth ≤ depthOfEntries entries := by
  induction entries with
  | nil => cases member
  | cons f entries ih =>
    obtain ⟨k, v⟩ := f
    rw [depthOfEntries]
    rcases List.mem_cons.mp member with rfl | later
    · exact Nat.le_trans (Nat.le_max_right _ _) (Nat.le_max_left _ _)
    · exact Nat.le_trans (ih later) (Nat.le_max_right _ _)

end Value

namespace Json

/-! ### Texts in front of other text -/

/-- A text is that of a value, and tells it, whatever can stand behind, if containers may stand inside each other to a
    depth. -/
structure Written (depth : Nat) (v : Value) (cs : List Char) : Prop where
  text : valueChars v = .ok cs
  told : ∀ {r : List Char}, Closes r → ∃ e, Tells depth (cs ++ r) e r ∧ e.Means v

/-- A text is that of an entry under a string. -/
def WrittenEntry (depth : Nat) (e : Value × Value) (cs : List Char) : Prop :=
  ∃ name text, e.1 = .string name ∧ Written depth e.2 text ∧ cs = stringChars name.toList ++ ':' :: text

/-- A text is made of those of items, with a comma between any two. -/
inductive Joined {α : Type} (R : α → List Char → Prop) : List α → List Char → Prop
  | last {a : α} {cs : List Char} (item : R a cs) : Joined R [a] cs
  | more {a : α} {cs : List Char} {as : List α} {ds : List Char} (item : R a cs) (items : Joined R as ds) :
    Joined R (a :: as) (cs ++ ',' :: ds)

namespace Joined
variable {α : Type}

theorem exists_joined {R : α → List Char → Prop} {a : α} {as : List α} (each : ∀ b ∈ a :: as, ∃ cs, R b cs) :
    ∃ cs, Joined R (a :: as) cs := by
  induction as generalizing a with
  | nil =>
    obtain ⟨cs, item⟩ := each a List.mem_cons_self
    exact ⟨cs, .last item⟩
  | cons b as ih =>
    obtain ⟨cs, item⟩ := each a List.mem_cons_self
    obtain ⟨ds, items⟩ := ih fun c member => each c (List.mem_cons_of_mem a member)
    exact ⟨cs ++ ',' :: ds, .more item items⟩

/-- Texts in front of a closing character list what each tells. -/
theorem listed {R : α → List Char → Prop} {S : List Char → α → List Char → Prop} {close : Char}
    (closing : close = ']' ∨ close = '\x7d') (each : ∀ {a cs r}, R a cs → Closes r → S (cs ++ r) a r) {as : List α}
    {cs : List Char} (joined : Joined R as cs) (r : List Char) : Listed close S (cs ++ [close] ++ r) as r := by
  have noBlank : isBlank close = false := by rcases closing with rfl | rfl <;> decide
  rw [List.append_assoc, List.singleton_append]
  induction joined with
  | last item => exact .last (each item (closes_cons (.inr closing) r)) (skipBlanks_cons noBlank r)
  | more item _ ih =>
    rw [List.append_assoc, List.cons_append]
    exact .more (each item (closes_cons (.inl rfl) _)) (skipBlanks_cons (by decide) _) ih

end Joined

/-! ### Arrays -/

theorem itemChars_of_joined {depth : Nat} {vs : List Value} {cs : List Char} (joined : Joined (Written depth) vs cs) :
    itemChars vs = .ok cs := by
  induction joined with
  | last item => exact item.text
  | @more v cs vs ds item items ih =>
    cases vs with
    | nil => cases items
    | cons w vs =>
      exact bind_eq_ok_iff.mpr ⟨cs, item.text, bind_eq_ok_iff.mpr ⟨ds, ih, rfl⟩⟩

theorem Written.toldItem {depth : Nat} {v : Value} {cs r : List Char} (written : Written depth v cs) (closes : Closes r) :
    ∃ e, Tells depth (skipBlanks (cs ++ r)) e r ∧ e.Means v := by
  obtain ⟨e, told, stands⟩ := written.told closes
  exact ⟨e, told.opens.skipBlanks.symm ▸ told, stands⟩

theorem written_sequence {depth : Nat} {vs : List Value} (each : ∀ v ∈ vs, ∃ cs, Written depth v cs) :
    ∃ cs, Written (depth + 1) (.sequence vs) cs := by
  cases vs with
  | nil =>
    refine ⟨['[', ']'], rfl, fun {r} _ => ⟨.sequence [], .inr (.noItems ?_), Event.means_sequence_iff.mpr ⟨[], .nil, rfl⟩⟩⟩
    exact skipBlanks_cons (by decide) r
  | cons v vs =>
    obtain ⟨cs, joined⟩ := Joined.exists_joined each
    refine ⟨'[' :: cs ++ [']'], bind_eq_ok_iff.mpr ⟨cs, itemChars_of_joined joined, rfl⟩, fun {r} _ => ?_⟩
    have each : Listed ']' (fun cs v r => ∃ e, Tells depth (skipBlanks cs) e r ∧ e.Means v) (cs ++ [']'] ++ r) (v :: vs) r :=
      joined.listed (.inl rfl) Written.toldItem r
    obtain ⟨es, listed, stands⟩ := Listed.comp_iff.mp each
    exact ⟨.sequence es, .inr (.items listed), Event.means_sequence_iff.mpr ⟨v :: vs, stands, rfl⟩⟩

/-! ### Objects -/

theorem entryChars_of_joined {depth : Nat} {es : List (Value × Value)} {cs : List Char}
    (joined : Joined (WrittenEntry depth) es cs) : entryChars es = .ok cs := by
  induction joined with
  | @last e cs entry =>
    obtain ⟨k, v⟩ := e
    obtain ⟨name, text, rfl, written, rfl⟩ := entry
    exact bind_eq_ok_iff.mpr ⟨name.toList, rfl, bind_eq_ok_iff.mpr ⟨text, written.text, rfl⟩⟩
  | @more e cs es ds entry entries ih =>
    obtain ⟨k, v⟩ := e
    obtain ⟨name, text, rfl, written, rfl⟩ := entry
    cases es with
    | nil => cases entries
    | cons f es =>
      refine bind_eq_ok_iff.mpr ⟨name.toList, rfl, bind_eq_ok_iff.mpr ⟨text, written.text, ?_⟩⟩
      exact bind_eq_ok_iff.mpr ⟨ds, ih, by simp [pure, Except.pure]⟩

theorem WrittenEntry.toldMember {depth : Nat} {e : Value × Value} {cs r : List Char} (entry : WrittenEntry depth e cs)
    (closes : Closes r) :
    ∃ told, Member (Tells depth) (cs ++ r) told r ∧ told.1.Means e.1 ∧ told.2.Means e.2 := by
  obtain ⟨name, text, key, written, rfl⟩ := entry
  obtain ⟨inner, told, stands⟩ := written.toldItem closes
  refine ⟨(.text name, inner), ⟨name, ':' :: text ++ r, text ++ r, ?_, ?_, rfl, told⟩, Event.means_text_iff.mpr key, stands⟩
  · have opens : Opens (stringChars name.toList ++ (':' :: text ++ r)) := ⟨'\x22', _, rfl, by decide⟩
    rw [List.append_assoc, opens.skipBlanks, string_stringChars]
  · exact skipBlanks_cons (by decide) _

theorem written_mapping {depth : Nat} {m : Mapping} (distinct : m.Distinct)
    (unmarked : m.keys.head? ≠ some (.string dateTimeMark)) (each : ∀ e ∈ m, ∃ cs, WrittenEntry depth e cs) :
    ∃ cs, Written (depth + 1) (.mapping m) cs := by
  have made : Mapping.assemble? [] m = some (.mapping m) := by
    rw [Mapping.assemble?_eq_ofPairs unmarked, Mapping.ofPairs_of_distinct distinct]
  cases m with
  | nil =>
    refine ⟨['\x7b', '\x7d'], rfl,
      fun {r} _ => ⟨.mapping [], .inr (.noMembers ?_), Event.means_mapping_iff.mpr ⟨[], .nil, made⟩⟩⟩
    exact skipBlanks_cons (by decide) r
  | cons e es =>
    obtain ⟨cs, joined⟩ := Joined.exists_joined each
    refine ⟨'\x7b' :: cs ++ ['\x7d'], bind_eq_ok_iff.mpr ⟨cs, entryChars_of_joined joined, rfl⟩, fun {r} _ => ?_⟩
    obtain ⟨told, listed, stands⟩ := Listed.comp_iff.mp (joined.listed (.inr rfl) WrittenEntry.toldMember r)
    exact ⟨.mapping told, .inr (.members listed), Event.means_mapping_iff.mpr ⟨e :: es, stands, made⟩⟩

/-! ### Scalars -/

theorem written_of_scalar {depth : Nat} {v : Value} {cs : List Char} (text : valueChars v = .ok cs)
    (told : ∀ {r : List Char}, Closes r → ∃ e, Scalar (cs ++ r) e r ∧ e.read = .ok v) : Written depth v cs := by
  refine ⟨text, fun closes => ?_⟩
  obtain ⟨e, told, read⟩ := told closes
  exact ⟨e, told.tells, (Event.means_iff_of_isLeaf told.isLeaf).mpr read⟩

theorem written_null (depth : Nat) : Written depth .null "null".toList :=
  written_of_scalar rfl fun {r} _ => ⟨.unit, .nullWord r, rfl⟩

theorem written_boolean (depth : Nat) (b : Bool) : ∃ cs, Written depth (.boolean b) cs := by
  cases b with
  | true => exact ⟨_, written_of_scalar rfl fun {r} _ => ⟨.boolean true, .trueWord r, rfl⟩⟩
  | false => exact ⟨_, written_of_scalar rfl fun {r} _ => ⟨.boolean false, .falseWord r, rfl⟩⟩

theorem written_string (depth : Nat) (s : String) : Written depth (.string s) (stringChars s.toList) :=
  written_of_scalar rfl fun {r} _ => ⟨.text s, .string (string_stringChars s r), rfl⟩

theorem written_integer (depth : Nat) (n : Int64) : Written depth (.integer n) (integerChars n.toInt) :=
  written_of_scalar rfl fun closes => ⟨_, .number (number_integerChars n closes), read_integer n⟩

/-! ### Values -/

theorem exists_written (v : Value) : v.Normal → v.Textual → ∀ {depth : Nat}, v.depth ≤ depth →
    ∃ cs, Written depth v cs := by
  induction v using Value.induct with
  | null => exact fun _ _ depth _ => ⟨_, written_null depth⟩
  | boolean b => exact fun _ _ depth _ => written_boolean depth b
  | integer n => exact fun _ _ depth _ => ⟨_, written_integer depth n⟩
  | float x => exact fun _ textual => absurd (.whole _) (textual.floatless x)
  | string s => exact fun _ _ depth _ => ⟨_, written_string depth s⟩
  | sequence items ih =>
    intro normal textual depth nested
    obtain ⟨depth, rfl⟩ := Nat.exists_eq_succ_of_ne_zero (Nat.ne_of_gt (Nat.lt_of_lt_of_le (Nat.succ_pos _) nested))
    refine written_sequence fun v member => ?_
    exact ih v member (Value.normal_sequence_iff.mp normal v member) (Value.textual_sequence_iff.mp textual v member)
      (Nat.le_trans (Value.depth_le_of_mem member) (Nat.le_of_succ_le_succ nested))
  | mapping entries ih =>
    intro normal textual depth nested
    obtain ⟨depth, rfl⟩ := Nat.exists_eq_succ_of_ne_zero (Nat.ne_of_gt (Nat.lt_of_lt_of_le (Nat.succ_pos _) nested))
    obtain ⟨⟨distinct, unmarked⟩, parts⟩ := Value.normal_mapping_iff.mp normal
    refine written_mapping distinct unmarked fun e member => ?_
    obtain ⟨named, textual⟩ := Value.textual_mapping_iff.mp textual
    obtain ⟨name, key⟩ := named e member
    obtain ⟨cs, written⟩ := (ih e member).2 (parts e member).2 (textual e member).2
      (Nat.le_trans (Value.depth_value_le_of_mem member) (Nat.le_of_succ_le_succ nested))
    exact ⟨_, name, cs, key, written, rfl⟩

/-- A value that text can hold is written, and read from its text as it was, if containers stand no more than 127 deep
    inside each other. -/
theorem read_text {v : Value} (normal : v.Normal) (textual : v.Textual) (nested : v.depth ≤ 127) :
    ∃ s, text v = .ok s ∧ read s = .ok v := by
  obtain ⟨cs, written⟩ := exists_written v normal textual nested
  obtain ⟨e, told, stands⟩ := written.told closes_nil
  rw [List.append_nil] at told
  refine ⟨String.ofList cs, map_eq_ok_iff.mpr ⟨cs, written.text, rfl⟩, read_eq_ok_iff.mpr ⟨e, [], ?_, rfl, stands⟩⟩
  rw [String.toList_ofList, told.opens.skipBlanks]
  exact told

/-- The least and the greatest integer, a key with a quote, a backslash, a line feed and a control in it, and the mark of
    dates and times as a second key. -/
theorem read_text_escapes :
    let inner : Mapping := [(.string "", .sequence []), (.string dateTimeMark, .null)]
    let outer : Mapping := [(.string "z", .sequence [.integer Int64.minValue, .integer Int64.maxValue]),
      (.string "\"\\\n\x01", .mapping inner)]
    let v : Value := .mapping outer
    let s := "\x7b\"z\":[-9223372036854775808,9223372036854775807],\"\\\"\\\\\\n\\u0001\":" ++
      "\x7b\"\":[],\"$__toml_private_datetime\":null\x7d\x7d"
    v.Normal ∧ v.Textual ∧ v.depth ≤ 127 ∧ text v = .ok s ∧ read s = .ok v := by
  intro inner outer v s
  have scalar (v : Value) (noFloat : v.float? = none) (noSequence : v.sequence? = none) (noMapping : v.mapping? = none) :
      v.Normal ∧ v.Textual :=
    ⟨Value.normal_of_scalar noSequence noMapping, Value.textual_of_scalar noFloat noSequence noMapping⟩
  have name (s : String) := scalar (.string s) rfl rfl rfl
  have null := scalar .null rfl rfl rfl
  have integer (n : Int64) := scalar (.integer n) rfl rfl rfl
  have distinctInner : Mapping.Distinct inner := by unfold Mapping.Distinct; decide
  have distinctOuter : Mapping.Distinct outer := by unfold Mapping.Distinct; decide
  have normalInner : Value.Normal (.mapping inner) :=
    Value.normal_mapping_iff.mpr ⟨⟨distinctInner, by simp [inner, Mapping.keys, dateTimeMark]⟩,
      by simp [inner, name, null, Value.normal_sequence_iff]⟩
  have normal : v.Normal :=
    Value.normal_mapping_iff.mpr ⟨⟨distinctOuter, by simp [outer, Mapping.keys, dateTimeMark]⟩,
      by simp [outer, name, integer, normalInner, Value.normal_sequence_iff]⟩
  have textual : v.Textual := by
    simp [v, outer, inner, Value.textual_mapping_iff, Value.textual_sequence_iff, name, integer, null]
  have nested : v.depth ≤ 127 := by decide
  have written : text v = .ok s := rfl
  obtain ⟨_, same, read⟩ := read_text normal textual nested
  obtain rfl := Except.ok.inj (written.symm.trans same)
  exact ⟨normal, textual, nested, written, read⟩

end Json

end TypedConfig
