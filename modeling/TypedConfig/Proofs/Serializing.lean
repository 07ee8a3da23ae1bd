import Mathlib.Data.List.Basic
import TypedConfig.Json.Text
import TypedConfig.Proofs.Loops
import TypedConfig.Value.Event

/-!
One walk over a value for everything that writes it (`Value.serialize`). What becomes of each kind of value is up to a
`Serializer`; the walk takes elements and entries in order, each key before its value. A value's events, its tree and its
text are this walk with three serializers (`serialize_events`, `ofValue_eq_serialize`, `valueChars_eq_serialize`). It fails
with the first key that cannot be written (`serialize_eq_error_iff`), so the tree and the text fail alike
(`valueChars_eq_error_iff`).
-/
namespace TypedConfig

/-- What becomes of the parts of a value. Only keys can be in the way. -/
structure Serializer (ε κ τ : Type) where
  key : Value → Except ε κ
  null : τ
  boolean : Bool → τ
  integer : Int64 → τ
  float : Binary64 → τ
  string : String → τ
  sequence : List τ → τ
  mapping : List (κ × τ) → τ

namespace Value
variable {ε κ τ : Type}

mutual

/-- What a serializer makes of a value, or the first fault. -/
def serialize (s : Serializer ε κ τ) : Value → Except ε τ
  | .null => .ok s.null
  | .boolean b => .ok (s.boolean b)
  | .integer n => .ok (s.integer n)
  | .float x => .ok (s.float x)
  | .string t => .ok (s.string t)
  | .sequence items => do return s.sequence (← serializeItems s items)
  | .mapping entries => do return s.mapping (← serializeEntries s entries)
termination_by structural v => v

def serializeItems (s : Serializer ε κ τ) : List Value → Except ε (List τ)
  | [] => .ok []
  | v :: vs => do
    let item ← serialize s v
    return item :: (← serializeItems s vs)
termination_by structural vs => vs

def serializeEntries (s : Serializer ε κ τ) : List (Value × Value) → Except ε (List (κ × τ))
  | [] => .ok []
  | (k, v) :: es => do
    let key ← s.key k
    let value ← serialize s v
    return (key, value) :: (← serializeEntries s es)
termination_by structural es => es

end

/-! ### Faults -/

mutual

/-- The keys inside a value, each before those of the value under it. -/
def keysWithin : Value → List Value
  | .null => []
  | .boolean _ => []
  | .integer _ => []
  | .float _ => []
  | .string _ => []
  | .sequence items => keysOfItems items
  | .mapping entries => keysOfEntries entries
termination_by structural v => v

def keysOfItems : List Value → List Value
  | [] => []
  | v :: vs => keysWithin v ++ keysOfItems vs
termination_by structural vs => vs

def keysOfEntries : List (Value × Value) → List Value
  | [] => []
  | (k, v) :: es => k :: (keysWithin v ++ keysOfEntries es)
termination_by structural es => es

end

theorem bind_const_congr {α β γ : Type} {x : Except ε α} {y : Except ε β} (z : Except ε γ)
    (alike : (fun _ => ()) <$> x = (fun _ => ()) <$> y) : (x >>= fun _ => z) = y >>= fun _ => z := by
  have first := bind_map_left (fun _ => ()) x fun _ => z
  rw [← first, alike, bind_map_left]

mutual

theorem serialize_ends (s : Serializer ε κ τ) : ∀ v : Value,
    (fun _ => ()) <$> v.serialize s = (fun _ => ()) <$> v.keysWithin.mapM s.key
  | .null => rfl
  | .boolean _ => rfl
  | .integer _ => rfl
  | .float _ => rfl
  | .string _ => rfl
  | .sequence items => by
    simpa only [serialize, keysWithin, bind_pure_comp, Functor.map_map] using serializeItems_ends s items
  | .mapping entries => by
    simpa only [serialize, keysWithin, bind_pure_comp, Functor.map_map] using serializeEntries_ends s entries
termination_by structural v => v

theorem serializeItems_ends (s : Serializer ε κ τ) : ∀ vs : List Value,
    (fun _ => ()) <$> serializeItems s vs = (fun _ => ()) <$> (keysOfItems vs).mapM s.key
  | [] => rfl
  | v :: vs => by
    simp only [serializeItems, keysOfItems, List.mapM_append, map_bind, bind_pure_comp, Functor.map_map,
      serializeItems_ends s vs]
    exact bind_const_congr _ (serialize_ends s v)
termination_by structural vs => vs

theorem serializeEntries_ends (s : Serializer ε κ τ) : ∀ es : List (Value × Value),
    (fun _ => ()) <$> serializeEntries s es = (fun _ => ()) <$> (keysOfEntries es).mapM s.key
  | [] => rfl
  | (k, v) :: es => by
    simp only [serializeEntries, keysOfEntries, List.mapM_cons, List.mapM_append, map_bind, bind_pure_comp,
      Functor.map_map, serializeEntries_ends s es]
    exact bind_congr fun _ => bind_const_congr _ (serialize_ends s v)
termination_by structural es => es

end

/-- Nothing but a key is in the way, and the first such key is what a writer reports. -/
theorem serialize_eq_error_iff {s : Serializer ε κ τ} {v : Value} {fault : ε} :
    v.serialize s = .error fault ↔
      ∃ before k after, v.keysWithin = before ++ k :: after ∧ (∀ b ∈ before, ∃ key, s.key b = .ok key) ∧
        s.key k = .error fault :=
  calc
    v.serialize s = .error fault ↔ (v.serialize s).map (fun _ => ()) = .error fault := map_eq_error_iff.symm
    _ ↔ (v.keysWithin.mapM s.key).map (fun _ => ()) = .error fault := Eq.congr_left (serialize_ends s v)
    _ ↔ v.keysWithin.mapM s.key = .error fault := map_eq_error_iff
    _ ↔ _ := mapM_eq_error_iff

/-! ### Events -/

/-- Makes events, also of keys. -/
def eventSerializer (ε : Type) : Serializer ε Event Event where
  key k := .ok k.events
  null := .unit
  boolean := .boolean
  integer := .signed
  float := .float
  string := .text
  sequence := .sequence
  mapping := .mapping

mutual

theorem serialize_events : ∀ v : Value, v.serialize (eventSerializer ε) = .ok v.events
  | .null => rfl
  | .boolean _ => rfl
  | .integer _ => rfl
  | .float _ => rfl
  | .string _ => rfl
  | .sequence items => by rw [serialize, serializeItems_events items]; rfl
  | .mapping entries => by rw [serialize, serializeEntries_events entries]; rfl
termination_by structural v => v

theorem serializeItems_events : ∀ vs : List Value, serializeItems (eventSerializer ε) vs = .ok (itemEvents vs)
  | [] => rfl
  | v :: vs => by rw [serializeItems, serialize_events v, serializeItems_events vs]; rfl
termination_by structural vs => vs

theorem serializeEntries_events : ∀ es : List (Value × Value),
    serializeEntries (eventSerializer ε) es = .ok (entryEvents es)
  | [] => rfl
  | (k, v) :: es => by rw [serializeEntries, serialize_events v, serializeEntries_events es]; rfl
termination_by structural es => es

end

end Value

namespace Json
open Value (serialize serializeItems serializeEntries)

/-! ### Trees -/

namespace Tree

/-- Makes a tree: members are stored in the order of their keys. -/
def serializer : Serializer KeyFault (List Char) Tree where
  key := keyChars
  null := .null
  boolean := .boolean
  integer := .integer
  float x := if x.isFinite then .float x else .null
  string := .string
  sequence := .array
  mapping members := .object (members.foldl (fun ms m => store (String.ofList m.1) m.2 ms) [])

mutual

theorem ofValue_eq_serialize : ∀ v : Value, ofValue v = v.serialize serializer
  | .null => rfl
  | .boolean _ => rfl
  | .integer _ => rfl
  | .float _ => rfl
  | .string _ => rfl
  | .sequence items => by rw [ofValue, ofItems_eq_serializeItems items, serialize]; rfl
  | .mapping entries => by
    rw [ofValue, ofEntries_eq_serializeEntries entries, serialize, bind_pure_comp, bind_pure_comp, ← comp_map]
    rfl
termination_by structural v => v

theorem ofItems_eq_serializeItems : ∀ vs : List Value, ofItems vs = serializeItems serializer vs
  | [] => rfl
  | v :: vs => by rw [ofItems, ofValue_eq_serialize v, ofItems_eq_serializeItems vs, serializeItems]
termination_by structural vs => vs

theorem ofEntries_eq_serializeEntries : ∀ (es : List (Value × Value)) {acc : List (String × Tree)},
    ofEntries acc es =
      List.foldl (fun ms m => store (String.ofList m.1) m.2 ms) acc <$> serializeEntries serializer es
  | [], _ => rfl
  | (k, v) :: es, acc => by
    rw [ofEntries, serializeEntries, ofValue_eq_serialize v]
    simp only [ofEntries_eq_serializeEntries es, map_bind, bind_pure_comp, Functor.map_map, List.foldl_cons]
    rfl
termination_by structural es => es

end

end Tree

/-! ### Text -/

/-- Writes compact text. -/
def textSerializer : Serializer KeyFault (List Char) (List Char) where
  key := keyChars
  null := "null".toList
  boolean b := if b then "true".toList else "false".toList
  integer n := integerChars n.toInt
  float x := if x.isFinite then Binary.Layout.json.text x else "null".toList
  string s := stringChars s.toList
  sequence items := '[' :: [','].intercalate items ++ [']']
  mapping members := '\x7b' :: [','].intercalate (members.map fun m => stringChars m.1 ++ ':' :: m.2) ++ ['\x7d']

mutual

theorem valueChars_eq_serialize : ∀ v : Value, valueChars v = v.serialize textSerializer
  | .null => rfl
  | .boolean true => rfl
  | .boolean false => rfl
  | .integer _ => rfl
  | .float _ => rfl
  | .string _ => rfl
  | .sequence items => by
    rw [valueChars, itemChars_eq_serializeItems items, serialize, bind_pure_comp, bind_pure_comp, ← comp_map]
    rfl
  | .mapping entries => by
    rw [valueChars, entryChars_eq_serializeEntries entries, serialize, bind_pure_comp, bind_pure_comp, ← comp_map]
    rfl
termination_by structural v => v

theorem itemChars_eq_serializeItems : ∀ vs : List Value,
    itemChars vs = [','].intercalate <$> serializeItems textSerializer vs
  | [] => rfl
  | [v] => by
    simp only [itemChars, serializeItems, valueChars_eq_serialize v, map_bind, bind_pure_comp, Functor.map_map]
    cases v.serialize textSerializer <;> simp [Functor.map, Except.map, bind, Except.bind]
  | v :: w :: vs => by
    have later := itemChars_eq_serializeItems (w :: vs)
    simp only [serializeItems, map_bind, bind_pure_comp, Functor.map_map] at later ⊢
    simp only [itemChars, valueChars_eq_serialize v, later, map_bind, bind_pure_comp, Functor.map_map,
      List.intercalate_cons_cons, List.append_assoc, List.singleton_append]
termination_by structural vs => vs

theorem entryChars_eq_serializeEntries : ∀ es : List (Value × Value),
    entryChars es = (fun members => [','].intercalate (members.map fun m => stringChars m.1 ++ ':' :: m.2)) <$>
      serializeEntries textSerializer es
  | [] => rfl
  | [(k, v)] => by
    rw [entryChars, valueChars_eq_serialize v]
    simp only [serializeEntries, map_bind, bind_pure_comp, Functor.map_map]
    refine bind_congr fun key => ?_
    cases v.serialize textSerializer <;> simp [Functor.map, Except.map, bind, Except.bind]
  | (k, v) :: (l, w) :: es => by
    have later := entryChars_eq_serializeEntries ((l, w) :: es)
    simp only [serializeEntries, map_bind, bind_pure_comp, Functor.map_map] at later ⊢
    simp only [entryChars, valueChars_eq_serialize v, later, map_bind, bind_pure_comp, Functor.map_map,
      List.map_cons, List.intercalate_cons_cons, List.append_assoc, List.cons_append]
    rfl
termination_by structural es => es

end

/-- A value has no text exactly if it has no tree, for the same reason. -/
theorem valueChars_eq_error_iff {v : Value} {fault : KeyFault} :
    valueChars v = .error fault ↔ Tree.ofValue v = .error fault := by
  rw [valueChars_eq_serialize, Tree.ofValue_eq_serialize, Value.serialize_eq_error_iff, Value.serialize_eq_error_iff]
  rfl

end Json

end TypedConfig
