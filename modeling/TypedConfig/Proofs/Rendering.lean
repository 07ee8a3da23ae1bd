import TypedConfig.Conformance
import TypedConfig.Proofs.Delimiters
import TypedConfig.Proofs.Loops
import TypedConfig.Proofs.Nesting

/-!
What a rendered path tells. A route's text tells the route, and a value's literal form tells the value, up to numbers
that are written alike and up to an index and the integer that it equals (`rendering_unambiguous`).
-/
namespace TypedConfig

/-! ### Values -/

namespace Value

mutual

/-- Values that are the same but for their floating-point numbers, which have the same text. -/
inductive Alike : Value → Value → Prop
  | null : Alike .null .null
  | boolean (b : Bool) : Alike (.boolean b) (.boolean b)
  | integer (n : Int64) : Alike (.integer n) (.integer n)
  | float {x y : Binary64} (text : Binary.Layout.literal.text x = Binary.Layout.literal.text y) :
    Alike (.float x) (.float y)
  | string (s : String) : Alike (.string s) (.string s)
  | sequence {vs ws : List Value} (items : List.Forall₂ Alike vs ws) : Alike (.sequence vs) (.sequence ws)
  | mapping {es fs : List (Value × Value)} (entries : List.Forall₂ AlikeEntry es fs) : Alike (.mapping es) (.mapping fs)

/-- Entries with like keys and like values. -/
inductive AlikeEntry : Value × Value → Value × Value → Prop
  | mk {k l v w : Value} (key : Alike k l) (value : Alike v w) : AlikeEntry (k, v) (l, w)

end

/-- The text of an entry. -/
def entryChars (e : Value × Value) : List Char := literalChars e.1 ++ (": ".toList ++ literalChars e.2)

theorem literalItems_eq_separated (vs : List Value) : literalItems vs = separated (vs.map literalChars) := by
  match vs with
  | [] => rfl
  | [v] => exact (List.append_nil _).symm
  | v :: w :: ws =>
    change literalChars v ++ ", ".toList ++ literalItems (w :: ws) = _
    rw [literalItems_eq_separated (w :: ws)]
    simp [separated]

theorem literalEntries_eq_separated (es : List (Value × Value)) :
    literalEntries es = separated (es.map entryChars) := by
  match es with
  | [] => rfl
  | [(k, v)] =>
    change literalChars k ++ ": ".toList ++ literalChars v = _
    simp [separated, entryChars]
  | (k, v) :: e :: es =>
    change literalChars k ++ ": ".toList ++ literalChars v ++ ", ".toList ++ literalEntries (e :: es) = _
    rw [literalEntries_eq_separated (e :: es)]
    simp [separated, entryChars]

theorem literalChars_string (s : String) :
    (Value.string s).literalChars = '\x27' :: (escapeQuotes s.toList ++ ['\x27']) := rfl

theorem literalChars_sequence (vs : List Value) :
    (Value.sequence vs).literalChars = '[' :: (separated (vs.map literalChars) ++ [']']) := by
  rw [← literalItems_eq_separated]
  rfl

theorem literalChars_mapping (es : List (Value × Value)) :
    (Value.mapping es).literalChars = '\x7b' :: (separated (es.map entryChars) ++ ['\x7d']) := by
  rw [← literalEntries_eq_separated]
  rfl

theorem balanced_of_word {cs : List Char} (word : ∀ c ∈ cs, isWordChar c = true) : Balanced cs :=
  .of_plain fun c member => plain_of_isWordChar (word c member)

theorem isWordChar_of_mem_integer {n : Int} : ∀ c ∈ integerChars n, isWordChar c = true := fun _ member =>
  isWordChar_of_isNumberChar (isNumberChar_of_isIntegerChar (isIntegerChar_of_mem member))

theorem isWordChar_of_mem_float {x : Binary64} : ∀ c ∈ Binary.Layout.literal.text x, isWordChar c = true :=
  fun c member => isWordChar_of_isNumberChar (Binary.Layout.isNumberChar_of_mem_text _ x c member)

theorem isWordChar_of_mem_boolean (b : Bool) : ∀ c ∈ (Value.boolean b).literalChars, isWordChar c = true := by
  cases b <;> exact List.all_eq_true.mp (by decide)

theorem isWordChar_of_mem_null : ∀ c ∈ Value.null.literalChars, isWordChar c = true :=
  List.all_eq_true.mp (by decide)

theorem balanced_entryChars {e : Value × Value} (key : Balanced e.1.literalChars) (value : Balanced e.2.literalChars) :
    Balanced (entryChars e) :=
  key.append (.plain (by decide) (.plain (by decide) value))

theorem balanced_literalChars (v : Value) : Balanced v.literalChars := by
  induction v using Value.induct with
  | null => exact balanced_of_word isWordChar_of_mem_null
  | boolean b => exact balanced_of_word (isWordChar_of_mem_boolean b)
  | integer n => exact balanced_of_word isWordChar_of_mem_integer
  | float x => exact balanced_of_word isWordChar_of_mem_float
  | string s => exact .string s.toList .nil
  | sequence vs ih =>
    rw [literalChars_sequence]
    refine .plain (by decide) (.append (.separated ?_) (.plain (by decide) .nil))
    exact List.forall_mem_map.mpr ih
  | mapping es ih =>
    rw [literalChars_mapping]
    refine .plain (by decide) (.append (.separated ?_) (.plain (by decide) .nil))
    exact List.forall_mem_map.mpr fun e member => balanced_entryChars (ih e member).1 (ih e member).2

/-- The kind of a value that is written as a word. -/
def kindOfWord (word : List Char) : String :=
  if word.all isIntegerChar then "integer" else if word.all isNumberChar then "float"
  else if word = "null".toList then "null" else "boolean"

/-- The kind of the value whose literal a text begins with. -/
def kindOfText : List Char → String
  | [] => kindOfWord []
  | c :: cs =>
    if c = '\x27' then "string" else if c = '[' then "sequence" else if c = '\x7b' then "mapping"
    else kindOfWord ((c :: cs).takeWhile isWordChar)

theorem kindOfText_word {cs r : List Char} (word : ∀ c ∈ cs, isWordChar c = true) (some : cs ≠ []) (follows : Follows r) :
    kindOfText (cs ++ r) = kindOfWord cs := by
  obtain ⟨c, cs, rfl⟩ := List.exists_cons_of_ne_nil some
  have first := word c List.mem_cons_self
  have noQuote : c ≠ '\x27' := (plain_of_isWordChar first).1
  have noBracket : c ≠ '[' := by rintro rfl; exact absurd first (by decide)
  have noBrace : c ≠ '\x7b' := by rintro rfl; exact absurd first (by decide)
  rw [List.cons_append, kindOfText, if_neg noQuote, if_neg noBracket, if_neg noBrace, ← List.cons_append,
    follows.takeWhile_append word]

theorem kindOfText_integer (n : Int) {r : List Char} (follows : Follows r) :
    kindOfText (integerChars n ++ r) = "integer" := by
  rw [kindOfText_word isWordChar_of_mem_integer integerChars_ne_nil follows, kindOfWord,
    if_pos (List.all_eq_true.mpr fun _ => isIntegerChar_of_mem)]

theorem kindOfText_float (x : Binary64) {r : List Char} (follows : Follows r) :
    kindOfText (Binary.Layout.literal.text x ++ r) = "float" := by
  obtain ⟨c, member, mark⟩ := Binary.Layout.exists_mem_text .literal x
  have noInteger : ¬ (Binary.Layout.literal.text x).all isIntegerChar = true := fun all =>
    absurd (List.all_eq_true.mp all c member) (by simp [mark])
  rw [kindOfText_word isWordChar_of_mem_float (List.ne_nil_of_mem member) follows, kindOfWord, if_neg noInteger,
    if_pos (List.all_eq_true.mpr (Binary.Layout.isNumberChar_of_mem_text _ x))]

/-- A literal tells the kind of its value. -/
theorem kindOfText_literal (v : Value) {r : List Char} (follows : Follows r) :
    kindOfText (v.literalChars ++ r) = v.typeName := by
  cases v with
  | null => exact kindOfText_word isWordChar_of_mem_null (by decide) follows
  | boolean b =>
    rw [kindOfText_word (isWordChar_of_mem_boolean b) (by cases b <;> decide) follows]
    cases b <;> decide
  | integer n => exact kindOfText_integer n.toInt follows
  | float x => exact kindOfText_float x follows
  | string s => rfl
  | sequence vs => rfl
  | mapping es => rfl

theorem literalChars_ne_close (v : Value) {close : Char} (closing : close = ']' ∨ close = '\x7d') (cs ds : List Char) :
    v.literalChars ++ cs ≠ close :: ds := by
  have word {es : List Char} (word : ∀ c ∈ es, isWordChar c = true) (some : es ≠ []) : es ++ cs ≠ close :: ds := by
    obtain ⟨c, es, rfl⟩ := List.exists_cons_of_ne_nil some
    intro same
    obtain ⟨rfl, _⟩ := List.cons.inj same
    rcases closing with rfl | rfl <;> exact absurd (word _ List.mem_cons_self) (by decide)
  cases v with
  | null => exact word isWordChar_of_mem_null (by decide)
  | boolean b => exact word (isWordChar_of_mem_boolean b) (by cases b <;> decide)
  | integer n => exact word isWordChar_of_mem_integer integerChars_ne_nil
  | float x =>
    obtain ⟨c, member, _⟩ := Binary.Layout.exists_mem_text .literal x
    exact word isWordChar_of_mem_float (List.ne_nil_of_mem member)
  | _ => rcases closing with rfl | rfl <;> exact fun same => absurd (List.cons.inj same).1 (by decide)

theorem tells_entry {e : Value × Value} (key : Tells literalChars Alike e.1) (value : Tells literalChars Alike e.2) :
    Tells entryChars AlikeEntry e := by
  obtain ⟨k, v⟩ := e
  rintro ⟨l, w⟩ r r' follows follows' same
  have colon (v : Value) {r : List Char} (follows : Follows r) : Follows (": ".toList ++ (v.literalChars ++ r)) :=
    .cons (by decide) (by decide)
      (.plain (by decide) ((balanced_literalChars v).append follows.balanced))
  simp only [entryChars, List.append_assoc] at same
  obtain ⟨likeKey, same⟩ := key (colon v follows) (colon w follows') same
  obtain ⟨likeValue, ends⟩ := value follows follows' (List.append_cancel_left same)
  exact ⟨⟨likeKey, likeValue⟩, ends⟩

/-- A literal tells its value, and where it ends. -/
theorem tells_literal (a : Value) : Tells literalChars Alike a := by
  have kinds {a b : Value} {r r' : List Char} (follows : Follows r) (follows' : Follows r')
      (same : a.literalChars ++ r = b.literalChars ++ r') : a.typeName = b.typeName := by
    rw [← kindOfText_literal a follows, same, kindOfText_literal b follows']
  -- So in each case the second value is of the same kind, and the texts inside have to be told apart.
  induction a using Value.induct with
  | null =>
    intro b r r' follows follows' same
    have kind := kinds follows follows' same
    cases b with
    | null => exact ⟨.null, List.append_cancel_left same⟩
    | _ => simp [typeName] at kind
  | boolean b =>
    intro c r r' follows follows' same
    have kind := kinds follows follows' same
    cases c with
    | boolean c =>
      obtain ⟨text, ends⟩ := follows.word_inj follows' (isWordChar_of_mem_boolean b) (isWordChar_of_mem_boolean c) same
      obtain rfl : b = c := by cases b <;> cases c <;> first | rfl | exact absurd text (by decide)
      exact ⟨.boolean b, ends⟩
    | _ => simp [typeName] at kind
  | integer n =>
    intro b r r' follows follows' same
    have kind := kinds follows follows' same
    cases b with
    | integer m =>
      obtain ⟨text, ends⟩ := follows.word_inj follows' isWordChar_of_mem_integer isWordChar_of_mem_integer same
      obtain rfl : n = m := Int64.toInt_inj.mp (integerChars_inj.mp text)
      exact ⟨.integer n, ends⟩
    | _ => simp [typeName] at kind
  | float x =>
    intro b r r' follows follows' same
    have kind := kinds follows follows' same
    cases b with
    | float y =>
      obtain ⟨text, ends⟩ := follows.word_inj follows' isWordChar_of_mem_float isWordChar_of_mem_float same
      exact ⟨.float text, ends⟩
    | _ => simp [typeName] at kind
  | string s =>
    intro b r r' follows follows' same
    have kind := kinds follows follows' same
    cases b with
    | string t =>
      simp only [literalChars_string, List.cons_append, List.append_assoc, List.nil_append, List.cons.injEq,
        true_and] at same
      obtain ⟨text, ends⟩ := Balanced.string_inj follows.balanced follows'.balanced same
      obtain rfl := String.toList_inj.mp text
      exact ⟨.string s, ends⟩
    | _ => simp [typeName] at kind
  | sequence vs ih =>
    intro b r r' follows follows' same
    have kind := kinds follows follows' same
    cases b with
    | sequence ws =>
      simp only [literalChars_sequence, List.cons_append, List.append_assoc, List.nil_append, List.cons.injEq,
        true_and] at same
      obtain ⟨items, ends⟩ := Tells.list (.inl rfl) balanced_literalChars
        (fun v cs ds => literalChars_ne_close v (.inl rfl) cs ds) follows.balanced follows'.balanced ih same
      exact ⟨.sequence items, ends⟩
    | _ => simp [typeName] at kind
  | mapping es ih =>
    intro b r r' follows follows' same
    have kind := kinds follows follows' same
    cases b with
    | mapping fs =>
      simp only [literalChars_mapping, List.cons_append, List.append_assoc, List.nil_append, List.cons.injEq,
        true_and] at same
      have started (e : Value × Value) (cs ds : List Char) : entryChars e ++ cs ≠ '\x7d' :: ds := by
        rw [entryChars, List.append_assoc]
        exact literalChars_ne_close e.1 (.inr rfl) _ _
      obtain ⟨entries, ends⟩ := Tells.list (.inr rfl)
        (fun e => balanced_entryChars (balanced_literalChars e.1) (balanced_literalChars e.2)) started
        follows.balanced follows'.balanced (fun e member => tells_entry (ih e member).1 (ih e member).2) same
      exact ⟨.mapping entries, ends⟩
    | _ => simp [typeName] at kind

/-- Like values are written alike. -/
theorem Alike.literalChars_eq {a : Value} : ∀ {b : Value}, a.Alike b → b.literalChars = a.literalChars := by
  induction a using Value.induct with
  | float x =>
    intro b alike
    cases alike with
    | float text => exact text.symm
  | sequence vs ih =>
    intro b alike
    cases alike with
    | sequence items =>
      have texts := map_eq_of_forall₂ literalChars literalChars (fun v member w alike => ih v member alike) items
      rw [literalChars_sequence, literalChars_sequence, texts]
  | mapping es ih =>
    intro b alike
    cases alike with
    | mapping entries =>
      have texts := map_eq_of_forall₂ entryChars entryChars (fun e member f alike => by
        obtain ⟨key, value⟩ := alike
        rw [entryChars, entryChars, (ih _ member).1 key, (ih _ member).2 value]) entries
      rw [literalChars_mapping, literalChars_mapping, texts]
  | _ =>
    intro b alike
    cases alike
    rfl

theorem literal_eq_iff {a b : Value} : a.literal = b.literal ↔ a.Alike b := by
  refine ⟨fun same => ?_, fun alike => congrArg String.ofList alike.literalChars_eq.symm⟩
  have same : a.literalChars ++ [] = b.literalChars ++ [] := congrArg (· ++ []) (String.ofList_inj.mp same)
  exact (tells_literal a .nil .nil same).1

end Value

/-! ### Routes -/

namespace Step

/-- Steps that are written alike: a key is written as a like key is, and an index as the integer that it equals. -/
inductive Alike : Step → Step → Prop
  | index (i : Nat) : Alike (.index i) (.index i)
  | key {k l : Value} (alike : k.Alike l) : Alike (.key k) (.key l)
  | indexKey {i : Nat} {n : Int64} (same : n.toInt = i) : Alike (.index i) (.key (.integer n))
  | keyIndex {i : Nat} {n : Int64} (same : n.toInt = i) : Alike (.key (.integer n)) (.index i)

/-- What stands between the brackets of a segment. -/
def chars : Step → List Char
  | .index i => integerChars i
  | .key k => k.literalChars

theorem toList_segment (step : Step) : step.segment.toList = '[' :: (step.chars ++ [']']) := by
  cases step with
  | index i => simp [segment, chars, integerChars_natCast]
  | key k => simp [segment, chars, Value.literal]

theorem balanced_chars (step : Step) : Balanced step.chars := by
  cases step with
  | index i => exact Value.balanced_of_word Value.isWordChar_of_mem_integer
  | key k => exact Value.balanced_literalChars k

theorem eq_integer_of_literal {i : Nat} {k : Value} {r r' : List Char} (follows : Follows r) (follows' : Follows r')
    (same : integerChars i ++ r = k.literalChars ++ r') : ∃ n : Int64, n.toInt = i ∧ k = .integer n ∧ r = r' := by
  have kind : "integer" = k.typeName := by
    rw [← Value.kindOfText_integer i follows, same, Value.kindOfText_literal k follows']
  cases k with
  | integer n =>
    obtain ⟨text, ends⟩ :=
      follows.word_inj follows' Value.isWordChar_of_mem_integer Value.isWordChar_of_mem_integer same
    exact ⟨n, (integerChars_inj.mp text).symm, rfl, ends⟩
  | _ => simp [Value.typeName] at kind

theorem tells_chars (step : Step) : Tells chars Alike step := by
  intro other r r' follows follows' same
  cases step with
  | index i =>
    cases other with
    | index j =>
      obtain ⟨text, ends⟩ :=
        follows.word_inj follows' Value.isWordChar_of_mem_integer Value.isWordChar_of_mem_integer same
      obtain rfl : i = j := Int.ofNat_inj.mp (integerChars_inj.mp text)
      exact ⟨.index i, ends⟩
    | key k =>
      obtain ⟨n, equal, rfl, ends⟩ := eq_integer_of_literal follows follows' same
      exact ⟨.indexKey equal, ends⟩
  | key k =>
    cases other with
    | index i =>
      obtain ⟨n, equal, rfl, ends⟩ := eq_integer_of_literal follows' follows same.symm
      exact ⟨.keyIndex equal, ends.symm⟩
    | key l =>
      obtain ⟨alike, ends⟩ := Value.tells_literal k follows follows' same
      exact ⟨.key alike, ends⟩

theorem Alike.chars_eq {s t : Step} (alike : s.Alike t) : s.chars = t.chars := by
  cases alike with
  | index => rfl
  | key alike => exact alike.literalChars_eq.symm
  | indexKey same => exact congrArg integerChars same.symm
  | keyIndex same => exact congrArg integerChars same

end Step

namespace Route

theorem toList_text (p : Route) : p.text.toList = p.flatMap fun step => '[' :: (step.chars ++ [']']) := by
  simp [text, String.toList_join, List.flatMap_map, Step.toList_segment]

theorem balanced_text (p : Route) : Balanced (p.flatMap fun step => '[' :: (step.chars ++ [']'])) :=
  .flatMap fun step _ =>
    .plain (by decide) (step.balanced_chars.append (.plain (by decide) .nil))

theorem text_eq_iff {p q : Route} : p.text = q.text ↔ List.Forall₂ Step.Alike p q := by
  rw [← String.toList_inj, toList_text, toList_text]
  constructor
  · intro same
    induction p generalizing q with
    | nil =>
      cases q with
      | nil => exact .nil
      | cons t q => simp at same
    | cons s p ih =>
      cases q with
      | nil => simp at same
      | cons t q =>
        simp only [List.flatMap_cons, List.cons_append, List.append_assoc, List.cons.injEq, true_and] at same
        have follows (p : Route) : Follows (']' :: p.flatMap fun step => '[' :: (step.chars ++ [']'])) :=
          .cons (by decide) (by decide) (balanced_text p)
        obtain ⟨alike, ends⟩ := s.tells_chars (follows p) (follows q) same
        exact .cons alike (ih (List.cons.inj ends).2)
  · intro alike
    induction alike with
    | nil => rfl
    | cons step _ ih => rw [List.flatMap_cons, List.flatMap_cons, step.chars_eq, ih]

end Route

/-- The text of a route tells its steps, and a literal tells its value. -/
theorem rendering_unambiguous : (∀ p q : Route, p.text = q.text ↔ List.Forall₂ Step.Alike p q) ∧
    ∀ a b : Value, a.literal = b.literal ↔ a.Alike b :=
  ⟨fun _ _ => Route.text_eq_iff, fun _ _ => Value.literal_eq_iff⟩

-- A backslash ends a string here, and there it stands in front of a quote.
example : (Value.sequence [.string "\\", .string ""]).literal = "['\\', '']" ∧
    (Value.sequence [.string "', "]).literal = "['\\', ']" := by decide

end TypedConfig
