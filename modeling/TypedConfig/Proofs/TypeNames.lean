import Mathlib.Data.List.Nodup
import TypedConfig.Proofs.Delimiters
import TypedConfig.Schema.Basic

/-!
What the text of a type tells. If the names of custom types have no brackets and no commas in them and are not those of
other types, then types with one text are built alike (`text_eq_iff_sameStructure`).
-/
namespace TypedConfig

namespace ScalarType

/-- The scalar types that are not custom. -/
def builtin : List ScalarType := [.boolean, .integer, .float, .string, .anySequence, .anyMapping]

theorem mem_builtin_or_custom (type : ScalarType) : type ∈ builtin ∨ ∃ custom, type = .custom custom := by
  cases type with
  | custom custom => exact .inr ⟨custom, rfl⟩
  | _ => exact .inl (by simp [builtin])

theorem nodup_builtin_names : (builtin.map name).Nodup := by decide

end ScalarType

/-- The characters of names. Brackets and commas stand around names only. -/
def isNameChar (c : Char) : Bool := c != '[' && c != ']' && c != ','

/-- A custom type's name that cannot be taken for the text of another type. It may be empty. -/
structure CustomType.WellNamed (type : CustomType) : Prop where
  unbroken : ∀ c ∈ type.name.toList, isNameChar c = true
  fresh : ∀ other ∈ ScalarType.builtin, type.name ≠ other.name

namespace TypeDescriptor

/-- All custom types in a type have such names. -/
def WellNamed : TypeDescriptor → Prop
  | .scalar (.custom type) => type.WellNamed
  | .scalar _ => True
  | .optional inner => inner.WellNamed
  | .sequence item => item.WellNamed
  | .mapping key value => key.WellNamed ∧ value.WellNamed

/-- Two types are built alike: from the same containers in the same places, around the same scalar types. Custom types
    count as the same if they have one name, whatever they accept. -/
inductive SameStructure : TypeDescriptor → TypeDescriptor → Prop
  | builtin {type : ScalarType} (member : type ∈ ScalarType.builtin) : SameStructure (.scalar type) (.scalar type)
  | custom {a b : CustomType} (name : a.name = b.name) : SameStructure (.scalar (.custom a)) (.scalar (.custom b))
  | optional {a b : TypeDescriptor} (inner : SameStructure a b) : SameStructure (.optional a) (.optional b)
  | sequence {a b : TypeDescriptor} (item : SameStructure a b) : SameStructure (.sequence a) (.sequence b)
  | mapping {k l v w : TypeDescriptor} (key : SameStructure k l) (value : SameStructure v w) :
    SameStructure (.mapping k v) (.mapping l w)

/-! ### The word that a text begins with -/

/-- The name of a scalar type or of a container. -/
def word : TypeDescriptor → String
  | .scalar type => type.name
  | .optional _ => "Optional"
  | .sequence _ => "Sequence"
  | .mapping _ _ => "Mapping"

/-- What stands behind the word: for a container, the types in it between brackets. -/
def behindWord : TypeDescriptor → List Char
  | .scalar _ => []
  | .optional inner => '[' :: (inner.text.toList ++ [']'])
  | .sequence item => '[' :: (item.text.toList ++ [']'])
  | .mapping key value => '[' :: (key.text.toList ++ ',' :: ' ' :: (value.text.toList ++ [']']))

theorem toList_text (T : TypeDescriptor) : T.text.toList = T.word.toList ++ T.behindWord := by
  cases T <;> simp [text, word, behindWord]

theorem isNameChar_of_mem_word {T : TypeDescriptor} (named : T.WellNamed) :
    ∀ c ∈ T.word.toList, isNameChar c = true := by
  cases T with
  | scalar type =>
    cases type with
    | custom type => exact named.unbroken
    | _ => simp [word, ScalarType.name, isNameChar]
  | _ => simp [word, isNameChar]

/-- What can stand behind the text of a type: nothing, or what ends an item of a container. -/
def Closes (r : List Char) : Prop := ∀ c ∈ r.head?, c = ']' ∨ c = ','

theorem closes_nil : Closes [] := fun _ none => nomatch none

theorem closes_cons {c : Char} (closing : c = ']' ∨ c = ',') (r : List Char) : Closes (c :: r) := by
  rintro _ ⟨⟩
  exact closing

theorem Closes.ne_open {r cs : List Char} (closes : Closes r) : r ≠ '[' :: cs := by
  rintro rfl
  rcases closes '[' rfl with same | same <;> exact absurd same (by decide)

/-- No word goes on behind another. -/
theorem takeWhile_behindWord (T : TypeDescriptor) {r : List Char} (closes : Closes r) :
    (T.behindWord ++ r).takeWhile isNameChar = [] := by
  cases T with
  | scalar type =>
    cases r with
    | nil => rfl
    | cons c r =>
      refine List.takeWhile_cons_of_neg ?_
      rcases closes c rfl with rfl | rfl <;> decide
  | _ => rfl

/-- In front of what can follow, the text of a type tells its first word, and what stands behind this. -/
theorem word_of_text_append {S T : TypeDescriptor} (named : S.WellNamed) (named' : T.WellNamed) {r r' : List Char}
    (closes : Closes r) (closes' : Closes r') (same : S.text.toList ++ r = T.text.toList ++ r') :
    S.word = T.word ∧ S.behindWord ++ r = T.behindWord ++ r' := by
  rw [toList_text, toList_text, List.append_assoc, List.append_assoc] at same
  obtain ⟨words, behind⟩ := word_inj (isNameChar_of_mem_word named) (isNameChar_of_mem_word named')
    (S.takeWhile_behindWord closes) (T.takeWhile_behindWord closes') same
  exact ⟨String.toList_inj.mp words, behind⟩

/-! ### Types from their texts -/

theorem sameStructure_of_name {a b : ScalarType} (named : WellNamed (.scalar a)) (named' : WellNamed (.scalar b))
    (same : a.name = b.name) : SameStructure (.scalar a) (.scalar b) := by
  rcases a.mem_builtin_or_custom with builtin | ⟨custom, rfl⟩ <;>
    rcases b.mem_builtin_or_custom with builtin' | ⟨custom', rfl⟩
  · obtain rfl := List.inj_on_of_nodup_map ScalarType.nodup_builtin_names builtin builtin' same
    exact .builtin builtin
  · exact absurd same.symm (named'.fresh a builtin)
  · exact absurd same (named.fresh b builtin')
  · exact .custom same

/-- In front of what can follow, the text of a type tells its structure, and where it ends. -/
theorem sameStructure_of_text_append {S : TypeDescriptor} : ∀ {T : TypeDescriptor} {r r' : List Char},
    S.WellNamed → T.WellNamed → Closes r → Closes r' → S.text.toList ++ r = T.text.toList ++ r' →
    S.SameStructure T ∧ r = r' := by
  induction S with
  | scalar a =>
    intro T r r' named named' closes closes' same
    obtain ⟨words, behind⟩ := word_of_text_append named named' closes closes' same
    cases T with
    | scalar b => exact ⟨sameStructure_of_name named named' words, behind⟩
    | _ => exact absurd behind closes.ne_open
  | optional a ih =>
    intro T r r' named named' closes closes' same
    obtain ⟨words, behind⟩ := word_of_text_append named named' closes closes' same
    cases T with
    | optional b =>
      simp only [behindWord, List.cons_append, List.append_assoc, List.nil_append, List.cons.injEq, true_and] at behind
      obtain ⟨inner, ends⟩ := ih (T := b) named named' (closes_cons (.inl rfl) r) (closes_cons (.inl rfl) r') behind
      exact ⟨.optional inner, (List.cons.inj ends).2⟩
    | scalar b => exact absurd behind.symm closes'.ne_open
    | sequence _ => exact absurd words (by simp [word])
    | mapping _ _ => exact absurd words (by simp [word])
  | sequence a ih =>
    intro T r r' named named' closes closes' same
    obtain ⟨words, behind⟩ := word_of_text_append named named' closes closes' same
    cases T with
    | sequence b =>
      simp only [behindWord, List.cons_append, List.append_assoc, List.nil_append, List.cons.injEq, true_and] at behind
      obtain ⟨item, ends⟩ := ih (T := b) named named' (closes_cons (.inl rfl) r) (closes_cons (.inl rfl) r') behind
      exact ⟨.sequence item, (List.cons.inj ends).2⟩
    | scalar b => exact absurd behind.symm closes'.ne_open
    | optional _ => exact absurd words (by simp [word])
    | mapping _ _ => exact absurd words (by simp [word])
  | mapping k v key value =>
    intro T r r' named named' closes closes' same
    obtain ⟨words, behind⟩ := word_of_text_append named named' closes closes' same
    cases T with
    | mapping l w =>
      simp only [behindWord, List.cons_append, List.append_assoc, List.nil_append, List.cons.injEq, true_and] at behind
      -- The comma that ends the key's text stands outside all brackets of it.
      obtain ⟨keys, behind⟩ := key named.1 named'.1 (closes_cons (.inr rfl) _) (closes_cons (.inr rfl) _) behind
      simp only [List.cons.injEq, true_and] at behind
      obtain ⟨values, ends⟩ := value named.2 named'.2 (closes_cons (.inl rfl) r) (closes_cons (.inl rfl) r') behind
      exact ⟨.mapping keys values, (List.cons.inj ends).2⟩
    | scalar b => exact absurd behind.symm closes'.ne_open
    | optional _ => exact absurd words (by simp [word])
    | sequence _ => exact absurd words (by simp [word])

theorem SameStructure.text_eq {S T : TypeDescriptor} (same : S.SameStructure T) : S.text = T.text := by
  induction same with
  | builtin => rfl
  | custom name => exact name
  | optional _ ih => rw [text, text, ih]
  | sequence _ ih => rw [text, text, ih]
  | mapping _ _ key value => rw [text, text, key, value]

/-- Types have one text exactly if they are built alike, as long as no custom type's name can be taken for another
    type's text. -/
theorem text_eq_iff_sameStructure {S T : TypeDescriptor} (named : S.WellNamed) (named' : T.WellNamed) :
    S.text = T.text ↔ S.SameStructure T := by
  refine ⟨fun same => ?_, SameStructure.text_eq⟩
  have texts : S.text.toList ++ [] = T.text.toList ++ [] := by rw [same]
  exact (sameStructure_of_text_append named named' closes_nil closes_nil texts).1

/-- A custom type may be called like a container, and what it accepts is not told by its name. -/
theorem text_eq_iff_sameStructure_ports :
    let named (accepts : Value → Bool) : TypeDescriptor := .scalar (.custom ⟨"Optional", accepts⟩)
    let ports (accepts : Value → Bool) : TypeDescriptor := .mapping (named accepts) (.sequence (.optional .anySequence))
    let swapped : TypeDescriptor := .mapping (named Value.isNull) (.optional (.sequence .anySequence))
    (∀ accepts, (ports accepts).WellNamed) ∧ swapped.WellNamed ∧
      (ports Value.isNull).text = "Mapping[Optional, Sequence[Optional[sequence]]]" ∧
      (ports Value.isNull).SameStructure (ports fun _ => true) ∧ ¬ (ports Value.isNull).SameStructure swapped := by
  intro named ports swapped
  have wellNamed (accepts : Value → Bool) : (named accepts).WellNamed :=
    ⟨by simp [isNameChar], by simp [ScalarType.builtin, ScalarType.name]⟩
  have here (accepts : Value → Bool) : (ports accepts).WellNamed := ⟨wellNamed accepts, trivial⟩
  have there : swapped.WellNamed := ⟨wellNamed Value.isNull, trivial⟩
  have text : (ports Value.isNull).text = "Mapping[Optional, Sequence[Optional[sequence]]]" := by decide
  have different : (ports Value.isNull).text ≠ swapped.text := by decide
  exact ⟨here, there, text, (text_eq_iff_sameStructure (here _) (here _)).mp rfl,
    fun same => different ((text_eq_iff_sameStructure (here _) there).mpr same)⟩

/-- With a bracket in a name, one text can stand for two types. -/
example :
    (TypeDescriptor.scalar (.custom ⟨"Optional[float]", Value.isNull⟩)).text = (TypeDescriptor.optional .float).text := by
  decide

end TypeDescriptor

end TypedConfig
