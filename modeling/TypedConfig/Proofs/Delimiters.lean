import Mathlib.Data.List.Forall2
import TypedConfig.Proofs.NumberText

/-!
Where the parts of a rendered text end: strings at their closing quotes, words at the next delimiter, and lists at
their closing brackets. Literals do not escape backslashes, so `'\'` can be a whole string or the beginning of one. What
decides between the two is all the text behind: no text has all its quotes closed both when it is read as plain text and
when it is read as the rest of a string (`Balanced.not_inside`).
-/
namespace TypedConfig

/-! ### Quotes -/

open Value (escapeQuotes)

@[simp] theorem escapeQuotes_quote (s : List Char) : escapeQuotes ('\x27' :: s) = '\\' :: '\x27' :: escapeQuotes s := rfl

theorem escapeQuotes_cons {c : Char} (plain : c ≠ '\x27') (s : List Char) :
    escapeQuotes (c :: s) = c :: escapeQuotes s := by
  simp [escapeQuotes, plain]

/-- The rest of a string begins with a quote only if nothing of the string is left. -/
theorem eq_nil_of_quote_cons {s r cs : List Char} (same : '\x27' :: cs = escapeQuotes s ++ '\x27' :: r) :
    s = [] ∧ cs = r := by
  cases s with
  | nil => exact ⟨rfl, (List.cons.inj same).2⟩
  | cons c s =>
    by_cases quote : c = '\x27'
    · subst quote
      exact absurd (List.cons.inj same).1 (by decide)
    · rw [escapeQuotes_cons quote] at same
      exact absurd (List.cons.inj same).1.symm quote

/-- Text outside strings all of whose quotes are closed: plain characters and whole strings, one after the other. -/
inductive Balanced : List Char → Prop
  | nil : Balanced []
  | plain {c : Char} {cs : List Char} (plain : c ≠ '\x27' ∧ c ≠ '\\') (rest : Balanced cs) : Balanced (c :: cs)
  | string (s : List Char) {cs : List Char} (rest : Balanced cs) : Balanced ('\x27' :: (escapeQuotes s ++ '\x27' :: cs))

namespace Balanced
variable {cs r r' : List Char}

theorem append (front : Balanced cs) (back : Balanced r) : Balanced (cs ++ r) := by
  induction front with
  | nil => exact back
  | plain plain _ ih => exact .plain plain ih
  | string s _ ih =>
    rw [List.cons_append, List.append_assoc]
    exact .string s ih

theorem of_plain (plain : ∀ c ∈ cs, c ≠ '\x27' ∧ c ≠ '\\') : Balanced cs := by
  induction cs with
  | nil => exact .nil
  | cons c cs ih =>
    exact .plain (plain c List.mem_cons_self) (ih fun d member => plain d (List.mem_cons_of_mem _ member))

theorem flatMap {α : Type} {text : α → List Char} {as : List α} (each : ∀ a ∈ as, Balanced (text a)) :
    Balanced (as.flatMap text) := by
  induction as with
  | nil => exact .nil
  | cons a as ih =>
    exact (each a List.mem_cons_self).append (ih fun b member => each b (List.mem_cons_of_mem _ member))

theorem of_cons {c : Char} (noQuote : c ≠ '\x27') (whole : Balanced (c :: cs)) : c ≠ '\\' ∧ Balanced cs := by
  cases whole with
  | plain plain rest => exact ⟨plain.2, rest⟩
  | string => exact absurd rfl noQuote

theorem of_quote_cons (whole : Balanced ('\x27' :: cs)) :
    ∃ s behind, cs = escapeQuotes s ++ '\x27' :: behind ∧ Balanced behind := by
  cases whole with
  | plain plain => exact absurd rfl plain.1
  | string s behind => exact ⟨s, _, rfl, behind⟩

/-- No text with all its quotes closed is the rest of a string with such a text behind it. -/
theorem not_inside : ∀ (s : List Char) {r : List Char}, Balanced r → ¬ Balanced (escapeQuotes s ++ '\x27' :: r)
  | [], r, rest, whole => by
    -- The quote closes the string of the one reading and opens one of the other, so the readings swap.
    obtain ⟨t, behind, text, closed⟩ := of_quote_cons whole
    have shorter : (escapeQuotes t).length + behind.length < r.length := by simp [text]
    exact not_inside t closed (text ▸ rest)
  | c :: s, r, rest, whole => by
    by_cases quote : c = '\x27'
    · subst quote
      exact (of_cons (by decide) whole).1 rfl
    · have shorter : (escapeQuotes s).length < (escapeQuotes (c :: s)).length := by simp [escapeQuotes_cons quote]
      rw [escapeQuotes_cons quote] at whole
      exact not_inside s rest (of_cons quote whole).2
termination_by s r => (escapeQuotes s).length + r.length

/-- A string in quotes tells itself, and where it ends. -/
theorem string_inj (rest : Balanced r) (rest' : Balanced r') : ∀ {s t : List Char},
    escapeQuotes s ++ '\x27' :: r = escapeQuotes t ++ '\x27' :: r' → s = t ∧ r = r'
  | [], t, same => by
    obtain ⟨rfl, ends⟩ := eq_nil_of_quote_cons same
    exact ⟨rfl, ends⟩
  | s, [], same => by
    obtain ⟨rfl, ends⟩ := eq_nil_of_quote_cons same.symm
    exact ⟨rfl, ends.symm⟩
  | c :: s, d :: t, same => by
    by_cases quote : c = '\x27' <;> by_cases quote' : d = '\x27'
    · subst quote quote'
      simp only [escapeQuotes_quote, List.cons_append, List.cons.injEq, true_and] at same
      obtain ⟨rfl, ends⟩ := string_inj rest rest' same
      exact ⟨rfl, ends⟩
    -- The quote goes on with the one string and closes the other, which ends with a backslash of its own.
    · subst quote
      simp only [escapeQuotes_quote, escapeQuotes_cons quote', List.cons_append, List.cons.injEq] at same
      obtain ⟨rfl, rfl⟩ := eq_nil_of_quote_cons same.2
      exact absurd rest' (not_inside s rest)
    · subst quote'
      simp only [escapeQuotes_quote, escapeQuotes_cons quote, List.cons_append, List.cons.injEq] at same
      obtain ⟨rfl, rfl⟩ := eq_nil_of_quote_cons same.2.symm
      exact absurd rest (not_inside t rest')
    · simp only [escapeQuotes_cons quote, escapeQuotes_cons quote', List.cons_append, List.cons.injEq] at same
      obtain ⟨rfl, same⟩ := same
      obtain ⟨rfl, ends⟩ := string_inj rest rest' same
      exact ⟨rfl, ends⟩

end Balanced

/-! ### Words and delimiters -/

/-- The characters of what stands outside quotes and brackets. -/
def isWordChar (c : Char) : Bool := c.isAlphanum || c == '+' || c == '-' || c == '.'

theorem isWordChar_of_isNumberChar {c : Char} (inside : isNumberChar c = true) : isWordChar c = true := by
  simp only [isNumberChar, isIntegerChar, Bool.or_eq_true, beq_iff_eq] at inside
  rcases inside with ((((((((digit | rfl) | rfl) | rfl) | rfl) | rfl) | rfl) | rfl) | rfl) | rfl
  · simp [isWordChar, Char.isAlphanum, digit]
  all_goals decide

theorem plain_of_isWordChar {c : Char} (inside : isWordChar c = true) : c ≠ '\x27' ∧ c ≠ '\\' := by
  constructor <;> (rintro rfl; exact absurd inside (by decide))

/-- A word tells itself, and where it ends: before what does not go on with it. -/
theorem word_inj {inside : Char → Bool} {cs ds r r' : List Char} (word : ∀ c ∈ cs, inside c = true)
    (word' : ∀ c ∈ ds, inside c = true) (ends : r.takeWhile inside = []) (ends' : r'.takeWhile inside = [])
    (same : cs ++ r = ds ++ r') : cs = ds ∧ r = r' := by
  have front : cs = ds := by
    have first : (cs ++ r).takeWhile inside = cs := by rw [List.takeWhile_append_of_pos word, ends, List.append_nil]
    rw [← first, same, List.takeWhile_append_of_pos word', ends', List.append_nil]
  subst front
  exact ⟨rfl, List.append_cancel_left same⟩

/-- What can stand behind a literal: all quotes are closed in it, and no word goes on. -/
structure Follows (r : List Char) : Prop where
  balanced : Balanced r
  delimited : r.takeWhile isWordChar = []

namespace Follows
variable {cs ds r r' : List Char}

theorem nil : Follows [] := ⟨.nil, rfl⟩

theorem cons {c : Char} (delimiter : isWordChar c = false) (plain : c ≠ '\x27' ∧ c ≠ '\\') (rest : Balanced r) :
    Follows (c :: r) :=
  ⟨.plain plain rest, by rw [List.takeWhile_cons_of_neg (by simp [delimiter])]⟩

theorem takeWhile_append (follows : Follows r) (word : ∀ c ∈ cs, isWordChar c = true) :
    (cs ++ r).takeWhile isWordChar = cs := by
  rw [List.takeWhile_append_of_pos word, follows.delimited, List.append_nil]

theorem word_inj (follows : Follows r) (follows' : Follows r') (word : ∀ c ∈ cs, isWordChar c = true)
    (word' : ∀ c ∈ ds, isWordChar c = true) (same : cs ++ r = ds ++ r') : cs = ds ∧ r = r' :=
  TypedConfig.word_inj word word' follows.delimited follows'.delimited same

end Follows

/-! ### Lists -/

/-- Texts with a comma and a space between any two. -/
def separated : List (List Char) → List Char
  | [] => []
  | cs :: css => cs ++ css.flatMap (", ".toList ++ ·)

theorem separated_cons (cs : List Char) (css : List (List Char)) :
    separated (cs :: css) = cs ++ css.flatMap (", ".toList ++ ·) := rfl

theorem balanced_comma {cs : List Char} (text : Balanced cs) : Balanced (", ".toList ++ cs) :=
  .plain (by decide) (.plain (by decide) text)

theorem Balanced.separated {css : List (List Char)} (each : ∀ cs ∈ css, Balanced cs) : Balanced (separated css) := by
  cases css with
  | nil => exact .nil
  | cons cs css =>
    exact (each cs List.mem_cons_self).append
      (.flatMap fun ds member => balanced_comma (each ds (List.mem_cons_of_mem _ member)))

/-- In front of what can follow, the text of something tells, up to a relation, what it is the text of, and where it
    ends. -/
def Tells {α : Type} (text : α → List Char) (Alike : α → α → Prop) (a : α) : Prop :=
  ∀ ⦃b : α⦄ ⦃r r' : List Char⦄, Follows r → Follows r' → text a ++ r = text b ++ r' → Alike a b ∧ r = r'

namespace Tells
variable {α : Type} {text : α → List Char} {Alike : α → α → Prop} {close : Char}

theorem follows_tail (closing : close = ']' ∨ close = '\x7d') {css : List (List Char)}
    (balanced : ∀ cs ∈ css, Balanced cs) {r : List Char} (rest : Balanced r) :
    Follows (css.flatMap (", ".toList ++ ·) ++ close :: r) := by
  have closed : Follows (close :: r) := by
    rcases closing with rfl | rfl <;> exact .cons (by decide) (by decide) rest
  have whole : Balanced (css.flatMap (", ".toList ++ ·) ++ close :: r) :=
    (Balanced.flatMap fun cs member => balanced_comma (balanced cs member)).append closed.balanced
  refine ⟨whole, ?_⟩
  cases css with
  | nil => exact closed.delimited
  | cons cs css => rfl

/-- What holds of elements holds of what is left of a list of them, up to the bracket that closes it. -/
theorem tail (closing : close = ']' ∨ close = '\x7d') (balanced : ∀ a, Balanced (text a)) {r r' : List Char}
    (rest : Balanced r) (rest' : Balanced r') : ∀ {as bs : List α}, (∀ a ∈ as, Tells text Alike a) →
    (as.map text).flatMap (", ".toList ++ ·) ++ close :: r = (bs.map text).flatMap (", ".toList ++ ·) ++ close :: r' →
    List.Forall₂ Alike as bs ∧ r = r'
  | [], [], _, same => ⟨.nil, (List.cons.inj same).2⟩
  | [], _ :: _, _, same => by
    rcases closing with rfl | rfl <;> exact absurd (List.cons.inj same).1 (by decide)
  | _ :: _, [], _, same => by
    rcases closing with rfl | rfl <;> exact absurd (List.cons.inj same).1 (by decide)
  | a :: as, b :: bs, each, same => by
    have all (cs : List α) : ∀ ds ∈ cs.map text, Balanced ds := List.forall_mem_map.mpr fun c _ => balanced c
    simp only [List.map_cons, List.flatMap_cons, List.append_assoc, List.append_cancel_left_eq] at same
    obtain ⟨alike, same⟩ := each a List.mem_cons_self (follows_tail closing (all as) rest)
      (follows_tail closing (all bs) rest') same
    obtain ⟨others, ends⟩ := tail closing balanced rest rest' (fun c member => each c (List.mem_cons_of_mem _ member)) same
    exact ⟨.cons alike others, ends⟩

/-- What holds of elements holds of a list of them, up to the bracket that closes it. -/
theorem list (closing : close = ']' ∨ close = '\x7d') (balanced : ∀ a, Balanced (text a))
    (started : ∀ a cs ds, text a ++ cs ≠ close :: ds) {r r' : List Char} (rest : Balanced r) (rest' : Balanced r')
    {as bs : List α} (each : ∀ a ∈ as, Tells text Alike a)
    (same : separated (as.map text) ++ close :: r = separated (bs.map text) ++ close :: r') :
    List.Forall₂ Alike as bs ∧ r = r' := by
  cases as with
  | nil =>
    cases bs with
    | nil => exact ⟨.nil, (List.cons.inj same).2⟩
    | cons b bs =>
      rw [List.map_cons, separated_cons, List.append_assoc] at same
      exact absurd same.symm (started b _ _)
  | cons a as =>
    rw [List.map_cons, separated_cons, List.append_assoc] at same
    cases bs with
    | nil => exact absurd same (started a _ _)
    | cons b bs =>
      rw [List.map_cons, separated_cons, List.append_assoc] at same
      refine tail closing balanced rest rest' each ?_
      simp only [List.map_cons, List.flatMap_cons, List.append_assoc]
      exact congrArg _ same

end Tells

end TypedConfig
