import Mathlib.Data.List.Basic
import TypedConfig.Value.Basic

/-!
The characters that the texts of numbers are made of. An integer's text has digits and at most a sign before them, and
tells the integer (`integerChars_inj`). A floating-point number's text, in every layout, has a point or a letter in it
(`Binary.Layout.exists_mem_text`), so it is no integer's.
-/
namespace TypedConfig

/-- Digits and the sign of a negative integer. -/
def isIntegerChar (c : Char) : Bool := c.isDigit || c == '-'

/-- The characters of floating-point numbers, also of those that are not finite. -/
def isNumberChar (c : Char) : Bool :=
  isIntegerChar c || c == '+' || c == '.' || c == 'e' || c == 'N' || c == 'a' || c == 'i' || c == 'n' || c == 'f'

theorem isNumberChar_of_isIntegerChar {c : Char} (inside : isIntegerChar c = true) : isNumberChar c = true := by
  simp [isNumberChar, inside]

theorem isNumberChar_of_isDigit {c : Char} (digit : c.isDigit = true) : isNumberChar c = true :=
  isNumberChar_of_isIntegerChar (by simp [isIntegerChar, digit])

/-! ### Integers -/

theorem isDigit_of_mem_digits {n : Nat} {c : Char} (member : c ∈ Nat.toDigits 10 n) : c.isDigit = true :=
  Nat.isDigit_of_mem_toDigits (by decide) (by decide) member

theorem digits_inj {m n : Nat} : Nat.toDigits 10 m = Nat.toDigits 10 n ↔ m = n := by
  refine ⟨fun same => ?_, congrArg _⟩
  rw [← Nat.ofDigitChars_ten_toDigits (n := m), same, Nat.ofDigitChars_ten_toDigits]

/-- No natural's digits begin with a sign. -/
theorem minus_cons_ne_digits {n : Nat} {cs : List Char} : '-' :: cs ≠ Nat.toDigits 10 n := by
  intro same
  have digit : Char.isDigit '-' = true := isDigit_of_mem_digits (same ▸ List.mem_cons_self)
  exact absurd digit (by decide)

theorem integerChars_natCast (n : Nat) : integerChars n = Nat.toDigits 10 n := by
  rw [integerChars, if_neg (by omega), Int.natAbs_natCast]

theorem integerChars_ne_nil {n : Int} : integerChars n ≠ [] := by
  unfold integerChars
  split
  · exact List.cons_ne_nil _ _
  · exact Nat.toDigits_ne_nil

theorem isIntegerChar_of_mem {n : Int} {c : Char} (member : c ∈ integerChars n) : isIntegerChar c = true := by
  unfold integerChars at member
  split at member
  · rcases List.mem_cons.mp member with rfl | member
    · rfl
    · simp [isIntegerChar, isDigit_of_mem_digits member]
  · simp [isIntegerChar, isDigit_of_mem_digits member]

/-- An integer's text tells the integer. -/
theorem integerChars_inj {m n : Int} : integerChars m = integerChars n ↔ m = n := by
  refine ⟨fun same => ?_, congrArg _⟩
  unfold integerChars at same
  split at same <;> split at same
  · have magnitude := digits_inj.mp (List.cons.inj same).2
    omega
  · exact absurd same minus_cons_ne_digits
  · exact absurd same.symm minus_cons_ne_digits
  · have magnitude := digits_inj.mp same
    omega

/-! ### Floating-point numbers -/

namespace Binary.Layout
variable {ds : List Char}

theorem isNumberChar_of_mem_plain (digits : ∀ c ∈ ds, c.isDigit = true) (exponent : Int) :
    ∀ c ∈ plain ds exponent, isNumberChar c = true := by
  intro c member
  have zero : isNumberChar '0' = true := by decide
  have point : isNumberChar '.' = true := by decide
  unfold plain at member
  split at member
  · simp only [List.mem_append, List.mem_replicate, List.mem_cons, List.not_mem_nil, or_false] at member
    rcases member with (digit | ⟨_, rfl⟩) | rfl | rfl
    · exact isNumberChar_of_isDigit (digits c digit)
    all_goals assumption
  · dsimp only at member
    split at member
    · rcases List.mem_append.mp member with before | after
      · exact isNumberChar_of_isDigit (digits c (List.mem_of_mem_take before))
      · rcases List.mem_cons.mp after with rfl | after
        · exact point
        · exact isNumberChar_of_isDigit (digits c (List.mem_of_mem_drop after))
    · simp only [List.cons_append, List.mem_cons, List.mem_append, List.mem_replicate] at member
      rcases member with rfl | rfl | ⟨_, rfl⟩ | digit
      · exact zero
      · exact point
      · exact zero
      · exact isNumberChar_of_isDigit (digits c digit)

theorem point_mem_plain (ds : List Char) (exponent : Int) : '.' ∈ plain ds exponent := by
  unfold plain
  split
  · simp
  · dsimp only
    split <;> simp

theorem isNumberChar_of_mem_scientific (l : Layout) (digits : ∀ c ∈ ds, c.isDigit = true) (e : Int) :
    ∀ c ∈ l.scientific ds e, isNumberChar c = true := by
  intro c member
  simp only [scientific, List.mem_append, List.mem_cons] at member
  rcases member with (significand | rfl | sign) | exponent
  · split at significand
    · rcases List.mem_cons.mp significand with rfl | after
      · exact isNumberChar_of_isDigit (digits _ List.mem_cons_self)
      · rcases List.mem_cons.mp after with rfl | after
        · decide
        · exact isNumberChar_of_isDigit (digits c (List.mem_cons_of_mem _ after))
    · exact isNumberChar_of_isDigit (digits c significand)
  · decide
  · split_ifs at sign
    · obtain rfl := List.mem_singleton.mp sign
      decide
    · obtain rfl := List.mem_singleton.mp sign
      decide
    · cases sign
  · exact isNumberChar_of_isDigit (isDigit_of_mem_digits exponent)

theorem exponent_mem_scientific (l : Layout) (ds : List Char) (e : Int) : 'e' ∈ l.scientific ds e := by
  simp [scientific]

theorem isNumberChar_of_mem_finite (l : Layout) (x : Binary64) : ∀ c ∈ l.finite x, isNumberChar c = true := by
  unfold finite
  split
  · exact List.all_eq_true.mp (by decide)
  · dsimp only
    split
    · exact isNumberChar_of_mem_plain (fun _ => isDigit_of_mem_digits) _
    · exact isNumberChar_of_mem_scientific l (fun _ => isDigit_of_mem_digits) _

theorem exists_mem_finite (l : Layout) (x : Binary64) : ∃ c ∈ l.finite x, isIntegerChar c = false := by
  unfold finite
  split
  · exact ⟨'.', by simp, by decide⟩
  · dsimp only
    split
    · exact ⟨'.', point_mem_plain _ _, by decide⟩
    · exact ⟨'e', exponent_mem_scientific _ _ _, by decide⟩

theorem isNumberChar_of_mem_text (l : Layout) (x : Binary64) : ∀ c ∈ l.text x, isNumberChar c = true := by
  intro c member
  unfold text at member
  split at member
  · exact List.all_eq_true.mp (by decide : ['N', 'a', 'N'].all isNumberChar = true) c member
  · rcases List.mem_append.mp member with sign | magnitude
    · split at sign
      · obtain rfl := List.mem_singleton.mp sign
        decide
      · cases sign
    · split at magnitude
      · exact List.all_eq_true.mp (by decide : ['i', 'n', 'f'].all isNumberChar = true) c magnitude
      · exact isNumberChar_of_mem_finite l x c magnitude

/-- The text of a floating-point number is never that of an integer. -/
theorem exists_mem_text (l : Layout) (x : Binary64) : ∃ c ∈ l.text x, isIntegerChar c = false := by
  unfold text
  split
  · exact ⟨'N', List.mem_cons_self, by decide⟩
  · have marked : ∃ c ∈ if x.isInfinite then ['i', 'n', 'f'] else l.finite x, isIntegerChar c = false := by
      split
      · exact ⟨'i', List.mem_cons_self, by decide⟩
      · exact exists_mem_finite l x
    obtain ⟨c, member, mark⟩ := marked
    exact ⟨c, List.mem_append_right _ member, mark⟩

end Binary.Layout

end TypedConfig
