import Mathlib.Data.List.TakeDrop
import TypedConfig.Json.Reader
import TypedConfig.Json.Text
import TypedConfig.Proofs.Loops
import TypedConfig.Proofs.NumberText

/-!
Strings and integers in JSON text are read as what they were written for, and what stands behind them is left
(`string_stringChars`, `number_integerChars`).
-/
namespace TypedConfig.Json

/-! ### Strings -/

theorem hexDigit?_digitChar : ∀ n < 16, Text.hexDigit? (Nat.digitChar n) = some n := by decide

/-- The escape of a control by its code point is read as the control. -/
theorem codePoint?_of_control {c : Char} (control : c.toNat < 0x20) (cs : List Char) :
    codePoint? ('0' :: '0' :: Nat.digitChar (c.toNat / 16) :: Nat.digitChar (c.toNat % 16) :: cs) = some (c, cs) := by
  have zero : Text.hexDigit? '0' = some 0 := by decide
  have high := hexDigit?_digitChar (c.toNat / 16) (by omega)
  have low := hexDigit?_digitChar (c.toNat % 16) (by omega)
  have number : 16 * (c.toNat / 16) + c.toNat % 16 = c.toNat := Nat.div_add_mod _ _
  have noSurrogate : ¬ (0xD800 ≤ c.toNat ∧ c.toNat < 0xDC00) ∧ ¬ (0xDC00 ≤ c.toNat ∧ c.toNat < 0xE000) := by omega
  simp [codePoint?, Text.hexNumber?, Text.hexDigits?, zero, high, low, number, noSurrogate]

/-- A character of a string stands for itself, or is told by an escape. -/
theorem escapedChar_cases (c : Char) :
    (escapedChar c = [c] ∧ c ≠ '\x22' ∧ c ≠ '\\' ∧ ¬ c.toNat < 0x20) ∨
      ∃ code, escapedChar c = '\\' :: code ∧ ∀ cs, escape? (code ++ cs) = some (c, cs) := by
  unfold escapedChar
  by_cases quote : c = '\x22'
  · subst quote; exact .inr ⟨_, rfl, fun _ => rfl⟩
  by_cases backslash : c = '\\'
  · subst backslash; exact .inr ⟨_, rfl, fun _ => rfl⟩
  by_cases backspace : c = '\x08'
  · subst backspace; exact .inr ⟨_, rfl, fun _ => rfl⟩
  by_cases feed : c = '\x0c'
  · subst feed; exact .inr ⟨_, rfl, fun _ => rfl⟩
  by_cases newline : c = '\n'
  · subst newline; exact .inr ⟨_, rfl, fun _ => rfl⟩
  by_cases carriage : c = '\r'
  · subst carriage; exact .inr ⟨_, rfl, fun _ => rfl⟩
  by_cases tab : c = '\t'
  · subst tab; exact .inr ⟨_, rfl, fun _ => rfl⟩
  rw [if_neg quote, if_neg backslash, if_neg backspace, if_neg feed, if_neg newline, if_neg carriage, if_neg tab]
  by_cases control : c.toNat < 0x20
  · rw [if_pos control]
    exact .inr ⟨_, rfl, codePoint?_of_control control⟩
  · rw [if_neg control]
    exact .inl ⟨rfl, quote, backslash, control⟩

theorem stringBody_escapedChar (fuel : Nat) (c : Char) (cs : List Char) :
    stringBody (fuel + 1) (escapedChar c ++ cs) = (stringBody fuel cs).map fun (ds, rest) => (c :: ds, rest) := by
  rcases escapedChar_cases c with ⟨itself, noQuote, noBackslash, noControl⟩ | ⟨code, escaped, told⟩
  · rw [itself, List.singleton_append, stringBody, if_neg noQuote, if_neg noBackslash, if_neg noControl]
    cases stringBody fuel cs <;> rfl
  · rw [escaped, List.cons_append, stringBody, if_neg (by decide), if_pos rfl, told]
    dsimp only
    cases stringBody fuel cs <;> rfl

theorem stringBody_flatMap (s rest : List Char) : ∀ {fuel : Nat}, s.length < fuel →
    stringBody fuel (s.flatMap escapedChar ++ '\x22' :: rest) = .ok (s, rest) := by
  induction s with
  | nil =>
    intro fuel enough
    cases fuel with
    | zero => cases enough
    | succ fuel => rfl
  | cons c s ih =>
    intro fuel enough
    cases fuel with
    | zero => cases enough
    | succ fuel =>
      rw [List.flatMap_cons, List.append_assoc, stringBody_escapedChar, ih (Nat.lt_of_succ_lt_succ enough)]
      rfl

theorem escapedChar_ne_nil (c : Char) : escapedChar c ≠ [] := by
  rcases escapedChar_cases c with ⟨itself, _⟩ | ⟨code, escaped, _⟩
  · simp [itself]
  · simp [escaped]

theorem length_flatMap_escapedChar (s : List Char) : s.length ≤ (s.flatMap escapedChar).length := by
  induction s with
  | nil => exact Nat.le_refl 0
  | cons c s ih =>
    have some := List.length_pos_iff.mpr (escapedChar_ne_nil c)
    rw [List.flatMap_cons, List.length_append, List.length_cons]
    omega

/-- A string is read up to its closing quote. -/
theorem string_stringChars (s : String) (rest : List Char) :
    string (stringChars s.toList ++ rest) = .ok (s, rest) := by
  have enough : s.toList.length < (s.toList.flatMap escapedChar ++ '\x22' :: rest).length := by
    have inside := length_flatMap_escapedChar s.toList
    simp only [List.length_append, List.length_cons]
    omega
  have text : stringChars s.toList ++ rest = '\x22' :: (s.toList.flatMap escapedChar ++ '\x22' :: rest) := by
    simp [stringChars]
  rw [text, string, stringBody_flatMap _ _ enough]
  change Except.ok (String.ofList s.toList, rest) = _
  rw [String.ofList_toList]

/-! ### Integers -/

open Binary (digitValue spanDigits)

/-- What can stand behind a value: nothing, or what ends an item of a container. -/
def Closes (r : List Char) : Prop := ∀ c ∈ r.head?, c = ',' ∨ c = ']' ∨ c = '\x7d'

theorem closes_nil : Closes [] := fun _ none => nomatch none

theorem closes_cons {c : Char} (closing : c = ',' ∨ c = ']' ∨ c = '\x7d') (r : List Char) : Closes (c :: r) := by
  rintro _ ⟨⟩
  exact closing

theorem spanDigits_append {ds r : List Char} (digits : ∀ c ∈ ds, c.isDigit = true) (closes : Closes r) :
    spanDigits (ds ++ r) = (ds, r) := by
  have ends : r.takeWhile Char.isDigit = [] ∧ r.dropWhile Char.isDigit = r := by
    cases r with
    | nil => exact ⟨rfl, rfl⟩
    | cons c r =>
      have noDigit : ¬ c.isDigit = true := by
        rcases closes c rfl with rfl | rfl | rfl <;> decide
      exact ⟨List.takeWhile_cons_of_neg noDigit, List.dropWhile_cons_of_neg noDigit⟩
  rw [spanDigits, List.span_eq_takeWhile_dropWhile, List.takeWhile_append_of_pos digits,
    List.dropWhile_append_of_pos digits, ends.1, ends.2, List.append_nil]

theorem le_ofDigitChars (n : Nat) (ds : List Char) : n ≤ Nat.ofDigitChars 10 ds n := by
  induction ds generalizing n with
  | nil => exact Nat.le_refl n
  | cons c ds ih =>
    rw [Nat.ofDigitChars_cons]
    exact Nat.le_trans (by omega) (ih _)

theorem takeDigits_of_lt {ds : List Char} (digits : ∀ c ∈ ds, c.isDigit = true) : ∀ {n : Nat},
    Nat.ofDigitChars 10 ds n < UInt64.size → takeDigits n ds = (Nat.ofDigitChars 10 ds n, ds.length, []) := by
  induction ds with
  | nil => exact fun _ => rfl
  | cons c ds ih =>
    intro n small
    obtain ⟨digit, digits⟩ := List.forall_mem_cons.mp digits
    have next : n * 10 + digitValue c = 10 * n + (c.toNat - '0'.toNat) := by
      rw [digitValue, Nat.mul_comm]
    rw [Nat.ofDigitChars_cons, ← next] at small
    have fits : n * 10 + digitValue c < UInt64.size := Nat.lt_of_le_of_lt (le_ofDigitChars _ ds) small
    rw [takeDigits, if_pos ⟨digit, fits⟩, ih digits small, Nat.ofDigitChars_cons, ← next]
    rfl

/-- The digits of a natural begin with zero only if there is no other. -/
theorem head?_toDigits (n : Nat) :
    ((Nat.toDigits 10 n).head? == some '0' && (Nat.toDigits 10 n).length != 1) = false := by
  induction n using Nat.strongRecOn with
  | ind n ih =>
    rw [Nat.toDigits_eq_if (by decide)]
    split
    · simp
    · next large =>
      have positive : 0 < n / 10 := by omega
      have front : (Nat.toDigits 10 (n / 10)).head? ≠ some '0' := by
        intro zero
        have single := ih (n / 10) (by omega)
        simp only [zero, beq_self_eq_true, Bool.true_and, bne_eq_false_iff_eq] at single
        obtain ⟨c, same⟩ := List.length_eq_one_iff.mp single
        rw [same] at zero
        obtain rfl := Option.some.inj zero
        have value := Nat.ofDigitChars_ten_toDigits (n := n / 10)
        rw [same] at value
        exact absurd value (by simp [Nat.ofDigitChars]; omega)
      rw [List.head?_append_of_ne_nil _ Nat.toDigits_ne_nil]
      simp [front]

theorem fraction_of_closes {r : List Char} (closes : Closes r) (n : Nat) : fraction n r = .ok (none, r) := by
  cases r with
  | nil => rfl
  | cons c r => rcases closes c rfl with rfl | rfl | rfl <;> rfl

theorem exponent_of_closes {r : List Char} (closes : Closes r) (n : Nat) : exponent n r = .ok (none, r) := by
  cases r with
  | nil => rfl
  | cons c r => rcases closes c rfl with rfl | rfl | rfl <;> rfl

theorem unsignedNumber_toDigits (negative : Bool) {n : Nat} (small : n < UInt64.size) {r : List Char}
    (closes : Closes r) : unsignedNumber negative (Nat.toDigits 10 n ++ r) = .ok (integer negative n, r) := by
  have digits : ∀ c ∈ Nat.toDigits 10 n, c.isDigit = true := fun _ => isDigit_of_mem_digits
  have taken : takeDigits 0 (Nat.toDigits 10 n) = (n, (Nat.toDigits 10 n).length, []) := by
    have value := Nat.ofDigitChars_ten_toDigits (n := n)
    rw [takeDigits_of_lt digits (by rwa [value]), value]
  have some : (Nat.toDigits 10 n).isEmpty = false := by simp [Nat.toDigits_ne_nil]
  unfold unsignedNumber
  simp only [spanDigits_append digits closes, taken, some, head?_toDigits, fraction_of_closes closes, Nat.sub_self]
  rw [if_neg Bool.false_ne_true, if_neg Bool.false_ne_true]
  exact bind_eq_ok_iff.mpr ⟨(none, r), rfl, bind_eq_ok_iff.mpr ⟨(none, r), exponent_of_closes closes n, rfl⟩⟩

theorem int64?_toInt (n : Int64) : int64? n.toInt = some n := by
  rw [int64?, if_pos ⟨n.minValue_le_toInt, n.toInt_le⟩, Int64.ofInt_toInt]

theorem natAbs_toInt_lt (n : Int64) : n.toInt.natAbs < UInt64.size := by
  have low := n.le_toInt
  have high := n.toInt_lt
  simp only [UInt64.size]
  omega

/-- A negative integer comes as a number with a sign, any other as one without; either stands for the integer. -/
theorem read_integer (n : Int64) :
    (integer (decide (n.toInt < 0)) n.toInt.natAbs).read = .ok (.integer n) := by
  by_cases negative : n.toInt < 0
  · have notZero : n.toInt.natAbs ≠ 0 := by omega
    have magnitude : -(n.toInt.natAbs : Int) = n.toInt := by omega
    have signed : integer true n.toInt.natAbs = .signed n := by
      rw [integer, if_pos rfl, if_neg notZero, magnitude, int64?_toInt]
    rw [decide_eq_true negative, signed, Event.read]
  · have magnitude : (n.toInt.natAbs : Int) = n.toInt := by omega
    have small : (UInt64.ofNat n.toInt.natAbs).toNat = n.toInt.natAbs := UInt64.toNat_ofNat_of_lt' (natAbs_toInt_lt n)
    have unsigned : integer false n.toInt.natAbs = .unsigned (UInt64.ofNat n.toInt.natAbs) := rfl
    rw [decide_eq_false negative, unsigned, Event.read, small, Value.ofUnsigned, magnitude, int64?_toInt]

theorem number_of_digit {c : Char} (digit : c.isDigit = true) (cs : List Char) :
    number (c :: cs) = unsignedNumber false (c :: cs) := by
  unfold number
  split
  · next same =>
      obtain rfl := (List.cons.inj same).1
      exact absurd digit (by decide)
  · rfl

/-- An integer is read up to what closes the item that it is, or to the end of the text. -/
theorem number_integerChars (n : Int64) {r : List Char} (closes : Closes r) :
    number (integerChars n.toInt ++ r) = .ok (integer (decide (n.toInt < 0)) n.toInt.natAbs, r) := by
  have unsigned := unsignedNumber_toDigits (decide (n.toInt < 0)) (natAbs_toInt_lt n) closes
  by_cases negative : n.toInt < 0
  · rw [integerChars, if_pos negative, List.cons_append, number]
    rwa [decide_eq_true negative] at unsigned ⊢
  · rw [integerChars, if_neg negative]
    rw [decide_eq_false negative] at unsigned ⊢
    obtain ⟨c, ds, digits⟩ := List.exists_cons_of_ne_nil (Nat.toDigits_ne_nil (n := n.toInt.natAbs) (b := 10))
    have digit : c.isDigit = true := isDigit_of_mem_digits (digits ▸ List.mem_cons_self)
    rw [digits, List.cons_append] at unsigned ⊢
    rw [number_of_digit digit, unsigned]

end TypedConfig.Json
