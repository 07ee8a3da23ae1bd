import Mathlib.Data.List.TakeDrop
import TypedConfig.Json.Reader
import TypedConfig.Proofs.Assembling
import TypedConfig.Proofs.NumberText

/-!
What a JSON text tells. The grammar says which events a text has in front and what stands behind them (`Tells`), and a value is
read from the text exactly if such events stand for it (`value_eq_ok_iff`): the reader, which stores the members of an object
as it meets them, makes what reading the events makes.
-/
namespace TypedConfig.Json
open Binary (spanDigits splitSign)
open Text (Parsed)

/-! ### What is left of a text -/

theorem suffix_of_hexDigits? : ∀ {count n k : Nat} {cs r : List Char}, Text.hexDigits? count n cs = some (k, r) → r <:+ cs := by
  intro count
  induction count with
  | zero =>
    rintro n _ cs _ ⟨⟩
    exact List.suffix_refl cs
  | succ count ih =>
    intro n k cs r run
    cases cs with
    | nil => cases run
    | cons c cs =>
      obtain ⟨_, _, run⟩ := Option.bind_eq_some_iff.mp run
      exact (ih run).trans (List.suffix_cons c cs)

theorem suffix_of_codePoint? {cs r : List Char} {c : Char} (run : codePoint? cs = some (c, r)) : r <:+ cs := by
  unfold codePoint? at run
  cases first : Text.hexNumber? 4 cs with
  | none =>
    rw [first] at run
    cases run
  | some p =>
    obtain ⟨high, rest⟩ := p
    have left : rest <:+ cs := suffix_of_hexDigits? first
    rw [first] at run
    dsimp only [Option.bind_eq_bind, Option.bind_some] at run
    split at run
    · split at run
      · obtain ⟨⟨low, after⟩, second, run⟩ := Option.bind_eq_some_iff.mp run
        dsimp only at run
        split at run
        · obtain ⟨_, rfl⟩ := Prod.mk.inj (Option.some.inj run)
          have last := suffix_of_hexDigits? second
          exact ((last.trans (List.suffix_cons _ _)).trans (List.suffix_cons _ _)).trans left
        · cases run
      · cases run
    · split at run
      · cases run
      · obtain ⟨_, rfl⟩ := Prod.mk.inj (Option.some.inj run)
        exact left

theorem suffix_of_escape? {cs r : List Char} {c : Char} (run : escape? cs = some (c, r)) : r <:+ cs := by
  unfold escape? at run
  split at run
  case h_9 rest => exact (suffix_of_codePoint? run).trans (List.suffix_cons _ rest)
  case h_10 => cases run
  all_goals
    cases run
    exact List.suffix_cons _ _

theorem suffix_of_stringBody : ∀ {fuel : Nat} {cs ds r : List Char}, stringBody fuel cs = .ok (ds, r) → r <:+ cs := by
  intro fuel
  induction fuel with
  | zero =>
    intro cs ds r run
    cases run
  | succ fuel ih =>
    intro cs ds r run
    cases cs with
    | nil => cases run
    | cons c cs =>
      rw [stringBody] at run
      split at run
      · cases run
        exact List.suffix_cons c _
      · split at run
        · split at run
          · next told =>
            obtain ⟨⟨_, _⟩, later, same⟩ := bind_eq_ok_iff.mp run
            cases same
            exact ((ih later).trans (suffix_of_escape? told)).trans (List.suffix_cons c cs)
          · cases run
        · split at run
          · cases run
          · obtain ⟨⟨_, _⟩, later, same⟩ := bind_eq_ok_iff.mp run
            cases same
            exact (ih later).trans (List.suffix_cons c cs)

theorem string_cases {cs r : List Char} {s : String} (run : string cs = .ok (s, r)) : ∃ ds, cs = '\x22' :: ds ∧ r <:+ ds := by
  unfold string at run
  split at run
  · next ds =>
    obtain ⟨⟨_, _⟩, body, same⟩ := bind_eq_ok_iff.mp run
    cases same
    exact ⟨ds, rfl, suffix_of_stringBody body⟩
  · cases run

theorem suffix_of_spanDigits (cs : List Char) : (spanDigits cs).2 <:+ cs := by
  rw [spanDigits, List.span_eq_takeWhile_dropWhile]
  exact List.dropWhile_suffix _

theorem suffix_of_splitSign (cs : List Char) : (splitSign cs).2 <:+ cs := by
  unfold splitSign
  split
  · exact List.suffix_cons _ _
  · exact List.suffix_cons _ _
  · exact List.suffix_refl _

theorem suffix_of_fraction {n : Nat} {cs r : List Char} {found : Option (Nat × Nat)}
    (run : fraction n cs = .ok (found, r)) : r <:+ cs := by
  unfold fraction at run
  split at run
  · next rest =>
    split at run
    · cases run
    · cases run
      exact (suffix_of_spanDigits rest).trans (List.suffix_cons _ rest)
  · cases run
    exact List.suffix_refl cs

theorem suffix_of_exponent {n : Nat} {cs r : List Char} {found : Option Int} (run : exponent n cs = .ok (found, r)) :
    r <:+ cs := by
  unfold exponent at run
  split at run
  · next c rest =>
    have left : (spanDigits (splitSign rest).2).2 <:+ c :: rest :=
      ((suffix_of_spanDigits _).trans (suffix_of_splitSign rest)).trans (List.suffix_cons c rest)
    split at run
    · dsimp only at run
      split at run
      · cases run
      · split at run
        · cases run
          exact left
        · split at run
          · cases run
          · cases run
            exact left
    · cases run
      exact List.suffix_refl _
  · cases run
    exact List.suffix_refl _

theorem isLeaf_integer (negative : Bool) (n : Nat) : (integer negative n).isLeaf = true := by
  unfold integer
  split
  · split <;> rfl
  · rfl

theorem unsignedNumber_cases {negative : Bool} {cs r : List Char} {e : Event} (run : unsignedNumber negative cs = .ok (e, r)) :
    e.isLeaf = true ∧ r <:+ cs ∧ ∃ c ds, cs = c :: ds ∧ c.isDigit = true := by
  have afterWhole := suffix_of_spanDigits cs
  have first : (spanDigits cs).1 ≠ [] → ∃ c ds, cs = c :: ds ∧ c.isDigit = true := by
    rw [spanDigits, List.span_eq_takeWhile_dropWhile]
    intro some
    cases cs with
    | nil => exact absurd rfl some
    | cons c cs =>
      by_cases digit : c.isDigit = true
      · exact ⟨c, cs, rfl, digit⟩
      · exact absurd (List.takeWhile_cons_of_neg digit) some
  unfold unsignedNumber at run
  dsimp only at run
  split at run
  · cases run
  · next some =>
    split at run
    · cases run
    · obtain ⟨⟨fractional, afterFraction⟩, isFraction, run⟩ := bind_eq_ok_iff.mp run
      obtain ⟨⟨power, rest⟩, isPower, run⟩ := bind_eq_ok_iff.mp run
      have left : rest <:+ cs := ((suffix_of_exponent isPower).trans (suffix_of_fraction isFraction)).trans afterWhole
      have begins := first (by simpa using some)
      dsimp only at run
      split at run
      · cases run
        exact ⟨isLeaf_integer _ _, left, begins⟩
      · split at run
        · cases run
          exact ⟨rfl, left, begins⟩
        · cases run

theorem number_cases {cs r : List Char} {e : Event} (run : number cs = .ok (e, r)) :
    e.isLeaf = true ∧ r <:+ cs ∧ ∃ c ds, cs = c :: ds ∧ isIntegerChar c = true := by
  unfold number at run
  split at run
  · next ds =>
    obtain ⟨leaf, left, _⟩ := unsignedNumber_cases run
    exact ⟨leaf, left.trans (List.suffix_cons _ ds), '-', ds, rfl, rfl⟩
  · obtain ⟨leaf, left, c, ds, same, digit⟩ := unsignedNumber_cases run
    exact ⟨leaf, left, c, ds, same, by simp [isIntegerChar, digit]⟩

/-! ### How texts begin -/

/-- How the text of a value or of an entry begins: with no blank, and not like the end of a container. -/
def Opens (cs : List Char) : Prop := ∃ c ds, cs = c :: ds ∧ isBlank c = false ∧ c ≠ ']' ∧ c ≠ '\x7d'

theorem skipBlanks_cons {c : Char} (noBlank : isBlank c = false) (cs : List Char) : skipBlanks (c :: cs) = c :: cs :=
  List.dropWhile_cons_of_neg (by simp [noBlank])

theorem not_opens_end {c : Char} (ends : c = ']' ∨ c = '\x7d') {cs : List Char} : ¬ Opens (c :: cs) := by
  rintro ⟨_, _, ⟨⟩, _, noBracket, noBrace⟩
  exact ends.elim noBracket noBrace

theorem Opens.skipBlanks {cs : List Char} (opens : Opens cs) : skipBlanks cs = cs := by
  obtain ⟨c, ds, rfl, noBlank, _, _⟩ := opens
  exact skipBlanks_cons noBlank ds

theorem suffix_of_skipBlanks (cs : List Char) : skipBlanks cs <:+ cs := List.dropWhile_suffix _

theorem ne_of_isIntegerChar {c d : Char} (inside : isIntegerChar c = true) (outside : isIntegerChar d = false) :
    c ≠ d := by
  rintro rfl
  rw [inside] at outside
  cases outside

theorem isBlank_of_isIntegerChar {c : Char} (inside : isIntegerChar c = true) : isBlank c = false := by
  have different {d : Char} (outside : isIntegerChar d = false) := ne_of_isIntegerChar inside outside
  simp [isBlank, different (d := ' ') (by decide), different (d := '\n') (by decide), different (d := '\t') (by decide),
    different (d := '\r') (by decide)]

theorem scalar_eq_numberValue {c : Char} (first : isIntegerChar c = true) (cs : List Char) :
    scalar (c :: cs) = numberValue (c :: cs) := by
  unfold scalar
  split
  · next same => exact absurd (List.cons.inj same).1 (ne_of_isIntegerChar first (by decide))
  · next same => exact absurd (List.cons.inj same).1 (ne_of_isIntegerChar first (by decide))
  · next same => exact absurd (List.cons.inj same).1 (ne_of_isIntegerChar first (by decide))
  · next same => exact absurd (List.cons.inj same).1 (ne_of_isIntegerChar first (by decide))
  · rfl

/-- What is no container is a scalar at every depth. -/
theorem value_eq_scalar {c : Char} (noBracket : c ≠ '[') (noBrace : c ≠ '\x7b') (depth : Nat) (cs : List Char) :
    value depth (c :: cs) = scalar (c :: cs) := by
  cases depth with
  | zero =>
    unfold value
    split
    · next same => exact absurd (List.cons.inj same).1 noBracket
    · next same => exact absurd (List.cons.inj same).1 noBrace
    · rfl
  | succ depth =>
    unfold value
    split
    · next same => exact absurd (List.cons.inj same).1 noBracket
    · next same => exact absurd (List.cons.inj same).1 noBrace
    · rfl

/-! ### Scalars -/

/-- The events that a scalar tells, and the text behind it. -/
inductive Scalar : List Char → Event → List Char → Prop
  | nullWord (r : List Char) : Scalar ("null".toList ++ r) .unit r
  | trueWord (r : List Char) : Scalar ("true".toList ++ r) (.boolean true) r
  | falseWord (r : List Char) : Scalar ("false".toList ++ r) (.boolean false) r
  | string {cs r : List Char} {s : String} (read : string cs = .ok (s, r)) : Scalar cs (.text s) r
  | number {cs r : List Char} {e : Event} (read : number cs = .ok (e, r)) : Scalar cs e r

theorem word_eq_ok_iff {name : String} {v w : Value} {cs r : List Char} :
    word name v cs = .ok (w, r) ↔ cs = name.toList ++ r ∧ v = w := by
  unfold word
  constructor
  · intro run
    split at run
    · next begins =>
      obtain ⟨tail, rfl⟩ := List.isPrefixOf_iff_prefix.mp begins
      cases run
      exact ⟨by simp [← String.length_toList], rfl⟩
    · cases run
  · rintro ⟨rfl, rfl⟩
    rw [if_pos (List.isPrefixOf_iff_prefix.mpr (List.prefix_append _ r))]
    simp [← String.length_toList]

theorem scalar_eq_ok_iff {cs r : List Char} {v : Value} :
    scalar cs = .ok (v, r) ↔ ∃ e, Scalar cs e r ∧ e.read = .ok v := by
  constructor
  · intro run
    unfold scalar at run
    split at run
    · obtain ⟨same, rfl⟩ := word_eq_ok_iff.mp run
      exact same ▸ ⟨.unit, .nullWord r, rfl⟩
    · obtain ⟨same, rfl⟩ := word_eq_ok_iff.mp run
      exact same ▸ ⟨.boolean true, .trueWord r, rfl⟩
    · obtain ⟨same, rfl⟩ := word_eq_ok_iff.mp run
      exact same ▸ ⟨.boolean false, .falseWord r, rfl⟩
    · obtain ⟨⟨s, _⟩, read, same⟩ := bind_eq_ok_iff.mp run
      cases same
      exact ⟨.text s, .string read, rfl⟩
    · obtain ⟨⟨e, _⟩, told, run⟩ := bind_eq_ok_iff.mp run
      obtain ⟨_, read, same⟩ := bind_eq_ok_iff.mp run
      cases same
      exact ⟨e, .number (mapError_eq_ok_iff.mp told), mapError_eq_ok_iff.mp read⟩
  · rintro ⟨e, told, read⟩
    cases told with
    | nullWord =>
      cases read
      exact word_eq_ok_iff.mpr ⟨rfl, rfl⟩
    | trueWord =>
      cases read
      exact word_eq_ok_iff.mpr ⟨rfl, rfl⟩
    | falseWord =>
      cases read
      exact word_eq_ok_iff.mpr ⟨rfl, rfl⟩
    | @string _ _ s told =>
      cases read
      obtain ⟨ds, rfl, _⟩ := string_cases told
      exact bind_eq_ok_iff.mpr ⟨(s, r), told, rfl⟩
    | number told =>
      obtain ⟨_, _, c, ds, rfl, first⟩ := number_cases told
      rw [scalar_eq_numberValue first]
      exact bind_eq_ok_iff.mpr ⟨(e, r), mapError_eq_ok_iff.mpr told,
        bind_eq_ok_iff.mpr ⟨v, mapError_eq_ok_iff.mpr read, rfl⟩⟩

namespace Scalar
variable {cs r : List Char} {e : Event}

theorem isLeaf (told : Scalar cs e r) : e.isLeaf = true := by
  cases told with
  | number read => exact (number_cases read).1
  | _ => rfl

theorem suffix (told : Scalar cs e r) : r <:+ cs := by
  cases told with
  | nullWord => exact List.suffix_append _ r
  | trueWord => exact List.suffix_append _ r
  | falseWord => exact List.suffix_append _ r
  | string read =>
    obtain ⟨ds, rfl, left⟩ := string_cases read
    exact left.trans (List.suffix_cons _ ds)
  | number read => exact (number_cases read).2.1

theorem first (told : Scalar cs e r) :
    ∃ c ds, cs = c :: ds ∧ isBlank c = false ∧ c ≠ ']' ∧ c ≠ '\x7d' ∧ c ≠ '[' ∧ c ≠ '\x7b' := by
  cases told with
  | nullWord => exact ⟨'n', _, rfl, by decide⟩
  | trueWord => exact ⟨'t', _, rfl, by decide⟩
  | falseWord => exact ⟨'f', _, rfl, by decide⟩
  | string read =>
    obtain ⟨ds, rfl, _⟩ := string_cases read
    exact ⟨'\x22', ds, rfl, by decide⟩
  | number read =>
    obtain ⟨_, _, c, ds, same, first⟩ := number_cases read
    have different {d : Char} (other : isIntegerChar d = false) : c ≠ d := ne_of_isIntegerChar first other
    exact ⟨c, ds, same, isBlank_of_isIntegerChar first, different (by decide), different (by decide),
      different (by decide), different (by decide)⟩

end Scalar

/-! ### Lists between brackets -/

/-- Items one after the other up to a closing character, a comma between any two, and the text behind. Blanks may stand
    around each. -/
inductive Listed {α : Type} (close : Char) (R : List Char → α → List Char → Prop) :
    List Char → List α → List Char → Prop
  | last {cs after r : List Char} {a : α} (item : R cs a after) (ends : skipBlanks after = close :: r) :
    Listed close R cs [a] r
  | more {cs after next r : List Char} {a : α} {as : List α} (item : R cs a after)
    (comma : skipBlanks after = ',' :: next) (others : Listed close R next as r) : Listed close R cs (a :: as) r

namespace Listed
variable {α β : Type} {close : Char} {R : List Char → α → List Char → Prop} {cs r : List Char}

theorem opens (opens : ∀ {cs a r}, R cs a r → Opens (skipBlanks cs)) {as : List α} (listed : Listed close R cs as r) :
    Opens (skipBlanks cs) := by
  cases listed with
  | last item => exact opens item
  | more item => exact opens item

theorem ne_nil {as : List α} (listed : Listed close R cs as r) : as ≠ [] := by
  cases listed <;> exact List.cons_ne_nil _ _

theorem length_le (suffix : ∀ {cs a r}, R cs a r → r <:+ cs) {as : List α} (listed : Listed close R cs as r) :
    r <:+ cs ∧ as.length ≤ cs.length := by
  induction listed with
  | @last cs after r a item ends =>
    have left : close :: r <:+ cs := ends ▸ (suffix_of_skipBlanks after).trans (suffix item)
    refine ⟨(List.suffix_cons _ r).trans left, ?_⟩
    have bound := left.length_le
    simp only [List.length_cons, List.length_nil] at bound ⊢
    omega
  | @more cs after next r a as item comma others ih =>
    obtain ⟨later, few⟩ := ih
    have left : ',' :: next <:+ cs := comma ▸ (suffix_of_skipBlanks after).trans (suffix item)
    refine ⟨later.trans ((List.suffix_cons _ next).trans left), ?_⟩
    have bound := left.length_le
    simp only [List.length_cons] at bound ⊢
    omega

/-- Items are listed through others exactly if these are listed and each stands for its item. -/
theorem comp_iff {S : α → β → Prop} : ∀ {cs r : List Char} {bs : List β},
    Listed close (fun cs b r => ∃ a, R cs a r ∧ S a b) cs bs r ↔ ∃ as, Listed close R cs as r ∧ List.Forall₂ S as bs := by
  intro cs r bs
  constructor
  · intro listed
    induction listed with
    | last item ends =>
      obtain ⟨a, item, stands⟩ := item
      exact ⟨[a], .last item ends, .cons stands .nil⟩
    | more item comma _ ih =>
      obtain ⟨a, item, stands⟩ := item
      obtain ⟨as, others, each⟩ := ih
      exact ⟨a :: as, .more item comma others, .cons stands each⟩
  · rintro ⟨as, listed, each⟩
    induction listed generalizing bs with
    | last item ends =>
      obtain ⟨b, _, stands, rest, rfl⟩ := List.forall₂_cons_left_iff.mp each
      obtain rfl := List.forall₂_nil_left_iff.mp rest
      exact .last ⟨_, item, stands⟩ ends
    | more item comma _ ih =>
      obtain ⟨b, bs, stands, rest, rfl⟩ := List.forall₂_cons_left_iff.mp each
      exact .more ⟨_, item, stands⟩ comma (ih rest)

end Listed

section
variable {item : List Char → Except Fault (Parsed Value)}

theorem member_eq_ok_iff {cs r : List Char} {key : String} {v : Value} :
    member item cs = .ok ((key, v), r) ↔
      ∃ after next, string (skipBlanks cs) = .ok (key, after) ∧ skipBlanks after = ':' :: next ∧
        item (skipBlanks next) = .ok (v, r) := by
  unfold member
  rw [bind_eq_ok_iff]
  constructor
  · rintro ⟨⟨_, after⟩, named, run⟩
    dsimp only at run
    split at run
    · next next colon =>
      obtain ⟨⟨_, _⟩, value, same⟩ := bind_eq_ok_iff.mp run
      cases same
      exact ⟨after, next, named, colon, value⟩
    · cases run
  · rintro ⟨after, next, named, colon, value⟩
    refine ⟨(key, after), named, ?_⟩
    simp only [colon]
    exact bind_eq_ok_iff.mpr ⟨(v, r), value, rfl⟩

/-- What one round of reading elements reads. -/
def ReadsItem (item : List Char → Except Fault (Parsed Value)) (cs : List Char) (v : Value) (r : List Char) : Prop :=
  item (skipBlanks cs) = .ok (v, r)

/-- What one round of reading members reads. -/
def ReadsMember (item : List Char → Except Fault (Parsed Value)) (cs : List Char) (f : Value × Value) (r : List Char) :
    Prop :=
  ∃ key, f.1 = .string key ∧ member item cs = .ok ((key, f.2), r)

/-- Reading elements is to read each of a list, if the fuel lasts. -/
theorem items_eq_ok_iff {r : List Char} : ∀ {fuel : Nat} {cs : List Char} {vs : List Value},
    items item fuel cs = .ok (vs, r) ↔ vs.length ≤ fuel ∧ Listed ']' (ReadsItem item) cs vs r := by
  intro fuel
  induction fuel with
  | zero =>
    intro cs vs
    constructor
    · intro run
      cases run
    · rintro ⟨few, listed⟩
      exact absurd (List.eq_nil_of_length_eq_zero (Nat.le_zero.mp few)) listed.ne_nil
  | succ fuel ih =>
    intro cs vs
    rw [items, bind_eq_ok_iff]
    constructor
    · rintro ⟨⟨v, after⟩, here, run⟩
      dsimp only at run
      split at run
      · next next comma =>
        obtain ⟨⟨vs, _⟩, later, same⟩ := bind_eq_ok_iff.mp run
        cases same
        obtain ⟨few, others⟩ := ih.mp later
        exact ⟨Nat.succ_le_succ few, .more here comma others⟩
      · next ends =>
        cases run
        exact ⟨Nat.succ_le_succ (Nat.zero_le fuel), .last here ends⟩
      · cases run
    · rintro ⟨few, listed⟩
      cases listed with
      | @last _ after _ v here ends =>
        refine ⟨(v, after), here, ?_⟩
        simp only [ends]
        rfl
      | @more _ after next _ v vs here comma others =>
        refine ⟨(v, after), here, ?_⟩
        simp only [comma]
        exact bind_eq_ok_iff.mpr ⟨(vs, r), ih.mpr ⟨Nat.le_of_succ_le_succ few, others⟩, rfl⟩

/-- Reading members is to read each of a list and to store them in a row, if the fuel lasts. -/
theorem members_eq_ok_iff {r : List Char} {w : Value} : ∀ {fuel : Nat} {m : Mapping} {cs : List Char},
    members item fuel m cs = .ok (w, r) ↔
      ∃ fs, fs.length ≤ fuel ∧ Listed '\x7d' (ReadsMember item) cs fs r ∧ m.assemble? fs = some w := by
  intro fuel
  induction fuel with
  | zero =>
    intro m cs
    constructor
    · intro run
      cases run
    · rintro ⟨fs, few, listed, _⟩
      exact absurd (List.eq_nil_of_length_eq_zero (Nat.le_zero.mp few)) listed.ne_nil
  | succ fuel ih =>
    intro m cs
    rw [members, bind_eq_ok_iff]
    constructor
    · rintro ⟨⟨⟨key, v⟩, after⟩, here, run⟩
      have read : ReadsMember item cs (.string key, v) after := ⟨key, rfl, here⟩
      dsimp only at run
      split at run
      · next whole =>
        split at run
        · next ends =>
          cases run
          exact ⟨[(.string key, w)], Nat.succ_le_succ (Nat.zero_le fuel), .last read ends,
            (Mapping.assemble?_of_whole whole).mpr ⟨rfl, rfl⟩⟩
        · cases run
      · next kept =>
        split at run
        · next next comma =>
          obtain ⟨fs, few, others, made⟩ := ih.mp run
          exact ⟨(.string key, v) :: fs, Nat.succ_le_succ few, .more read comma others,
            (Mapping.assemble?_of_kept kept).trans made⟩
        · next ends =>
          cases run
          exact ⟨[(.string key, v)], Nat.succ_le_succ (Nat.zero_le fuel), .last read ends, Mapping.assemble?_of_kept kept⟩
        · cases run
    · rintro ⟨_, few, listed, made⟩
      cases listed with
      | @last _ after _ f read ends =>
        obtain ⟨_, v⟩ := f
        obtain ⟨key, rfl, here⟩ := read
        refine ⟨((key, v), after), here, ?_⟩
        by_cases whole : m.standsForWhole (.string key) = true
        · obtain ⟨_, rfl⟩ := (Mapping.assemble?_of_whole whole).mp made
          simp only [whole, ends]
          rfl
        · rw [Mapping.assemble?_of_kept whole] at made
          cases made
          simp only [whole, ends]
          rfl
      | @more _ after next _ f fs read comma others =>
        obtain ⟨_, v⟩ := f
        obtain ⟨key, rfl, here⟩ := read
        refine ⟨((key, v), after), here, ?_⟩
        by_cases whole : m.standsForWhole (.string key) = true
        · obtain ⟨none, _⟩ := (Mapping.assemble?_of_whole whole).mp made
          exact absurd none others.ne_nil
        · rw [Mapping.assemble?_of_kept whole] at made
          simp only [whole, comma]
          exact ih.mpr ⟨fs, Nat.le_of_succ_le_succ few, others, made⟩

end

/-! ### Values -/

/-- A member of an object, `inner` telling the events of its value. -/
def Member (inner : List Char → Event → List Char → Prop) (cs : List Char) (entry : Event × Event) (r : List Char) : Prop :=
  ∃ key after next, string (skipBlanks cs) = .ok (key, after) ∧ skipBlanks after = ':' :: next ∧ entry.1 = .text key ∧
    inner (skipBlanks next) entry.2 r

/-- The events that a container tells, `inner` telling those of the values in it, and the text behind it. -/
inductive Container (inner : List Char → Event → List Char → Prop) : List Char → Event → List Char → Prop
  | noItems {cs r : List Char} (ends : skipBlanks cs = ']' :: r) : Container inner ('[' :: cs) (.sequence []) r
  | items {cs r : List Char} {es : List Event} (listed : Listed ']' (fun cs => inner (skipBlanks cs)) cs es r) :
    Container inner ('[' :: cs) (.sequence es) r
  | noMembers {cs r : List Char} (ends : skipBlanks cs = '\x7d' :: r) : Container inner ('\x7b' :: cs) (.mapping []) r
  | members {cs r : List Char} {es : List (Event × Event)} (listed : Listed '\x7d' (Member inner) cs es r) :
    Container inner ('\x7b' :: cs) (.mapping es) r

/-- The events that a text tells in front, if containers may stand inside each other to a depth, and the text behind. -/
def Tells : Nat → List Char → Event → List Char → Prop
  | 0 => Scalar
  | depth + 1 => fun cs e r => Scalar cs e r ∨ Container (Tells depth) cs e r

theorem Member.opens {inner : List Char → Event → List Char → Prop} {cs r : List Char} {entry : Event × Event}
    (member : Member inner cs entry r) : Opens (skipBlanks cs) := by
  obtain ⟨key, after, next, named, _⟩ := member
  obtain ⟨ds, quoted, _⟩ := string_cases named
  exact ⟨'\x22', ds, quoted, by decide⟩

theorem Member.suffix {inner : List Char → Event → List Char → Prop} (suffix : ∀ {cs e r}, inner cs e r → r <:+ cs)
    {cs r : List Char} {entry : Event × Event} (member : Member inner cs entry r) : r <:+ cs := by
  obtain ⟨key, after, next, named, colon, _, value⟩ := member
  obtain ⟨ds, quoted, left⟩ := string_cases named
  have atKey : '\x22' :: ds <:+ cs := quoted ▸ suffix_of_skipBlanks cs
  have atColon : ':' :: next <:+ ds := colon ▸ (suffix_of_skipBlanks after).trans left
  have atValue : r <:+ next := (suffix value).trans (suffix_of_skipBlanks next)
  exact ((atValue.trans (List.suffix_cons _ next)).trans (atColon.trans (List.suffix_cons _ ds))).trans atKey

theorem Scalar.tells {depth : Nat} {cs r : List Char} {e : Event} (told : Scalar cs e r) : Tells depth cs e r := by
  cases depth with
  | zero => exact told
  | succ depth => exact .inl told

namespace Tells
variable {depth : Nat} {cs r : List Char} {e : Event}

theorem opens (told : Tells depth cs e r) : Opens cs := by
  have scalar (told : Scalar cs e r) : Opens cs := by
    obtain ⟨c, ds, same, noBlank, noBracket, noBrace, _⟩ := told.first
    exact ⟨c, ds, same, noBlank, noBracket, noBrace⟩
  cases depth with
  | zero => exact scalar told
  | succ depth =>
    rcases told with told | told
    · exact scalar told
    · cases told <;> exact ⟨_, _, rfl, by decide⟩

theorem container_iff {c : Char} (begins : c = '[' ∨ c = '\x7b') :
    Tells (depth + 1) (c :: cs) e r ↔ Container (Tells depth) (c :: cs) e r := by
  refine or_iff_right fun told => ?_
  obtain ⟨_, _, ⟨⟩, _, _, _, noBracket, noBrace⟩ := told.first
  exact begins.elim noBracket noBrace

theorem suffix : ∀ {depth : Nat} {cs r : List Char} {e : Event}, Tells depth cs e r → r <:+ cs := by
  intro depth
  induction depth with
  | zero => exact Scalar.suffix
  | succ depth ih =>
    intro cs r e told
    rcases told with told | told
    · exact told.suffix
    · cases told with
      | @noItems cs _ ends =>
        have left := suffix_of_skipBlanks cs
        rw [ends] at left
        exact ((List.suffix_cons _ r).trans left).trans (List.suffix_cons _ cs)
      | @items cs _ _ listed =>
        have left := (listed.length_le fun told => (ih told).trans (suffix_of_skipBlanks _)).1
        exact left.trans (List.suffix_cons _ cs)
      | @noMembers cs _ ends =>
        have left := suffix_of_skipBlanks cs
        rw [ends] at left
        exact ((List.suffix_cons _ r).trans left).trans (List.suffix_cons _ cs)
      | @members cs _ _ listed =>
        have left := (listed.length_le (Member.suffix ih)).1
        exact left.trans (List.suffix_cons _ cs)

end Tells

section
variable {depth : Nat}
  (inner : ∀ {cs r : List Char} {v : Value}, value depth cs = .ok (v, r) ↔ ∃ e, Tells depth cs e r ∧ e.Means v)
include inner

theorem items_iff {fuel : Nat} {cs r : List Char} (enough : cs.length ≤ fuel) {vs : List Value} :
    items (value depth) fuel cs = .ok (vs, r) ↔
      ∃ es, Listed ']' (fun cs => Tells depth (skipBlanks cs)) cs es r ∧ List.Forall₂ Event.Means es vs := by
  have each : ReadsItem (value depth) = fun cs v r => ∃ e, Tells depth (skipBlanks cs) e r ∧ e.Means v := by
    funext cs v r
    exact propext inner
  rw [items_eq_ok_iff, each, Listed.comp_iff]
  refine ⟨fun ⟨_, told⟩ => told, fun ⟨es, listed, stands⟩ => ⟨?_, es, listed, stands⟩⟩
  have few := (listed.length_le fun told => told.suffix.trans (suffix_of_skipBlanks _)).2
  rw [← stands.length_eq]
  exact Nat.le_trans few enough

theorem readsMember_iff {cs r : List Char} {f : Value × Value} :
    ReadsMember (value depth) cs f r ↔
      ∃ entry, Member (Tells depth) cs entry r ∧ entry.1.Means f.1 ∧ entry.2.Means f.2 := by
  unfold ReadsMember Member
  simp only [member_eq_ok_iff, inner]
  constructor
  · rintro ⟨key, name, after, next, named, colon, e, told, stands⟩
    exact ⟨(.text key, e), ⟨key, after, next, named, colon, rfl, told⟩, Event.means_text_iff.mpr name, stands⟩
  · rintro ⟨⟨_, e⟩, ⟨key, after, next, named, colon, rfl, told⟩, name, stands⟩
    exact ⟨key, Event.means_text_iff.mp name, after, next, named, colon, e, told, stands⟩

theorem members_iff {fuel : Nat} {cs r : List Char} (enough : cs.length ≤ fuel) {w : Value} :
    members (value depth) fuel [] cs = .ok (w, r) ↔
      ∃ es, Listed '\x7d' (Member (Tells depth)) cs es r ∧ (Event.mapping es).Means w := by
  have each : ReadsMember (value depth) =
      fun cs f r => ∃ entry, Member (Tells depth) cs entry r ∧ entry.1.Means f.1 ∧ entry.2.Means f.2 := by
    funext cs f r
    exact propext (readsMember_iff inner)
  simp only [members_eq_ok_iff, each, Event.means_mapping_iff]
  constructor
  · rintro ⟨fs, _, listed, made⟩
    obtain ⟨es, listed, stands⟩ := Listed.comp_iff.mp listed
    exact ⟨es, listed, fs, stands, made⟩
  · rintro ⟨es, listed, fs, stands, made⟩
    have few := (listed.length_le (Member.suffix Tells.suffix)).2
    exact ⟨fs, stands.length_eq ▸ Nat.le_trans few enough, Listed.comp_iff.mpr ⟨es, listed, stands⟩, made⟩

/-- An array is read, one level deeper, as what its elements tell. -/
theorem value_bracket_iff {cs r : List Char} {v : Value} :
    value (depth + 1) ('[' :: cs) = .ok (v, r) ↔ ∃ e, Container (Tells depth) ('[' :: cs) e r ∧ e.Means v := by
  rw [value]
  split
  · next more ends =>
    constructor
    · rintro ⟨⟩
      exact ⟨.sequence [], .noItems ends, Event.means_sequence_iff.mpr ⟨[], .nil, rfl⟩⟩
    · rintro ⟨e, told, stands⟩
      cases told with
      | noItems ends' =>
        obtain ⟨_, none, rfl⟩ := Event.means_sequence_iff.mp stands
        obtain rfl := List.forall₂_nil_left_iff.mp none
        rw [ends] at ends'
        cases ends'
        rfl
      | items listed =>
        have opens : Opens (skipBlanks cs) := listed.opens Tells.opens
        exact absurd (ends ▸ opens) (not_opens_end (.inl rfl))
  · next noEnd =>
    rw [bind_eq_ok_iff]
    constructor
    · rintro ⟨⟨vs, _⟩, run, same⟩
      cases same
      obtain ⟨es, listed, stands⟩ := (items_iff inner (Nat.le_refl _)).mp run
      exact ⟨.sequence es, .items listed, Event.means_sequence_iff.mpr ⟨vs, stands, rfl⟩⟩
    · rintro ⟨e, told, stands⟩
      cases told with
      | noItems ends => exact absurd ends (noEnd r)
      | items listed =>
        obtain ⟨vs, each, rfl⟩ := Event.means_sequence_iff.mp stands
        exact ⟨(vs, r), (items_iff inner (Nat.le_refl _)).mpr ⟨_, listed, each⟩, rfl⟩

/-- An object is read, one level deeper, as what its members tell. -/
theorem value_brace_iff {cs r : List Char} {v : Value} :
    value (depth + 1) ('\x7b' :: cs) = .ok (v, r) ↔ ∃ e, Container (Tells depth) ('\x7b' :: cs) e r ∧ e.Means v := by
  rw [value]
  split
  · next more ends =>
    constructor
    · rintro ⟨⟩
      exact ⟨.mapping [], .noMembers ends, Event.means_mapping_iff.mpr ⟨[], .nil, rfl⟩⟩
    · rintro ⟨e, told, stands⟩
      cases told with
      | noMembers ends' =>
        obtain ⟨_, none, made⟩ := Event.means_mapping_iff.mp stands
        obtain rfl := List.forall₂_nil_left_iff.mp none
        rw [ends] at ends'
        cases ends'
        cases made
        rfl
      | members listed =>
        have opens : Opens (skipBlanks cs) := listed.opens Member.opens
        exact absurd (ends ▸ opens) (not_opens_end (.inr rfl))
  · next noEnd =>
    rw [members_iff inner (Nat.le_refl _)]
    constructor
    · rintro ⟨es, listed, stands⟩
      exact ⟨.mapping es, .members listed, stands⟩
    · rintro ⟨e, told, stands⟩
      cases told with
      | noMembers ends => exact absurd ends (noEnd r)
      | members listed => exact ⟨_, listed, stands⟩

end

theorem scalar_iff {cs r : List Char} {v : Value} : scalar cs = .ok (v, r) ↔ ∃ e, Scalar cs e r ∧ e.Means v := by
  rw [scalar_eq_ok_iff]
  exact exists_congr fun e => and_congr_right fun told => (Event.means_iff_of_isLeaf told.isLeaf).symm

/-- A value is read from a text exactly if the text tells events that stand for it, in which nothing comes after the mark. -/
theorem value_eq_ok_iff : ∀ {depth : Nat} {cs r : List Char} {v : Value},
    value depth cs = .ok (v, r) ↔ ∃ e, Tells depth cs e r ∧ e.Means v := by
  intro depth
  induction depth with
  | zero =>
    intro cs r v
    rw [Tells, ← scalar_iff]
    constructor
    · intro run
      unfold value at run
      split at run
      · cases run
      · cases run
      · exact run
    · intro run
      obtain ⟨e, told, _⟩ := scalar_iff.mp run
      obtain ⟨c, ds, rfl, _, _, _, noBracket, noBrace⟩ := told.first
      rwa [value_eq_scalar noBracket noBrace]
  | succ depth ih =>
    intro cs r v
    cases cs with
    | nil =>
      have same : value (depth + 1) [] = scalar [] := by
        unfold value
        rfl
      rw [same, scalar_iff]
      exact exists_congr fun e => and_congr_left fun _ => (or_iff_left nofun).symm
    | cons c cs =>
      by_cases bracket : c = '['
      · subst bracket
        simp only [value_bracket_iff ih, Tells.container_iff (.inl rfl)]
      · by_cases brace : c = '\x7b'
        · subst brace
          simp only [value_brace_iff ih, Tells.container_iff (.inr rfl)]
        · rw [value_eq_scalar bracket brace, scalar_iff]
          refine exists_congr fun e => and_congr_left fun _ => (or_iff_left fun told => ?_).symm
          cases told with
          | noItems => exact bracket rfl
          | items => exact bracket rfl
          | noMembers => exact brace rfl
          | members => exact brace rfl

theorem read_eq_ok_iff {text : String} {v : Value} :
    read text = .ok v ↔
      ∃ e r, Tells depthLimit (skipBlanks text.toList) e r ∧ skipBlanks r = [] ∧ e.Means v := by
  unfold read
  rw [bind_eq_ok_iff]
  constructor
  · rintro ⟨⟨_, r⟩, run, same⟩
    dsimp only at same
    split at same
    · next ends =>
      cases same
      obtain ⟨e, told, stands⟩ := value_eq_ok_iff.mp run
      exact ⟨e, r, told, List.isEmpty_iff.mp ends, stands⟩
    · cases same
  · rintro ⟨e, r, told, ends, stands⟩
    refine ⟨(v, r), value_eq_ok_iff.mpr ⟨e, told, stands⟩, ?_⟩
    dsimp only
    rw [ends]
    rfl

end TypedConfig.Json
