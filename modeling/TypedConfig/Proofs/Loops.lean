import Mathlib.Data.List.Forall2

/-!
What loops that may fail answer (`mapM_eq_ok_iff`, `mapM_eq_error_iff`), and lists whose
elements are related one by one.
-/
namespace TypedConfig

section
variable {ε α β : Type}

theorem bind_eq_ok_iff {x : Except ε α} {f : α → Except ε β} {b : β} :
    x >>= f = .ok b ↔ ∃ a, x = .ok a ∧ f a = .ok b := by
  cases x with
  | ok a => exact ⟨fun run => ⟨a, rfl, run⟩, fun ⟨_, same, run⟩ => by cases same; exact run⟩
  | error e => exact ⟨nofun, nofun⟩

theorem map_eq_ok_iff {x : Except ε α} {f : α → β} {b : β} : x.map f = .ok b ↔ ∃ a, x = .ok a ∧ f a = b := by
  cases x <;> simp [Except.map]

theorem map_eq_error_iff {x : Except ε α} {f : α → β} {failure : ε} : x.map f = .error failure ↔ x = .error failure := by
  cases x <;> simp [Except.map]

theorem mapError_eq_ok_iff {ζ : Type} {x : Except ε α} {f : ε → ζ} {a : α} : x.mapError f = .ok a ↔ x = .ok a := by
  cases x <;> simp [Except.mapError]

theorem exists_map_iff {x : Except ε α} {f : α → β} : (∃ b, x.map f = .ok b) ↔ ∃ a, x = .ok a := by
  cases x <;> simp [Except.map]

/-- A list is built without a failure exactly if each of its items is. -/
theorem mapM_eq_ok_iff {f : α → Except ε β} {as : List α} :
    ∀ {bs : List β}, as.mapM f = .ok bs ↔ List.Forall₂ (fun a b => f a = .ok b) as bs := by
  induction as with
  | nil => intro bs; simp [Pure.pure, Except.pure, eq_comm]
  | cons a as ih =>
    intro bs
    rw [List.mapM_cons, bind_eq_ok_iff, List.forall₂_cons_left_iff]
    constructor
    · rintro ⟨b, here, rest⟩
      obtain ⟨bs, there, same⟩ := bind_eq_ok_iff.mp rest
      cases same
      exact ⟨b, bs, here, ih.mp there, rfl⟩
    · rintro ⟨b, bs, here, there, rfl⟩
      exact ⟨b, here, bind_eq_ok_iff.mpr ⟨bs, ih.mpr there, rfl⟩⟩

/-- Building a list fails exactly if an item fails that comes after items which do not. -/
theorem mapM_eq_error_iff {f : α → Except ε β} {as : List α} {failure : ε} :
    as.mapM f = .error failure ↔
      ∃ before a after, as = before ++ a :: after ∧ (∀ b ∈ before, ∃ c, f b = .ok c) ∧ f a = .error failure := by
  induction as with
  | nil => simp [Pure.pure, Except.pure]
  | cons a as ih =>
    rw [List.mapM_cons]
    cases here : f a with
    | error other =>
      constructor
      · intro failed
        cases failed
        exact ⟨[], a, as, rfl, by simp, here⟩
      · rintro ⟨before, b, after, split, clean, fails⟩
        cases before with
        | nil =>
          cases split
          exact congrArg Except.error (Except.error.inj (here.symm.trans fails))
        | cons c before =>
          cases split
          obtain ⟨d, succeeds⟩ := clean a List.mem_cons_self
          rw [here] at succeeds
          cases succeeds
    | ok d =>
      have rest : (as.mapM f >>= fun ds => pure (d :: ds)) = .error failure ↔ as.mapM f = .error failure := by
        cases as.mapM f <;> simp [Bind.bind, Except.bind, Pure.pure, Except.pure]
      refine rest.trans (ih.trans ⟨?_, ?_⟩)
      · rintro ⟨before, b, after, rfl, clean, fails⟩
        exact ⟨a :: before, b, after, rfl, List.forall_mem_cons.mpr ⟨⟨d, here⟩, clean⟩, fails⟩
      · rintro ⟨before, b, after, split, clean, fails⟩
        cases before with
        | nil =>
          cases split
          rw [here] at fails
          cases fails
        | cons c before =>
          cases split
          exact ⟨before, b, after, rfl, (List.forall_mem_cons.mp clean).2, fails⟩

end

/-! ### Related lists -/

section
variable {α β γ : Type} {R : α → β → Prop} {S : β → γ → Prop}

theorem exists_forall₂ {as : List α} (each : ∀ a ∈ as, ∃ b, R a b) :
    ∃ bs, List.Forall₂ R as bs := by
  induction as with
  | nil => exact ⟨[], .nil⟩
  | cons a as ih =>
    obtain ⟨b, here⟩ := each a List.mem_cons_self
    obtain ⟨bs, there⟩ := ih (fun c member => each c (List.mem_cons_of_mem a member))
    exact ⟨b :: bs, .cons here there⟩

theorem exists_of_mem_left {as : List α} {bs : List β} (related : List.Forall₂ R as bs) {a : α} (member : a ∈ as) :
    ∃ b ∈ bs, R a b := by
  induction related with
  | nil => cases member
  | @cons c b as bs here _ ih =>
    rcases List.mem_cons.mp member with rfl | later
    · exact ⟨b, List.mem_cons_self, here⟩
    · obtain ⟨d, there, related⟩ := ih later
      exact ⟨d, List.mem_cons_of_mem b there, related⟩

theorem exists_of_mem_right {as : List α} {bs : List β} (related : List.Forall₂ R as bs) {b : β} (member : b ∈ bs) :
    ∃ a ∈ as, R a b :=
  exists_of_mem_left (List.Forall₂.flip (R := fun b a => R a b) related) member

theorem exists_mapM_iff {ε : Type} {f : α → Except ε β} {as : List α} :
    (∃ bs, as.mapM f = .ok bs) ↔ ∀ a ∈ as, ∃ b, f a = .ok b := by
  simp only [mapM_eq_ok_iff]
  constructor
  · rintro ⟨bs, built⟩ a member
    obtain ⟨b, _, succeeds⟩ := exists_of_mem_left built member
    exact ⟨b, succeeds⟩
  · exact exists_forall₂

theorem map_eq_of_forall₂ (f : α → γ) (g : β → γ) {as : List α} {bs : List β}
    (same : ∀ a ∈ as, ∀ b, R a b → g b = f a) (related : List.Forall₂ R as bs) : bs.map g = as.map f := by
  induction related with
  | nil => rfl
  | cons here _ ih =>
    exact congrArg₂ List.cons (same _ List.mem_cons_self _ here) (ih fun a member => same a (List.mem_cons_of_mem _ member))

/-- Lists are related through a third exactly if their elements are. -/
theorem forall₂_comp_iff {as : List α} : ∀ {cs : List γ},
    List.Forall₂ (fun a c => ∃ b, R a b ∧ S b c) as cs ↔ ∃ bs, List.Forall₂ R as bs ∧ List.Forall₂ S bs cs := by
  induction as with
  | nil =>
    intro cs
    constructor
    · rintro ⟨⟩
      exact ⟨[], .nil, .nil⟩
    · rintro ⟨_, ⟨⟩, ⟨⟩⟩
      exact .nil
  | cons a as ih =>
    intro cs
    constructor
    · intro related
      obtain ⟨c, cs, ⟨b, first, second⟩, rest, rfl⟩ := List.forall₂_cons_left_iff.mp related
      obtain ⟨bs, firsts, seconds⟩ := ih.mp rest
      exact ⟨b :: bs, .cons first firsts, .cons second seconds⟩
    · rintro ⟨_, related, related'⟩
      obtain ⟨b, bs, first, firsts, rfl⟩ := List.forall₂_cons_left_iff.mp related
      obtain ⟨c, cs, second, seconds, rfl⟩ := List.forall₂_cons_left_iff.mp related'
      exact .cons ⟨b, first, second⟩ (ih.mpr ⟨bs, firsts, seconds⟩)

end

end TypedConfig
