import TypedConfig.Config.Derived
import TypedConfig.Proofs.Binding
import TypedConfig.Sample.Session

/-!
Any sequence of operations on one configuration. As long as no call has succeeded
the configuration is the one that was made, and answers as such; from the first
success on it is never changed again (`bound_at_most_once`).
-/
namespace TypedConfig.Usage
open Contention Derived
variable {δ : Type} [DecidableEq δ] {Carrier : δ → Type} {κ : Type}

/-- What can be asked of a configuration. -/
inductive Operation (δ : Type) where
  /-- To be bound, or to be initialized from a document. -/
  | submit (request : Request)
  | isInitialized
  | readSection (id : String)
  | readKey (sectionId keyId : String)
  | readDerived (d : δ)

inductive Answer (Carrier : δ → Type) where
  | submitted (result : Except Failure Unit)
  | initialized (yes : Bool)
  | sectionValue (result : Except Failure SectionValue)
  | value (result : Except Failure Value)
  | derived (d : δ) (result : Except Failure (Carrier d))

/-- The answer to a call that succeeded. -/
def Answer.Succeeds (a : Answer Carrier) : Prop := a = .submitted (.ok ())

/-- A configuration, and the state of the derived values that are read from it. -/
structure Used (Carrier : δ → Type) (κ : Type) where
  config : Config
  state : State Carrier κ

section
variable (compute : Config → (d : δ) → Computation Carrier κ (Carrier d))

/-- The answer to an operation, and what it leaves behind. -/
def perform (u : Used Carrier κ) : Operation δ → Answer Carrier × Used Carrier κ
  | .submit request => (.submitted (u.config.submit request).1, { u with config := (u.config.submit request).2 })
  | .isInitialized => (.initialized u.config.isInitialized, u)
  | .readSection id => (.sectionValue (u.config.sectionValue id), u)
  | .readKey sectionId keyId => (.value (u.config.get sectionId keyId), u)
  | .readDerived d =>
    let read := (Derived.read u.config d (compute u.config d)).run u.state
    (.derived d read.1, { u with state := read.2 })

/-- What operations leave behind, one after the other. -/
def after (u : Used Carrier κ) (ops : List (Operation δ)) : Used Carrier κ :=
  ops.foldl (fun u op => (perform compute u op).2) u

def answers (u : Used Carrier κ) : List (Operation δ) → List (Answer Carrier)
  | [] => []
  | op :: ops => (perform compute u op).1 :: answers (perform compute u op).2 ops

end

/-- What a configuration answers before it is bound: it says so and nothing can be read.
    A call is answered as by a configuration that was never used. -/
def AnsweredUnbound (schema : Schema) : Operation δ → Answer Carrier → Prop
  | .submit request, a => a = .submitted ((Config.ofSchema schema).submit request).1
  | .isInitialized, a => a = .initialized false
  | .readSection _, a => a = .sectionValue (.error .notInitialized)
  | .readKey _ _, a => a = .value (.error .notInitialized)
  | .readDerived d, a => a = .derived d (.error .notInitialized)

/-- What a configuration answers once it is bound: calls are refused, and sections and
    keys read as they do from `c`. -/
def AnsweredBound (c : Config) : Operation δ → Answer Carrier → Prop
  | .submit _, a => a = .submitted (.error .alreadyInitialized)
  | .isInitialized, a => a = .initialized true
  | .readSection id, a => a = .sectionValue (c.sectionValue id)
  | .readKey sectionId keyId, a => a = .value (c.get sectionId keyId)
  | .readDerived _, _ => True

/-! ### One operation -/

section
variable {compute : Config → (d : δ) → Computation Carrier κ (Carrier d)}

theorem perform_unbound {u : Used Carrier κ} {schema : Schema} (unbound : u.config = .ofSchema schema)
    (op : Operation δ) : AnsweredUnbound schema op (perform compute u op).1 := by
  obtain ⟨c, state⟩ := u
  obtain rfl : c = .ofSchema schema := unbound
  cases op <;> rfl

/-- An operation that is no successful call does not bind. -/
theorem config_of_not_succeeds {u : Used Carrier κ} {schema : Schema} (unbound : u.config = .ofSchema schema)
    {op : Operation δ} (fails : ¬ (perform compute u op).1.Succeeds) :
    (perform compute u op).2.config = .ofSchema schema := by
  cases op with
  | submit request =>
    simp only [perform, unbound, Answer.Succeeds] at fails ⊢
    rcases Config.submit_of_unbound schema request with ⟨_, values, _, bound⟩ | ⟨failure, failed⟩
    · rw [bound] at fails
      exact absurd rfl fails
    · rw [failed]
  | _ => exact unbound

/-- A successful call binds a configuration that was not bound, and leaves no declared
    key without a value. -/
theorem config_of_succeeds {u : Used Carrier κ} {schema : Schema} (unbound : u.config = .ofSchema schema)
    {op : Operation δ} (succeeds : (perform compute u op).1.Succeeds) :
    (perform compute u op).2.config.isInitialized = true ∧
      ∀ slot ∈ schema.slots.entries, ∀ key ∈ slot.2.keys.entries, ∃ v,
        (perform compute u op).2.config.get slot.1 key.1 = .ok v := by
  cases op with
  | submit request =>
    simp only [perform, unbound, Answer.Succeeds] at succeeds ⊢
    rcases Config.submit_of_unbound schema request with ⟨_, values, built, bound⟩ | ⟨failure, failed⟩
    · rw [bound]
      refine ⟨rfl, fun slot declared key has => ?_⟩
      obtain ⟨_, v, _, _, read⟩ := Config.get_of_bindings built declared has
      exact ⟨v, read⟩
    · rw [failed] at succeeds
      cases succeeds
  | _ => cases succeeds

theorem perform_bound {u : Used Carrier κ} (bound : u.config.isInitialized = true) (op : Operation δ) :
    AnsweredBound u.config op (perform compute u op).1 ∧ (perform compute u op).2.config = u.config := by
  cases op with
  | submit request => simp [perform, AnsweredBound, Config.submit_of_bound bound]
  | isInitialized => exact ⟨congrArg Answer.initialized bound, rfl⟩
  | readSection id => exact ⟨rfl, rfl⟩
  | readKey sectionId keyId => exact ⟨rfl, rfl⟩
  | readDerived d => exact ⟨trivial, rfl⟩

/-! ### Runs -/

/-- Operations of which none is a successful call leave a configuration unbound. -/
theorem config_after_unbound {schema : Schema} (ops : List (Operation δ)) :
    ∀ {u : Used Carrier κ}, u.config = .ofSchema schema → (∀ a ∈ answers compute u ops, ¬ a.Succeeds) →
      (after compute u ops).config = .ofSchema schema := by
  induction ops with
  | nil => intro u unbound _; exact unbound
  | cons op ops ih =>
    intro u unbound fails
    have here := config_of_not_succeeds unbound (fails _ List.mem_cons_self)
    exact ih here (fun a member => fails a (List.mem_cons_of_mem _ member))

/-- No operations change a configuration that is bound. -/
theorem config_after_bound (ops : List (Operation δ)) :
    ∀ {u : Used Carrier κ}, u.config.isInitialized = true → (after compute u ops).config = u.config := by
  induction ops with
  | nil => intro u _; rfl
  | cons op ops ih =>
    intro u bound
    have kept : (perform compute u op).2.config = u.config := (perform_bound bound op).2
    exact (ih (kept ▸ bound)).trans kept

theorem after_append (u : Used Carrier κ) (ops others : List (Operation δ)) :
    after compute u (ops ++ others) = after compute (after compute u ops) others :=
  List.foldl_append

end

/-- Until a call succeeds a configuration is as it was made, whatever calls have failed.
    The call that succeeds leaves no key without a value; from then on the configuration
    says that it is initialized, refuses every call, and reads as right after that call. -/
theorem bound_at_most_once (compute : Config → (d : δ) → Computation Carrier κ (Carrier d)) (schema : Schema)
    (state : State Carrier κ) (ops : List (Operation δ)) (op : Operation δ) :
    let fresh : Used Carrier κ := ⟨.ofSchema schema, state⟩
    ((∀ a ∈ answers compute fresh ops, ¬ a.Succeeds) →
      AnsweredUnbound schema op (perform compute (after compute fresh ops) op).1) ∧
    ∀ earlier call later, ops = earlier ++ call :: later →
      (∀ a ∈ answers compute fresh earlier, ¬ a.Succeeds) →
      (perform compute (after compute fresh earlier) call).1.Succeeds →
      let bound := (after compute fresh (earlier ++ [call])).config
      (∀ slot ∈ schema.slots.entries, ∀ key ∈ slot.2.keys.entries, ∃ v, bound.get slot.1 key.1 = .ok v) ∧
        AnsweredBound bound op (perform compute (after compute fresh ops) op).1 := by
  intro fresh
  constructor
  · intro fails
    exact perform_unbound (config_after_unbound ops rfl fails) op
  · rintro earlier call later rfl fails succeeds bound
    have unbound := config_after_unbound earlier (u := fresh) rfl fails
    obtain ⟨initialized, whole⟩ := config_of_succeeds unbound succeeds
    have atCall : after compute fresh (earlier ++ [call]) =
        (perform compute (after compute fresh earlier) call).2 := after_append fresh earlier [call]
    have kept : (after compute fresh (earlier ++ call :: later)).config = bound := by
      rw [List.append_cons, after_append]
      exact config_after_bound later (atCall ▸ initialized)
    refine ⟨?_, ?_⟩
    · simpa only [bound, atCall] using whole
    · rw [← kept]
      exact (perform_bound (by rw [kept]; simpa only [bound, atCall] using initialized) op).1

theorem bound_at_most_once_parma :
    let fresh : Used Sample.DerivedName.Carrier Sample.Counts :=
      ⟨.ofSchema Sample.parma, ⟨.empty, [], fun _ => 0⟩⟩
    let composed (n : Int64) : Mapping := [(.string "parma", .mapping [(.string "chatty", .integer n)])]
    let earlier : List (Operation Sample.DerivedName) := [.submit (.bind []), .isInitialized]
    let call : Operation Sample.DerivedName := .submit (.bind (composed 1))
    let later : List (Operation Sample.DerivedName) := [.submit (.bind (composed 2))]
    (∀ a ∈ answers Sample.compute fresh earlier, ¬ a.Succeeds) ∧
      (perform Sample.compute (after Sample.compute fresh earlier) call).1.Succeeds ∧
      (perform Sample.compute (after Sample.compute fresh (earlier ++ call :: later)) (.readKey "asor" "culex")).1 =
        .value (.ok (.integer 1)) := by
  intro fresh composed earlier call later
  have refused : (Config.ofSchema Sample.parma).submit (.bind []) =
      (.error (.missingEntry "parma"), .ofSchema Sample.parma) := by
    rw [Config.submit_bind, Config.bind_ofSchema]
    rfl
  have binds : (Config.ofSchema Sample.parma).submit (.bind (composed 1)) =
      (.ok (), ⟨Sample.parma, some [("asor", ⟨"parma", [("culex", .integer 1)]⟩)]⟩) := by
    rw [Config.submit_bind, Config.bind_ofSchema]
    rfl
  have fails : ∀ a ∈ answers Sample.compute fresh earlier, ¬ a.Succeeds := by
    simp [answers, perform, earlier, fresh, refused, Answer.Succeeds]
  have succeeds : (perform Sample.compute (after Sample.compute fresh earlier) call).1.Succeeds := by
    simp [after, perform, earlier, call, fresh, refused, binds, Answer.Succeeds]
  have bound := (bound_at_most_once Sample.compute Sample.parma fresh.state (earlier ++ call :: later)
    (.readKey "asor" "culex")).2 earlier call later rfl fails succeeds
  refine ⟨fails, succeeds, bound.2.trans ?_⟩
  simp only [after, perform, earlier, call, refused, binds, List.cons_append, List.nil_append, List.foldl]
  rfl

end TypedConfig.Usage
