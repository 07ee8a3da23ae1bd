import Mathlib.Data.List.DropRight
import TypedConfig.Conformance

/-!
What checking a value against a type finds. The walk passes exactly the pairs of
a value and a type that are reached from the checked pair by branches
(`Visited`), and its violations are those of the pairs that mismatch, each once
and in document order (`check_topmost_mismatches`). A walk that begins further
down finds the same, behind what was found before (`visit_below`). A value
conforms to a type (`Conforms`) exactly if nothing is found (`check_eq_nil_iff`).
-/
namespace TypedConfig

@[simp] theorem Value.isNull_iff {v : Value} : v.isNull = true ↔ v = .null := by
  cases v <;> simp [Value.isNull]

namespace Conformance

/-! ### Places -/

/-- One way down from a pair of a value and a type. -/
inductive Branch where
  | element (i : Nat)
  /-- The key of the entry at a position. -/
  | entryKey (i : Nat) (key : Value)
  /-- The value of the entry at a position. -/
  | entryValue (i : Nat) (key : Value)
  /-- The type inside an optional type, at the same value. -/
  | inner

namespace Branch

/-- A branch leads from a value and a type to a part of the value and the type
    that is asked of it. -/
inductive Leads : Value → TypeDescriptor → Branch → Value → TypeDescriptor → Prop
  | element {vs : List Value} {t : TypeDescriptor} {i : Nat} {v : Value} (there : vs[i]? = some v) :
      Leads (.sequence vs) (.sequence t) (.element i) v t
  | entryKey {es : Mapping} {s t : TypeDescriptor} {i : Nat} {k v : Value} (there : es[i]? = some (k, v)) :
      Leads (.mapping es) (.mapping s t) (.entryKey i k) k s
  | entryValue {es : Mapping} {s t : TypeDescriptor} {i : Nat} {k v : Value} (there : es[i]? = some (k, v)) :
      Leads (.mapping es) (.mapping s t) (.entryValue i k) v t
  | inner {v : Value} {t : TypeDescriptor} (present : v ≠ .null) : Leads v (.optional t) .inner v t

/-- Where a branch stands among those of its container. -/
def rank : Branch → Nat
  | .element i => i
  | .entryKey i _ => 2 * i
  | .entryValue i _ => 2 * i + 1
  | .inner => 0

/-- How a message writes a branch. -/
def segment : Branch → String
  | .element i => "[" ++ toString i ++ "]"
  | .entryKey _ key => "[" ++ key.literal ++ "]"
  | .entryValue _ key => "[" ++ key.literal ++ "]"
  | .inner => ""

def isInner : Branch → Bool
  | .inner => true
  | _ => false

/-- The steps that a walk takes along a branch. -/
def steps : Branch → Route
  | .element i => [.index i]
  | .entryKey _ key => [.key key]
  | .entryValue _ key => [.key key]
  | .inner => []

end Branch

/-- The branches from the checked pair down to another. -/
abbrev Place := List Branch

namespace Place

/-- The order in which a document is read: what is above or before comes first. -/
def Before (p q : Place) : Prop := p.map Branch.rank < q.map Branch.rank

/-- The segments of a place, one after the other. -/
def text (p : Place) : String := String.join (p.map Branch.segment)

def route (p : Place) : Route := p.flatMap Branch.steps

/-- The place of the outermost of the optional types directly around the type at
    a place, or else the place itself. -/
def outermost (p : Place) : Place := p.rdropWhile Branch.isInner

end Place

/-- The pairs that a check passes, each with its place. -/
inductive Visited : Value → TypeDescriptor → Place → Value → TypeDescriptor → Prop
  | here (v : Value) (t : TypeDescriptor) : Visited v t [] v t
  | down {v w x : Value} {t s u : TypeDescriptor} {b : Branch} {p : Place}
      (leads : b.Leads v t w s) (rest : Visited w s p x u) : Visited v t (b :: p) x u

/-- A value is of another kind than the type at hand asks for. An optional type
    leaves that to the type inside. -/
def Mismatched (v : Value) : TypeDescriptor → Prop
  | .scalar type => type.accepts v = false
  | .optional _ => False
  | .sequence _ => ∀ vs, v ≠ .sequence vs
  | .mapping _ _ => ∀ es, v ≠ .mapping es

/-- A mismatching pair, its place, and the type that its message names. -/
structure Finding where
  place : Place
  value : Value
  type : TypeDescriptor
  shown : TypeDescriptor

namespace Finding

def message (f : Finding) : String :=
  (if f.place.text = "" then "" else f.place.text ++ " - ") ++
    "\"" ++ f.value.typeName ++ "\" instead of \"" ++ f.shown.text ++ "\""

/-- The finding as seen from one branch higher up. -/
def under (b : Branch) (f : Finding) : Finding := { f with place := b :: f.place }

/-- The violation that a walk records for a finding below the node where it stands. -/
def violation (context : Context) (route : Route) (f : Finding) : Violation :=
  ⟨context, mismatch (route ++ f.place.route) f.value f.shown⟩

end Finding

/-! ### The findings of a value and a type -/

/-- The mismatching pairs below a value and a type, in document order; `shown` is
    named for the type itself. -/
def findings : TypeDescriptor → TypeDescriptor → Value → List Finding
  | .scalar type, shown, v => if type.accepts v then [] else [⟨[], v, .scalar type, shown⟩]
  | .optional inner, shown, v =>
    if v.isNull then [] else (findings inner shown v).map (Finding.under .inner)
  | .sequence item, shown, v =>
    match v with
    | .sequence vs => vs.zipIdx.flatMap fun e => (findings item item e.1).map (Finding.under (.element e.2))
    | _ => [⟨[], v, .sequence item, shown⟩]
  | .mapping keyType valueType, shown, v =>
    match v with
    | .mapping es => es.zipIdx.flatMap fun e =>
        (findings keyType keyType e.1.1).map (Finding.under (.entryKey e.2 e.1.1)) ++
          (findings valueType valueType e.1.2).map (Finding.under (.entryValue e.2 e.1.1))
    | _ => [⟨[], v, .mapping keyType valueType, shown⟩]

/-! ### What a walk leaves behind -/

theorem Place.route_cons (b : Branch) (p : Place) : Place.route (b :: p) = b.steps ++ Place.route p := by
  simp [Place.route]

theorem Finding.violation_under (context : Context) (route : Route) (b : Branch) (f : Finding) :
    (f.under b).violation context route = f.violation context (route ++ b.steps) := by
  simp [Finding.violation, Finding.under, Place.route_cons]

/-- The walk with further findings recorded as violations. -/
def Walk.record (context : Context) (fs : List Finding) (w : Walk) : Walk :=
  ⟨w.route, w.found ++ fs.map (Finding.violation context w.route)⟩

theorem Walk.record_nil (context : Context) (w : Walk) : w.record context [] = w := by
  simp [Walk.record]

theorem Walk.record_record (context : Context) (fs gs : List Finding) (w : Walk) :
    (w.record context fs).record context gs = w.record context (fs ++ gs) := by
  simp [Walk.record]

theorem Walk.fail_eq_record (context : Context) (v : Value) (t shown : TypeDescriptor) (w : Walk) :
    w.fail context v shown = w.record context [⟨[], v, t, shown⟩] := by
  simp [Walk.fail, Walk.record, Finding.violation, Place.route]

/-- Work that only records findings is left at the node where it began, and its
    findings are those of the branch taken. -/
theorem Walk.descend_record {context : Context} {step : Step} {b : Branch} (taken : b.steps = [step])
    {work : Walk → Walk} {fs : List Finding} (works : ∀ w, work w = w.record context fs) (w : Walk) :
    w.descend step work = w.record context (fs.map (Finding.under b)) := by
  simp only [Walk.descend, works, Walk.record, List.dropLast_concat, List.map_map]
  congr 2
  refine List.map_congr_left (fun f _ => ?_)
  simp [Finding.violation_under, taken]

theorem Walk.items_record {context : Context} {work : Value → Walk → Walk} {found : Value → List Finding}
    (works : ∀ v w, work v w = w.record context (found v)) (vs : List Value) :
    ∀ i w, Walk.items work i vs w =
      w.record context ((vs.zipIdx i).flatMap fun e => (found e.1).map (Finding.under (.element e.2))) := by
  induction vs with
  | nil => intro i w; simp [Walk.items, Walk.record_nil]
  | cons v vs ih =>
    intro i w
    rw [Walk.items, Walk.descend_record (b := .element i) rfl (works v), ih, Walk.record_record]
    simp

theorem Walk.entries_record {context : Context} {onKey onValue : Value → Walk → Walk}
    {foundKey foundValue : Value → List Finding}
    (keys : ∀ v w, onKey v w = w.record context (foundKey v))
    (values : ∀ v w, onValue v w = w.record context (foundValue v)) (es : Mapping) :
    ∀ i w, Walk.entries onKey onValue es w =
      w.record context ((es.zipIdx i).flatMap fun e =>
        (foundKey e.1.1).map (Finding.under (.entryKey e.2 e.1.1)) ++
          (foundValue e.1.2).map (Finding.under (.entryValue e.2 e.1.1))) := by
  induction es with
  | nil => intro i w; simp [Walk.entries, Walk.record_nil]
  | cons e es ih =>
    intro i w
    obtain ⟨k, v⟩ := e
    rw [Walk.entries, Walk.descend_record (b := .entryKey i k) rfl (keys k),
      Walk.descend_record (b := .entryValue i k) rfl (values v), ih (i+1), Walk.record_record, Walk.record_record]
    simp

/-- A walk ends where it began, and adds its findings to what was found before. -/
theorem Walk.visit_eq_record (context : Context) (t : TypeDescriptor) :
    ∀ shown v w, Walk.visit context t shown v w = w.record context (findings t shown v) := by
  induction t with
  | scalar type =>
    intro shown v w
    by_cases accepted : type.accepts v = true
    · simp [Walk.visit, findings, accepted, Walk.record_nil]
    · simp only [Walk.visit, findings, accepted]
      exact Walk.fail_eq_record context v _ shown w
  | optional inner ih =>
    intro shown v w
    by_cases isNull : v.isNull = true
    · simp [Walk.visit, findings, isNull, Walk.record_nil]
    · simp only [Walk.visit, findings, isNull, ih, Walk.record]
      simp [Finding.violation_under, Branch.steps, Function.comp_def]
  | sequence item ih =>
    intro shown v w
    cases v with
    | sequence vs => exact Walk.items_record (fun v w => ih item v w) vs 0 w
    | _ => exact Walk.fail_eq_record context _ _ shown w
  | mapping keyType valueType ihKey ihValue =>
    intro shown v w
    cases v with
    | mapping es =>
      exact Walk.entries_record (fun v w => ihKey keyType v w) (fun v w => ihValue valueType v w) es 0 w
    | _ => exact Walk.fail_eq_record context _ _ shown w

/-- What is found goes behind what was found before. -/
theorem checkInto_eq_append (context : Context) (v : Value) (t : TypeDescriptor) (found : List Violation) :
    checkInto context v t found = found ++ check context v t := by
  simp [check, checkInto, Walk.visit_eq_record, Walk.record]

theorem check_eq_map_findings (context : Context) (v : Value) (t : TypeDescriptor) :
    check context v t = (findings t t v).map (Finding.violation context []) := by
  simp [check, checkInto, Walk.visit_eq_record, Walk.record]

/-! ### Which pairs are found -/

/-- The type that messages name for a type that a branch leads to. -/
def Branch.named (shown reached : TypeDescriptor) : Branch → TypeDescriptor
  | .inner => shown
  | _ => reached

theorem Branch.named_of_isInner {b : Branch} (inner : b.isInner = true) (shown reached : TypeDescriptor) :
    b.named shown reached = shown := by
  cases b <;> first | rfl | cases inner

theorem Branch.named_of_not_isInner {b : Branch} (outer : ¬ b.isInner = true) (shown reached : TypeDescriptor) :
    b.named shown reached = reached := by
  cases b <;> first | rfl | exact absurd rfl outer

/-- No branch leads on from a pair that mismatches. -/
theorem Branch.Leads.not_mismatched {v w : Value} {t s : TypeDescriptor} {b : Branch} (leads : b.Leads v t w s) :
    ¬ Mismatched v t := by
  intro mismatched
  cases leads with
  | element there => exact mismatched _ rfl
  | entryKey there => exact mismatched _ rfl
  | entryValue there => exact mismatched _ rfl
  | inner present => exact mismatched

theorem Branch.Leads.unique {v w x : Value} {t s u : TypeDescriptor} {b : Branch} (one : b.Leads v t w s)
    (other : b.Leads v t x u) : w = x ∧ s = u := by
  cases one with
  | element there =>
    cases other with
    | element also => exact ⟨Option.some.inj (there.symm.trans also), rfl⟩
  | entryKey there => cases other; exact ⟨rfl, rfl⟩
  | entryValue there =>
    cases other with
    | entryValue also => exact ⟨(Prod.mk.inj (Option.some.inj (there.symm.trans also))).2, rfl⟩
  | inner present => cases other; exact ⟨rfl, rfl⟩

/-- A place belongs to one pair only. -/
theorem Visited.unique {v x : Value} {t u : TypeDescriptor} {p : Place} (one : Visited v t p x u) :
    ∀ {y : Value} {r : TypeDescriptor}, Visited v t p y r → x = y ∧ u = r := by
  induction one with
  | here v t =>
    intro y r other
    cases other
    exact ⟨rfl, rfl⟩
  | down leads _ ih =>
    intro y r other
    cases other with
    | down also rest =>
      obtain ⟨rfl, rfl⟩ := leads.unique also
      exact ih rest

theorem findings_of_mismatched {v : Value} {t : TypeDescriptor} (mismatched : Mismatched v t)
    (shown : TypeDescriptor) : findings t shown v = [⟨[], v, t, shown⟩] := by
  cases t with
  | scalar type =>
    have refused : type.accepts v = false := mismatched
    simp [findings, refused]
  | optional inner => exact mismatched.elim
  | sequence item =>
    cases v with
    | sequence vs => exact absurd rfl (mismatched vs)
    | _ => rfl
  | mapping keyType valueType =>
    cases v with
    | mapping es => exact absurd rfl (mismatched es)
    | _ => rfl

/-- A finding is the pair at hand or lies down a branch, nothing else. -/
theorem mem_findings_iff {t shown : TypeDescriptor} {v : Value} {f : Finding} :
    f ∈ findings t shown v ↔
      (Mismatched v t ∧ f = ⟨[], v, t, shown⟩) ∨
        ∃ b w s g, Branch.Leads v t b w s ∧ g ∈ findings s (b.named shown s) w ∧ f = g.under b := by
  by_cases mismatched : Mismatched v t
  · rw [findings_of_mismatched mismatched, List.mem_singleton]
    constructor
    · intro same
      exact .inl ⟨mismatched, same⟩
    · rintro (⟨_, same⟩ | ⟨b, w, s, g, leads, _⟩)
      · exact same
      · exact absurd mismatched leads.not_mismatched
  · constructor
    · intro member
      refine .inr ?_
      cases t with
      | scalar type =>
        have accepted : type.accepts v = true := by simpa [Mismatched] using mismatched
        simp [findings, accepted] at member
      | optional inner =>
        by_cases isNull : v.isNull = true
        · simp [findings, isNull] at member
        · simp only [findings, isNull, Bool.false_eq_true, ↓reduceIte, List.mem_map] at member
          obtain ⟨g, found, rfl⟩ := member
          exact ⟨.inner, v, inner, g, .inner (by simpa using isNull), found, rfl⟩
      | sequence item =>
        obtain ⟨vs, rfl⟩ : ∃ vs, v = .sequence vs := by simpa [Mismatched] using mismatched
        simp only [findings, List.mem_flatMap, List.mem_map, List.mem_zipIdx_iff_getElem?] at member
        obtain ⟨⟨w, i⟩, there, g, found, rfl⟩ := member
        exact ⟨.element i, w, item, g, .element there, found, rfl⟩
      | mapping keyType valueType =>
        obtain ⟨es, rfl⟩ : ∃ es, v = .mapping es := by simpa [Mismatched] using mismatched
        simp only [findings, List.mem_flatMap, List.mem_append, List.mem_map, List.mem_zipIdx_iff_getElem?] at member
        obtain ⟨⟨⟨k, w⟩, i⟩, there, ⟨g, found, rfl⟩ | ⟨g, found, rfl⟩⟩ := member
        · exact ⟨.entryKey i k, k, keyType, g, .entryKey there, found, rfl⟩
        · exact ⟨.entryValue i k, w, valueType, g, .entryValue there, found, rfl⟩
    · rintro (⟨yes, _⟩ | ⟨b, w, s, g, leads, found, rfl⟩)
      · exact absurd yes mismatched
      · cases leads with
        | element there =>
          simp only [findings, List.mem_flatMap, List.mem_map, List.mem_zipIdx_iff_getElem?]
          exact ⟨(w, _), there, g, found, rfl⟩
        | entryKey there =>
          simp only [findings, List.mem_flatMap, List.mem_append, List.mem_map, List.mem_zipIdx_iff_getElem?]
          exact ⟨((_, _), _), there, .inl ⟨g, found, rfl⟩⟩
        | entryValue there =>
          simp only [findings, List.mem_flatMap, List.mem_append, List.mem_map, List.mem_zipIdx_iff_getElem?]
          exact ⟨((_, _), _), there, .inr ⟨g, found, rfl⟩⟩
        | inner present =>
          have notNull : ¬ v.isNull = true := by simpa using present
          simp only [findings, notNull, Bool.false_eq_true, ↓reduceIte, List.mem_map]
          exact ⟨g, found, rfl⟩

/-- Every finding is a visited pair that mismatches. -/
theorem visited_of_mem_findings {p : Place} :
    ∀ {t shown : TypeDescriptor} {v : Value} {f : Finding}, f.place = p → f ∈ findings t shown v →
      Visited v t f.place f.value f.type ∧ Mismatched f.value f.type := by
  induction p with
  | nil =>
    intro t shown v f atRoot member
    rcases mem_findings_iff.mp member with ⟨mismatched, rfl⟩ | ⟨b, w, s, g, _, _, rfl⟩
    · exact ⟨.here v t, mismatched⟩
    · cases atRoot
  | cons c p ih =>
    intro t shown v f place member
    rcases mem_findings_iff.mp member with ⟨_, rfl⟩ | ⟨b, w, s, g, leads, found, rfl⟩
    · cases place
    · obtain ⟨visited, mismatched⟩ := ih (List.cons.inj place).2 found
      exact ⟨.down leads visited, mismatched⟩

/-- Every visited pair that mismatches is found. -/
theorem mem_findings_of_visited {v x : Value} {t u : TypeDescriptor} {p : Place} (visited : Visited v t p x u)
    (mismatched : Mismatched x u) :
    ∀ shown, ∃ f ∈ findings t shown v, f.place = p ∧ f.value = x ∧ f.type = u := by
  induction visited with
  | here v t =>
    intro shown
    exact ⟨⟨[], v, t, shown⟩, mem_findings_iff.mpr (.inl ⟨mismatched, rfl⟩), rfl, rfl, rfl⟩
  | @down v w x t s u b p leads _ ih =>
    intro shown
    obtain ⟨g, found, rfl, rfl, rfl⟩ := ih mismatched (b.named shown s)
    exact ⟨g.under b, mem_findings_iff.mpr (.inr ⟨b, w, s, g, leads, found, rfl⟩), rfl, rfl, rfl⟩

theorem Place.outermost_cons (b : Branch) (p : Place) :
    Place.outermost (b :: p) =
      if Place.outermost p = [] then (if b.isInner then [] else [b]) else b :: Place.outermost p := by
  simp only [Place.outermost, List.rdropWhile, List.reverse_cons, List.dropWhile_append, List.reverse_eq_nil_iff,
    List.isEmpty_iff]
  by_cases inside : List.dropWhile Branch.isInner p.reverse = []
  · cases b <;> simp [inside, Branch.isInner]
  · simp [inside]

/-- The type that a finding names is the one at its outermost place, where `shown`
    stands for the type of the whole. -/
theorem shown_of_mem_findings {p : Place} :
    ∀ {t shown : TypeDescriptor} {v : Value} {f : Finding}, f.place = p → f ∈ findings t shown v →
      if p.outermost = [] then f.shown = shown else ∃ w, Visited v t p.outermost w f.shown := by
  induction p with
  | nil =>
    intro t shown v f atRoot member
    rcases mem_findings_iff.mp member with ⟨_, rfl⟩ | ⟨b, w, s, g, _, _, rfl⟩
    · simp [Place.outermost]
    · cases atRoot
  | cons c p ih =>
    intro t shown v f place member
    rcases mem_findings_iff.mp member with ⟨_, rfl⟩ | ⟨b, w, s, g, leads, found, rfl⟩
    · cases place
    · obtain ⟨rfl, deeper⟩ := List.cons.inj place
      have named := ih deeper found
      rw [Place.outermost_cons]
      by_cases inside : Place.outermost p = []
      · rw [if_pos inside] at named
        by_cases inner : b.isInner = true
        · simp only [inside, inner, ↓reduceIte]
          exact named.trans (Branch.named_of_isInner inner shown s)
        · simp only [inside, inner, Bool.false_eq_true, ↓reduceIte, List.cons_ne_nil]
          refine ⟨w, .down leads ?_⟩
          have atEnd : g.shown = s := named.trans (Branch.named_of_not_isInner inner shown s)
          exact atEnd ▸ .here w s
      · rw [if_neg inside] at named
        obtain ⟨x, visited⟩ := named
        simp only [inside, ↓reduceIte, List.cons_ne_nil]
        exact ⟨x, .down leads visited⟩

/-! ### The order of findings -/

theorem Place.before_cons (b : Branch) (p q : Place) : Place.Before (b :: p) (b :: q) ↔ Place.Before p q := by
  simp [Place.Before]

theorem Place.before_of_rank {b c : Branch} (earlier : b.rank < c.rank) (p q : Place) :
    Place.Before (b :: p) (c :: q) := by
  simp [Place.Before, List.cons_lt_cons_iff, earlier]

/-- Findings in document order. -/
def Ordered (fs : List Finding) : Prop := fs.Pairwise fun f g => Place.Before f.place g.place

theorem Ordered.under {fs : List Finding} (ordered : Ordered fs) (b : Branch) :
    Ordered (fs.map (Finding.under b)) := by
  refine List.pairwise_map.mpr (ordered.imp ?_)
  intro f g before
  exact (Place.before_cons b f.place g.place).mpr before

/-- All that lies down one branch comes before all that lies down a later one. -/
theorem before_of_mem_under {b c : Branch} (earlier : b.rank < c.rank) {fs gs : List Finding} :
    ∀ f ∈ fs.map (Finding.under b), ∀ g ∈ gs.map (Finding.under c), Place.Before f.place g.place := by
  intro f memberF g memberG
  obtain ⟨f', _, rfl⟩ := List.mem_map.mp memberF
  obtain ⟨g', _, rfl⟩ := List.mem_map.mp memberG
  exact Place.before_of_rank earlier f'.place g'.place

/-- Parts that are numbered one after the other are ordered if each is and if
    what belongs to an earlier number comes first. -/
theorem Ordered.flatMap_zipIdx {α : Type} {part : α × Nat → List Finding}
    (inside : ∀ e, Ordered (part e))
    (across : ∀ d e : α × Nat, d.2 < e.2 → ∀ f ∈ part d, ∀ g ∈ part e, Place.Before f.place g.place) (xs : List α) :
    Ordered (xs.zipIdx.flatMap part) := by
  refine List.pairwise_flatMap.mpr ⟨fun e _ => inside e, ?_⟩
  have numbered : (xs.zipIdx.map Prod.snd).Pairwise (· < ·) := by
    rw [List.zipIdx_map_snd]
    exact List.pairwise_lt_range'
  exact (List.pairwise_map.mp numbered).imp (fun earlier => across _ _ earlier)

theorem ordered_findings (t : TypeDescriptor) : ∀ shown v, Ordered (findings t shown v) := by
  induction t with
  | scalar type =>
    intro shown v
    by_cases accepted : type.accepts v = true <;> simp [findings, accepted, Ordered]
  | optional inner ih =>
    intro shown v
    by_cases isNull : v.isNull = true
    · simp [findings, isNull, Ordered]
    · simpa [findings, isNull] using (ih shown v).under .inner
  | sequence item ih =>
    intro shown v
    cases v with
    | sequence vs =>
      refine Ordered.flatMap_zipIdx (fun e => (ih item e.1).under (.element e.2)) ?_ vs
      intro d e earlier
      exact before_of_mem_under (b := .element d.2) (c := .element e.2) earlier
    | _ => simp [findings, Ordered]
  | mapping keyType valueType ihKey ihValue =>
    intro shown v
    cases v with
    | mapping es =>
      refine Ordered.flatMap_zipIdx (fun e => ?_) ?_ es
      · refine List.pairwise_append.mpr ⟨(ihKey keyType e.1.1).under _, (ihValue valueType e.1.2).under _, ?_⟩
        exact before_of_mem_under (by simp only [Branch.rank]; omega)
      · -- An entry has two ranks of its own, so both of its parts come before those of later entries.
        intro d e earlier f memberF g memberG
        rcases List.mem_append.mp memberF with keyF | valueF <;> rcases List.mem_append.mp memberG with keyG | valueG
        · exact before_of_mem_under (by simp only [Branch.rank]; omega) f keyF g keyG
        · exact before_of_mem_under (by simp only [Branch.rank]; omega) f keyF g valueG
        · exact before_of_mem_under (by simp only [Branch.rank]; omega) f valueF g keyG
        · exact before_of_mem_under (by simp only [Branch.rank]; omega) f valueF g valueG
    | _ => simp [findings, Ordered]

/-! ### What messages say -/

theorem Branch.text_steps (b : Branch) : Route.text b.steps = b.segment := by
  cases b <;> simp [Branch.steps, Branch.segment, Route.text, Step.segment]

theorem Route.text_append (r s : Route) : Route.text (r ++ s) = r.text ++ s.text := by
  simp [Route.text, String.join_append]

theorem Step.segment_ne_empty (step : Step) : step.segment ≠ "" := by
  cases step <;> simp [Step.segment]

theorem Route.text_eq_empty_iff (r : Route) : r.text = "" ↔ r = [] := by
  cases r with
  | nil => simp [Route.text]
  | cons step r => simp [Route.text, String.join_cons, Step.segment_ne_empty]

theorem Place.text_route (p : Place) : p.route.text = p.text := by
  induction p with
  | nil => rfl
  | cons b p ih =>
    rw [Place.route_cons, Route.text_append, Branch.text_steps, ih]
    simp [Place.text, String.join_cons]

theorem mismatch_eq (route : Route) (v : Value) (expected : TypeDescriptor) :
    mismatch route v expected = (if route.text = "" then "" else route.text ++ " - ") ++
      "\"" ++ v.typeName ++ "\" instead of \"" ++ expected.text ++ "\"" := by
  by_cases atRoot : route.text = ""
  · have isEmpty : route.isEmpty = true := List.isEmpty_iff.mpr ((Route.text_eq_empty_iff route).mp atRoot)
    simp [mismatch, atRoot, isEmpty, String.append_assoc]
  · have below : ¬ route.isEmpty = true :=
      fun isEmpty => atRoot ((Route.text_eq_empty_iff route).mpr (List.isEmpty_iff.mp isEmpty))
    simp only [mismatch, if_neg atRoot, if_neg below, String.append_assoc]

/-- What a message says of a finding if the walk began at the end of a route: the route comes in front of the path
    from there to the pair. -/
def Finding.messageBelow (route : Route) (f : Finding) : String :=
  (if route.text ++ f.place.text = "" then "" else route.text ++ f.place.text ++ " - ") ++
    "\"" ++ f.value.typeName ++ "\" instead of \"" ++ f.shown.text ++ "\""

theorem Finding.violation_eq (context : Context) (route : Route) (f : Finding) :
    f.violation context route = ⟨context, f.messageBelow route⟩ := by
  rw [violation, mismatch_eq, Route.text_append, Place.text_route, messageBelow]

theorem Finding.violation_root (context : Context) (f : Finding) :
    f.violation context [] = ⟨context, f.message⟩ := by
  rw [violation, List.nil_append, mismatch_eq, Place.text_route, message]

/-- A check finds the visited pairs that mismatch, each once and in document order.
    A violation names the route to the pair, the kind of its value, and the
    outermost of the optional types directly around its type. -/
theorem check_topmost_mismatches (context : Context) (v : Value) (t : TypeDescriptor) :
    ∃ fs : List Finding,
      fs.Pairwise (fun f g => f.place.Before g.place) ∧
      (∀ p x u, (∃ f ∈ fs, f.place = p ∧ f.value = x ∧ f.type = u) ↔ Visited v t p x u ∧ Mismatched x u) ∧
      (∀ f ∈ fs, ∃ w, Visited v t f.place.outermost w f.shown) ∧
      check context v t = fs.map fun f => ⟨context, f.message⟩ := by
  refine ⟨findings t t v, ordered_findings t t v, ?_, ?_, ?_⟩
  · intro p x u
    constructor
    · rintro ⟨f, found, rfl, rfl, rfl⟩
      exact visited_of_mem_findings rfl found
    · rintro ⟨visited, mismatched⟩
      exact mem_findings_of_visited visited mismatched t
  · intro f found
    have named := shown_of_mem_findings rfl found
    by_cases whole : f.place.outermost = []
    · rw [if_pos whole] at named
      exact ⟨v, by rw [whole, named]; exact .here v t⟩
    · rwa [if_neg whole] at named
  · rw [check_eq_map_findings]
    exact List.map_congr_left (fun f _ => Finding.violation_root context f)

/-- A walk may begin anywhere. It ends where it began, keeps what was found before and adds what a walk from the top
    finds, with the route to where it began in front of each path. -/
theorem visit_below (context : Context) (t shown : TypeDescriptor) (v : Value) (route : Route)
    (found : List Violation) :
    Walk.visit context t shown v ⟨[], []⟩ = ⟨[], (findings t shown v).map fun f => ⟨context, f.message⟩⟩ ∧
    Walk.visit context t shown v ⟨route, found⟩ =
      ⟨route, found ++ (findings t shown v).map fun f => ⟨context, f.messageBelow route⟩⟩ ∧
    checkInto context v t found = found ++ check context v t := by
  refine ⟨?_, ?_, checkInto_eq_append context v t found⟩
  · have messages : Finding.violation context [] = fun f => ⟨context, f.message⟩ :=
      funext (Finding.violation_root context)
    rw [Walk.visit_eq_record, Walk.record, List.nil_append, messages]
  · have messages : Finding.violation context route = fun f => ⟨context, f.messageBelow route⟩ :=
      funext (Finding.violation_eq context route)
    rw [Walk.visit_eq_record, Walk.record, messages]

example : (Walk.visit .root (.sequence .integer) (.sequence .integer) (.sequence [.integer 1, .string "2"])
    ⟨[.key (.string "vera"), .index 1], []⟩).found.map Violation.text =
      ["<config> => ['vera'][1][1] - \"string\" instead of \"integer\""] := by decide

/-! ### Conforming values -/

/-- A value is of a type. Custom types accept what their tests accept. -/
inductive Conforms : Value → TypeDescriptor → Prop
  | scalar {v : Value} {type : ScalarType} (accepted : type.accepts v = true) : Conforms v (.scalar type)
  | absent (t : TypeDescriptor) : Conforms .null (.optional t)
  | present {v : Value} {t : TypeDescriptor} (inside : Conforms v t) : Conforms v (.optional t)
  | sequence {vs : List Value} {t : TypeDescriptor} (elements : ∀ v ∈ vs, Conforms v t) :
      Conforms (.sequence vs) (.sequence t)
  | mapping {es : Mapping} {s t : TypeDescriptor} (keys : ∀ e ∈ es, Conforms e.1 s)
      (values : ∀ e ∈ es, Conforms e.2 t) : Conforms (.mapping es) (.mapping s t)

theorem conforms_optional_iff {v : Value} {t : TypeDescriptor} :
    Conforms v (.optional t) ↔ v = .null ∨ Conforms v t := by
  constructor
  · intro conforms
    cases conforms with
    | absent => exact .inl rfl
    | present inside => exact .inr inside
  · rintro (rfl | inside)
    · exact .absent t
    · exact .present inside

theorem conforms_sequence_iff {v : Value} {t : TypeDescriptor} :
    Conforms v (.sequence t) ↔ ∃ vs, v = .sequence vs ∧ ∀ w ∈ vs, Conforms w t := by
  constructor
  · intro conforms
    cases conforms with
    | sequence elements => exact ⟨_, rfl, elements⟩
  · rintro ⟨vs, rfl, elements⟩
    exact .sequence elements

theorem conforms_mapping_iff {v : Value} {s t : TypeDescriptor} :
    Conforms v (.mapping s t) ↔ ∃ es, v = .mapping es ∧ ∀ e ∈ es, Conforms e.1 s ∧ Conforms e.2 t := by
  constructor
  · intro conforms
    cases conforms with
    | mapping keys values => exact ⟨_, rfl, fun e member => ⟨keys e member, values e member⟩⟩
  · rintro ⟨es, rfl, entries⟩
    exact .mapping (fun e member => (entries e member).1) (fun e member => (entries e member).2)

theorem forall_mem_zipIdx_iff {α : Type} {xs : List α} {P : α → Prop} :
    (∀ e ∈ xs.zipIdx, P e.1) ↔ ∀ x ∈ xs, P x := by
  have unnumbered : xs.zipIdx.map Prod.fst = xs := List.zipIdx_map_fst 0 xs
  rw [← List.forall_mem_map, unnumbered]

/-- Nothing is found exactly in values of the type. -/
theorem findings_eq_nil_iff (t : TypeDescriptor) : ∀ shown v, findings t shown v = [] ↔ Conforms v t := by
  induction t with
  | scalar type =>
    intro shown v
    constructor
    · intro empty
      by_cases accepted : type.accepts v = true
      · exact .scalar accepted
      · simp [findings, accepted] at empty
    · intro conforms
      cases conforms with
      | scalar accepted => simp [findings, accepted]
  | optional inner ih =>
    intro shown v
    rw [conforms_optional_iff, ← ih shown v]
    by_cases isNull : v = .null
    · simp [findings, isNull, Value.isNull]
    · simp [findings, isNull]
  | sequence item ih =>
    intro shown v
    rw [conforms_sequence_iff]
    cases v with
    | sequence vs =>
      simp only [findings, List.flatMap_eq_nil_iff, List.map_eq_nil_iff, ih]
      rw [forall_mem_zipIdx_iff (P := fun w => Conforms w item)]
      simp
    | _ => simp [findings]
  | mapping keyType valueType ihKey ihValue =>
    intro shown v
    rw [conforms_mapping_iff]
    cases v with
    | mapping es =>
      simp only [findings, List.flatMap_eq_nil_iff, List.append_eq_nil_iff, List.map_eq_nil_iff, ihKey, ihValue]
      rw [forall_mem_zipIdx_iff (P := fun e : Value × Value => Conforms e.1 keyType ∧ Conforms e.2 valueType)]
      simp
    | _ => simp [findings]

/-- A check finds nothing exactly if the value is of the type. -/
theorem check_eq_nil_iff (context : Context) (v : Value) (t : TypeDescriptor) :
    check context v t = [] ↔ Conforms v t := by
  rw [check_eq_map_findings, List.map_eq_nil_iff, findings_eq_nil_iff]

end Conformance

end TypedConfig
