import TypedConfig.Config.Basic

/-!
# Derived values

A derived value is computed from a bound configuration when it is first asked for, and kept with that
configuration. Each derived value has a number of its own, handed out on first use, under which its
results are kept. Numbers are words of 64 bits and start over when they run out. The computation may
ask for other derived values of the same configuration; when something was kept in the meantime, that
stays and is the answer.
-/
namespace TypedConfig.Derived

section
variable {δ : Type} [DecidableEq δ] {Carrier : δ → Type} {κ : Type}

/-- The numbers handed out to derived values. -/
structure Numbering (δ : Type) where
  given : List (δ × UInt64)
  next : UInt64

namespace Numbering

def empty : Numbering δ := ⟨[], 0⟩

/-- The number of a derived value, handed out now if it has none. -/
def number (n : Numbering δ) (d : δ) : UInt64 × Numbering δ :=
  match n.given.find? fun entry => entry.1 == d with
  | some entry => (entry.2, n)
  | none => (n.next, ⟨n.given ++ [(d, n.next)], n.next + 1⟩)

end Numbering

section
variable {τ : Type} [DecidableEq τ] {Carrier : τ → Type}

/-- A result together with its type. -/
structure Kept (Carrier : τ → Type) where
  type : τ
  value : Carrier type

/-- The result as one of a given type, if it is of that. -/
def Kept.as? (k : Kept Carrier) (t : τ) : Option (Carrier t) :=
  if h : k.type = t then some (h ▸ k.value) else none

/-- The results kept with one configuration, under their numbers. -/
abbrev Cache (Carrier : τ → Type) := List (UInt64 × Kept Carrier)

namespace Cache

/-- The result under a number. -/
def find? (cache : Cache Carrier) (number : UInt64) : Option (Kept Carrier) :=
  (List.find? (fun entry => entry.1 == number) cache).map Prod.snd

/-- The result under a number, if it is of a given type. -/
def get? (cache : Cache Carrier) (number : UInt64) (t : τ) : Option (Carrier t) :=
  (cache.find? number).bind (·.as? t)

/-- Keeps a result under a number that has none. The answer is what is kept under it then, or the result
    itself if that is of another type. -/
def keep (cache : Cache Carrier) (number : UInt64) {t : τ} (value : Carrier t) : Carrier t × Cache Carrier :=
  match cache.find? number with
  | some there => ((there.as? t).getD value, cache)
  | none => (value, cache ++ [(number, ⟨t, value⟩)])

end Cache

end

/-- What a computation can change: the numbering, the results kept with its configuration, and a state of
    the computations' own. Each derived value stands for a type of its own here. -/
structure State (Carrier : δ → Type) (κ : Type) where
  numbering : Numbering δ
  cache : Cache Carrier
  own : κ

/-- A computation that can fail; what it changed before stays changed. -/
abbrev Computation (Carrier : δ → Type) (κ : Type) (α : Type) :=
  ExceptT Failure (StateM (State Carrier κ)) α

/-- The number of a derived value. -/
def takeNumber (d : δ) : Computation Carrier κ UInt64 := do
  let s ← get
  let (number, numbering) := s.numbering.number d
  set { s with numbering := numbering }
  return number

/-- The result kept under the number of a derived value. -/
def memoised (number : UInt64) (d : δ) : Computation Carrier κ (Option (Carrier d)) := do
  return (← get).cache.get? number d

/-- Keeps a result under a number that has none; the answer is what is kept under it then. -/
def keep (number : UInt64) (d : δ) (value : Carrier d) : Computation Carrier κ (Carrier d) := do
  let s ← get
  let (kept, cache) := s.cache.keep number value
  set { s with cache := cache }
  return kept

/-- The derived value of a configuration: the one that is kept, or else the one that `compute` gives. -/
def read (c : Config) (d : δ) (compute : Computation Carrier κ (Carrier d)) :
    Computation Carrier κ (Carrier d) := do
  if !c.isInitialized then throw .notInitialized
  let number ← takeNumber d
  match ← memoised number d with
  | some value => return value
  | none => keep number d (← compute)

end

/-!
## Derived values read from several places at once

Readers of derived values take steps in any order. The test whether the configuration is bound, the
handing out of a number, the lookup and the keeping of a result are single steps. A computation goes on
between them, and may itself start readers of derived values of the same configuration and wait for them.
-/

variable {δ τ : Type}

/-- The types of derived values. Several derived values can be of one type. -/
structure Typing (δ τ : Type) where
  type : δ → τ
  Carrier : τ → Type

/-- The results of a derived value. -/
abbrev Typing.Value (T : Typing δ τ) (d : δ) : Type := T.Carrier (T.type d)

variable {T : Typing δ τ}

/-- How a computation of a derived value goes on. -/
inductive Plan (T : Typing δ τ) : δ → Type where
  | finish {d : δ} (result : Except Failure (T.Value d)) : Plan T d
  /-- It asks for a derived value, which `compute` computes if nothing is kept, and goes on with the answer. -/
  | ask {d : δ} (e : δ) (compute : Plan T e) (next : Except Failure (T.Value e) → Plan T d) : Plan T d

/-- Where a reader of a derived value stands. -/
inductive Stage (T : Typing δ τ) (d : δ) where
  /-- Nothing is done yet. -/
  | asked (compute : Plan T d)
  /-- The configuration was bound. -/
  | admitted (compute : Plan T d)
  /-- The derived value has its number. -/
  | numbered (number : UInt64) (compute : Plan T d)
  /-- Nothing was kept under the number. -/
  | computing (number : UInt64) (rest : Plan T d)
  /-- The computation waits for another reader at the same place. -/
  | awaiting (number : UInt64) (reader : Nat) (e : δ) (next : Except Failure (T.Value e) → Plan T d)
  /-- The value is computed. -/
  | keeping (number : UInt64) (value : T.Value d)
  /-- The value is the one that is kept. -/
  | returning (value : T.Value d)
  | finished (result : Except Failure (T.Value d))

/-- A derived value that is read, and where its reader stands. -/
structure Reader (T : Typing δ τ) where
  derived : δ
  stage : Stage T derived

/-- What a step of a reader leaves behind: where the reader stands, the numbers handed out, the results
    kept, and the readers that it has started. -/
structure Outcome (T : Typing δ τ) (d : δ) where
  stage : Stage T d
  numbering : Numbering δ
  cache : Cache T.Carrier
  started : List (Reader T)

/-- A configuration with the results kept with it and the readers of its derived values. -/
structure Site (T : Typing δ τ) where
  config : Config
  cache : Cache T.Carrier
  readers : List (Reader T)

/-- Configurations that share derived values. -/
structure Sharing (T : Typing δ τ) where
  numbering : Numbering δ
  sites : List (Site T)

/-- What can happen next. -/
inductive Action where
  /-- A reader of a configuration takes a step. -/
  | advance (site reader : Nat)
  /-- A configuration is bound, unless it is so already. -/
  | bind (site : Nat) (values : Bindings)

/-- A derived value that is asked for, and how it is computed this time. -/
structure Call (T : Typing δ τ) where
  derived : δ
  compute : Plan T derived

/-- The reader of a derived value that has just been asked for. -/
def Call.reader (call : Call T) : Reader T := ⟨call.derived, .asked call.compute⟩

/-- Configurations with the calls at each; nothing has been done yet. -/
def Sharing.ofCalls (calls : List (Config × List (Call T))) : Sharing T :=
  ⟨.empty, calls.map fun entry => ⟨entry.1, [], entry.2.map Call.reader⟩⟩

section
variable [DecidableEq δ] [DecidableEq τ]

/-- What a reader has got for a derived value, once it has finished. -/
def Reader.answer? (r : Reader T) (e : δ) : Option (Except Failure (T.Value e)) :=
  match r with
  | ⟨d, .finished result⟩ => if h : d = e then some (h ▸ result) else none
  | _ => none

/-- One step of a reader among the readers of a configuration. -/
def Stage.step {d : δ} (c : Config) (numbering : Numbering δ) (cache : Cache T.Carrier) (readers : List (Reader T)) :
    Stage T d → Outcome T d
  | .asked compute =>
    ⟨if c.isInitialized then .admitted compute else .finished (.error .notInitialized), numbering, cache, []⟩
  | .admitted compute => ⟨.numbered (numbering.number d).1 compute, (numbering.number d).2, cache, []⟩
  | .numbered number compute =>
    match cache.get? number (T.type d) with
    | some value => ⟨.returning value, numbering, cache, []⟩
    | none => ⟨.computing number compute, numbering, cache, []⟩
  | .computing number (.finish (.ok value)) => ⟨.keeping number value, numbering, cache, []⟩
  | .computing _ (.finish (.error failure)) => ⟨.finished (.error failure), numbering, cache, []⟩
  | .computing number (.ask e compute next) =>
    ⟨.awaiting number readers.length e next, numbering, cache, [⟨e, .asked compute⟩]⟩
  | .awaiting number reader e next =>
    match readers[reader]?.bind (·.answer? e) with
    | some result => ⟨.computing number (next result), numbering, cache, []⟩
    | none => ⟨.awaiting number reader e next, numbering, cache, []⟩
  | .keeping number value => ⟨.returning (cache.keep number value).1, numbering, (cache.keep number value).2, []⟩
  | .returning value => ⟨.finished (.ok value), numbering, cache, []⟩
  | .finished result => ⟨.finished result, numbering, cache, []⟩

/-- The numbers handed out and the site after the reader at a position has taken a step. -/
def Site.advance (numbering : Numbering δ) (site : Site T) (j : Nat) : Numbering δ × Site T :=
  match site.readers[j]? with
  | none => (numbering, site)
  | some ⟨d, stage⟩ =>
    let out := stage.step site.config numbering site.cache site.readers
    (out.numbering, ⟨site.config, out.cache, site.readers.set j ⟨d, out.stage⟩ ++ out.started⟩)

/-- The site after its configuration has been given values to store. -/
def Site.bind (site : Site T) (values : Bindings) : Site T :=
  match site.config.store values with
  | .ok after => { site with config := after }
  | .error _ => site

namespace Sharing

def step (s : Sharing T) : Action → Sharing T
  | .advance i j =>
    match s.sites[i]? with
    | none => s
    | some site => ⟨(site.advance s.numbering j).1, s.sites.set i (site.advance s.numbering j).2⟩
  | .bind i values => { s with sites := s.sites.modify i (·.bind values) }

/-- What a schedule leaves behind. -/
def run (s : Sharing T) (schedule : List Action) : Sharing T := schedule.foldl step s

end Sharing

end

end TypedConfig.Derived
