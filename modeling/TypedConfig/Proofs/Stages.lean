import TypedConfig.Loading.Loader
import TypedConfig.Proofs.Binding

/-!
How far a loader gets. Its stages come in a fixed order: the variant, the reading of all files, their documents, and
then the configuration. The first that fails decides the result, and the notes tell every stage that was passed
(`init_iff_ends`). Until all documents are merged the configuration is not looked at, and a failure leaves it as it was.
-/
namespace TypedConfig

namespace Traced
variable {α β : Type}

theorem bind_ok (notes : List Note) (a : α) (next : α → Traced β) :
    (⟨notes, .ok a⟩ : Traced α) >>= next = ⟨notes ++ (next a).notes, (next a).result⟩ := rfl

end Traced

/-! ### Reading files -/

namespace Source
variable {s : Source}

/-- All paths can be read, and their files have these texts. -/
def Reads (s : Source) (paths : List String) (files : List (String × String)) : Prop :=
  List.Forall₂ (fun path file => file.1 = path ∧ s.read path = .ok file.2) paths files

/-- One note for each file that was read, in order. -/
def readNotes (files : List (String × String)) : List Note :=
  files.map fun file => .fileRead file.1 file.2.utf8ByteSize

theorem readFiles_of_reads {paths : List String} {files : List (String × String)} (read : s.Reads paths files) :
    s.readFiles paths = ⟨readNotes files, .ok files⟩ := by
  induction read with
  | nil => rfl
  | @cons path file paths files here _ ih =>
    obtain ⟨name, text⟩ := file
    obtain ⟨rfl, found⟩ := here
    rw [readFiles, found]
    dsimp only
    rw [ih]
    change Traced.mk ([.fileRead name text.utf8ByteSize] ++ (readNotes files ++ [])) _ = _
    rw [List.append_nil]
    rfl

theorem readFiles_of_unreadable {before : List String} {files : List (String × String)} (read : s.Reads before files)
    {path : String} {reason : UnreadableFile} (fails : s.read path = .error reason) (after : List String) :
    s.readFiles (before ++ path :: after) = ⟨readNotes files, .error (.unreadable path reason)⟩ := by
  induction read with
  | nil =>
    rw [List.nil_append, readFiles, fails]
    rfl
  | @cons first file before files here _ ih =>
    obtain ⟨name, text⟩ := file
    obtain ⟨rfl, found⟩ := here
    rw [List.cons_append, readFiles, found]
    dsimp only
    rw [ih]
    rfl

/-- Either all paths can be read, or there is a first one that cannot. -/
theorem reads_or_unreadable (s : Source) (paths : List String) :
    (∃ files, s.Reads paths files) ∨ ∃ before path after files reason,
      paths = before ++ path :: after ∧ s.Reads before files ∧ s.read path = .error reason := by
  induction paths with
  | nil => exact .inl ⟨[], .nil⟩
  | cons first paths ih =>
    cases here : s.read first with
    | error reason => exact .inr ⟨[], first, paths, [], reason, rfl, .nil, here⟩
    | ok text =>
      rcases ih with ⟨files, read⟩ | ⟨before, path, after, files, reason, rfl, read, fails⟩
      · exact .inl ⟨(first, text) :: files, .cons ⟨rfl, here⟩ read⟩
      · exact .inr ⟨first :: before, path, after, (first, text) :: files, reason, rfl, .cons ⟨rfl, here⟩ read, fails⟩

/-! ### Documents -/

/-- A file holds a document: its text is one of the format that is set for all files, or else of the one that its
    extension tells. -/
def Holds (s : Source) (format : Option Format) (file : String × String) (v : Value) : Prop :=
  ∃ f, (format <|> Format.ofPath? file.1) = some f ∧ s.parse f file.2 = .ok v

/-- Why a file holds no document. -/
inductive Faulty (s : Source) (format : Option Format) : String × String → Failure → Prop
  | unsupported {path text : String} (unknown : (format <|> Format.ofPath? path) = none) :
    Faulty s format (path, text) (.unsupportedFormat path)
  | malformed {path text : String} {f : Format} {reason : Malformed}
    (known : (format <|> Format.ofPath? path) = some f) (fails : s.parse f text = .error reason) :
    Faulty s format (path, text) (.malformed f path reason)

theorem document_eq_ok_iff {format : Option Format} {file : String × String} {v : Value} :
    s.document format file.1 file.2 = .ok v ↔ s.Holds format file v := by
  unfold document Holds
  cases (format <|> Format.ofPath? file.1) with
  | none => simp
  | some f => cases parsed : s.parse f file.2 <;> simp [parsed]

theorem document_eq_error_iff {format : Option Format} {file : String × String} {failure : Failure} :
    s.document format file.1 file.2 = .error failure ↔ s.Faulty format file failure := by
  obtain ⟨path, text⟩ := file
  constructor
  · intro failed
    unfold document at failed
    split at failed
    · next unknown =>
      cases failed
      exact .unsupported unknown
    · next f known =>
      split at failed
      · cases failed
      · next reason fails =>
        cases failed
        exact .malformed known fails
  · rintro (unknown | ⟨known, fails⟩)
    · simp only [document, unknown]
    · simp only [document, known, fails]

theorem documents_eq_ok_iff {format : Option Format} {files : List (String × String)} {documents : List Value} :
    s.documents format files = .ok documents ↔ List.Forall₂ (s.Holds format) files documents := by
  simp only [Source.documents, mapM_eq_ok_iff, document_eq_ok_iff]

theorem documents_eq_error_iff {format : Option Format} {files : List (String × String)} {failure : Failure} :
    s.documents format files = .error failure ↔ ∃ before file after, files = before ++ file :: after ∧
      (∀ other ∈ before, ∃ v, s.Holds format other v) ∧ s.Faulty format file failure := by
  simp only [Source.documents, mapM_eq_error_iff, document_eq_ok_iff, document_eq_error_iff]

end Source

/-! ### The configuration -/

namespace Config

theorem init_of_bound {c : Config} (bound : c.isInitialized = true) (data : Value) (variant separator : String) :
    c.init data variant separator = ⟨[], .error .alreadyInitialized⟩ := by
  have refused : c.requireUnbound = .error .alreadyInitialized := by simp [requireUnbound, bound]
  rw [init, refused]
  rfl

theorem validate_eq (schema : Schema) (data : Value) (variant separator : String) :
    validate schema data variant separator =
      ⟨[.validated variant (Validation.violations schema data variant separator).length],
        .ok (Validation.violations schema data variant separator)⟩ := rfl

/-- What follows the check of a document: binding, or the failure that tells all violations. -/
def finish (c : Config) (data : Value) (variant separator : String) (found : List Violation) : Traced Config :=
  if found.isEmpty then Traced.lift (Composition.composeDeclared c.schema data variant separator) >>= c.bind
  else Traced.fail (.invalid found)

theorem init_of_unbound {c : Config} (unbound : c.isInitialized = false) (data : Value) (variant separator : String) :
    let found := Validation.violations c.schema data variant separator
    let rest := c.finish data variant separator found
    c.init data variant separator = ⟨.validated variant found.length :: rest.notes, rest.result⟩ := by
  have admitted : c.requireUnbound = .ok () := by simp [requireUnbound, unbound]
  rw [init, admitted, validate_eq]
  rfl

theorem init_of_invalid {c : Config} {data : Value} {variant separator : String} (unbound : c.isInitialized = false)
    (dirty : Validation.violations c.schema data variant separator ≠ []) :
    c.init data variant separator =
      ⟨[.validated variant (Validation.violations c.schema data variant separator).length],
        .error (.invalid (Validation.violations c.schema data variant separator))⟩ := by
  rw [init_of_unbound unbound, finish, if_neg fun none => dirty (List.isEmpty_iff.mp none)]
  rfl

theorem bind_of_built {schema : Schema} {composed : Mapping} {values : Bindings}
    (built : bindings composed schema.slots.entries = .ok values) :
    (ofSchema schema).bind composed = ⟨[.bound schema.slots.size], .ok ⟨schema, some values⟩⟩ := by
  rw [Config.bind, ofSchema]
  dsimp only
  rw [built]
  rfl

/-- Data without violations composes and has values for all slots, and these are bound. -/
theorem init_of_clean {c : Config} {data : Value} {variant separator : String} (unbound : c.isInitialized = false)
    (clean : Validation.violations c.schema data variant separator = []) :
    ∃ composed values, Composition.composeDeclared c.schema data variant separator = .ok composed ∧
      bindings composed c.schema.slots.entries = .ok values ∧
      c.init data variant separator =
        ⟨[.validated variant 0, .bound c.schema.slots.size], .ok ⟨c.schema, some values⟩⟩ := by
  obtain ⟨values, run, _⟩ := init_of_valid (Validation.valid_of_clean clean)
  rw [init_ofSchema, if_pos clean] at run
  obtain ⟨composed, composes, mapped⟩ := bind_eq_ok_iff.mp run
  have built : bindings composed c.schema.slots.entries = .ok values := by
    cases built : bindings composed c.schema.slots.entries with
    | error failure => rw [built] at mapped; cases mapped
    | ok others => rw [built] at mapped; cases mapped; rfl
  have same : c = ofSchema c.schema := by
    obtain ⟨schema, bound⟩ := c
    obtain rfl : bound = none := by simpa [isInitialized] using unbound
    rfl
  have bound : c.bind composed = ⟨[.bound c.schema.slots.size], .ok ⟨c.schema, some values⟩⟩ := by
    rw [same]
    exact bind_of_built built
  refine ⟨composed, values, composes, built, ?_⟩
  rw [init_of_unbound unbound, clean, finish, if_pos List.isEmpty_nil, composes, Traced.lift, Traced.bind_ok, bound]
  rfl

end Config

/-! ### All stages -/

namespace Loader
variable {l : Loader} {s : Source} {c : Config}

/-- The variant is set, all files are read, and all hold documents, which come to `data`. -/
structure Merges (l : Loader) (s : Source) (variant : String) (files : List (String × String)) (data : Value) :
    Prop where
  chosen : l.variant = some variant
  read : s.Reads l.files files
  held : ∃ documents, List.Forall₂ (s.Holds l.format) files documents ∧ data = Merging.mergeAll documents

/-- The notes and the result with which a loader ends: one way for each stage that can fail, and one for all stages
    passed. -/
inductive Ends (l : Loader) (s : Source) (c : Config) : List Note → Except Failure Config → Prop
  | noVariant (missing : l.variant = none) : Ends l s c [] (.error .variantRequired)
  | unreadable {variant path : String} {before after : List String} {files : List (String × String)}
    {reason : UnreadableFile} (chosen : l.variant = some variant) (split : l.files = before ++ path :: after)
    (read : s.Reads before files) (fails : s.read path = .error reason) :
    Ends l s c (Source.readNotes files) (.error (.unreadable path reason))
  | noDocument {variant : String} {file : String × String} {files before after : List (String × String)}
    {failure : Failure} (chosen : l.variant = some variant) (read : s.Reads l.files files)
    (split : files = before ++ file :: after) (held : ∀ other ∈ before, ∃ v, s.Holds l.format other v)
    (faulty : s.Faulty l.format file failure) :
    Ends l s c (Source.readNotes files) (.error failure)
  | alreadyBound {variant : String} {files : List (String × String)} {data : Value}
    (merges : l.Merges s variant files data) (bound : c.isInitialized = true) :
    Ends l s c (Source.readNotes files ++ [.filesMerged files.length]) (.error .alreadyInitialized)
  | invalid {variant : String} {files : List (String × String)} {data : Value} {found : List Violation}
    (merges : l.Merges s variant files data) (unbound : c.isInitialized = false)
    (finds : Validation.violations c.schema data variant l.effectiveSeparator = found) (dirty : found ≠ []) :
    Ends l s c (Source.readNotes files ++ [.filesMerged files.length, .validated variant found.length])
      (.error (.invalid found))
  | bound {variant : String} {files : List (String × String)} {data : Value} {composed : Mapping} {values : Bindings}
    (merges : l.Merges s variant files data) (unbound : c.isInitialized = false)
    (clean : Validation.violations c.schema data variant l.effectiveSeparator = [])
    (composes : Composition.composeDeclared c.schema data variant l.effectiveSeparator = .ok composed)
    (built : Config.bindings composed c.schema.slots.entries = .ok values) :
    Ends l s c
      (Source.readNotes files ++
        [.filesMerged files.length, .validated variant 0, .bound c.schema.slots.size])
      (.ok ⟨c.schema, some values⟩)

theorem init_of_variant {variant : String} (chosen : l.variant = some variant) (s : Source) (c : Config) :
    l.init s c = l.read s >>= fun data => c.init data variant l.effectiveSeparator := by
  rw [init, requiredVariant, chosen]
  rfl

theorem read_of_reads {files : List (String × String)} (read : s.Reads l.files files) :
    l.read s = ⟨Source.readNotes files ++ (s.merged l.format files).notes, (s.merged l.format files).result⟩ := by
  rw [Loader.read, Source.readFiles_of_reads read, Traced.bind_ok]

theorem Merges.read_eq {variant : String} {files : List (String × String)} {data : Value}
    (merges : l.Merges s variant files data) :
    l.read s = ⟨Source.readNotes files ++ [.filesMerged files.length], .ok data⟩ := by
  obtain ⟨documents, held, rfl⟩ := merges.held
  rw [read_of_reads merges.read, Source.merged, Source.documents_eq_ok_iff.mpr held]
  rfl

/-- Once the documents are merged, the rest is up to the configuration. -/
theorem Merges.init_eq {variant : String} {files : List (String × String)} {data : Value}
    (merges : l.Merges s variant files data) (c : Config) :
    l.init s c =
      ⟨Source.readNotes files ++ [.filesMerged files.length] ++ (c.init data variant l.effectiveSeparator).notes,
        (c.init data variant l.effectiveSeparator).result⟩ := by
  rw [init_of_variant merges.chosen, merges.read_eq, Traced.bind_ok]

/-- A run ends in every way that is open to it. -/
theorem init_of_ends {notes : List Note} {result : Except Failure Config} (ends : l.Ends s c notes result) :
    l.init s c = ⟨notes, result⟩ := by
  cases ends with
  | noVariant missing =>
    rw [init, requiredVariant, missing]
    rfl
  | unreadable chosen split read fails =>
    rw [init_of_variant chosen, Loader.read, split, Source.readFiles_of_unreadable read fails]
    rfl
  | noDocument chosen read split held faulty =>
    have failed := Source.documents_eq_error_iff.mpr ⟨_, _, _, split, held, faulty⟩
    rw [init_of_variant chosen, read_of_reads read, Source.merged, failed]
    change Traced.mk (_ ++ []) _ = _
    rw [List.append_nil]
  | alreadyBound merges bound =>
    rw [merges.init_eq, Config.init_of_bound bound, List.append_nil]
  | invalid merges unbound finds dirty =>
    subst finds
    rw [merges.init_eq, Config.init_of_invalid unbound dirty, List.append_assoc]
    rfl
  | bound merges unbound clean composes built =>
    obtain ⟨composed, values, composes', built', run⟩ := Config.init_of_clean unbound clean
    cases composes.symm.trans composes'
    cases built.symm.trans built'
    rw [merges.init_eq, run, List.append_assoc]
    rfl

/-- One of the ways is open to every run. -/
theorem exists_ends (l : Loader) (s : Source) (c : Config) : ∃ notes result, l.Ends s c notes result := by
  cases chosen : l.variant with
  | none => exact ⟨_, _, .noVariant chosen⟩
  | some variant =>
    obtain ⟨files, read⟩ | ⟨before, path, after, files, reason, split, read, fails⟩ := s.reads_or_unreadable l.files
    · cases held : s.documents l.format files with
      | error failure =>
        obtain ⟨before, file, after, split, held, faulty⟩ := Source.documents_eq_error_iff.mp held
        exact ⟨_, _, .noDocument chosen read split held faulty⟩
      | ok documents =>
        have merges : l.Merges s variant files (Merging.mergeAll documents) :=
          ⟨chosen, read, documents, Source.documents_eq_ok_iff.mp held, rfl⟩
        cases bound : c.isInitialized with
        | true => exact ⟨_, _, .alreadyBound merges bound⟩
        | false =>
          -- Nothing can fail behind the check: data without violations has values for all slots.
          by_cases clean : Validation.violations c.schema (Merging.mergeAll documents) variant l.effectiveSeparator = []
          · obtain ⟨composed, values, composes, built, _⟩ := Config.init_of_clean bound clean
            exact ⟨_, _, .bound merges bound clean composes built⟩
          · exact ⟨_, _, .invalid merges bound rfl clean⟩
    · exact ⟨_, _, .unreadable chosen split read fails⟩

/-- What a loader tells its caller, and the configuration that it leaves behind. Nothing is asked of the configuration
    before the merged document is there. -/
def submit (l : Loader) (s : Source) (c : Config) : Except Failure Unit × Config :=
  match l.requiredVariant, (l.read s).result with
  | .error failure, _ => (.error failure, c)
  | .ok _, .error failure => (.error failure, c)
  | .ok variant, .ok data => c.submit (.init data variant l.effectiveSeparator)

theorem submit_eq_settle (l : Loader) (s : Source) (c : Config) : l.submit s c = c.settle (l.init s c).result := by
  unfold submit init
  rw [Traced.result_bind, Traced.result_lift]
  cases l.requiredVariant with
  | error failure => rfl
  | ok variant =>
    change _ = c.settle (l.read s >>= fun data => c.init data variant l.effectiveSeparator).result
    rw [Traced.result_bind]
    cases (l.read s).result with
    | error failure => rfl
    | ok data => exact Config.submit_init c data variant l.effectiveSeparator

/-- A loader ends as the first of its stages says that fails, with the notes of all stages before it, or else with a
    bound configuration and the notes of all stages. After a failure the configuration is as it was. -/
theorem init_iff_ends (l : Loader) (s : Source) (c : Config) :
    (∀ notes result, l.init s c = ⟨notes, result⟩ ↔ l.Ends s c notes result) ∧
      l.submit s c = c.settle (l.init s c).result := by
  refine ⟨fun notes result => ⟨fun run => ?_, init_of_ends⟩, submit_eq_settle l s c⟩
  obtain ⟨others, other, ends⟩ := exists_ends l s c
  obtain ⟨rfl, rfl⟩ := Traced.mk.inj (run.symm.trans (init_of_ends ends))
  exact ends

end Loader

end TypedConfig
