import TypedConfig.Proofs.Binding
import TypedConfig.Proofs.Merging
import TypedConfig.Sample.Schemas

/-!
Documents that are neither null nor mappings. Such a root replaces all documents
before it and is reported if no mapping follows. If a mapping follows, the root is
lost, and with it all documents before it (`bad_root_reported_or_lost`).
-/
namespace TypedConfig.Merging
open Mapping (Distinct)

/-- Whether a document is neither null nor a mapping. -/
def BadRoot (document : Value) : Prop := document.isNull = false ∧ document.mapping? = none

/-- The problem of a document that is no mapping. -/
def rootMismatch (document : Value) : Violation :=
  ⟨.root, "\"" ++ document.typeName ++ "\" instead of \"mapping\""⟩

theorem merge_null (base : Value) : merge base .null = base := by
  cases base <;> rfl

theorem merge_badRoot (base : Value) {document : Value} (bad : BadRoot document) : merge base document = document := by
  obtain ⟨notNull, noMapping⟩ := bad
  cases document with
  | null => cases notNull
  | mapping => cases noMapping
  | _ => cases base <;> rfl

/-- What is merged on top of a bad root replaces it, mappings included. -/
theorem merge_on_badRoot {base document : Value} (bad : BadRoot base) (notNull : document.isNull = false) :
    merge base document = document := by
  obtain ⟨_, noMapping⟩ := bad
  cases document with
  | null => cases notNull
  | _ => cases base <;> first | rfl | cases noMapping

theorem merge_empty {document : Value} (notNull : document.isNull = false)
    (distinct : ∀ entries, document = .mapping entries → Distinct entries) :
    merge (.mapping []) document = document := by
  cases document with
  | null => cases notNull
  | mapping entries => exact congrArg Value.mapping (Mapping.ofPairs_of_distinct (distinct entries rfl))
  | _ => rfl

/-- A bad root stays, or gives way to a later one, as long as no mapping is merged. -/
theorem foldl_merge_badRoot {documents : List Value} (noMappings : ∀ d ∈ documents, d.mapping? = none) :
    ∀ {base : Value}, BadRoot base → ∃ d ∈ base :: documents, BadRoot d ∧ documents.foldl merge base = d := by
  induction documents with
  | nil => intro base bad; exact ⟨base, List.mem_singleton_self base, bad, rfl⟩
  | cons document documents ih =>
    intro base bad
    obtain ⟨noMapping, later⟩ := List.forall_mem_cons.mp noMappings
    rw [List.foldl_cons]
    cases isNull : document.isNull with
    | true =>
      obtain rfl := Value.isNull_iff.mp isNull
      rw [merge_null]
      obtain ⟨d, member, isBad, merged⟩ := ih later bad
      refine ⟨d, ?_, isBad, merged⟩
      rcases List.mem_cons.mp member with rfl | after
      · exact List.mem_cons_self
      · exact List.mem_cons_of_mem _ (List.mem_cons_of_mem _ after)
    | false =>
      rw [merge_badRoot base ⟨isNull, noMapping⟩]
      obtain ⟨d, member, isBad, merged⟩ := ih later ⟨isNull, noMapping⟩
      exact ⟨d, List.mem_cons_of_mem _ member, isBad, merged⟩

/-- Once any document but null follows, a bad root leaves no trace. -/
theorem foldl_merge_forgets {documents : List Value}
    (distinct : ∀ entries, .mapping entries ∈ documents → Distinct entries)
    (follows : ∃ d ∈ documents, d.isNull = false) {base : Value} (bad : BadRoot base) :
    documents.foldl merge base = mergeAll documents := by
  unfold mergeAll
  induction documents with
  | nil =>
    obtain ⟨_, member, _⟩ := follows
    cases member
  | cons document documents ih =>
    rw [List.foldl_cons, List.foldl_cons]
    cases isNull : document.isNull with
    | true =>
      obtain rfl := Value.isNull_iff.mp isNull
      rw [merge_null, merge_null]
      refine ih (fun entries member => distinct entries (List.mem_cons_of_mem _ member)) ?_
      obtain ⟨d, member, isSome⟩ := follows
      rcases List.mem_cons.mp member with rfl | later
      · cases isSome
      · exact ⟨d, later, isSome⟩
    | false =>
      rw [merge_on_badRoot bad isNull, merge_empty isNull]
      rintro entries rfl
      exact distinct entries List.mem_cons_self

theorem mergeAll_badRoot (before after : List Value) {bad : Value} (wrong : BadRoot bad) :
    mergeAll (before ++ bad :: after) = after.foldl merge bad := by
  unfold mergeAll
  rw [List.foldl_append, List.foldl_cons, merge_badRoot _ wrong]

/-- When some file's document is neither null nor a mapping and no mapping comes after it, initialization fails, and
    the one problem is the root, that document or a later one of its sort. When another document but null comes
    after it, what the files are merged to is what those after it are merged to. -/
theorem bad_root_reported_or_lost {source : Source} {format : Option Format} {files : List (String × String)}
    {before after : List Value} {bad : Value} (parsed : source.documents format files = .ok (before ++ bad :: after))
    (wrong : BadRoot bad) (schema : Schema) (variant separator : String) :
    ((∀ d ∈ after, d.mapping? = none) → ∃ d ∈ bad :: after, BadRoot d ∧
        (source.merged format files >>= fun data =>
          (Config.ofSchema schema).init data variant separator).result = .error (.invalid [rootMismatch d])) ∧
      ((∃ d ∈ after, d.isNull = false) → (∀ entries, .mapping entries ∈ after → Distinct entries) →
        (source.merged format files).result = .ok (mergeAll after)) := by
  have merged := merged_of_documents parsed
  rw [mergeAll_badRoot before after wrong] at merged
  refine ⟨fun noMappings => ?_, fun follows distinct => ?_⟩
  · obtain ⟨d, member, isBad, ends⟩ := foldl_merge_badRoot noMappings wrong
    refine ⟨d, member, isBad, ?_⟩
    have problem := Validation.violations_noMapping isBad.2 schema variant separator
    have dirty : Validation.violations schema d variant separator ≠ [] := by simp [problem]
    rw [merged, ends, Traced.result_bind]
    change ((Config.ofSchema schema).init d variant separator).result = _
    rw [Config.init_of_violations dirty, problem]
    rfl
  · rw [merged, foldl_merge_forgets distinct follows wrong]

/-- A sequence behind a mapping is reported, and lost when another mapping follows. -/
theorem bad_root_reported_or_lost_sequence :
    let entries : Mapping := [(.string "a", .null)]
    let items : Value := .sequence [.integer 1]
    let source : Source := ⟨fun _ => .error .notFound, fun _ text =>
      .ok (if text = "- 1" then items else if text = "" then .null else .mapping entries)⟩
    let files := [("first", "a:"), ("second", "- 1"), ("third", "")]
    let more := files ++ [("fourth", "a:")]
    source.documents (some .yaml) files = .ok [.mapping entries, items, .null] ∧ BadRoot items ∧
      (source.merged (some .yaml) files >>= fun data =>
        (Config.ofSchema Sample.parma).init data "infest" "_").result =
          .error (.invalid [⟨.root, "\"sequence\" instead of \"mapping\""⟩]) ∧
      source.documents (some .yaml) more = .ok [.mapping entries, items, .null, .mapping entries] ∧
      Distinct entries ∧ (source.merged (some .yaml) more).result = .ok (mergeAll [.null, .mapping entries]) := by
  intro entries items source files more
  have parsed : source.documents (some .yaml) files = .ok ([.mapping entries] ++ items :: [.null]) := rfl
  have parsedMore : source.documents (some .yaml) more =
      .ok ([.mapping entries] ++ items :: [.null, .mapping entries]) := rfl
  have wrong : BadRoot items := ⟨rfl, rfl⟩
  have distinct : Distinct entries := List.pairwise_singleton _ _
  obtain ⟨reported, _⟩ := bad_root_reported_or_lost parsed wrong Sample.parma "infest" "_"
  obtain ⟨_, lost⟩ := bad_root_reported_or_lost parsedMore wrong Sample.parma "infest" "_"
  refine ⟨parsed, wrong, ?_, parsedMore, distinct, lost ?_ ?_⟩
  · obtain ⟨d, member, isBad, fails⟩ := reported (List.forall_mem_singleton.mpr rfl)
    rcases List.mem_cons.mp member with rfl | later
    · exact fails
    · obtain rfl := List.mem_singleton.mp later
      cases isBad.1
  · exact ⟨.mapping entries, List.mem_cons_of_mem _ List.mem_cons_self, rfl⟩
  · intro others member
    rcases List.mem_cons.mp member with isNull | later
    · cases isNull
    · cases List.mem_singleton.mp later
      exact distinct

/-- A bad root is not always reported: a sequence is lost behind a mapping that is valid by itself. -/
theorem bad_root_not_always_reported :
    ¬ ∀ (source : Source) (format : Option Format) (files : List (String × String)) (documents : List Value),
      source.documents format files = .ok documents → (∃ d ∈ documents, BadRoot d) →
      ∀ (schema : Schema) (variant separator : String), ∃ d ∈ documents, BadRoot d ∧
        (source.merged format files >>= fun data =>
          (Config.ofSchema schema).init data variant separator).result = .error (.invalid [rootMismatch d]) := by
  intro always
  let items : Value := .sequence [.integer 1]
  let valid : Value := .mapping [(.string "parma_chu", .mapping [(.string "chatty", .integer 234)]),
    (.string "compose_infest", .mapping [(.string "parma", .string "chu")])]
  let source : Source := ⟨fun _ => .error .notFound, fun _ text => .ok (if text = "- 1" then items else valid)⟩
  let files := [("a", "- 1"), ("b", "")]
  obtain ⟨d, _, _, failed⟩ := always source (some .yaml) files [items, valid] rfl
    ⟨items, List.mem_cons_self, rfl, rfl⟩ Sample.parma "infest" "_"
  have clean : Validation.violations Sample.parma valid "infest" "_" = [] := by decide
  obtain ⟨values, bound, _⟩ := Config.init_of_valid (Validation.valid_of_clean clean)
  have merged : source.merged (some .yaml) files = ⟨[.filesMerged 2], .ok valid⟩ := rfl
  rw [merged, Traced.result_bind] at failed
  cases bound.symm.trans failed

end TypedConfig.Merging
