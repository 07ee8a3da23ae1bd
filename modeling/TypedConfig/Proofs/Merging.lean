import TypedConfig.Loading.Loader
import TypedConfig.Proofs.Calls
import TypedConfig.Proofs.Overlay

/-!
Documents merged in order. Documents that are null or mappings come to what storing
their entries in a row comes to (`mergeAll_layers`), so they may be merged in groups
(`merge_mergeAll`), and under each key is the whole value of the last document that
has it (`merged_last_wins`).
-/
namespace TypedConfig.Merging
open Mapping (Distinct)

/-- A document that is merged entry by entry: null, or a mapping without equal keys. -/
inductive Layer : Value → Prop
  | null : Layer .null
  | mapping {entries : Mapping} (distinct : Distinct entries) : Layer (.mapping entries)

/-- The entries that a document adds. -/
def contents (document : Value) : Mapping := document.mapping?.getD []

/-- The value under a key in the last of documents that has the key. -/
def latest? (documents : List Value) (key : Value) : Option Value :=
  documents.reverse.findSome? fun document => (contents document).getValue? key

theorem Layer.distinct {document : Value} (layer : Layer document) : Distinct (contents document) := by
  cases layer with
  | null => exact Mapping.distinct_nil
  | mapping distinct => exact distinct

theorem merge_layer {document : Value} (layer : Layer document) (base : Mapping) :
    merge (.mapping base) document = .mapping (base.overlay (contents document)) := by
  cases layer <;> rfl

theorem foldl_merge_layers {documents : List Value} (layers : ∀ d ∈ documents, Layer d) :
    ∀ base : Mapping,
      documents.foldl merge (.mapping base) = .mapping (base.overlay (documents.flatMap contents)) := by
  induction documents with
  | nil => intro base; rfl
  | cons document documents ih =>
    intro base
    obtain ⟨layer, later⟩ := List.forall_mem_cons.mp layers
    rw [List.foldl_cons, merge_layer layer, ih later, List.flatMap_cons, Mapping.overlay_append]

/-- Merging documents is storing their entries in a row. -/
theorem mergeAll_layers {documents : List Value} (layers : ∀ d ∈ documents, Layer d) :
    mergeAll documents = .mapping (Mapping.ofPairs (documents.flatMap contents)) :=
  foldl_merge_layers layers []

theorem merge_mergeAll {front back : List Value} (layers : ∀ d ∈ front ++ back, Layer d) :
    merge (mergeAll front) (mergeAll back) = mergeAll (front ++ back) := by
  obtain ⟨inFront, inBack⟩ := List.forall_mem_append.mp layers
  rw [mergeAll_layers inFront, mergeAll_layers inBack, mergeAll_layers layers, List.flatMap_append]
  change Value.mapping _ = Value.mapping _
  rw [Mapping.overlay_ofPairs]
  exact congrArg Value.mapping (Mapping.overlay_append [] _ _).symm

/-- The last entry under a key in a row of documents is that of the last document that has the key. -/
theorem getValue?_reverse_flatMap {documents : List Value} (layers : ∀ d ∈ documents, Layer d) (key : Value) :
    Mapping.getValue? (documents.flatMap contents).reverse key = latest? documents key := by
  induction documents with
  | nil => rfl
  | cons document documents ih =>
    obtain ⟨layer, later⟩ := List.forall_mem_cons.mp layers
    unfold latest? at ih ⊢
    rw [List.flatMap_cons, List.reverse_append, Mapping.getValue?_append, ih later, List.reverse_cons,
      List.findSome?_append, Mapping.getValue?_reverse layer.distinct]
    simp

theorem getValue?_mergeAll {documents : List Value} (layers : ∀ d ∈ documents, Layer d) (key : Value) :
    Mapping.getValue? (Mapping.ofPairs (documents.flatMap contents)) key = latest? documents key := by
  rw [Mapping.ofPairs, Mapping.getValue?_overlay, getValue?_reverse_flatMap layers]
  exact Option.or_none

theorem merged_of_documents {source : Source} {format : Option Format} {files : List (String × String)}
    {documents : List Value} (parsed : source.documents format files = .ok documents) :
    source.merged format files = ⟨[.filesMerged files.length], .ok (mergeAll documents)⟩ := by
  unfold Source.merged
  rw [parsed]
  rfl

/-- Files whose documents are null or mappings are merged to a mapping that has, under each key, the whole value of
    the last document with that key; whose keys come in order of first appearance, as they were first written;
    which keeps all entries under keys that differ from themselves; and which does not depend on how the
    documents are grouped. -/
theorem merged_last_wins {source : Source} {format : Option Format} {files : List (String × String)}
    {documents : List Value} (parsed : source.documents format files = .ok documents)
    (layers : ∀ d ∈ documents, Layer d) :
    ∃ m : Mapping, source.merged format files = ⟨[.filesMerged files.length], .ok (.mapping m)⟩ ∧
      (∀ key, m.getValue? key = latest? documents key) ∧
      m.keys = (documents.flatMap fun d => (contents d).keys).eraseDups ∧
      m.unfindable = documents.flatMap (fun d => (contents d).unfindable) ∧
      ∀ front back, front ++ back = documents → merge (mergeAll front) (mergeAll back) = .mapping m := by
  have whole := mergeAll_layers layers
  refine ⟨Mapping.ofPairs (documents.flatMap contents), ?_, getValue?_mergeAll layers, ?_, ?_, ?_⟩
  · rw [merged_of_documents parsed, whole]
  · rw [Mapping.keys_ofPairs, Mapping.keys, List.map_flatMap]
    rfl
  · rw [Mapping.ofPairs, Mapping.unfindable_overlay]
    exact List.filter_flatMap
  · intro front back split
    subst split
    rw [merge_mergeAll layers, whole]

/-- A zero of the other sign is the same key, a NaN never is, and null adds nothing. -/
theorem merged_last_wins_zeros :
    let nan : Value := .float .nan
    let zero : Value := .float .zero
    let minusZero : Value := .float (Binary64.zero.negate)
    let first : Mapping := [(zero, .integer 1), (nan, .integer 2), (.string "a", .mapping [(zero, .null)])]
    let second : Mapping :=
      [(.string "b", .null), (minusZero, .integer 3), (nan, .integer 4), (.string "a", .mapping [])]
    let source : Source := ⟨fun _ => .error .notFound, fun _ text =>
      .ok (if text = "1" then .mapping first else if text = "2" then .mapping second else .null)⟩
    let files := [("a", "1"), ("b", ""), ("c", "2")]
    source.documents (some .yaml) files = .ok [.mapping first, .null, .mapping second] ∧
      Distinct first ∧ Distinct second ∧
      ∃ m : Mapping, source.merged (some .yaml) files = ⟨[.filesMerged 3], .ok (.mapping m)⟩ ∧
        m.keys = [zero, nan, .string "a", .string "b", nan] ∧ m.getValue? zero = some (.integer 3) ∧
        m.getValue? (.string "a") = some (.mapping []) ∧ m.getValue? nan = none := by
  intro nan zero minusZero first second source files
  have inFirst : Distinct first := by unfold Distinct; decide +kernel
  have inSecond : Distinct second := by unfold Distinct; decide +kernel
  have layers : ∀ d ∈ [.mapping first, .null, .mapping second], Layer d :=
    List.forall_mem_cons.mpr ⟨.mapping inFirst, List.forall_mem_cons.mpr ⟨.null,
      List.forall_mem_cons.mpr ⟨.mapping inSecond, List.forall_mem_nil _⟩⟩⟩
  have parsed : source.documents (some .yaml) files = .ok [.mapping first, .null, .mapping second] := rfl
  obtain ⟨m, merged, values, order, _, _⟩ := merged_last_wins parsed layers
  refine ⟨parsed, inFirst, inSecond, m, merged, order.trans rfl, ?_, ?_, ?_⟩
  · exact (values zero).trans rfl
  · exact (values (.string "a")).trans rfl
  · exact (values nan).trans rfl

end TypedConfig.Merging
