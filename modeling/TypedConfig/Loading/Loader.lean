import TypedConfig.Config.Basic

/-!
# Loaders

A loader says which files make up a configuration and which variant is selected, and binds a
configuration to what the files hold. It stops at the first stage that fails.
-/
namespace TypedConfig.Merging

/-!
## Merging documents

Documents are merged from first to last. Entries of a later mapping replace whole entries of the earlier
one; null changes nothing; any other document replaces everything before it.
-/

/-- One document merged on top of those before it. -/
def merge (base document : Value) : Value :=
  match base, document with
  | base, .null => base
  | .mapping entries, .mapping others => .mapping (Mapping.overlay entries others)
  | _, document => document

/-- Documents merged in order, on top of an empty mapping. -/
def mergeAll (documents : List Value) : Value := documents.foldl merge (.mapping [])

end TypedConfig.Merging

/-!
## Sources of configuration

Where files come from and how their texts are read as documents. All files are read before the first is
looked into.
-/

namespace TypedConfig

/-- How files are read, and how their texts become documents. -/
structure Source where
  read : String → Except UnreadableFile String
  parse : Format → String → Except Malformed Value

namespace Source

/-- The texts of files, in order, up to the first that cannot be read. -/
def readFiles (s : Source) : List String → Traced (List (String × String))
  | [] => pure []
  | path :: paths =>
    match s.read path with
    | .error reason => Traced.fail (.unreadable path reason)
    | .ok text => do
      Traced.note (.fileRead path text.utf8ByteSize)
      let rest ← s.readFiles paths
      return (path, text) :: rest

/-- The document in a file, of a given format or of the one that its extension tells. -/
def document (s : Source) (format : Option Format) (path text : String) : Except Failure Value :=
  match format <|> Format.ofPath? path with
  | none => .error (.unsupportedFormat path)
  | some format =>
    match s.parse format text with
    | .ok v => .ok v
    | .error reason => .error (.malformed format path reason)

/-- The documents in files, in order, up to the first fault. -/
def documents (s : Source) (format : Option Format) (files : List (String × String)) :
    Except Failure (List Value) :=
  files.mapM fun file => s.document format file.1 file.2

/-- The documents in files, merged in order. -/
def merged (s : Source) (format : Option Format) (files : List (String × String)) : Traced Value := do
  let documents ← Traced.lift (s.documents format files)
  Traced.note (.filesMerged files.length)
  return Merging.mergeAll documents

end Source

/-! ## Loaders -/

/-- What is to be loaded. -/
structure Loader where
  /-- Files in the order in which they are merged. -/
  files : List String
  /-- The format of every file; if there is none, each file's extension tells it. -/
  format : Option Format
  separator : Option String
  variant : Option String

namespace Loader

def empty : Loader := ⟨[], none, none, none⟩

def addFile (l : Loader) (path : String) : Loader := { l with files := l.files ++ [path] }

def addFiles (l : Loader) (paths : List String) : Loader := { l with files := l.files ++ paths }

def setFormat (l : Loader) (format : Format) : Loader := { l with format := some format }

def setSeparator (l : Loader) (separator : String) : Loader := { l with separator := some separator }

def setVariant (l : Loader) (variant : String) : Loader := { l with variant := some variant }

/-- The variant, which must have been set. -/
def requiredVariant (l : Loader) : Except Failure String :=
  match l.variant with
  | some variant => .ok variant
  | none => .error .variantRequired

/-- The separator that was set, or else that of the format that was set, or else of the first file's
    format, or else a dot. -/
def effectiveSeparator (l : Loader) : String :=
  match l.separator with
  | some separator => separator
  | none =>
    match l.format <|> l.files.head?.bind Format.ofPath? with
    | some format => format.defaultSeparator
    | none => "."

/-- The merged document of the files. -/
def read (l : Loader) (source : Source) : Traced Value := do
  let files ← source.readFiles l.files
  source.merged l.format files

/-- A configuration bound to what the files hold for the variant. -/
def init (l : Loader) (source : Source) (c : Config) : Traced Config := do
  let variant ← Traced.lift l.requiredVariant
  let data ← l.read source
  c.init data variant l.effectiveSeparator

/-- A new configuration of a schema, bound to what the files hold for the variant. -/
def load (l : Loader) (source : Source) (schema : Schema) : Traced Config :=
  l.init source (.ofSchema schema)

end Loader

end TypedConfig
