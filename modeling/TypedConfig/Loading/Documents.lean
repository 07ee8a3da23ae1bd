import TypedConfig.Loading.Loader
import TypedConfig.Toml.Reader
import TypedConfig.Yaml.Reader

/-!
# Files and their documents
-/
namespace TypedConfig

/-!
## A tree of files

Files and directories below one directory, in which relative paths are looked up name by name. Only a
directory can be passed through, also by a name that leads nowhere. Above the directory nothing can be
read.
-/

/-- What a path can lead to. -/
inductive FileSystem.Node where
  | file (bytes : ByteArray)
  | directory

/-- Files and directories under the names that lead to them; later ones replace earlier ones. -/
structure FileSystem where
  nodes : List (List String × FileSystem.Node)

namespace FileSystem

/-- The node that names lead to. Directories on the way to a node need no entry of their own. -/
def node? (fs : FileSystem) (names : List String) : Option Node :=
  match fs.nodes.reverse.find? fun entry => entry.1 == names with
  | some entry => some entry.2
  | none => if fs.nodes.any fun entry => names.isPrefixOf entry.1 then some .directory else none

/-- Where a path has led so far. -/
inductive Place where
  /-- A number of levels above the directory. -/
  | above (levels : Nat)
  | inside (names : List String)

/-- How many octets a name may have. -/
def nameLimit : Nat := 255

/-- How many octets a path may have. -/
def pathLimit : Nat := 4095

/-- The place that a name leads to from a directory. -/
def enter (fs : FileSystem) (place : Place) (name : String) : Except UnreadableFile Place :=
  let stays := name.isEmpty || name == "."
  match place with
  | .above levels =>
    if stays then .ok (.above levels)
    else if name == ".." then .ok (.above (levels + 1))
    else .error .notFound
  | .inside names =>
    match fs.node? names with
    | none => if names.isEmpty then step stays names else .error .notFound
    | some (.file _) => .error .notDirectory
    | some .directory => step stays names
where
  step (stays : Bool) (names : List String) : Except UnreadableFile Place :=
    if stays then .ok (.inside names)
    else if name == ".." then
      if names.isEmpty then .ok (.above 0) else .ok (.inside names.dropLast)
    else if nameLimit < name.utf8ByteSize then .error .nameTooLong
    else .ok (.inside (names ++ [name]))

/-- The place that a path leads to. -/
def locate (fs : FileSystem) (path : String) : Except UnreadableFile Place :=
  let start : Place := if path.startsWith "/" then .above 0 else .inside []
  (path.splitOn "/").foldlM fs.enter start

/-- The text of the file that a path leads to. -/
def read (fs : FileSystem) (path : String) : Except UnreadableFile String := do
  if path.toList.contains '\x00' then throw .nulInPath
  if path.isEmpty then throw .notFound
  if pathLimit < path.utf8ByteSize then throw .nameTooLong
  match ← fs.locate path with
  | .above _ => throw .isDirectory
  | .inside names =>
    match fs.node? names with
    | some (.file bytes) =>
      match String.fromUTF8? bytes with
      | some text => return text
      | none => throw .notUnicode
    | some .directory => throw .isDirectory
    | none => if names.isEmpty then throw .isDirectory else throw .notFound

/-- The tree with a node at a path. -/
def add (fs : FileSystem) (path : String) (node : Node) : FileSystem :=
  ⟨fs.nodes ++ [(Path.names path, node)]⟩

end FileSystem

/-! ## Documents of the known formats -/

/-- The value that a text in a format stands for. -/
def Format.parse : Format → String → Except Malformed Value
  | .toml, text =>
    match Toml.event? text with
    | some event => event.read.mapError .value
    | none => .error .grammar
  | .yaml, text => Yaml.read text

/-- The source that reads files of a tree in the known formats. -/
def FileSystem.source (fs : FileSystem) : Source where
  read := fs.read
  parse := Format.parse

end TypedConfig
