import TypedConfig.Conformance
import TypedConfig.Decoding

/-!
# Failures

Everything that can stop the loading or the reading of a configuration, with its message, and for some
failures a code and a piece of advice.
-/
namespace TypedConfig.Path

/-!
## Paths

A path is a text of names between slashes. Empty names and single dots between slashes stand for
nothing.
-/

/-- The names of a path, without those that stand for nothing. -/
def names (path : String) : List String :=
  (path.splitOn "/").filter fun name => !name.isEmpty && name != "."

/-- The last name of a path, unless it steps to the parent directory. -/
def fileName? (path : String) : Option String :=
  match (names path).getLast? with
  | some ".." => none
  | last => last

/-- What follows the last dot of a file's name, unless the name has no other dot or letter before it. -/
def extension? (path : String) : Option String :=
  (fileName? path).bind fun name =>
    let cs := name.toList.reverse
    let after := cs.takeWhile (· != '.')
    match cs.drop after.length with
    | _ :: _ :: _ => some (String.ofList after.reverse)
    | _ => none

end TypedConfig.Path

/-! ## File formats -/

namespace TypedConfig

/-- The formats in which configuration files are written. -/
inductive Format where
  | toml
  | yaml
deriving DecidableEq, Repr

namespace Format

/-- What stands between a slot's name and a label. A dot in a TOML header nests tables, so TOML files
    join the two with an underscore. -/
def defaultSeparator : Format → String
  | .toml => "_"
  | .yaml => "."

/-- The format that a file's extension tells. -/
def ofPath? (path : String) : Option Format :=
  match Path.extension? path with
  | some "toml" => some .toml
  | some "yaml" => some .yaml
  | some "yml" => some .yaml
  | _ => none

end Format

/-! ## Failures -/

/-- Why a file cannot be read as text. -/
inductive UnreadableFile where
  | notFound
  | isDirectory
  /-- Something on the way to the file is a file itself. -/
  | notDirectory
  /-- A name on the path or the path itself is too long. -/
  | nameTooLong
  /-- The path has a NUL in it. -/
  | nulInPath
  | notUnicode
deriving DecidableEq, Repr

def UnreadableFile.message : UnreadableFile → String
  | .notFound => "No such file or directory (os error 2)"
  | .isDirectory => "Is a directory (os error 21)"
  | .notDirectory => "Not a directory (os error 20)"
  | .nameTooLong => "File name too long (os error 36)"
  | .nulInPath => "file name contained an unexpected NUL byte"
  | .notUnicode => "stream did not contain valid UTF-8"

/-- Why a text is no document of its format. -/
inductive Malformed where
  /-- The text breaks the rules of the format. -/
  | grammar
  /-- The text is a document, but stands for no value. -/
  | value (fault : ReadFault)
deriving DecidableEq, Repr

/-- An integer that has too large a value is named; other faults are told by the format alone. -/
def Malformed.detail? : Malformed → Option String
  | .value (.outOfRange n) => some (ReadFault.outOfRange n).message
  | _ => none

/-- What stopped the loading or the reading of a configuration. -/
inductive Failure where
  | invalid (violations : List Violation)
  | alreadyInitialized
  | notInitialized
  | unknownSection (id : String)
  | unknownKey (sectionName id : String)
  | missingEntry (entry : String)
  | invalidValue (subject : String) (fault : Decoding.Fault)
  | malformed (format : Format) (path : String) (reason : Malformed)
  | unreadable (path : String) (reason : UnreadableFile)
  | unsupportedFormat (path : String)
  | variantRequired

namespace Failure

/-- The message of a failure. That of a malformed document ends before the account of the fault. -/
def message : Failure → String
  | .invalid violations => "Configuration is not valid\n" ++ Violation.report violations
  | .alreadyInitialized => "Config is already initialized"
  | .notInitialized => "Config is not initialized"
  | .unknownSection id => "Unknown section '" ++ id ++ "'"
  | .unknownKey sectionName id => "Unknown key '" ++ id ++ "' in section '" ++ sectionName ++ "'"
  | .missingEntry entry => "Missing entry: " ++ entry
  | .invalidValue subject fault => "Invalid value for '" ++ subject ++ "': " ++ fault.message
  | .malformed _ path _ => "Failed to parse " ++ path ++ ": "
  | .unreadable path reason => "Failed to read " ++ path ++ ": " ++ reason.message
  | .unsupportedFormat path => "Cannot tell the format of " ++ path ++ "; call .format() on the builder"
  | .variantRequired => "Variant is required; call .variant() on the builder"

/-- The code under which a failure is looked up. -/
def code? : Failure → Option String
  | .invalid _ => some "strictconf::invalid"
  | .alreadyInitialized => some "strictconf::already_initialized"
  | .notInitialized => some "strictconf::not_initialized"
  | _ => none

/-- Advice on a failure. -/
def help? : Failure → Option String
  | .invalid _ => some "every problem found is listed above"
  | .variantRequired => some "the variant selects which compose table is used"
  | _ => none

/-- What a failure adds to its message. -/
def detail? : Failure → Option String
  | .malformed _ _ reason => reason.detail?
  | _ => none

end Failure

/-!
## Traced runs

A run tells what it has done as a list of notes, and ends in a result or a failure. The notes made
before a failure are kept.
-/

/-- One thing that a run has done. -/
inductive Note where
  /-- A file was read. -/
  | fileRead (path : String) (bytes : Nat)
  /-- All files were read as documents and merged. -/
  | filesMerged (files : Nat)
  /-- A document was checked for a variant. -/
  | validated (variant : String) (violations : Nat)
  /-- A configuration was bound. -/
  | bound (sections : Nat)
deriving DecidableEq, Repr

/-- The notes of a run, and how it ended. -/
structure Traced (α : Type) where
  notes : List Note
  result : Except Failure α

namespace Traced
variable {α β : Type}

instance : Monad Traced where
  pure a := ⟨[], .ok a⟩
  bind run next :=
    match run.result with
    | .ok a => ⟨run.notes ++ (next a).notes, (next a).result⟩
    | .error failure => ⟨run.notes, .error failure⟩

/-- A run that fails at once. -/
def fail (failure : Failure) : Traced α := ⟨[], .error failure⟩

/-- A run that makes one note. -/
def note (n : Note) : Traced Unit := ⟨[n], .ok ()⟩

/-- A run without notes. -/
def lift (result : Except Failure α) : Traced α := ⟨[], result⟩

end Traced

end TypedConfig
