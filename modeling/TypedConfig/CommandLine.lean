import TypedConfig.Loading.Loader

/-!
# The command line

`--config FILE` may be given several times and must be given once, `--variant` must be given once,
`--separator` may be given once. A value follows its option as the next argument or after an equals sign.
An option takes effect when the next one begins or the arguments end, so a fault in an unknown argument
is told before one in the option that stands in front of it.
-/
namespace TypedConfig.CommandLine

/-- What the arguments say. -/
structure Arguments where
  files : List String
  variant : String
  separator : Option String

namespace Arguments

/-- The loader that arguments describe. -/
def loader (a : Arguments) : Loader :=
  let l := (Loader.empty.addFiles a.files).setVariant a.variant
  match a.separator with
  | some separator => l.setSeparator separator
  | none => l

end Arguments

/-- Why arguments are not accepted. -/
inductive Refusal where
  | missingRequired
  /-- An option has no value, or a value that it does not take. -/
  | invalidValue
  /-- An option was given again that may be given once. -/
  | repeated
  | unknown
  /-- A value was given to an option that takes none. -/
  | unneededValue
  /-- The arguments ask for help. -/
  | help
deriving DecidableEq, Repr

/-- The options that take a value. -/
inductive OptionName where
  | config
  | variant
  | separator
deriving DecidableEq, Repr

/-- An option by its name after two dashes. -/
def OptionName.find? (name : String) : Option OptionName :=
  match name with
  | "config" => some .config
  | "variant" => some .variant
  | "separator" => some .separator
  | _ => none

/-- What was understood so far. -/
structure State where
  files : List String
  variant : Option String
  separator : Option String
  /-- The option given last, and its value, if it has one. -/
  pending : Option (OptionName × Option String)
  /-- Two dashes were given alone: no options follow. -/
  closed : Bool

namespace State

def start : State := ⟨[], none, none, none, false⟩

/-- The state with an option's value in effect. -/
def store (s : State) (name : OptionName) (value : String) : Except Refusal State :=
  match name with
  | .config => if value.isEmpty then .error .invalidValue else .ok { s with files := s.files ++ [value] }
  | .variant => if s.variant.isSome then .error .repeated else .ok { s with variant := some value }
  | .separator => if s.separator.isSome then .error .repeated else .ok { s with separator := some value }

/-- The state with the option given last in effect. -/
def settle (s : State) : Except Refusal State :=
  match s.pending with
  | none => .ok s
  | some (_, none) => .error .invalidValue
  | some (name, some value) => { s with pending := none }.store name value

/-- The state after an argument that begins with two dashes, given without them. -/
def longOption (s : State) (text : String) : Except Refusal State :=
  let cs := text.toList
  let name := String.ofList (cs.takeWhile (· != '='))
  let value := match cs.dropWhile (· != '=') with
    | [] => none
    | _ :: rest => some (String.ofList rest)
  match OptionName.find? name, value with
  | some name, none => do return { ← s.settle with pending := some (name, none) }
  | some name, some value => do (← s.settle).store name value
  | none, value =>
    if name == "help" then
      if value.isSome then .error .unneededValue else s.settle >>= fun _ => .error .help
    else .error .unknown

/-- The state after one more argument. -/
def take (s : State) (argument : String) : Except Refusal State :=
  if s.closed then .error .unknown
  else
    match argument.toList with
    | ['-', '-'] => .ok { s with closed := true }
    | '-' :: '-' :: rest => s.longOption (String.ofList rest)
    | '-' :: 'h' :: _ => s.settle >>= fun _ => .error .help
    | '-' :: _ :: _ => .error .unknown
    | _ =>
      match s.pending with
      | some (name, none) => .ok { s with pending := some (name, some argument) }
      | _ => .error .unknown

/-- What a state says after the last argument. -/
def finish (s : State) : Except Refusal Arguments := do
  let s ← s.settle
  match s.files, s.variant with
  | _ :: _, some variant => return ⟨s.files, variant, s.separator⟩
  | _, _ => throw .missingRequired

end State

/-- Reads the arguments that follow the program's name. -/
def read (arguments : List String) : Except Refusal Arguments := do
  (← arguments.foldlM State.take .start).finish

end TypedConfig.CommandLine
