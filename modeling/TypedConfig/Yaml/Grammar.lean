import TypedConfig.Yaml.Token

/-!
# The document that tokens make up

What may come next is a stack of expectations. A token is taken by the topmost expectation, which others may
replace; an expectation that can do without the token gives it on to the one below.
-/
namespace TypedConfig.Yaml

/-!
## Documents as parts in order

A document is a list of scalars, aliases, and starts and ends of collections. Anchors are numbered: the
number of an anchor is how many other names have been used before it, and an alias stands for the last part
in the document whose anchor has the number that the name has where the alias stands.
-/

/-- What a tag says about a scalar. -/
inductive Tag where
  /-- A tag that belongs to the application. -/
  | own
  | null
  | boolean
  | integer
  | float
  /-- A tag under which a scalar is a string. -/
  | other
deriving DecidableEq, Repr

/-- What a tag in full says. -/
def Tag.ofText (text : String) : Tag :=
  match text with
  | "tag:yaml.org,2002:null" => .null
  | "tag:yaml.org,2002:bool" => .boolean
  | "tag:yaml.org,2002:int" => .integer
  | "tag:yaml.org,2002:float" => .float
  | _ => if text.startsWith "!" then .own else .other

/-- A part of a document. Tags of collections say nothing about them. -/
inductive Part where
  | alias (number : Nat)
  | scalar (tag : Option Tag) (isPlain : Bool) (text : String)
  | sequenceStart
  | sequenceEnd
  | mappingStart
  | mappingEnd
deriving DecidableEq, Repr

/-- The part of a scalar that the text leaves out. -/
def Part.empty : Part := .scalar none true ""

/-- A document as far as it was read. -/
structure Document where
  /-- The parts, the latest first. -/
  parts : List Part
  /-- The number that each name of an anchor has. -/
  numbers : List (String × Nat)
  /-- Where the parts are that anchors of a number stand before, the latest first. -/
  places : List (Nat × Nat)

namespace Document

def empty : Document := ⟨[], [], []⟩

def add (d : Document) (part : Part) : Document := { d with parts := part :: d.parts }

/-- Gives the next part an anchor. -/
def anchor (d : Document) (name : String) : Document :=
  let number := d.numbers.length
  { d with
    numbers := (name, number) :: d.numbers.filter (·.1 != name)
    places := (number, d.parts.length) :: d.places }

/-- Adds an alias, whose name must be that of an anchor. -/
def alias? (d : Document) (name : String) : Option Document :=
  (d.numbers.lookup name).map fun number => d.add (.alias number)

/-- Where the part is that an alias stands for. -/
def place? (d : Document) (number : Nat) : Option Nat := d.places.lookup number

end Document

/-! ## Expectations -/

/-- A place for a node. -/
inductive Place where
  /-- The whole document, when nothing but the node can follow. -/
  | root
  /-- The whole document, after the mark before it. -/
  | document
  | blockItem
  /-- An element of a sequence that stands no deeper than the key it belongs to. -/
  | flatItem
  | blockKey
  | blockValue
  | flowItem
  | flowKey
  /-- A key between brackets that nothing announces. -/
  | flowBareKey
  | flowValue
  /-- The key of a pair that is itself an element of a sequence. -/
  | pairKey
  | pairValue
deriving DecidableEq, Repr

namespace Place

def inBlock : Place → Bool
  | .root | .document | .blockItem | .flatItem | .blockKey | .blockValue => true
  | .flowItem | .flowKey | .flowBareKey | .flowValue | .pairKey | .pairValue => false

/-- Whether a sequence may stand here without being deeper than what is around it. -/
def takesFlatSequence : Place → Bool
  | .blockKey | .blockValue => true
  | _ => false

/-- Whether a token tells that the node is left out. -/
def isLeftOutBefore : Place → Token → Bool
  | .document, .version _ _ => true
  | .document, .handle _ _ => true
  | .document, .documentStart => true
  | .document, .documentEnd => true
  | .document, .textEnd => true
  | .blockItem, .item => true
  | .blockItem, .blockEnd => true
  | .flatItem, .item => true
  | .flatItem, .key => true
  | .flatItem, .value => true
  | .flatItem, .blockEnd => true
  | .blockKey, .key => true
  | .blockKey, .value => true
  | .blockKey, .blockEnd => true
  | .blockValue, .key => true
  | .blockValue, .value => true
  | .blockValue, .blockEnd => true
  | .flowKey, .value => true
  | .flowKey, .comma => true
  | .flowKey, .flowMappingEnd => true
  | .flowValue, .comma => true
  | .flowValue, .flowMappingEnd => true
  | .pairKey, .value => true
  | .pairKey, .comma => true
  | .pairKey, .flowSequenceEnd => true
  | .pairValue, .comma => true
  | .pairValue, .flowSequenceEnd => true
  | _, _ => false

end Place

/-- What stands before a node. -/
structure Properties where
  anchor : Option String
  /-- The handle of a tag and the rest of it. -/
  tag : Option (String × String)

/-- What may come next. -/
inductive Expected where
  /-- A document, with or without a mark before it. -/
  | anyDocument
  /-- The mark before a document whose directives have begun. -/
  | markedDocument (hasVersion : Bool)
  | documentEnd
  /-- The end of the text; only marks after the document may come before it. -/
  | textEnd
  | node (place : Place)
  /-- A node of which properties have been read. -/
  | content (place : Place) (properties : Properties)
  | blockItems
  | flatItems
  | blockKey
  | blockValue
  /-- The elements of a sequence between brackets. A comma stands before all but the first. -/
  | flowItems (needsComma : Bool)
  | pairValue
  | pairEnd
  | flowKeys (needsComma : Bool)
  | flowValue
  /-- The value of a key that nothing announces, which is left out. -/
  | noValue

/-- A document in the making. -/
structure Assembly where
  document : Document
  /-- What the handles of tags stand for. -/
  handles : List (String × String)
  expected : List Expected

namespace Assembly

def start : Assembly := ⟨.empty, [], [.anyDocument]⟩

/-- The same with other expectations on top of those below the topmost. -/
def expecting (a : Assembly) (expected : List Expected) : Assembly := { a with expected := expected }

def add (a : Assembly) (part : Part) : Assembly := { a with document := a.document.add part }

/-- What a handle stands for: what a directive says, or else what is agreed on. -/
def expansion? (a : Assembly) (handle : String) : Option String :=
  match a.handles.lookup handle with
  | some text => some text
  | none => if handle = "!" then some "!" else if handle = "!!" then some "tag:yaml.org,2002:" else none

/-- A tag in full. -/
def fullTag? (a : Assembly) : Option (String × String) → Option (Option String)
  | none => some none
  | some (handle, rest) =>
    if handle.isEmpty then some (some rest) else (a.expansion? handle).map fun text => some (text ++ rest)

/-- Adds a part with the properties that stand before it. -/
def addNode? (a : Assembly) (properties : Properties) (part : Option Tag → Part) : Option Assembly := do
  let tag ← a.fullTag? properties.tag
  let a := match properties.anchor with
    | some name => { a with document := a.document.anchor name }
    | none => a
  return a.add (part (tag.map Tag.ofText))

/-- Adds a scalar with the properties that stand before it. The shortest tag of all says nothing about it but
    that it is resolved as a plain one. -/
def addScalar? (a : Assembly) (properties : Properties) (isPlain : Bool) (text : String) : Option Assembly := do
  let tag ← a.fullTag? properties.tag
  if tag = some "!" then a.addNode? { properties with tag := none } fun _ => .scalar none isPlain text
  else a.addNode? properties fun tag => .scalar tag isPlain text

/-- What becomes of a token. -/
inductive Outcome where
  | taken (a : Assembly)
  /-- The expectations were changed, and the token is still to be taken. -/
  | passed (a : Assembly)
  | refused

def Outcome.ofTaken : Option Assembly → Outcome
  | some a => .taken a
  | none => .refused

/-- Takes the token that starts a node or is a scalar. `below` are the expectations below that of the node. A
    token that is none of these leaves a node with properties empty, and is refused otherwise. -/
def content (a : Assembly) (place : Place) (properties : Properties) (below : List Expected) (token : Token) :
    Outcome :=
  let start (part : Part) (inside : Expected) : Outcome :=
    .ofTaken ((a.expecting (inside :: below)).addNode? properties fun _ => part)
  match token, place.inBlock with
  | .scalar isPlain text, _ => .ofTaken ((a.expecting below).addScalar? properties isPlain text)
  | .flowSequence, _ => start .sequenceStart (.flowItems false)
  | .flowMapping, _ => start .mappingStart (.flowKeys false)
  | .blockSequence, true => start .sequenceStart .blockItems
  | .blockMapping, true => start .mappingStart .blockKey
  | _, _ =>
    if properties.anchor.isNone ∧ properties.tag.isNone then .refused
    else match (a.expecting below).addNode? properties fun tag => .scalar tag true "" with
      | some a => .passed a
      | none => .refused

/-- Takes a token of a node. -/
def node (a : Assembly) (place : Place) (properties : Properties) (below : List Expected) (token : Token) :
    Outcome :=
  match token, properties.anchor, properties.tag with
  | .anchor name, none, _ => .taken (a.expecting (.content place { properties with anchor := name } :: below))
  | .tag handle rest, _, none =>
    .taken (a.expecting (.content place { properties with tag := (handle, rest) } :: below))
  | .item, _, _ =>
    if place.takesFlatSequence then
      match (a.expecting (.flatItems :: below)).addNode? properties fun _ => .sequenceStart with
      | some a => .passed a
      | none => .refused
    else a.content place properties below token
  | _, _, _ => a.content place properties below token

/-- Takes a token where a node may start. -/
def nodeStart (a : Assembly) (place : Place) (below : List Expected) (token : Token) : Outcome :=
  if place.isLeftOutBefore token then
    let a := (a.expecting below).add .empty
    if place = .pairKey then .taken a else .passed a
  else
    match token with
    | .alias name =>
      match a.document.alias? name with
      | some d => .taken { a with document := d, expected := below }
      | none => .refused
    | _ => a.node place ⟨none, none⟩ below token

/-- Takes a token of the directives and marks before a document. -/
def beforeDocument (a : Assembly) (hasVersion : Bool) (below : List Expected) (token : Token) : Outcome :=
  match token with
  | .version major minor =>
    if hasVersion ∨ major ≠ 1 ∨ (minor ≠ 1 ∧ minor ≠ 2) then .refused
    else .taken (a.expecting (.markedDocument true :: below))
  | .handle name expansion =>
    if (a.handles.lookup name).isSome then .refused
    else .taken { a with
      handles := (name, expansion) :: a.handles
      expected := .markedDocument hasVersion :: below }
  | .documentStart => .taken (a.expecting (.node .document :: .documentEnd :: below))
  | _ => .refused

/-- Takes an element of a sequence between brackets, or the end of the sequence. -/
def flowItem (a : Assembly) (below : List Expected) (token : Token) : Outcome :=
  match token with
  | .flowSequenceEnd => .taken ((a.expecting below).add .sequenceEnd)
  | .key =>
    .taken ((a.expecting (.node .pairKey :: .pairValue :: .flowItems true :: below)).add .mappingStart)
  | _ => .passed (a.expecting (.node .flowItem :: .flowItems true :: below))

/-- Takes a key of a mapping between brackets, or the end of the mapping. -/
def flowKey (a : Assembly) (below : List Expected) (token : Token) : Outcome :=
  match token with
  | .flowMappingEnd => .taken ((a.expecting below).add .mappingEnd)
  | .key => .taken (a.expecting (.node .flowKey :: .flowValue :: .flowKeys true :: below))
  | _ => .passed (a.expecting (.node .flowBareKey :: .noValue :: .flowKeys true :: below))

/-- Lets the topmost expectation take a token. -/
def step (a : Assembly) (token : Token) : Outcome :=
  match a.expected with
  | [] => .refused
  | .anyDocument :: below =>
    match token with
    | .version _ _ | .handle _ _ | .documentStart => a.beforeDocument false below token
    | .textEnd => .taken (a.expecting below)
    | _ => .passed (a.expecting (.node .root :: .documentEnd :: below))
  | .markedDocument hasVersion :: below => a.beforeDocument hasVersion below token
  | .documentEnd :: below =>
    match token with
    | .documentEnd => .taken (a.expecting (.textEnd :: below))
    | _ => .passed (a.expecting (.textEnd :: below))
  | .textEnd :: below =>
    match token with
    | .documentEnd => .taken a
    | .textEnd => .taken (a.expecting below)
    | _ => .refused
  | .node place :: below => a.nodeStart place below token
  | .content place properties :: below => a.node place properties below token
  | .blockItems :: below =>
    match token with
    | .item => .taken (a.expecting (.node .blockItem :: a.expected))
    | .blockEnd => .taken ((a.expecting below).add .sequenceEnd)
    | _ => .refused
  | .flatItems :: below =>
    match token with
    | .item => .taken (a.expecting (.node .flatItem :: a.expected))
    | _ => .passed ((a.expecting below).add .sequenceEnd)
  | .blockKey :: below =>
    match token with
    | .key => .taken (a.expecting (.node .blockKey :: .blockValue :: below))
    | .blockEnd => .taken ((a.expecting below).add .mappingEnd)
    | _ => .refused
  | .blockValue :: below =>
    match token with
    | .value => .taken (a.expecting (.node .blockValue :: .blockKey :: below))
    | _ => .passed ((a.expecting (.blockKey :: below)).add .empty)
  | .flowItems false :: below => a.flowItem below token
  | .flowItems true :: below =>
    match token with
    | .comma => .taken (a.expecting (.flowItems false :: below))
    | .flowSequenceEnd => a.flowItem below token
    | _ => .refused
  | .pairValue :: below =>
    match token with
    | .value => .taken (a.expecting (.node .pairValue :: .pairEnd :: below))
    | _ => .passed ((a.expecting (.pairEnd :: below)).add .empty)
  | .pairEnd :: below => .passed ((a.expecting below).add .mappingEnd)
  | .flowKeys false :: below => a.flowKey below token
  | .flowKeys true :: below =>
    match token with
    | .comma => .taken (a.expecting (.flowKeys false :: below))
    | .flowMappingEnd => a.flowKey below token
    | _ => .refused
  | .flowValue :: below =>
    match token with
    | .value => .taken (a.expecting (.node .flowValue :: below))
    | _ => .passed ((a.expecting below).add .empty)
  | .noValue :: below => .passed ((a.expecting below).add .empty)

/-- Lets the expectations take a token one after the other. Each passes a token on at most twice, so `fuel` need
    be no more than twice their number and a little. -/
def feed : Nat → Assembly → Token → Option Assembly
  | 0, _, _ => none
  | fuel + 1, a, token =>
    match a.step token with
    | .taken a => some a
    | .passed a => feed fuel a token
    | .refused => none

/-- Reads tokens up to the first that is refused, and tells whether there is none. -/
def read (a : Assembly) : List Token → Assembly × Bool
  | [] => (a, true)
  | token :: tokens =>
    match a.feed (2 * a.expected.length + 4) token with
    | some a => read a tokens
    | none => (a, false)

end Assembly

/-- The document that tokens make up, as far as they do, and whether they make up no less and no more. -/
def documentOf (tokens : List Token) (complete : Bool) : Document × Bool :=
  let (a, accepted) := Assembly.start.read tokens
  (a.document, complete && accepted && a.expected.isEmpty)

end TypedConfig.Yaml
