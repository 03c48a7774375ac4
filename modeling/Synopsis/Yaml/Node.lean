import Synopsis.Yaml.Scalar
import Synopsis.Yaml.Token

/-!
# Nodes of a YAML file

A file holds one node at most: a scalar with its type, a sequence, or a mapping. The nodes are numbered, and
a collection names its parts by their numbers, so that an alias is one more name for the node of its anchor.
A collection may so stand inside itself.
-/

namespace Synopsis

namespace Yaml

inductive Content where
  | scalar (c : Codes)
  | sequence (items : List Nat)
  | mapping (entries : List (Nat × Nat))
  deriving DecidableEq, Repr

structure Node where
  tag : Tag
  content : Content
  deriving DecidableEq, Repr

def Node.empty : Node := ⟨.null, .scalar []⟩

structure Graph where
  nodes : Array Node
  root : Nat
  deriving DecidableEq

namespace Node

/-- The tokens to read and the reason why there are no more, the anchors and the handles of tags so far, the
nodes, and how many collections are open. -/
structure Stream where
  tokens : List Token
  stop : Option Defect
  anchors : List (Text × Nat)
  handles : List (Text × Text)
  nodes : Array Node
  depth : Nat

abbrev Builder := StateT Stream (Except Defect)

/-- Nodes may stand inside each other so many times. -/
def maxDepth : Nat := 490

def standardHandles : List (Text × Text) :=
  [(['!'], ['!']), (['!', '!'], Tag.lead)]

namespace Builder

def malformed {α : Type} : Builder α :=
  throw .malformed

def require (p : Bool) : Builder Unit :=
  if p then pure () else malformed

def peek : Builder Token := do
  let s ← get
  match s.tokens with
  | t :: _ => return t
  | [] => throw (s.stop.getD .malformed)

def skip : Builder Unit :=
  modify fun s => { s with tokens := s.tokens.tail }

def expect (t : Token) : Builder Unit := do
  require ((← peek) == t)
  skip

def push (n : Node) : Builder Nat := do
  let s ← get
  set { s with nodes := s.nodes.push n }
  return s.nodes.size

def setContent (id : Nat) (c : Content) : Builder Unit :=
  modify fun s => { s with nodes := s.nodes.modify id fun n => { n with content := c } }

def empty : Builder Nat :=
  push .empty

def anchored (name : Text) : Builder Nat := do
  match (← get).anchors.find? fun a => a.1 == name with
  | some (_, id) => return id
  | none => malformed

/-- A name can be given to one node only. -/
def checkAnchor : Option Text → Builder Unit
  | none => pure ()
  | some name => do require (!(← get).anchors.any fun a => a.1 == name)

def setAnchor (id : Nat) : Option Text → Builder Unit
  | none => pure ()
  | some name => modify fun s => { s with anchors := (name, id) :: s.anchors }

def anchor? : Builder (Option Text) := do
  match ← peek with
  | .anchor name =>
    skip
    return some name
  | _ => return none

def tag? : Builder (Option (Option Text × Text)) := do
  match ← peek with
  | .tag handle suffix =>
    skip
    return some (handle, suffix)
  | _ => return none

def marks : Builder (Option Text × Option (Option Text × Text)) := do
  match ← anchor? with
  | some a => return (some a, ← tag?)
  | none =>
    match ← tag? with
    | some t => return (← anchor?, some t)
    | none => return (none, none)

/-- A tag in full; its handle must be known. -/
def tagText : Option (Option Text × Text) → Builder (Option Text)
  | none => return none
  | some (none, suffix) => return some suffix
  | some (some handle, suffix) => do
    match (← get).handles.find? fun p => p.1 == handle with
    | some (_, lead) => return some (lead ++ suffix)
    | none => malformed

def properties : Builder (Option Text × Option Text) := do
  let (anchor, tag) ← marks
  return (anchor, ← tagText tag)

/-- A tag of one mark leaves the type to the text. -/
def isImplicit (tag : Option Text) : Bool :=
  tag == none || tag == some ['!']

def tagOf (tag : Option Text) (usual : Tag) : Tag :=
  match tag with
  | none => usual
  | some t => if isImplicit (some t) then usual else .ofName t

/-- The type of a scalar; one in quotes is a text. -/
def scalarTag (tag : Option Text) (plain : Bool) (c : Codes) : Tag :=
  tagOf tag (if plain || tag.isSome then .ofPlain (c.map Codes.charOf) else .text)

def scalar (anchor tag : Option Text) (plain : Bool) (c : Codes) : Builder Nat := do
  checkAnchor anchor
  let id ← push ⟨scalarTag tag plain c, .scalar c⟩
  setAnchor id anchor
  return id

def nested {α : Type} (read : Builder α) : Builder α := do
  let depth := (← get).depth
  if maxDepth ≤ depth + 1 then throw (.breakdown .tooDeep)
  modify fun s => { s with depth := depth + 1 }
  let a ← read
  modify fun s => { s with depth := depth }
  return a

/-- A collection has its name before its parts are read. -/
def collection (anchor tag : Option Text) (usual : Tag) (read : Builder Content) : Builder Nat := do
  checkAnchor anchor
  let id ← push ⟨tagOf tag usual, .sequence []⟩
  setAnchor id anchor
  setContent id (← nested read)
  return id

def endsEntry (t : Token) : Bool :=
  t == .key || t == .value || t == .blockEnd

mutual

/-- A node; `block` admits collections laid out by indentation, `indentless` a sequence in the column of its
key. -/
def node : (fuel : Nat) → (block indentless : Bool) → Builder Nat
  | 0, _, _ => malformed
  | fuel + 1, block, indentless => do
    match ← peek with
    | .alias name =>
      skip
      anchored name
    | _ =>
      let (anchor, tag) ← properties
      match ← peek, block, indentless with
      | .blockEntry, _, true => collection anchor tag .sequence (.sequence <$> indentlessItems fuel)
      | .scalar plain c, _, _ =>
        skip
        scalar anchor tag plain c
      | .flowSequenceStart, _, _ =>
        collection anchor tag .sequence (do skip; return .sequence (← flowItems fuel true))
      | .flowMappingStart, _, _ =>
        collection anchor tag .mapping (do skip; return .mapping (← flowEntries fuel true))
      | .blockSequenceStart, true, _ =>
        collection anchor tag .sequence (do skip; return .sequence (← blockItems fuel))
      | .blockMappingStart, true, _ =>
        collection anchor tag .mapping (do skip; return .mapping (← blockEntries fuel))
      | _, _, _ => if anchor.isSome || tag.isSome then scalar anchor tag true [] else malformed

def blockItems : (fuel : Nat) → Builder (List Nat)
  | 0 => malformed
  | fuel + 1 => do
    match ← peek with
    | .blockEntry =>
      skip
      let t ← peek
      let n ← if t == .blockEntry || t == .blockEnd then empty else node fuel true false
      return n :: (← blockItems fuel)
    | _ =>
      expect .blockEnd
      return []

def indentlessItems : (fuel : Nat) → Builder (List Nat)
  | 0 => malformed
  | fuel + 1 => do
    match ← peek with
    | .blockEntry =>
      skip
      let t ← peek
      let n ← if t == .blockEntry || endsEntry t then empty else node fuel true false
      return n :: (← indentlessItems fuel)
    | _ => return []

def blockEntries : (fuel : Nat) → Builder (List (Nat × Nat))
  | 0 => malformed
  | fuel + 1 => do
    match ← peek with
    | .key =>
      skip
      let k ← if endsEntry (← peek) then empty else node fuel true true
      let v ← blockValue fuel
      return (k, v) :: (← blockEntries fuel)
    | _ =>
      expect .blockEnd
      return []

def blockValue : (fuel : Nat) → Builder Nat
  | 0 => malformed
  | fuel + 1 => do
    match ← peek with
    | .value =>
      skip
      if endsEntry (← peek) then empty else node fuel true true
    | _ => empty

def flowItems : (fuel : Nat) → (first : Bool) → Builder (List Nat)
  | 0, _ => malformed
  | fuel + 1, first => do
    if (← peek) == .flowSequenceEnd then
      skip
      return []
    if !first then expect .flowEntry
    match ← peek with
    | .flowSequenceEnd =>
      skip
      return []
    | .key =>
      let n ← collection none none .mapping (do
        skip
        let t ← peek
        let k ← if t == .value || t == .flowEntry || t == .flowSequenceEnd then empty else node fuel false false
        return .mapping [(k, ← flowValue fuel .flowSequenceEnd)])
      return n :: (← flowItems fuel false)
    | _ =>
      let n ← node fuel false false
      return n :: (← flowItems fuel false)

def flowEntries : (fuel : Nat) → (first : Bool) → Builder (List (Nat × Nat))
  | 0, _ => malformed
  | fuel + 1, first => do
    if (← peek) == .flowMappingEnd then
      skip
      return []
    if !first then expect .flowEntry
    match ← peek with
    | .flowMappingEnd =>
      skip
      return []
    | .key =>
      skip
      let t ← peek
      let k ← if t == .value || t == .flowEntry || t == .flowMappingEnd then empty else node fuel false false
      let v ← flowValue fuel .flowMappingEnd
      return (k, v) :: (← flowEntries fuel false)
    | _ =>
      let k ← node fuel false false
      return (k, ← empty) :: (← flowEntries fuel false)

def flowValue : (fuel : Nat) → (closing : Token) → Builder Nat
  | 0, _ => malformed
  | fuel + 1, closing => do
    match ← peek with
    | .value =>
      skip
      let t ← peek
      if t == .flowEntry || t == closing then empty else node fuel false false
    | _ => empty

end

/-- Reads the directives of a document; each may be given once, and the major version is one. -/
def directives (versioned : Bool) (given : List (Text × Text)) : (fuel : Nat) → Builder Unit
  | 0 => malformed
  | fuel + 1 => do
    match ← peek with
    | .directive d =>
      skip
      match d with
      | .version major _ =>
        require (!versioned && major == 1)
        directives true given fuel
      | .tag handle lead =>
        require (!given.any fun p => p.1 == handle)
        directives versioned ((handle, lead) :: given) fuel
      | .unknown => directives versioned given fuel
    | _ => modify fun s => { s with handles := given ++ standardHandles }

def explicitDocument (fuel : Nat) : Builder Nat := do
  directives false [] fuel
  expect .documentStart
  match ← peek with
  | .directive _ | .documentStart | .documentEnd | .streamEnd => empty
  | _ => node fuel true false

def document (fuel : Nat) : Builder (Option Nat) := do
  match ← peek with
  | .streamEnd => return none
  | .directive _ | .documentStart => return some (← explicitDocument fuel)
  | _ => return some (← node fuel true false)

def skipDocumentEnds : (fuel : Nat) → Builder Unit
  | 0 => malformed
  | fuel + 1 => do
    match ← peek with
    | .documentEnd =>
      skip
      skipDocumentEnds fuel
    | _ => pure ()

def single (fuel : Nat) : Builder (Option Nat) := do
  let root ← document fuel
  skipDocumentEnds fuel
  match ← peek with
  | .streamEnd => return root
  | _ =>
    directives false [] fuel
    malformed

end Builder

end Node

/-- The nodes of a file, if it holds any; every token takes part in a bounded number of steps. -/
def Graph.ofTokens (tokens : List Token) (stop : Option Defect) : Except Defect (Option Graph) := do
  let (root, s) ← (Node.Builder.single (4 * tokens.length + 4)).run
    ⟨tokens, stop, [], Node.standardHandles, #[], 0⟩
  return root.map fun id => ⟨s.nodes, id⟩

end Yaml

end Synopsis
