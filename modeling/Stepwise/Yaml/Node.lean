/-
# YAML documents

The tokens of a text form a document: a tree of scalars, sequences and mappings. A node may
have an anchor, and an alias stands for the node with its anchor.

* `Node`, `Document` : the tree, and the nodes that aliases stand for;
* `Document.ofText?` : the one document of a text.
-/
import Stepwise.Yaml.Token

namespace Stepwise.Yaml

/-- A node of a document. -/
inductive Node where
  | scalar (tag : Option String) (style : Style) (text : String)
  | sequence (tag : Option String) (items : List Node)
  | mapping (tag : Option String) (pairs : List (Node × Node))
  /-- The node with the n-th anchor. -/
  | alias (n : Nat)

instance : Inhabited Node := ⟨.scalar none .plain ""⟩

/-- A document. -/
structure Document where
  /-- The tree; none in a text without any. -/
  root : Option Node
  /-- The nodes with anchors, by the numbers of the anchors. -/
  anchored : List (Nat × Node)
  /-- The number of scalars, aliases, and starts and ends of collections. -/
  size : Nat

namespace Document

/-- What is known in the middle of a document. -/
structure State where
  tokens : List Token
  /-- The namespaces that handles stand for. -/
  handles : List (String × String)
  /-- The number of the latest anchor with a name. -/
  anchors : List (String × Nat)
  /-- The number of anchors so far. -/
  count : Nat
  anchored : List (Nat × Node)
  size : Nat

/-- What puts nodes together. -/
abbrev Builder (α : Type) := StateT State Option α

/-- The next token. -/
def peek? : Builder (Option Token) := do return (← get).tokens.head?

/-- Passes over the next token. -/
def advance : Builder Unit := modify fun s => { s with tokens := s.tokens.drop 1 }

/-- Passes over a token if it comes next, and tells whether it did. -/
def take? (t : Token) : Builder Bool := do
  if (← peek?) = some t then
    advance
    pure true
  else pure false

/-- Passes over a token that has to come next. -/
def take (t : Token) : Builder Unit := do
  if ← take? t then pure () else failure

/-- One of several tokens comes next, or none at all. -/
def sees (ts : List Token) : Builder Bool := do
  return match ← peek? with
    | some t => ts.contains t
    | none => true

/-- Counts parts of the document. -/
def grow (n : Nat) : Builder Unit := modify fun s => { s with size := s.size + n }

/-- A scalar without text. -/
def emptyScalar : Builder Node := do
  grow 1
  pure (.scalar none .plain "")

/-- The full form of a tag. -/
def fullTag (handle suffix : String) : Builder String := do
  if handle.isEmpty then pure suffix
  else
    match (← get).handles.find? (·.1 == handle) with
    | some (_, text) => pure (text ++ suffix)
    | none => failure

/-- Reads an anchor and a tag in any order. -/
def properties : Builder (Option String × Option String) := do
  match ← peek? with
  | some (.anchor name) =>
    advance
    match ← peek? with
    | some (.tag handle suffix) =>
      advance
      return (some name, some (← fullTag handle suffix))
    | _ => return (some name, none)
  | some (.tag handle suffix) =>
    advance
    match ← peek? with
    | some (.anchor name) =>
      advance
      return (some name, some (← fullTag handle suffix))
    | _ => return (none, some (← fullTag handle suffix))
  | _ => return (none, none)

/-- The number of a new anchor, if there is one. -/
def declare (name : Option String) : Builder (Option Nat) := do
  match name with
  | none => pure none
  | some name =>
    let s ← get
    set { s with anchors := (name, s.count) :: s.anchors, count := s.count + 1 }
    pure (some s.count)

/-- Notes the node with an anchor. -/
def attach (n : Option Nat) (node : Node) : Builder Node := do
  match n with
  | some n => modify fun s => { s with anchored := (n, node) :: s.anchored }
  | none => pure ()
  pure node

/-- The ends of a pair within a flow sequence. -/
def pairEnds : List Token := [.flowEntry, .flowSequenceEnd]

/-- The ends of a pair within a flow mapping. -/
def memberEnds : List Token := [.flowEntry, .flowMappingEnd]

mutual
/-- Reads a node. A block collection may begin there if `block` holds, and a sequence without
indentation of its own if `flush` holds. -/
def node (block flush : Bool) : (fuel : Nat) → Builder Node
  | 0 => failure
  | fuel + 1 => do
    match ← peek? with
    | some (.alias name) =>
      advance
      grow 1
      match (← get).anchors.find? (·.1 == name) with
      | some (_, n) => pure (.alias n)
      | none => failure
    | _ =>
      let (anchor, tag) ← properties
      let n ← declare anchor
      let bare := anchor.isNone && tag.isNone
      attach n (← content block flush bare tag fuel)
/-- Reads a node after its anchor and tag; without these it must not be empty. -/
def content (block flush bare : Bool) (tag : Option String) : (fuel : Nat) → Builder Node
  | 0 => failure
  | fuel + 1 => do
    match ← peek? with
    | some .entry =>
      if flush then
        grow 2
        return .sequence tag (← flushItems fuel)
      else if bare then failure
      else empty tag
    | some (.scalar style text) =>
      advance
      grow 1
      return .scalar (if tag = some "!" then none else tag) style text
    | some .flowSequenceStart =>
      advance
      grow 2
      return .sequence tag (← flowItems true fuel)
    | some .flowMappingStart =>
      advance
      grow 2
      return .mapping tag (← flowPairs true fuel)
    | some .sequenceStart =>
      if block then
        advance
        grow 2
        return .sequence tag (← items fuel)
      else if bare then failure
      else empty tag
    | some .mappingStart =>
      if block then
        advance
        grow 2
        return .mapping tag (← pairs fuel)
      else if bare then failure
      else empty tag
    | _ => if bare then failure else empty tag
where
  empty (tag : Option String) : Builder Node := do
    grow 1
    pure (.scalar tag .plain "")
/-- Reads the items of a block sequence up to its end. -/
def items : (fuel : Nat) → Builder (List Node)
  | 0 => failure
  | fuel + 1 => do
    if ← take? .entry then
      let item ← if ← sees [.entry, .blockEnd] then emptyScalar else node true false fuel
      return item :: (← items fuel)
    else
      take .blockEnd
      pure []
/-- Reads the items of a sequence without indentation of its own. -/
def flushItems : (fuel : Nat) → Builder (List Node)
  | 0 => failure
  | fuel + 1 => do
    if ← take? .entry then
      let item ←
        if ← sees [.entry, .key, .value, .blockEnd] then emptyScalar else node true false fuel
      return item :: (← flushItems fuel)
    else pure []
/-- Reads the pairs of a block mapping up to its end. -/
def pairs : (fuel : Nat) → Builder (List (Node × Node))
  | 0 => failure
  | fuel + 1 => do
    if ← take? .key then
      let key ← part fuel
      let value ← if ← take? .value then part fuel else emptyScalar
      return (key, value) :: (← pairs fuel)
    else
      take .blockEnd
      pure []
/-- Reads the key or the value of a pair of a block mapping. -/
def part : (fuel : Nat) → Builder Node
  | 0 => failure
  | fuel + 1 => do
    if ← sees [.key, .value, .blockEnd] then emptyScalar else node true true fuel
/-- Reads the items of a flow sequence up to its end. An item may be a mapping of one pair. -/
def flowItems (first : Bool) : (fuel : Nat) → Builder (List Node)
  | 0 => failure
  | fuel + 1 => do
    if ← take? .flowSequenceEnd then pure []
    else
      if !first then take .flowEntry
      if ← take? .key then
        let pair ← flowPair fuel
        grow 2
        return .mapping none [pair] :: (← flowItems false fuel)
      else if ← take? .flowSequenceEnd then pure []
      else
        let item ← node false false fuel
        return item :: (← flowItems false fuel)
/-- Reads the pair of a mapping that is an item of a flow sequence. -/
def flowPair : (fuel : Nat) → Builder (Node × Node)
  | 0 => failure
  | fuel + 1 => do
    let key ←
      if ← sees (.value :: pairEnds) then
        advance
        emptyScalar
      else node false false fuel
    let value ←
      if ← take? .value then
        if ← sees pairEnds then emptyScalar else node false false fuel
      else emptyScalar
    pure (key, value)
/-- Reads the pairs of a flow mapping up to its end. A key may stand without a value. -/
def flowPairs (first : Bool) : (fuel : Nat) → Builder (List (Node × Node))
  | 0 => failure
  | fuel + 1 => do
    if ← take? .flowMappingEnd then pure []
    else
      if !first then take .flowEntry
      if ← take? .key then
        let key ← if ← sees (.value :: memberEnds) then emptyScalar else node false false fuel
        let value ←
          if ← take? .value then
            if ← sees memberEnds then emptyScalar else node false false fuel
          else emptyScalar
        return (key, value) :: (← flowPairs false fuel)
      else if ← take? .flowMappingEnd then pure []
      else
        let key ← node false false fuel
        let value ← emptyScalar
        return (key, value) :: (← flowPairs false fuel)
end

/-- Notes the namespace of a handle; it must be the first for that handle. -/
def declareHandle (handle text : String) : Builder Unit := do
  let s ← get
  if s.handles.any (·.1 == handle) then failure
  else set { s with handles := (handle, text) :: s.handles }

/-- Reads the directives in front of a document. The version is declared once at most; gives
whether there was any directive. -/
def directives (versioned any : Bool) : (fuel : Nat) → Builder Bool
  | 0 => pure any
  | fuel + 1 => do
    match ← peek? with
    | some (.version major minor) =>
      if versioned || major ≠ 1 || (minor ≠ 1 && minor ≠ 2) then failure
      advance
      directives true true fuel
    | some (.tagHandle handle text) =>
      declareHandle handle text
      advance
      directives versioned true fuel
    | _ => pure any

/-- The handles that need no directive. -/
def standardHandles : List (String × String) := [("!", "!"), ("!!", "tag:yaml.org,2002:")]

/-- Reads the tree of the document, if there is any token. -/
def tree (fuel : Nat) : Builder (Option Node) := do
  let declared ← directives false false fuel
  modify fun s => { s with handles := s.handles ++ standardHandles }
  if ← take? .documentStart then
    if ← sees [.documentStart, .documentEnd] then return some (← emptyScalar)
    else
      match ← peek? with
      | some (.version ..) | some (.tagHandle ..) => return some (← emptyScalar)
      | _ => return some (← node true false fuel)
  else if declared then failure
  else if (← peek?).isNone then pure none
  else return some (← node true false fuel)

/-- Reads a text that has one document at most; marks of its end may follow. -/
def whole (fuel : Nat) : Builder (Option Node) := do
  let root ← tree fuel
  let s ← get
  if s.tokens.all (· = .documentEnd) then pure root else failure

/-- The document of a text. -/
def ofText? (s : String) : Option Document := do
  let tokens ← Tokens.ofText? s
  let start : State :=
    { tokens, handles := [], anchors := [], count := 0, anchored := [], size := 0 }
  let (root, last) ← (whole (4 * tokens.length + 4)).run start
  some ⟨root, last.anchored, last.size⟩

end Document

end Stepwise.Yaml
