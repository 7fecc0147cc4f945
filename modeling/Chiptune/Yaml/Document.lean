import Chiptune.Yaml.Token.Scan

/-! Documents: the nodes that the tokens of a text describe. A text holds one document or none. -/

namespace Chiptune.Yaml

/-- A scalar. One that is left out is plain and empty. -/
structure Scalar where
  text : List Char := []
  style : Style := .plain
  tag : Option (List Char) := none
deriving DecidableEq

/-- Whether nothing is written where a scalar stands. -/
def Scalar.isAbsent (scalar : Scalar) : Bool :=
  scalar.style = .plain && scalar.text.isEmpty

/-- The contents of a document. -/
inductive Node where
  | scalar (scalar : Scalar)
  | sequence (items : List Node)
  | mapping (entries : List (Node × Node))
  /-- The node with an anchor of this number. -/
  | alias (number : Nat)

/-- A document; an empty text has no root. -/
structure Document where
  root : Option Node
  /-- The nodes with anchors and the numbers of these, the last node first. Only scalars are kept:
  no other node is looked up by its anchor.
  -/
  anchored : List (Nat × Option Scalar)

namespace Document

/-- The scalar that a node is or is an alias of. -/
def scalar? (document : Document) : Node → Option Scalar
  | .scalar scalar => some scalar
  | .alias number => (document.anchored.lookup number).join
  | _ => none

/-- What is known while tokens are read. -/
structure Reading where
  tokens : List Token
  /-- The numbers of the names that stand for anchors. -/
  names : List (List Char × Nat) := []
  anchored : List (Nat × Option Scalar) := []
  /-- What the handles of tags stand for. -/
  handles : List (List Char × List Char) := []

/-- A step that reads tokens. -/
abbrev Reader := StateT Reading Option

/-- The next token. -/
def peek : Reader Token :=
  return ((← get).tokens.head?).getD .textEnd

/-- Goes past the next token. -/
def next : Reader Unit :=
  modify fun reading => { reading with tokens := reading.tokens.drop 1 }

/-- Goes past the next token if it is the given one, and tells whether it is. -/
def accept (token : Token) : Reader Bool := do
  if (← peek) = token then next; return true else return false

/-- Goes past the next token, which has to be the given one. -/
def expect (token : Token) : Reader Unit := do
  if ← accept token then return else failure

/-- The anchor and the tag of a node, in either order. -/
structure Properties where
  anchor : Option (List Char) := none
  tag : Option (List Char × List Char) := none

/-- Reads the properties that stand before a node. -/
def properties : Reader Properties := do
  match ← peek with
  | .anchor name =>
    next
    match ← peek with
    | .tag handle suffix => next; return ⟨some name, some (handle, suffix)⟩
    | _ => return ⟨some name, none⟩
  | .tag handle suffix =>
    next
    match ← peek with
    | .anchor name => next; return ⟨some name, some (handle, suffix)⟩
    | _ => return ⟨none, some (handle, suffix)⟩
  | _ => return {}

/-- The tag that a handle and a suffix stand for; the handle has to be known. -/
def resolve (tag : Option (List Char × List Char)) : Reader (Option (List Char)) := do
  match tag with
  | none => return none
  | some ([], suffix) => return some suffix
  | some (handle, suffix) =>
    match (← get).handles.lookup handle with
    | some start => return some (start ++ suffix)
    | none => failure

/-- Remembers a node under its anchor, if it has one. An anchor gets the number of names known
before it, also where its own name is among them; the name stands for it from then on.
-/
def remember (anchor : Option (List Char)) (scalar : Option Scalar) : Reader Unit :=
  match anchor with
  | none => return
  | some name =>
    modify fun reading =>
      let number := reading.names.length
      { reading with
        names := (name, number) :: reading.names.filter (·.1 ≠ name)
        anchored := (number, scalar) :: reading.anchored }

/-- A scalar that is left out, with the properties that stand for it. -/
def missing (anchor tag : Option (List Char)) : Reader Node := do
  let scalar : Scalar := { tag }
  remember anchor scalar
  return .scalar scalar

/-- A scalar that is left out. -/
def nothing : Node := .scalar {}

/-- Whether no node stands before a token within a block collection. -/
def endsBlockNode (token : Token) : Bool :=
  token = .key || token = .value || token = .blockEnd

/-- Whether no node stands before a token within brackets of a kind. -/
def endsFlowNode (closing token : Token) : Bool :=
  token = .value || token = .comma || token = closing

mutual

/-- Reads a node. Within block collections it may be one itself; a value of a block mapping may be
a sequence that is not indented.
-/
def node (inBlock allowsItems : Bool) : (fuel : Nat) → Reader Node
  | 0 => failure
  | fuel + 1 => do
    if let .alias name := ← peek then
      match (← get).names.lookup name with
      | some number => next; return .alias number
      | none => failure
    let given ← properties
    let tag ← resolve given.tag
    let collection : Reader Unit := remember given.anchor none
    let token ← peek
    match token with
    | .scalar style text =>
      let scalar : Scalar := ⟨text, style, tag⟩
      next
      remember given.anchor scalar
      return .scalar scalar
    | .flowSequence => next; collection; return .sequence (← flowItems true fuel)
    | .flowMapping => next; collection; return .mapping (← flowEntries true fuel)
    | _ =>
      if allowsItems && token = .item then
        collection
        return .sequence (← looseItems fuel)
      else if inBlock && token = .blockSequence then
        next; collection
        return .sequence (← blockItems fuel)
      else if inBlock && token = .blockMapping then
        next; collection
        return .mapping (← blockEntries fuel)
      else if given.anchor.isSome || tag.isSome then missing given.anchor tag
      else failure

/-- Reads a node within a block collection, unless a token says that it is left out. -/
def blockNode (isEnd : Token → Bool) (allowsItems : Bool) : (fuel : Nat) → Reader Node
  | 0 => failure
  | fuel + 1 => do if isEnd (← peek) then return nothing else node true allowsItems fuel

/-- Reads a node within brackets, unless a token says that it is left out. -/
def flowNode (isEnd : Token → Bool) : (fuel : Nat) → Reader Node
  | 0 => failure
  | fuel + 1 => do if isEnd (← peek) then return nothing else node false false fuel

/-- Reads the items of a block sequence to its end. -/
def blockItems : (fuel : Nat) → Reader (List Node)
  | 0 => failure
  | fuel + 1 => do
    if ← accept .item then
      let first ← blockNode (fun token => token = .item || token = .blockEnd) false fuel
      return first :: (← blockItems fuel)
    else
      expect .blockEnd
      return []

/-- Reads the items of a sequence that is not indented. -/
def looseItems : (fuel : Nat) → Reader (List Node)
  | 0 => failure
  | fuel + 1 => do
    if ← accept .item then
      let first ← blockNode (fun token => token = .item || endsBlockNode token) false fuel
      return first :: (← looseItems fuel)
    else return []

/-- Reads the entries of a block mapping to its end. -/
def blockEntries : (fuel : Nat) → Reader (List (Node × Node))
  | 0 => failure
  | fuel + 1 => do
    if ← accept .key then
      let key ← blockNode endsBlockNode true fuel
      let value ←
        if ← accept .value then blockNode endsBlockNode true fuel else pure nothing
      return (key, value) :: (← blockEntries fuel)
    else
      expect .blockEnd
      return []

/-- Reads the items of a sequence in brackets to its end. An item may be a mapping of one entry
without braces, which begins with a key.
-/
def flowItems (isFirst : Bool) : (fuel : Nat) → Reader (List Node)
  | 0 => failure
  | fuel + 1 => do
    if ← accept .flowSequenceEnd then return []
    else
      if !isFirst then expect .comma
      if ← accept .key then
        let entry ← pair fuel
        return .mapping [entry] :: (← flowItems false fuel)
      else if ← accept .flowSequenceEnd then return []
      else
        let first ← node false false fuel
        return first :: (← flowItems false fuel)

/-- Reads the entry of a mapping without braces after its start. Where its key is left out, the
token after it is passed over.
-/
def pair : (fuel : Nat) → Reader (Node × Node)
  | 0 => failure
  | fuel + 1 => do
    let isEnd := endsFlowNode .flowSequenceEnd
    let isMissing := isEnd (← peek)
    let key ← flowNode isEnd fuel
    if isMissing then next
    let value ←
      if ← accept .value then
        flowNode (fun token => token = .comma || token = .flowSequenceEnd) fuel
      else pure nothing
    return (key, value)

/-- Reads the entries of a mapping in braces to its end. -/
def flowEntries (isFirst : Bool) : (fuel : Nat) → Reader (List (Node × Node))
  | 0 => failure
  | fuel + 1 => do
    if ← accept .flowMappingEnd then return []
    else
      if !isFirst then expect .comma
      if ← accept .key then
        let key ← flowNode (endsFlowNode .flowMappingEnd) fuel
        let value ←
          if ← accept .value then
            flowNode (fun token => token = .comma || token = .flowMappingEnd) fuel
          else pure nothing
        return (key, value) :: (← flowEntries false fuel)
      else if ← accept .flowMappingEnd then return []
      else
        let key ← node false false fuel
        return (key, nothing) :: (← flowEntries false fuel)

end

/-- The handles that stand for something in every document. -/
def standardHandles : List (List Char × List Char) :=
  [("!".toList, "!".toList), ("!!".toList, "tag:yaml.org,2002:".toList)]

/-- Reads the directives before a document: a version that is known, at most once, and handles,
each at most once.
-/
def directives (hasVersion : Bool) (handles : List (List Char × List Char))
    : (fuel : Nat) → Reader Unit
  | 0 => failure
  | fuel + 1 => do
    match ← peek with
    | .version major minor =>
      if hasVersion || major ≠ 1 || (minor ≠ 1 && minor ≠ 2) then failure
      else
        next
        directives true handles fuel
    | .tagHandle handle replacement =>
      if (handles.lookup handle).isSome then failure
      else
        next
        directives hasVersion ((handle, replacement) :: handles) fuel
    | _ => modify fun reading => { reading with handles := handles ++ standardHandles }

/-- Whether a token begins a document that does not begin with its root. -/
def startsDocument : Token → Bool
  | .version .. => true
  | .tagHandle .. => true
  | .documentStart => true
  | _ => false

/-- Reads the root of the document, if there is one. -/
def readRoot (fuel : Nat) : Reader (Option Node) := do
  let first ← peek
  if first = .textEnd then return none
  else if startsDocument first then
    directives false [] fuel
    expect .documentStart
    let isEnd (token : Token) : Bool :=
      startsDocument token || token = .documentEnd || token = .textEnd
    return some (← blockNode isEnd false fuel)
  else
    directives false [] fuel
    return some (← node true false fuel)

/-- The document of a text; none if the text is not well-formed or holds several of them. -/
def parse? (text : List Char) : Option Document := do
  let tokens ← Token.scan? text
  let (root, reading) ← (readRoot (4 * tokens.size + 4)).run { tokens := tokens.toList }
  let isEnd := (reading.tokens.dropWhile (· = .documentEnd)).head? = some .textEnd
  if isEnd then return ⟨root, reading.anchored⟩ else none

end Document

end Chiptune.Yaml
