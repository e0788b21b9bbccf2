import WorkingCopies.Yaml.Node

/-!
# From tokens to nodes

A document is read from its tokens by the grammar of YAML. A node may be left out wherever a mark
announces it; it is then an empty plain scalar. Where the tokens go against the grammar, or end in
an error, the document breaks off with what was read so far.
-/

namespace WorkingCopies.Yaml

/-- An anchor: how many anchors start before it, and its number. -/
structure Anchor where
  position : Nat
  number : Nat

/-- A node with an anchor. -/
structure Anchored where
  anchor : Anchor
  node : Node

/-- How far the tokens of a document have been read. -/
structure Reader where
  tokens : List Token
  /-- What is wrong behind the last token. -/
  ending : Option Error
  /-- What the handles of tags stand for. -/
  handles : List (String × Bytes) := []
  /-- The names of the anchors, each with its number. -/
  names : List (String × Nat) := []
  /-- How many anchors there were. -/
  anchorCount : Nat := 0
  /-- The nodes with anchors that have been read to their end. -/
  anchored : List Anchored := []

/-- Reading tokens. -/
abbrev Reading := ExceptT Error (StateM Reader)

namespace Reading

/-- The next token. -/
def next : Reading Token := do
  let reader ← get
  match reader.tokens, reader.ending with
  | token :: _, _ => return token
  | [], some error => throw error
  | [], none => return ⟨.streamEnd, {}⟩

/-- What the next token is. -/
def kind : Reading Token.Kind := return (← next).kind

/-- Step over the next token. -/
def skip : Reading Unit := do
  discard next
  modify fun reader => { reader with tokens := reader.tokens.drop 1 }

/-- Step over the next token if it is of a kind, and say whether it was. -/
def skipIf (wanted : Token.Kind) : Reading Bool := do
  if (← kind) == wanted then
    skip
    return true
  return false

/-- The error that something is wrong at the next token. -/
def fail {α : Type} (problem : String) : Reading α := do
  throw ((← next).place.error problem)

/-- Give the broken form of what is read when reading fails. No token is left then, so that all
that is read later fails as well. -/
def orBroken {α : Type} (broken : Error → α) (reading : Reading α) : Reading α :=
  tryCatch reading fun error => do
    modify fun reader => { reader with tokens := [], ending := some error }
    return broken error

/-- Items that break off. -/
def brokenItems (error : Error) : List Node := [.broken error]

/-- Entries that break off. -/
def brokenEntries (error : Error) : List (Node × Node) := [(.broken error, .broken error)]

/-- The end of the entries of a mapping that has no mark for it. It shows once there is a token
behind it. -/
def entriesEnd : Reading (List (Node × Node)) := orBroken brokenEntries do
  discard next
  return []

/-- A node that was left out. -/
def empty : Reading Node := return .scalar (← next).place none "" true

/-- The default handles of tags. -/
def defaultHandles : List (String × Bytes) :=
  [("!", Text.encode "!"), ("!!", Text.encode "tag:yaml.org,2002:")]

/-- What stands before a node. -/
structure Properties where
  anchor : Option Anchor := none
  tag : Option Tag := none

/-- Give an anchor its number, which is the number of other names so far. The name has that number
from here on. -/
def addAnchor (name : String) : Reading Anchor := do
  let reader ← get
  let number := reader.names.length
  let others := reader.names.filter fun entry => entry.1 != name
  set { reader with
    names := (name, number) :: others, anchorCount := reader.anchorCount + 1 }
  return ⟨reader.anchorCount, number⟩

/-- The full name of a tag. -/
def fullTag (handle : String) (suffix : Bytes) : Reading Tag := do
  if handle.isEmpty then
    return suffix
  match ((← get).handles ++ defaultHandles).lookup handle with
  | some target => return target ++ suffix
  | none => fail "found undefined tag handle"

/-- Read one property of a node, if one comes next that it does not have yet. -/
def property (properties : Properties) : Reading Properties := do
  match ← kind, properties with
  | .anchor name, { anchor := none, .. } =>
    skip
    return { properties with anchor := some (← addAnchor name) }
  | .tag handle suffix, { tag := none, .. } =>
    let tag ← fullTag handle suffix
    skip
    return { properties with tag := some tag }
  | _, _ => return properties

/-- Remember a node under its anchor. -/
def remember (properties : Properties) (node : Node) : Reading Node := do
  if let some anchor := properties.anchor then
    modify fun reader => { reader with anchored := ⟨anchor, node⟩ :: reader.anchored }
  return node

mutual

/-- Read a node. Blocks are possible unless it stands inside brackets; the entries of a sequence may
stand in the column of the mapping around it when it is the key or the value of one. -/
def node (inBlock entriesHere : Bool) : Nat → Reading Node
  | 0 => orBroken .broken (fail "did not find expected node content")
  | fuel + 1 => orBroken .broken do
    let start := (← next).place
    if let .aliasOf name := ← kind then
      match (← get).names.lookup name with
      | none => fail "unknown anchor"
      | some number =>
        skip
        return .aliasOf start number
    let properties ← property (← property {})
    let found ← match ← kind with
      | .blockEntry =>
        if entriesHere then pure (.sequence start properties.tag (← entriesInColumn fuel))
        else absent properties start
      | .scalar text isPlain =>
        skip
        pure (.scalar start properties.tag text isPlain)
      | .flowSequenceStart =>
        skip
        pure (.sequence start properties.tag (← flowItems true fuel))
      | .flowMappingStart =>
        skip
        pure (.mapping start properties.tag (← flowEntries true fuel))
      | .blockSequenceStart =>
        if inBlock then
          skip
          pure (.sequence start properties.tag (← blockItems fuel))
        else absent properties start
      | .blockMappingStart =>
        if inBlock then
          skip
          pure (.mapping start properties.tag (← blockEntries fuel))
        else absent properties start
      | _ => absent properties start
    remember properties found

/-- A node of which there is no more than its properties. -/
def absent (properties : Properties) (place : Place) : Reading Node :=
  if properties.anchor.isSome || properties.tag.isSome then
    pure (.scalar place properties.tag "" true)
  else fail "did not find expected node content"

/-- Read a node in a block unless one of some kinds of token comes next. -/
def nodeUnless (ends : List Token.Kind) (inBlock entriesHere : Bool) : Nat → Reading Node
  | 0 => orBroken .broken (fail "did not find expected node content")
  | fuel + 1 => orBroken .broken do
    if ends.contains (← kind) then empty else node inBlock entriesHere fuel

/-- Read the value of an entry, if its mark comes next, unless one of some kinds of token follows
the mark. -/
def valueUnless (ends : List Token.Kind) (inBlock : Bool) : Nat → Reading Node
  | 0 => orBroken .broken (fail "did not find expected node content")
  | fuel + 1 => orBroken .broken do
    if ← skipIf .value then nodeUnless ends inBlock inBlock fuel else empty

/-- Read the items of a block sequence and its end. -/
def blockItems : Nat → Reading (List Node)
  | 0 => orBroken brokenItems (fail "did not find expected '-' indicator")
  | fuel + 1 => orBroken brokenItems do
    if ← skipIf .blockEntry then
      let item ← nodeUnless [.blockEntry, .blockEnd] true false fuel
      return item :: (← blockItems fuel)
    if ← skipIf .blockEnd then
      return []
    fail "did not find expected '-' indicator"

/-- Read the items of a sequence in the column of the mapping around it. -/
def entriesInColumn : Nat → Reading (List Node)
  | 0 => orBroken brokenItems (fail "did not find expected node content")
  | fuel + 1 => orBroken brokenItems do
    if ← skipIf .blockEntry then
      let item ← nodeUnless [.blockEntry, .key, .value, .blockEnd] true false fuel
      return item :: (← entriesInColumn fuel)
    return []

/-- Read the entries of a block mapping and its end. -/
def blockEntries : Nat → Reading (List (Node × Node))
  | 0 => orBroken brokenEntries (fail "did not find expected key")
  | fuel + 1 => orBroken brokenEntries do
    if ← skipIf .key then
      let key ← nodeUnless [.key, .value, .blockEnd] true true fuel
      let value ← valueUnless [.key, .value, .blockEnd] true fuel
      return (key, value) :: (← blockEntries fuel)
    if ← skipIf .blockEnd then
      return []
    fail "did not find expected key"

/-- Read the items of a sequence in brackets and the closing bracket. Behind the first item, a comma
has to stand before each. An item with a key is a mapping of one entry. -/
def flowItems (isFirst : Bool) : Nat → Reading (List Node)
  | 0 => orBroken brokenItems (fail "did not find expected ',' or ']'")
  | fuel + 1 => orBroken brokenItems do
    if ← skipIf .flowSequenceEnd then
      return []
    if !isFirst then
      if !(← skipIf .flowEntry) then
        fail "did not find expected ',' or ']'"
      if ← skipIf .flowSequenceEnd then
        return []
    let start := (← next).place
    if ← skipIf .key then
      let pair ← flowPair fuel
      return .mapping start none pair :: (← flowItems false fuel)
    let item ← node false false fuel
    return item :: (← flowItems false fuel)

/-- Read the only entry of a mapping that is an item of a sequence in brackets. Where the key is
left out, the mark behind it is stepped over. -/
def flowPair : Nat → Reading (List (Node × Node))
  | 0 => orBroken brokenEntries (fail "did not find expected node content")
  | fuel + 1 => orBroken brokenEntries do
    let key ←
      if [.value, .flowEntry, .flowSequenceEnd].contains (← kind) then do
        let key ← empty
        skip
        pure key
      else node false false fuel
    let value ← valueUnless [.flowEntry, .flowSequenceEnd] false fuel
    return (key, value) :: (← entriesEnd)

/-- Read the entries of a mapping in braces and the closing brace. Behind the first entry, a comma
has to stand before each. -/
def flowEntries (isFirst : Bool) : Nat → Reading (List (Node × Node))
  | 0 => orBroken brokenEntries (fail "did not find expected ',' or '\x7d'")
  | fuel + 1 => orBroken brokenEntries do
    if ← skipIf .flowMappingEnd then
      return []
    if !isFirst then
      if !(← skipIf .flowEntry) then
        fail "did not find expected ',' or '\x7d'"
      if ← skipIf .flowMappingEnd then
        return []
    let entry ←
      if ← skipIf .key then do
        let key ← nodeUnless [.value, .flowEntry, .flowMappingEnd] false false fuel
        let value ← valueUnless [.flowEntry, .flowMappingEnd] false fuel
        pure (key, value)
      else do
        let key ← node false false fuel
        pure (key, ← orBroken .broken empty)
    return entry :: (← flowEntries false fuel)

end

/-- Read the directives of a document. A handle can be given a meaning once, and so can the
version, of which only 1.1 and 1.2 are known. -/
def directives (hasVersion : Bool) : Nat → Reading Unit
  | 0 => pure ()
  | fuel + 1 => do
    match ← kind with
    | .versionDirective major minor =>
      if hasVersion then
        fail "found duplicate %YAML directive"
      if !(major == 1 && (minor == 1 || minor == 2)) then
        fail "found incompatible YAML document"
      skip
      directives true fuel
    | .tagDirective handle target =>
      if ((← get).handles.lookup handle).isSome then
        fail "found duplicate %TAG directive"
      modify fun reader => { reader with handles := reader.handles ++ [(handle, target)] }
      skip
      directives hasVersion fuel
    | _ => pure ()

/-- Whether a token starts or ends a document or belongs to what stands before one. -/
def isOutside : Token.Kind → Bool
  | .versionDirective .. | .tagDirective .. | .documentStart | .documentEnd | .streamEnd => true
  | _ => false

/-- Read the node of the first document and what stands before it. -/
def root (fuel : Nat) : Reading Node := do
  let first ← kind
  if !isOutside first || first == .documentEnd then
    node true false fuel
  else
    directives false fuel
    if !(← skipIf .documentStart) then
      fail "did not find expected <document start>"
    if isOutside (← kind) then empty else node true false fuel

/-- Read the first document. There has to be a token behind its node. -/
def document : Reading Document := do
  if (← kind) == .streamEnd then
    return { root := none, anchors := [], failure := none }
  let root ← orBroken .broken (root (4 * (← get).tokens.length + 16))
  let failure ← orBroken some (discard next *> pure none)
  let anchored := (← get).anchored.mergeSort fun a b => a.anchor.position ≥ b.anchor.position
  return {
    root := some root
    anchors := anchored.map fun found => (found.anchor.number, found.node)
    failure }

/-- The first document of some tokens, and the reader behind it. Tokens that end in an error before
anything of a document shows give a document that is broken. -/
def firstDocument (tokens : List Token) (ending : Option Error) : Document × Reader :=
  match document.run { tokens, ending } with
  | (.ok document, reader) => (document, reader)
  | (.error error, reader) =>
    ({ root := some (.broken error), anchors := [], failure := some error }, reader)

/-- Whether more than ends of documents follows. -/
def continues (reader : Reader) : Bool :=
  match (reader.tokens.dropWhile fun token => token.kind == .documentEnd).head? with
  | some token => token.kind != .streamEnd
  | none => reader.ending.isSome

end Reading

end WorkingCopies.Yaml
