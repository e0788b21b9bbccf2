import WorkingCopies.Yaml.Node.Grammar
import WorkingCopies.Yaml.Scalar
import WorkingCopies.Yaml.Token.Stream

/-!
# From texts to values

A YAML text has to hold one document. Its value is found from its nodes: aliases are replaced by the
values of what they stand for, tags of the document's own become part of the value, and the keys of
a mapping have to differ. Collections may be nested 128 deep, and aliases may be followed a hundred
times for each node of the document. In a document that breaks off, values are found up to there,
so that too many aliases before the break are what is wrong.
-/

namespace WorkingCopies.Yaml

/-- What is known while values are found. -/
structure Meaning where
  anchors : List (Nat × Node)
  /-- How many aliases may be followed. -/
  limit : Nat

namespace Meaning

/-- Finding values, while the aliases followed so far are counted. -/
abbrev Finding := StateT Nat (Except Error)

/-- The name of a tag of the document's own. -/
def ownTag? (tag : Option Tag) : Option String :=
  match tag with
  | some (first :: rest) =>
    if [first] != Text.encode "!" then none
    else Text.decode? (if rest.isEmpty then [first] else rest)
  | _ => none

/-- A value under a tag, if the tag is one of the document's own. -/
def under (tag : Option Tag) (value : Value) : Value :=
  match ownTag? tag with
  | some name => .tagged name value
  | none => value

/-- Whether a tag begins like the tags of the document's own. It may still be no text. -/
def looksOwn (tag : Tag) : Bool := Text.encode "!" <+: tag

/-- The value of a scalar. -/
def scalar (place : Place) (tag : Option Tag) (text : String) (isPlain : Bool) :
    Except Error Value := do
  if tag.all looksOwn then
    let value ← if isPlain then Scalar.plainValue place text else pure (.text text)
    return under tag value
  Scalar.taggedValue place (tag.bind Text.decode?) text

mutual

/-- The value of a node with at most `depth` collections inside each other. -/
def value (meaning : Meaning) : Nat → Nat → Node → Finding Value
  | 0, _, node => throw (node.place.error "recursion limit exceeded")
  | fuel + 1, depth, node =>
    match node with
    | .scalar place tag text isPlain => scalar place tag text isPlain
    | .aliasOf place number => do
      let followed := (← get) + 1
      set followed
      if followed > meaning.limit then
        throw .tooMuchRepetition
      match meaning.anchors.lookup number with
      | some node => value meaning fuel depth node
      | none => throw (place.error "unknown anchor")
    | .broken error => throw error
    | .sequence place tag items => do
      if depth == 0 then
        throw (place.error "recursion limit exceeded")
      return under tag (.sequence (← values meaning fuel (depth - 1) items))
    | .mapping place tag entries => do
      if depth == 0 then
        throw (place.error "recursion limit exceeded")
      return under tag (.mapping (← valuesOfEntries meaning fuel (depth - 1) place [] entries))

/-- The values of several nodes. -/
def values (meaning : Meaning) : Nat → Nat → List Node → Finding (List Value)
  | _, _, [] => return []
  | 0, _, node :: _ => throw (node.place.error "recursion limit exceeded")
  | fuel + 1, depth, node :: nodes => do
    let value ← value meaning fuel depth node
    return value :: (← values meaning fuel depth nodes)

/-- The values of the entries of a mapping, with the keys so far. -/
def valuesOfEntries (meaning : Meaning) : Nat → Nat → Place → List Value → List (Node × Node) →
    Finding (List (Value × Value))
  | _, _, _, _, [] => return []
  | 0, _, place, _, _ :: _ => throw (place.error "recursion limit exceeded")
  | fuel + 1, depth, place, keys, (keyNode, valueNode) :: entries => do
    let key ← value meaning fuel depth keyNode
    if keys.any key.same then
      throw (place.error "duplicate entry")
    let value ← value meaning fuel depth valueNode
    return (key, value) :: (← valuesOfEntries meaning fuel depth place (key :: keys) entries)

end

/-- The value of a document. The fuel is never used up: on the way down from the root to a value no
alias leads to another one, and each of the 128 collections costs as many steps as the document has
nodes at most. -/
def ofDocument (document : Document) : Except Error Value :=
  match document.root with
  | none => .ok .null
  | some root =>
    let meaning : Meaning := { anchors := document.anchors, limit := 100 * root.size }
    (value meaning (260 + 130 * root.size) 128 root).run' 0

end Meaning

/-- The value of the only document of a text. -/
def parse (text : String) : Except Error Value := do
  let (tokens, ending) := Token.ofText text
  let (document, reader) := Reading.firstDocument tokens ending
  let value ← Meaning.ofDocument document
  if let some error := document.failure then
    throw error
  if Reading.continues reader then
    throw .severalDocuments
  return value

end WorkingCopies.Yaml
