import WorkingCopies.Yaml.Token

/-!
# Nodes of YAML

What a document says before its scalars are understood: scalars, sequences and mappings, with their
tags, and aliases, which stand for a node with an anchor. An alias knows its anchor by a number.

Where a text goes wrong, a broken node stands for the rest of it. It is the last item, key or value
of all collections around it, none of which has an end.
-/

namespace WorkingCopies.Yaml

/-- The full name of a tag. -/
abbrev Tag := Bytes

/-- A node and the place where it starts. -/
inductive Node where
  | scalar (place : Place) (tag : Option Tag) (text : String) (isPlain : Bool)
  | sequence (place : Place) (tag : Option Tag) (items : List Node)
  | mapping (place : Place) (tag : Option Tag) (entries : List (Node × Node))
  | aliasOf (place : Place) (number : Nat)
  | broken (error : Error)
  deriving Inhabited

namespace Node

/-- The place where a node starts. A broken one has none of its own. -/
def place : Node → Place
  | scalar place .. | sequence place .. | mapping place .. | aliasOf place _ => place
  | broken _ => {}

mutual

/-- The number of nodes and of ends of collections in a node. -/
def size : Node → Nat
  | scalar .. | aliasOf .. => 1
  | sequence _ _ items => 1 + sizeOfItems items
  | mapping _ _ entries => 1 + sizeOfEntries entries
  | broken _ => 0

/-- The size of the items of a sequence and of its end. -/
def sizeOfItems : List Node → Nat
  | [] => 1
  | broken _ :: _ => 0
  | item :: items => item.size + sizeOfItems items

/-- The size of the entries of a mapping and of its end. -/
def sizeOfEntries : List (Node × Node) → Nat
  | [] => 1
  | (broken _, _) :: _ => 0
  | (key, value) :: entries => key.size + value.size + sizeOfEntries entries

end

end Node

/-- A document: its node, if it has one, and the nodes with anchors by their numbers, the last one
first. An alias stands for the first node with its number. -/
structure Document where
  root : Option Node
  anchors : List (Nat × Node)
  /-- What is wrong in the document or right behind it. -/
  failure : Option Error

end WorkingCopies.Yaml
