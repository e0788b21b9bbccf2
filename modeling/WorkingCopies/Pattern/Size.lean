import WorkingCopies.Pattern.Problem
import WorkingCopies.Pattern.Tree

/-!
# The size of a pattern

Patterns are limited in how deep their parts are nested, and in the memory for a machine that looks
for them. A counted part is built as often as it is counted.
-/

namespace WorkingCopies.Pattern

/-- How deep the parts of a pattern may be nested. -/
def depthLimit : Nat := 250

/-- The problem that a part is nested too deep. -/
def tooDeep (span : Span) : Except Problem Unit :=
  .error (.malformed (.tooDeep depthLimit) span none)

namespace ClassTree

mutual

/-- Check that a class is nested in at most `room` further levels. -/
def checkDepth : (room : Nat) → ClassTree → Except Problem Unit
  | _, empty _ | _, literal _ | _, range .. | _, named .. | _, shorthand .. | _, property .. =>
    .ok ()
  | 0, tree => tooDeep tree.span
  | room + 1, brackets _ _ content => content.checkDepth room
  | room + 1, union _ items => checkDepths room items
  | room + 1, combination _ left right => do
    left.checkDepth room
    right.checkDepth room

/-- Check several items of a class. -/
def checkDepths : (room : Nat) → List ClassTree → Except Problem Unit
  | _, [] => .ok ()
  | room, item :: items => do
    item.checkDepth room
    checkDepths room items

end

mutual

/-- The number of ranges that a class is written with. -/
def ranges : ClassTree → Nat
  | empty _ => 0
  | literal _ | range .. | named .. | shorthand .. | property .. => 1
  | brackets _ _ content => content.ranges
  | union _ items => rangesOfItems items
  | combination _ left right => left.ranges + right.ranges

/-- The number of ranges of several items. -/
def rangesOfItems : List ClassTree → Nat
  | [] => 0
  | item :: items => item.ranges + rangesOfItems items

end

end ClassTree

namespace Tree

mutual

/-- Check that a part is nested in at most `room` further levels. -/
def checkDepth : (room : Nat) → Tree → Except Problem Unit
  | _, empty _ | _, flags .. | _, literal _ | _, dot _ | _, boundary .. | _, shorthand ..
  | _, property .. => .ok ()
  | 0, tree => tooDeep tree.span
  | room + 1, brackets _ _ content => content.checkDepth room
  | room + 1, repetition _ _ _ body | room + 1, group _ _ _ body => body.checkDepth room
  | room + 1, sequence _ parts | room + 1, choice _ parts => checkDepths room parts

/-- Check several parts. -/
def checkDepths : (room : Nat) → List Tree → Except Problem Unit
  | _, [] => .ok ()
  | room, part :: parts => do
    part.checkDepth room
    checkDepths room parts

end

mutual

/-- Whether a part matches no characters at all. -/
def isIdle : Tree → Bool
  | empty _ | flags .. | boundary .. => true
  | literal _ | dot _ | shorthand .. | property .. | brackets .. => false
  | repetition _ _ most body => most == some 0 || body.isIdle
  | group _ _ _ body => body.isIdle
  | sequence _ parts | choice _ parts => areIdle parts

/-- Whether several parts match no characters at all. -/
def areIdle : List Tree → Bool
  | [] => true
  | part :: parts => part.isIdle && areIdle parts

end

/-- The memory for one state of a machine, in bytes. -/
def stateSize : Nat := 32

/-- The memory for a repetition of a part of some size. -/
def sizeOfRepetition (body least : Nat) : Option Nat → Nat
  | none => max 1 least * body + 2 * stateSize
  | some most =>
    if most ≤ least then least * body
    else least * body + stateSize + (most - least) * (body + stateSize + 8)

/-- The memory for the states that tell all characters apart by their bytes. -/
def anyCharacterSize : Nat := 14 * stateSize

mutual

/-- About how much memory the machine for a part takes, in bytes. It has a state for each byte of a
character. -/
def size : Tree → Nat
  | empty _ | flags .. | boundary .. => stateSize
  | literal character => stateSize * character.char.utf8Size
  | dot _ => anyCharacterSize
  | shorthand .. | property .. => 3 * stateSize
  | brackets _ isNegated content =>
    if isNegated then anyCharacterSize else 2 * stateSize + 8 * content.ranges
  | repetition _ least most body =>
    if body.isIdle then sizeOfRepetition body.size (min least 1) (some (min (most.getD 1) 1))
    else sizeOfRepetition body.size least most
  | group _ isCaptured _ body => body.size + if isCaptured then 2 * stateSize else 0
  | sequence _ parts => sizeOfParts parts
  | choice _ parts => 2 * stateSize + sizeOfParts parts

/-- The memory for several parts. -/
def sizeOfParts : List Tree → Nat
  | [] => 0
  | part :: parts => part.size + sizeOfParts parts

end

/-- How much memory a machine may take: ten mebibytes. -/
def sizeLimit : Nat := 10 * 1024 * 1024

end Tree

end WorkingCopies.Pattern
