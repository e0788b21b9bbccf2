import WorkingCopies.Pattern.Place

/-!
# What a pattern says

The parts of a pattern as they are written, each with its span. What they match depends on the flags
in force and is not settled here.
-/

namespace WorkingCopies.Pattern

/-- A switch of the meaning of a pattern. -/
inductive Flag where
  | ignoreCase
  | multiLine
  | dotMatchesAll
  | swapGreed
  | unicode
  | returnFeed
  | ignoreBlanks
  deriving Repr, DecidableEq, Inhabited

/-- Flags that are set or cleared. -/
abbrev FlagChanges := List (Flag × Bool)

/-- A character that stands for itself, or the escape for one. -/
structure Literal where
  span : Span
  char : Char
  /-- Whether it is written as two hexadecimal digits, which may mean a byte. -/
  isByte : Bool := false
  deriving Repr, DecidableEq, Inhabited

/-- A place between two characters. -/
inductive Boundary where
  | lineStart
  | lineEnd
  | textStart
  | textEnd
  | word
  | noWord
  | wordStart
  | wordEnd
  | wordStartHalf
  | wordEndHalf
  deriving Repr, DecidableEq, Inhabited

/-- A class of characters with a name of its own. -/
inductive NamedClass where
  | alnum
  | alpha
  | ascii
  | blank
  | cntrl
  | digit
  | graph
  | lower
  | print
  | punct
  | space
  | upper
  | word
  | xdigit
  deriving Repr, DecidableEq, Inhabited

/-- The class with a name. -/
def NamedClass.ofName? : String → Option NamedClass
  | "alnum" => some alnum
  | "alpha" => some alpha
  | "ascii" => some ascii
  | "blank" => some blank
  | "cntrl" => some cntrl
  | "digit" => some digit
  | "graph" => some graph
  | "lower" => some lower
  | "print" => some print
  | "punct" => some punct
  | "space" => some space
  | "upper" => some upper
  | "word" => some word
  | "xdigit" => some xdigit
  | _ => none

/-- How two classes are combined. -/
inductive ClassOperator where
  | intersection
  | difference
  | symmetricDifference
  deriving Repr, DecidableEq, Inhabited

/-- What stands in the brackets of a class. -/
inductive ClassTree where
  | empty (span : Span)
  | literal (character : Literal)
  | range (first last : Literal)
  | named (span : Span) (name : NamedClass) (isNegated : Bool)
  | shorthand (span : Span) (name : NamedClass) (isNegated : Bool)
  | property (span : Span) (name : String)
  | brackets (span : Span) (isNegated : Bool) (content : ClassTree)
  | union (span : Span) (items : List ClassTree)
  | combination (operator : ClassOperator) (left right : ClassTree)
  deriving Repr, Inhabited

namespace ClassTree

/-- The part of the pattern that an item stands in. -/
def span : ClassTree → Span
  | empty span | named span .. | shorthand span .. | property span _ | brackets span ..
  | union span _ => span
  | literal character => character.span
  | range first last => ⟨first.span.start, last.span.stop⟩
  | combination _ left right => ⟨left.span.start, right.span.stop⟩

end ClassTree

/-- A part of a pattern. -/
inductive Tree where
  | empty (span : Span)
  | flags (span : Span) (changes : FlagChanges)
  | literal (character : Literal)
  | dot (span : Span)
  | boundary (span : Span) (kind : Boundary)
  | shorthand (span : Span) (name : NamedClass) (isNegated : Bool)
  | property (span : Span) (name : String)
  | brackets (span : Span) (isNegated : Bool) (content : ClassTree)
  | repetition (span : Span) (least : Nat) (most : Option Nat) (body : Tree)
  | group (span : Span) (isCaptured : Bool) (changes : FlagChanges) (body : Tree)
  | sequence (span : Span) (parts : List Tree)
  | choice (span : Span) (alternatives : List Tree)
  deriving Repr, Inhabited

namespace Tree

/-- The span of a part. -/
def span : Tree → Span
  | empty span | flags span _ | dot span | boundary span _ | shorthand span .. | property span _
  | brackets span .. | repetition span .. | group span .. | sequence span _ | choice span _ => span
  | literal character => character.span

/-- Several parts in a row. -/
def ofParts (span : Span) : List Tree → Tree
  | [] => empty span
  | [part] => part
  | parts => sequence span parts

end Tree

end WorkingCopies.Pattern
