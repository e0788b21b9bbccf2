import WorkingCopies.Pattern.Expression
import WorkingCopies.Pattern.Grammar
import WorkingCopies.Pattern.Size

/-!
# The meaning of a pattern

What a pattern matches depends on the flags in force. Characters are those of any script unless the
flag for that is cleared, and then no part may match bytes that make up no text. The tables for
properties of characters, for shorthands and for pairs of letters beyond ASCII are not at hand, so
that with characters of any script these are refused.
-/

namespace WorkingCopies.Pattern

/-- The flags in force. -/
structure Flags where
  ignoreCase : Bool := false
  multiLine : Bool := false
  dotMatchesAll : Bool := false
  unicode : Bool := true
  returnFeed : Bool := false
  deriving Repr, DecidableEq, Inhabited

namespace Flags

/-- Set or clear a flag. The order of repetitions and the blanks in a pattern do not matter here. -/
def change (flags : Flags) : Flag × Bool → Flags
  | (.ignoreCase, isOn) => { flags with ignoreCase := isOn }
  | (.multiLine, isOn) => { flags with multiLine := isOn }
  | (.dotMatchesAll, isOn) => { flags with dotMatchesAll := isOn }
  | (.unicode, isOn) => { flags with unicode := isOn }
  | (.returnFeed, isOn) => { flags with returnFeed := isOn }
  | (.swapGreed, _) | (.ignoreBlanks, _) => flags

/-- The ends of lines that boundaries know. -/
def ends (flags : Flags) : LineEnds := if flags.returnFeed then .returnAndLineFeed else .lineFeed

/-- The condition of a boundary. -/
def condition (flags : Flags) : Boundary → Condition
  | .lineStart => if flags.multiLine then .lineStart flags.ends else .textStart
  | .lineEnd => if flags.multiLine then .lineEnd flags.ends else .textEnd
  | .textStart => .textStart
  | .textEnd => .textEnd
  | .word => if flags.unicode then .anyScript else .word
  | .noWord => if flags.unicode then .anyScript else .noWord
  | .wordStart => if flags.unicode then .anyScript else .wordStart
  | .wordEnd => if flags.unicode then .anyScript else .wordEnd
  | .wordStartHalf => if flags.unicode then .anyScript else .wordStartHalf
  | .wordEndHalf => if flags.unicode then .anyScript else .wordEndHalf

end Flags

/-- The ranges of a class with a name. -/
def NamedClass.ranges : NamedClass → List (Char × Char)
  | alnum => [('0', '9'), ('A', 'Z'), ('a', 'z')]
  | alpha => [('A', 'Z'), ('a', 'z')]
  | ascii => [('\x00', '\x7f')]
  | blank => [('\t', '\t'), (' ', ' ')]
  | cntrl => [('\x00', '\x1f'), ('\x7f', '\x7f')]
  | digit => [('0', '9')]
  | graph => [('!', '~')]
  | lower => [('a', 'z')]
  | print => [(' ', '~')]
  | punct => [('!', '/'), (':', '@'), ('[', '\x60'), ('\x7b', '~')]
  | space => [('\t', '\r'), (' ', ' ')]
  | upper => [('A', 'Z')]
  | word => [('0', '9'), ('A', 'Z'), ('_', '_'), ('a', 'z')]
  | xdigit => [('0', '9'), ('A', 'F'), ('a', 'f')]

/-- A class of characters, and whether it needs no other case of letters. -/
structure CharClass where
  set : CharSet
  isFolded : Bool

namespace CharClass

/-- The class of nothing. -/
def nothing : CharClass := ⟨.nothing, true⟩

/-- The class of a range as it is written. -/
def range (first last : Char) : CharClass := ⟨.range first last, false⟩

/-- A combination of classes. -/
def combine (operation : CharSet → CharSet → CharSet) (a b : CharClass) : CharClass :=
  ⟨operation a.set b.set, a.isFolded && b.isFolded⟩

/-- The operation on sets of an operator. -/
def operation : ClassOperator → CharSet → CharSet → CharSet
  | .intersection => .intersection
  | .difference => .difference
  | .symmetricDifference => .symmetricDifference

end CharClass

/-- Finding what a pattern matches under the flags in force. -/
abbrev Interpreting := StateT Flags (Except Problem)

namespace Interpreting

/-- The problem that a part is wrong. -/
def fail {α : Type} (kind : Problem.Kind) (span : Span) : Interpreting α :=
  throw (.malformed kind span none)

/-- The name of a property as it is compared: without case, blanks, hyphens and underscores. -/
def plainName (name : String) : String :=
  String.ofList ((name.toList.filter fun c => !" _-".toList.contains c).map Char.toLower)

/-- The problem with a property. A name that could also be one of a value is taken for that. -/
def property {α : Type} (span : Span) (name : String) : Interpreting α := do
  if !(← get).unicode then
    fail .notUnicode span
  let values := ["cf", "sc", "lc", "iscf", "issc", "islc"]
  fail (if values.contains (plainName name) then .unknownPropertyValue else .unknownProperty) span

/-- The character of a literal outside of classes. A byte beyond ASCII is no text. -/
def character (literal : Literal) : Interpreting Char := do
  if !(← get).unicode && literal.isByte && 0x80 ≤ literal.char.toNat then
    fail .notText literal.span
  return literal.char

/-- The character of a literal in a class. -/
def classCharacter (literal : Literal) : Interpreting Char := do
  let c ← character literal
  if !(← get).unicode && 0x80 ≤ c.toNat then
    fail .notUnicode literal.span
  return c

/-- A class with the other case of its letters, where case is ignored. -/
def folded (span : Span) (a : CharClass) : Interpreting CharClass := do
  let flags ← get
  if !flags.ignoreCase || a.isFolded then
    return a
  if flags.unicode then
    fail .noUnicodeCase span
  return ⟨.eitherCase a.set, true⟩

/-- A class, or all other characters. Without Unicode it has to keep to ASCII. -/
def negated (span : Span) (isNegated : Bool) (a : CharClass) : Interpreting CharClass := do
  let a := if isNegated then { a with set := .complement a.set } else a
  if !(← get).unicode && a.set.contains '\x80' then
    fail .notText span
  return a

/-- A shorthand for a class. -/
def shorthand (span : Span) (name : NamedClass) (isNegated : Bool) : Interpreting CharClass := do
  if (← get).unicode then
    fail .noUnicodeShorthand span
  negated span isNegated ⟨.ofRanges name.ranges, true⟩

mutual

/-- What an item of a class matches. -/
def classOf : ClassTree → Interpreting CharClass
  | .empty _ => return .nothing
  | .literal literal => do
    let c ← classCharacter literal
    return .range c c
  | .range first last => return .range (← classCharacter first) (← classCharacter last)
  | .named span name isNegated => do
    negated span isNegated (← folded span ⟨.ofRanges name.ranges, false⟩)
  | .shorthand span name isNegated => shorthand span name isNegated
  | .property span name => property span name
  | .brackets span isNegated content => do
    negated span isNegated (← folded span (← classOf content))
  | .union _ items => classOfItems items
  | .combination operator left right => do
    let a ← classOf left
    let b ← folded right.span (← classOf right)
    let a ← folded left.span a
    return .combine (CharClass.operation operator) a b

/-- What several items of a class match. -/
def classOfItems : List ClassTree → Interpreting CharClass
  | [] => return .nothing
  | item :: items => do
    let a ← classOf item
    return .combine .union a (← classOfItems items)

end

/-- The characters that a dot matches: all but those that end lines. -/
def dot (span : Span) : Interpreting Expression := do
  let flags ← get
  if !flags.unicode then
    fail .notText span
  let ends :=
    if flags.dotMatchesAll then []
    else if flags.returnFeed then [('\n', '\n'), ('\r', '\r')]
    else [('\n', '\n')]
  return .one (.complement (.ofRanges ends))

/-- A character, in both cases where case is ignored. -/
def literal (literal : Literal) : Interpreting Expression := do
  let c ← character literal
  return .one (← folded literal.span (.range c c)).set

mutual

/-- What a part of a pattern matches. -/
def expression : Tree → Interpreting Expression
  | .empty _ => return .empty
  | .flags _ changes => do
    modify fun flags => changes.foldl Flags.change flags
    return .empty
  | .literal character => literal character
  | .dot span => dot span
  | .boundary _ kind => return .only ((← get).condition kind)
  | .shorthand span name isNegated => return .one (← shorthand span name isNegated).set
  | .property span name => property span name
  | .brackets span isNegated content => do
    let a ← negated span isNegated (← folded span (← classOf content))
    return .one a.set
  | .repetition _ least most body => do
    let body ← expression body
    return if most == some 0 then .empty else .repetition least most body
  | .group _ _ changes body => do
    let before ← get
    set (changes.foldl Flags.change before)
    let body ← expression body
    set before
    return body
  | .sequence _ parts => sequence parts
  | .choice _ alternatives => choice alternatives

/-- What several parts match in a row. -/
def sequence : List Tree → Interpreting Expression
  | [] => return .empty
  | part :: parts => do
    let first ← expression part
    return first.before (← sequence parts)

/-- What one of several parts matches. -/
def choice : List Tree → Interpreting Expression
  | [] => return .one .nothing
  | part :: parts => do
    let first ← expression part
    return .choice first (← choice parts)

end

end Interpreting

/-- What a text that is a pattern matches. -/
def Expression.ofText (text : String) : Except Problem Expression := do
  let tree ← Tree.ofText text
  tree.checkDepth depthLimit
  let (expression, _) ← (Interpreting.expression tree).run {}
  if Tree.sizeLimit < tree.size then
    throw .tooLarge
  if expression.needsScripts then
    throw .noWordBoundaries
  return expression

end WorkingCopies.Pattern
