import WorkingCopies.Pattern.Tree

/-!
# Matching

An expression matches parts of a text. Whether it matches a part may also depend on the characters
next to it, as boundaries do. A text is searched from left to right, with all expressions that
remain to be matched from the places where a match may have begun.
-/

namespace WorkingCopies.Pattern

/-- A set of characters. -/
inductive CharSet where
  | nothing
  | range (first last : Char)
  | union (a b : CharSet)
  | intersection (a b : CharSet)
  | difference (a b : CharSet)
  | symmetricDifference (a b : CharSet)
  | complement (a : CharSet)
  /-- The set with the letters of ASCII in both cases for those that it has in one. -/
  | eitherCase (a : CharSet)
  deriving Repr, DecidableEq, Inhabited

namespace CharSet

/-- A letter of ASCII in the other case; any other character itself. -/
def otherCase (c : Char) : Char := if c.isUpper then c.toLower else c.toUpper

/-- Whether a set has a character. -/
def contains : CharSet → Char → Bool
  | nothing, _ => false
  | range first last, c => first ≤ c && c ≤ last
  | union a b, c => a.contains c || b.contains c
  | intersection a b, c => a.contains c && b.contains c
  | difference a b, c => a.contains c && !b.contains c
  | symmetricDifference a b, c => a.contains c != b.contains c
  | complement a, c => !a.contains c
  | eitherCase a, c => a.contains c || a.contains (otherCase c)

/-- The set of one character. -/
def single (c : Char) : CharSet := range c c

/-- The union of several ranges. -/
def ofRanges (ranges : List (Char × Char)) : CharSet :=
  ranges.foldr (fun (first, last) set => union (range first last) set) nothing

end CharSet

/-- The ends of lines that boundaries know: a line feed alone, or also a carriage return, which
makes one end together with a line feed behind it. -/
inductive LineEnds where
  | lineFeed
  | returnAndLineFeed
  deriving Repr, DecidableEq, Inhabited

/-- What has to hold at a place of a text. -/
inductive Condition where
  | textStart
  | textEnd
  | lineStart (ends : LineEnds)
  | lineEnd (ends : LineEnds)
  | word
  | noWord
  | wordStart
  | wordEnd
  | wordStartHalf
  | wordEndHalf
  /-- A boundary between words of any script, which is not supported. -/
  | anyScript
  deriving Repr, DecidableEq, Inhabited

namespace Condition

/-- Whether a character belongs to a word: a letter or digit of ASCII or an underscore. -/
def isWordChar (c : Char) : Bool := c.isAlphanum || c == '_'

/-- Whether a condition holds between two characters, or at an end of the text. -/
def holds (before after : Option Char) : Condition → Bool
  | textStart => before.isNone
  | textEnd => after.isNone
  | lineStart .lineFeed => before.all (· == '\n')
  | lineStart .returnAndLineFeed =>
    before.all (· == '\n') || (before == some '\r' && after != some '\n')
  | lineEnd .lineFeed => after.all (· == '\n')
  | lineEnd .returnAndLineFeed =>
    after.all (· == '\r') || (after == some '\n' && before != some '\r')
  | word => before.any isWordChar != after.any isWordChar
  | noWord => before.any isWordChar == after.any isWordChar
  | wordStart => !before.any isWordChar && after.any isWordChar
  | wordEnd => before.any isWordChar && !after.any isWordChar
  | wordStartHalf => !before.any isWordChar
  | wordEndHalf => !after.any isWordChar
  | anyScript => false

end Condition

/-- What is looked for. -/
inductive Expression where
  | empty
  | one (set : CharSet)
  | only (condition : Condition)
  | sequence (first second : Expression)
  | choice (first second : Expression)
  | repetition (least : Nat) (most : Option Nat) (body : Expression)
  deriving Repr, DecidableEq, Inhabited

namespace Expression

/-- One expression before another. Of the empty one nothing remains. -/
def before : Expression → Expression → Expression
  | empty, second => second
  | first, second => sequence first second

/-- Whether an expression matches the empty text between two characters. -/
def matchesEmpty (previous next : Option Char) : Expression → Bool
  | empty => true
  | one _ => false
  | only condition => condition.holds previous next
  | sequence first second => first.matchesEmpty previous next && second.matchesEmpty previous next
  | choice first second => first.matchesEmpty previous next || second.matchesEmpty previous next
  | repetition least _ body => least == 0 || body.matchesEmpty previous next

/-- What remains to be matched behind a character: one of some expressions. When the body of a
repetition matches the empty text, all the repetitions still needed may be empty. -/
def behind (previous : Option Char) (c : Char) : Expression → List Expression
  | empty | only _ => []
  | one set => if set.contains c then [empty] else []
  | sequence first second =>
    (first.behind previous c).map (·.before second) ++
      if first.matchesEmpty previous (some c) then second.behind previous c else []
  | choice first second => first.behind previous c ++ second.behind previous c
  | repetition least most body =>
    if most == some 0 then []
    else
      let least := if body.matchesEmpty previous (some c) then 0 else least - 1
      (body.behind previous c).map (·.before (repetition least (most.map (· - 1)) body))

/-- Whether an expression matches a part of what follows a character, or one of those does that
remain to be matched from before. -/
def occursBehind (expression : Expression) (previous : Option Char) (remaining : List Expression) :
    List Char → Bool
  | [] => (expression :: remaining).any (matchesEmpty previous none)
  | c :: text =>
    let all := expression :: remaining
    all.any (matchesEmpty previous (some c)) ||
      occursBehind expression (some c) (all.flatMap (behind previous c)).eraseDups text

/-- Whether an expression matches a part of a text. -/
def occursIn (expression : Expression) (text : String) : Bool :=
  expression.occursBehind none [] text.toList

/-- Whether an expression has conditions that are not supported. -/
def needsScripts : Expression → Bool
  | empty | one _ => false
  | only condition => condition == .anyScript
  | sequence first second | choice first second => first.needsScripts || second.needsScripts
  | repetition _ _ body => body.needsScripts

end Expression

end WorkingCopies.Pattern
