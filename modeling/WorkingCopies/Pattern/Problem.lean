import WorkingCopies.Pattern.Place
import WorkingCopies.Text.Lines

/-!
# Problems with patterns

A problem is reported under the pattern, with carets below the part that is wrong. The lines of a
pattern that has several are numbered and stand between two rules.
-/

namespace WorkingCopies.Pattern

/-- What can be wrong with one part of a pattern. -/
inductive Problem.Kind where
  | classEscape
  | classRangeOrder
  | classRangeEnd
  | openClass
  | largeNumber
  | noDigits
  | noCharacter
  | notHexadecimal
  | openEscape
  | unknownEscape
  | idleNegation
  | repeatedFlag
  | repeatedNegation
  | openFlags
  | unknownFlag
  | repeatedName
  | emptyName
  | nameCharacter
  | openName
  | openGroup
  | unopenedGroup
  | tooDeep (limit : Nat)
  | countOrder
  | noCount
  | openCount
  | nothingToRepeat
  | openBoundary
  | unknownBoundary
  | openBraceBehindBoundary
  | propertyName
  | backreference
  | lookAround
  | notUnicode
  | notText
  | unknownProperty
  | unknownPropertyValue
  | noUnicodeShorthand
  | noUnicodeCase
  deriving Repr, DecidableEq, Inhabited

/-- What is said about a part of a pattern that is wrong. -/
def Problem.Kind.message : Problem.Kind → String
  | classEscape => "invalid escape sequence found in character class"
  | classRangeOrder => "invalid character class range, the start must be <= the end"
  | classRangeEnd => "invalid range boundary, must be a literal"
  | openClass => "unclosed character class"
  | largeNumber => "decimal literal invalid"
  | noDigits => "hexadecimal literal empty"
  | noCharacter => "hexadecimal literal is not a Unicode scalar value"
  | notHexadecimal => "invalid hexadecimal digit"
  | openEscape => "incomplete escape sequence, reached end of pattern prematurely"
  | unknownEscape => "unrecognized escape sequence"
  | idleNegation => "dangling flag negation operator"
  | repeatedFlag => "duplicate flag"
  | repeatedNegation => "flag negation operator repeated"
  | openFlags => "expected flag but got end of regex"
  | unknownFlag => "unrecognized flag"
  | repeatedName => "duplicate capture group name"
  | emptyName => "empty capture group name"
  | nameCharacter => "invalid capture group character"
  | openName => "unclosed capture group name"
  | openGroup => "unclosed group"
  | unopenedGroup => "unopened group"
  | tooDeep limit =>
    "exceed the maximum number of nested parentheses/brackets (" ++ toString limit ++ ")"
  | countOrder => "invalid repetition count range, the start must be <= the end"
  | noCount => "repetition quantifier expects a valid decimal"
  | openCount => "unclosed counted repetition"
  | nothingToRepeat => "repetition operator missing expression"
  | openBoundary =>
    "special word boundary assertion is either unclosed or contains an invalid character"
  | unknownBoundary =>
    "unrecognized special word boundary assertion, valid choices are: start, end, start-half " ++
      "or end-half"
  | openBraceBehindBoundary =>
    "found either the beginning of a special word boundary or a bounded repetition on a \\b " ++
      "with an opening brace, but no closing brace"
  | propertyName => "invalid Unicode character class"
  | backreference => "backreferences are not supported"
  | lookAround => "look-around, including look-ahead and look-behind, is not supported"
  | notUnicode => "Unicode not allowed here"
  | notText => "pattern can match invalid UTF-8"
  | unknownProperty => "Unicode property not found"
  | unknownPropertyValue => "Unicode property value not found"
  | noUnicodeShorthand =>
    "Unicode-aware Perl class not found (make sure the unicode-perl feature is enabled)"
  | noUnicodeCase =>
    "Unicode-aware case insensitivity matching is not available (make sure the unicode-case " ++
      "feature is enabled)"

/-- Why a pattern cannot be used. -/
inductive Problem where
  /-- A part of it is wrong, maybe because of an earlier part. -/
  | malformed (kind : Problem.Kind) (span : Span) (earlier : Option Span)
  /-- It takes too much memory. -/
  | tooLarge
  /-- It asks for boundaries between words of any script. -/
  | noWordBoundaries
  deriving Repr, DecidableEq, Inhabited

namespace Problem

/-- A text of one character repeated. -/
def repeated (c : Char) (count : Nat) : String := String.ofList (List.replicate count c)

/-- Carets below some spans of a line, of which `column` columns are written. Each span has at
least one caret. -/
def carets : (column : Nat) → List Span → String
  | _, [] => ""
  | column, span :: spans =>
    let gap := span.start.column - 1 - column
    let width := max 1 (span.stop.column - span.start.column)
    repeated ' ' gap ++ repeated '^' width ++ carets (column + gap + width) spans

/-- The spans of a problem, first those that start first. -/
def spans (span : Span) (earlier : Option Span) : List Span :=
  (span :: earlier.toList).mergeSort fun a b =>
    a.start.line < b.start.line ||
      a.start.line == b.start.line && a.start.column ≤ b.start.column

/-- The number of lines of a pattern. A line feed at the end begins one more. -/
def lineCount (pattern : String) : Nat :=
  (Text.lines pattern).length + if pattern.toList.getLast? == some '\n' then 1 else 0

/-- The number of a line with blanks before it to a width. -/
def lineNumber (width number : Nat) : String :=
  let digits := toString number
  repeated ' ' (width - digits.length) ++ digits

/-- The lines of a pattern with carets below the spans that lie within one line. -/
def marked (pattern : String) (spans : List Span) : List String :=
  let count := lineCount pattern
  let width := if count ≤ 1 then 0 else (toString count).length
  ((Text.lines pattern).zipIdx 1).flatMap fun (line, number) =>
    let head := if width == 0 then "    " else lineNumber width number ++ ": "
    let here := spans.filter fun span => span.isInLine && span.start.line == number
    (head ++ line) :: if here.isEmpty then [] else [repeated ' ' head.length ++ carets 0 here]

/-- What is said about spans of several lines. -/
def extents (spans : List Span) : List String :=
  (spans.filter fun span => !span.isInLine).map fun span =>
    "on line " ++ toString span.start.line ++ " (column " ++ toString span.start.column ++
      ") through line " ++ toString span.stop.line ++ " (column " ++
      toString (span.stop.column - 1) ++ ")"

/-- The report of a problem with a pattern. -/
def report (pattern : String) : Problem → String
  | malformed kind span earlier =>
    let spans := spans span earlier
    let marked := marked pattern spans
    let divider := repeated '~' 79
    let lines :=
      if pattern.toList.contains '\n' then
        [divider] ++ marked ++ [divider] ++ extents spans
      else marked
    "\n".intercalate ("regex parse error:" :: lines ++ ["error: " ++ kind.message])
  | tooLarge => "Compiled regex exceeds size limit of 10485760 bytes."
  | noWordBoundaries => "error building NFA"

end Problem

end WorkingCopies.Pattern
