import WorkingCopies.Pattern.Brackets

/-!
# From text to pattern

A pattern is a choice between sequences of parts. A part may be repeated, and a group makes one part
of a whole pattern. Flags hold from where they are set to the end of the group around them.
-/

namespace WorkingCopies.Pattern

/-- What has been read of a group: the sequences before the last bar, and the parts behind it, the
last one first. -/
structure Draft where
  start : Place
  alternatives : List Tree := []
  partsStart : Place
  parts : List Tree := []

namespace Draft

/-- Add a part. -/
def push (draft : Draft) (part : Tree) : Draft := { draft with parts := part :: draft.parts }

/-- The sequence behind the last bar, which ends at a place. -/
def sequence (draft : Draft) (stop : Place) : Tree :=
  .ofParts ⟨draft.partsStart, stop⟩ draft.parts.reverse

/-- Begin another sequence at the place behind a bar. -/
def split (draft : Draft) (bar next : Place) : Draft :=
  { draft with
    alternatives := draft.alternatives ++ [draft.sequence bar], partsStart := next, parts := [] }

/-- All that was read, up to a place. -/
def tree (draft : Draft) (stop : Place) : Tree :=
  if draft.alternatives.isEmpty then draft.sequence stop
  else .choice ⟨draft.start, stop⟩ (draft.alternatives ++ [draft.sequence stop])

end Draft

/-- The state of a flag behind some changes, if they change it. -/
def stateOf? (flag : Flag) (changes : FlagChanges) : Option Bool := changes.lookup flag

/-- The flag of a letter. -/
def flagOf? : Char → Option Flag
  | 'i' => some .ignoreCase
  | 'm' => some .multiLine
  | 's' => some .dotMatchesAll
  | 'U' => some .swapGreed
  | 'u' => some .unicode
  | 'R' => some .returnFeed
  | 'x' => some .ignoreBlanks
  | _ => none

/-- A letter for a flag, or the sign that clears the flags behind it, and where it stands. -/
structure FlagMark where
  flag : Option Flag
  span : Span

/-- What the letters and signs in a list of flags say. -/
def changesOf (marks : List FlagMark) : FlagChanges :=
  let set := marks.takeWhile fun mark => mark.flag.isSome
  let cleared := marks.drop set.length
  let flags (marks : List FlagMark) (isOn : Bool) : FlagChanges :=
    marks.filterMap fun mark => mark.flag.map fun flag => (flag, isOn)
  flags set true ++ flags cleared false

/-- What opens a group, or else only sets flags. -/
inductive Opening where
  | flags (span : Span) (changes : FlagChanges)
  | group (span : Span) (isCaptured : Bool) (changes : FlagChanges)

/-- Whether a character may stand in the name of a group. Beyond ASCII all are taken for letters. -/
def isGroupNameChar (isFirst : Bool) (c : Char) : Bool :=
  c == '_' || c.isAlpha || 0x80 ≤ c.toNat ||
    (!isFirst && (c.isDigit || c == '.' || c == '[' || c == ']'))

namespace Reading

/-- Read the name of a group and the bracket behind it. -/
def groupName : Reading Unit := do
  let start ← here
  let mut name := []
  for c in (← get).rest.takeWhile (· != '>') do
    if !isGroupNameChar name.isEmpty c then
      failAtNext .nameCharacter
    skip
    name := name ++ [c]
  if (← next?).isNone then
    failAtNext .openName
  let span ← spanFrom start
  skip
  if name.isEmpty then
    fail .emptyName span
  let names := (← get).names
  match names.lookup (String.ofList name) with
  | some earlier => throw (.malformed .repeatedName span (some earlier))
  | none => modify fun reader =>
      { reader with names := names ++ [(String.ofList name, span)] }

/-- Add a letter or sign to a list of flags. None may stand there twice. -/
def addFlagMark (marks : List FlagMark) (c : Char) : Reading (List FlagMark) := do
  let span ← spanOfNext
  let flag ← if c == '-' then pure none else
    match flagOf? c with
    | some flag => pure (some flag)
    | none => fail .unknownFlag span
  match marks.find? fun mark => mark.flag == flag with
  | some earlier =>
    let kind := if flag.isSome then Problem.Kind.repeatedFlag else .repeatedNegation
    throw (.malformed kind span (some earlier.span))
  | none => return marks ++ [⟨flag, span⟩]

/-- Read a list of flags to the mark that ends it. -/
def flagMarks : Nat → List FlagMark → Reading (List FlagMark)
  | 0, marks => return marks
  | fuel + 1, marks => do
    match ← next? with
    | none => failAtNext .openFlags
    | some c =>
      if c == ':' || c == ')' then
        match marks.getLast? with
        | some ⟨none, span⟩ => fail .idleNegation span
        | _ => return marks
      else
        let marks ← addFlagMark marks c
        skip
        flagMarks fuel marks

/-- Read what opens a group, from its parenthesis on. -/
def opening : Reading Opening := do
  let start ← here
  let span ← spanOfNext
  discard advance
  for text in ["?=", "?!", "?<=", "?<!"] do
    if ← skipText text then
      fail .lookAround (← spanFrom start)
  let inside ← here
  if (← skipText "?P<") || (← skipText "?<") then
    groupName
    return .group span true []
  if !(← skipText "?") then
    return .group span true []
  if (← next?).isNone then
    fail .openGroup span
  let marks ← flagMarks (← fuel) []
  let isAlone := (← next?) == some ')'
  skip
  if !isAlone then
    return .group span false (changesOf marks)
  if marks.isEmpty then
    fail .nothingToRepeat (.emptyAt inside)
  return .flags (← spanFrom start) (changesOf marks)

/-- Step over blanks. -/
def skipAllBlanks : Reading Unit := modify fun reader =>
  let blanks := reader.rest.takeWhile Text.isBlank
  { reader with
    rest := reader.rest.drop blanks.length, place := blanks.foldl Place.behind reader.place }

/-- Read a number with blanks around it. One that is wrong counts as a problem only when the braces
around it turn out to be closed. -/
def number : Reading (Except Problem Nat) := do
  skipAllBlanks
  let start ← here
  let digits ← collect Char.isDigit (← fuel)
  let span ← spanFrom start
  skipAllBlanks
  skipBlanks
  let value := digits.foldl (fun n c => n * 10 + (c.toNat - '0'.toNat)) 0
  return if digits.isEmpty then .error (.malformed .noCount span none)
    else if value < Nat.pow 2 32 then .ok value
    else .error (.malformed .largeNumber span none)

/-- Take the last part of a sequence for what is repeated. -/
def repeatedPart (draft : Draft) : Reading (Tree × Draft) := do
  match draft.parts with
  | [] | .empty _ :: _ | .flags .. :: _ => fail .nothingToRepeat (.emptyAt (← here))
  | part :: parts => return (part, { draft with parts })

/-- Read a question mark that asks for few repetitions, if it comes next. Which repetitions are
tried first makes no difference to whether a pattern occurs. -/
def skipReluctance : Reading Unit := discard (skipText "?")

/-- Read a mark of repetition. -/
def repetition (draft : Draft) (least : Nat) (most : Option Nat) : Reading Draft := do
  let (part, draft) ← repeatedPart draft
  skip
  skipReluctance
  return draft.push (.repetition (← spanFrom part.span.start) least most part)

/-- Read the bounds of a counted repetition between the braces. -/
def bounds (start : Place) : Reading (Nat × Option Nat) := do
  let unfinished : Reading Unit := do
    if (← next?).isNone then
      fail .openCount (← spanFrom start)
  discard advance
  unfinished
  let least ← number
  unfinished
  if (← next?) != some ',' then
    let least ← least
    return (least, some least)
  discard advance
  unfinished
  let least ← least
  if (← next?) == some '}' then
    return (least, none)
  return (least, some (← MonadExcept.ofExcept (← number)))

/-- Read a counted repetition. -/
def countedRepetition (draft : Draft) : Reading Draft := do
  let start ← here
  let (part, draft) ← repeatedPart draft
  let (least, most) ← bounds start
  if (← next?) != some '}' then
    fail .openCount (← spanFrom start)
  discard advance
  skipReluctance
  if most.any (· < least) then
    fail .countOrder (← spanFrom start)
  return draft.push (.repetition (← spanFrom part.span.start) least most part)

/-- Read a part that is no group and no class in brackets. -/
def simplePart (c : Char) : Reading Tree := do
  if c == '\\' then
    return ← escape
  let span ← spanOfNext
  skip
  match c with
  | '.' => return .dot span
  | '^' => return .boundary span .lineStart
  | '$' => return .boundary span .lineEnd
  | c => return .literal { span, char := c }

/-- Read on in a group to its closing parenthesis, or to the end of the pattern outside of all
groups. -/
def content (group : Option Span) : Nat → Draft → Reading Tree
  | 0, draft => return draft.tree (← here)
  | fuel + 1, draft => do
    skipBlanks
    match ← next? with
    | none =>
      match group with
      | some span => fail .openGroup span
      | none => return draft.tree (← here)
    | some ')' =>
      if group.isNone then
        failAtNext .unopenedGroup
      return draft.tree (← here)
    | some '(' =>
      let before := (← get).ignoresBlanks
      let start ← here
      match ← opening with
      | .flags span changes =>
        let ignoresBlanks := (stateOf? .ignoreBlanks changes).getD before
        modify fun reader => { reader with ignoresBlanks }
        content group fuel (draft.push (.flags span changes))
      | .group span isCaptured changes =>
        let ignoresBlanks := (stateOf? .ignoreBlanks changes).getD before
        modify fun reader => { reader with ignoresBlanks }
        let place ← here
        let body ← content (some span) fuel { start := place, partsStart := place }
        modify fun reader => { reader with ignoresBlanks := before }
        skip
        content group fuel (draft.push (.group (← spanFrom start) isCaptured changes body))
    | some '|' =>
      let bar ← here
      skip
      content group fuel (draft.split bar (← here))
    | some '[' =>
      let (span, isNegated, set) ← brackets (2 * (← Reading.fuel))
      content group fuel (draft.push (.brackets span isNegated set))
    | some '?' => content group fuel (← repetition draft 0 (some 1))
    | some '*' => content group fuel (← repetition draft 0 none)
    | some '+' => content group fuel (← repetition draft 1 none)
    | some '{' => content group fuel (← countedRepetition draft)
    | some c => content group fuel (draft.push (← simplePart c))

end Reading

/-- The parts of a pattern. -/
def Tree.ofText (text : String) : Except Problem Tree := do
  let (tree, _) ← (Reading.content none (text.length + 1) { start := {}, partsStart := {} }).run
    { rest := text.toList }
  return tree

end WorkingCopies.Pattern
