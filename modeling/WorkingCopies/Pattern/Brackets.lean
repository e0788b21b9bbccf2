import WorkingCopies.Pattern.Escape

/-!
# Classes in brackets

Between brackets stand characters, ranges, classes with names and further brackets, which may be
combined by operators. The operators bind all alike, from the left.
-/

namespace WorkingCopies.Pattern

/-- The items of a class so far. -/
structure ClassItems where
  span : Span
  items : List ClassTree := []

namespace ClassItems

/-- Add an item. -/
def push (list : ClassItems) (item : ClassTree) : ClassItems where
  span := ⟨if list.items.isEmpty then item.span.start else list.span.start, item.span.stop⟩
  items := list.items ++ [item]

/-- The items as one. -/
def tree (list : ClassItems) : ClassTree :=
  match list.items with
  | [] => .empty list.span
  | [item] => item
  | items => .union list.span items

end ClassItems

/-- A class whose opening bracket has been read. -/
structure OpenClass where
  span : Span
  isNegated : Bool
  items : ClassItems

/-- What stands to the left of an operator, and the operator. -/
abbrev Operand := ClassTree × ClassOperator

/-- The class that a part to the left of an operator, if there is one, makes with the part to the
right of it. -/
def combined (left : Option Operand) (right : ClassTree) : ClassTree :=
  match left with
  | some (left, operator) => .combination operator left right
  | none => right

/-- The name of a class, and whether it is negated, between colons and brackets. Gives what is
behind as well. -/
def namedClass? (text : List Char) : Option (NamedClass × Bool × List Char) := do
  let text ← Text.stripInitial? ['[', ':'] text
  let (isNegated, text) := match text with
    | '^' :: rest => (true, rest)
    | rest => (false, rest)
  let name := text.takeWhile (· != ':')
  let rest ← Text.stripInitial? [':', ']'] (text.drop name.length)
  return (← NamedClass.ofName? (String.ofList name), isNegated, rest)

namespace Reading

/-- Go on with the next character and blanks without meaning in a class that is still open. -/
def advanceInClass (span : Reading Span) : Reading Unit := do
  if (← advance).isNone then
    fail .openClass (← span)

/-- Read hyphens at the start of a class. -/
def hyphens (start : Place) : Nat → ClassItems → Reading ClassItems
  | 0, list => return list
  | fuel + 1, list => do
    if (← next?) != some '-' then
      return list
    let list := list.push (.literal { span := ← spanOfNext, char := '-' })
    advanceInClass (pure (.emptyAt start))
    hyphens start fuel list

/-- Read what opens a class: the bracket, a circumflex that negates it, and hyphens or else a
closing bracket that stand for themselves there. -/
def openClass : Reading OpenClass := do
  let start ← here
  advanceInClass (spanFrom start)
  let isNegated := (← next?) == some '^'
  if isNegated then
    advanceInClass (spanFrom start)
  let items ← hyphens start (← fuel) { span := .emptyAt (← here) }
  if items.items.isEmpty && (← next?) == some ']' then
    let items := items.push (.literal { span := ← spanOfNext, char := ']' })
    advanceInClass (spanFrom start)
    return { span := ← spanFrom start, isNegated, items }
  return { span := ← spanFrom start, isNegated, items }

/-- Read a character of a class or an escape in it. -/
def classAtom : Reading Tree := do
  match ← next? with
  | some '\\' => escape
  | next =>
    let span ← spanOfNext
    skip
    return .literal { span, char := next.getD '\\' }

/-- An escape as an item of a class. -/
def itemOf : Tree → Reading ClassTree
  | .literal character => return .literal character
  | .shorthand span name isNegated => return .shorthand span name isNegated
  | .property span name => return .property span name
  | other => fail .classEscape other.span

/-- An escape as the end of a range. -/
def endOfRange : Tree → Reading Literal
  | .literal character => return character
  | other => fail .classRangeEnd other.span

/-- Read a character, a range or an escape in an open class. -/
def rangeOrItem (opening : Span) : Reading ClassTree := do
  let first ← classAtom
  skipBlanks
  if (← next?).isNone then
    fail .openClass opening
  if (← next?) != some '-' || [some ']', some '-'].contains (← afterNext?) then
    return ← itemOf first
  advanceInClass (pure opening)
  let last ← classAtom
  let span := ⟨first.span.start, last.span.stop⟩
  let first ← endOfRange first
  let last ← endOfRange last
  if last.char < first.char then
    fail .classRangeOrder span
  return .range first last

/-- Read an operator, if one comes next. -/
def classOperator? : Reading (Option ClassOperator) := do
  if ← skipText "&&" then
    return some .intersection
  if ← skipText "--" then
    return some .difference
  if ← skipText "~~" then
    return some .symmetricDifference
  return none

/-- Read a class with a name, if one comes next. -/
def namedItem? : Reading (Option ClassTree) := do
  let reader ← get
  match namedClass? reader.rest with
  | none => return none
  | some (name, isNegated, rest) =>
    let start := reader.place
    let width := reader.rest.length - rest.length
    let stop := (reader.rest.take width).foldl Place.behind start
    set { reader with rest, place := stop }
    return some (.named ⟨start, stop⟩ name isNegated)

mutual

/-- Read a class, from its opening bracket to the closing one. -/
def brackets : Nat → Reading (Span × Bool × ClassTree)
  | 0 => failAtNext .openClass
  | fuel + 1 => do
    let start ← here
    let opened ← openClass
    let content ← classContent opened.span fuel none opened.items
    skip
    return (← spanFrom start, opened.isNegated, content)

/-- Read on in a class to its closing bracket, behind an operator and some items. -/
def classContent (opening : Span) : Nat → Option Operand → ClassItems → Reading ClassTree
  | 0, _, _ => fail .openClass opening
  | fuel + 1, left, items => do
    skipBlanks
    match ← next? with
    | none => fail .openClass opening
    | some '[' =>
      if let some item ← namedItem? then
        classContent opening fuel left (items.push item)
      else
        let (span, isNegated, content) ← brackets fuel
        classContent opening fuel left (items.push (.brackets span isNegated content))
    | some ']' => return combined left items.tree
    | some _ =>
      if let some operator ← classOperator? then
        let left := (combined left items.tree, operator)
        classContent opening fuel (some left) { span := .emptyAt (← here) }
      else classContent opening fuel left (items.push (← rangeOrItem opening))

end

end Reading

end WorkingCopies.Pattern
