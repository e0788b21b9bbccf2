import WorkingCopies.Yaml.Token.Gap

/-!
# Plain scalars

A scalar without quotes ends at a colon with a gap behind it, at a comment, at a mark inside
brackets, or at a line that is indented too little to belong to it.
-/

namespace WorkingCopies.Yaml

/-- Whether a plain scalar ends before a character, given the one behind that. Inside brackets it
also stops at a colon right before a mark, which is then an error. -/
def endsPlain (inFlow : Bool) (c : Char) (after : Option Char) : Bool :=
  isSpace c || isBreak c || (c == ':' && isGap after) ||
    (inFlow && (isFlowMark c || (c == ':' && after.any fun a => isFlowMark a || a == '?')))

/-- The word of a plain scalar at the start of a text. -/
def plainWord (inFlow : Bool) : List Char → List Char
  | [] => []
  | c :: rest => if endsPlain inFlow c rest.head? then [] else c :: plainWord inFlow rest

/-- Whether a colon comes next that has a mark right behind it. -/
def Cursor.atMarkedColon (cursor : Cursor) : Bool :=
  match cursor.rest with
  | ':' :: c :: _ => isFlowMark c || c == '?'
  | _ => false

/-- Read a plain scalar on, behind some of its text and a gap. It comes with whether the scalar was
followed by the end of a line. -/
def readPlainOn (inFlow : Bool) (indent : Int) :
    Nat → List Char → Gap → Cursor → Except Error (List Char × Bool × Cursor)
  | 0, text, gap, cursor => .ok (text, gap.crossesLine, cursor)
  | fuel + 1, text, gap, cursor => do
    if cursor.atDocumentMark || cursor.startsWith '#' then
      return (text, gap.crossesLine, cursor)
    let word := plainWord inFlow cursor.rest
    let behind := cursor.skip word.length
    if inFlow && behind.atMarkedColon then
      behind.fail "found unexpected ':'"
    if word.isEmpty then
      return (text, gap.crossesLine, behind)
    let text := text ++ gap.text ++ word
    let (gap, behind) ← Gap.read indent {} behind
    if gap.spaces.isEmpty && !gap.crossesLine then
      return (text, false, behind)
    if !inFlow && behind.place.column < indent then
      return (text, gap.crossesLine, behind)
    readPlainOn inFlow indent fuel text gap behind

/-- Read a plain scalar inside a block of the given indentation. It comes with whether the end of a
line followed. -/
def readPlain (inFlow : Bool) (indent : Int) (cursor : Cursor) :
    Except Error (String × Bool × Cursor) := do
  let (text, crossesLine, cursor) ←
    readPlainOn inFlow (indent + 1) (cursor.rest.length + 1) [] {} cursor
  return (String.ofList text, crossesLine, cursor)

end WorkingCopies.Yaml
