import WorkingCopies.Text.Utf8

/-!
# Text without control sequences

A terminal takes some characters for orders: control characters, and sequences that start with an
escape character. A text that is not meant for a terminal is shown without both. White space stays,
also inside a sequence. There the text behind it stays as well, up to the next control character,
at which the sequence goes on.
-/

namespace WorkingCopies.Text

/-- The part of a control sequence that a character belongs to. -/
inductive ControlPart where
  /-- No sequence at all. -/
  | outside
  /-- Behind the escape character. -/
  | escape
  | escapeIntermediate
  /-- Behind the mark of a sequence with parameters. -/
  | start
  | parameters
  | intermediate
  /-- A malformed sequence with parameters. -/
  | ignored
  /-- Behind the mark of a device control string. -/
  | deviceStart
  | deviceParameters
  | deviceIntermediate
  /-- A device control string. -/
  | deviceText
  /-- A string for an operating system command. -/
  | systemText
  /-- A string of any other kind. -/
  | otherText
  deriving Repr, DecidableEq, Inhabited

namespace ControlPart

/-- Whether white space stays in a part of a sequence. -/
def keepsBlanks : ControlPart → Bool
  | outside | escape | escapeIntermediate | start | parameters | intermediate | ignored => true
  | _ => false

/-- What a character behind the escape character begins. -/
def ofMark (c : Char) : ControlPart :=
  if c == '[' then start
  else if c == 'P' then deviceStart
  else if c == ']' then systemText
  else if c == 'X' || c == '^' || c == '_' then otherText
  else outside

/-- The part behind a character for each class of characters: `mark` from blank to slash, `digit`
from zero to semicolon, `sign` from less-than to question mark, and `final` for letters and the
marks between and behind them. All other characters leave the sequence in the same part. -/
def behind (part mark digit sign final : ControlPart) (c : Char) : ControlPart :=
  if c < ' ' || '~' < c then part
  else if c ≤ '/' then mark
  else if c ≤ ';' then digit
  else if c ≤ '?' then sign
  else final

/-- Whether a character has the byte that ends a string. -/
def endsString (c : Char) : Bool := (encode c.toString).contains 0x9C

/-- The part of a sequence that comes behind a character of it. -/
def next (part : ControlPart) (c : Char) : ControlPart :=
  if c == '\x1b' then escape
  else if c == '\x18' || c == '\x1a' then outside
  else match part with
    | outside => outside
    | escape =>
      if c < ' ' || '~' < c then part else if c ≤ '/' then escapeIntermediate else ofMark c
    | escapeIntermediate => behind part part outside outside outside c
    | start => behind part intermediate parameters parameters outside c
    | parameters => behind part intermediate part ignored outside c
    | intermediate => behind part part ignored ignored outside c
    | ignored => behind part part part part outside c
    | deviceStart => behind part deviceIntermediate deviceParameters deviceParameters deviceText c
    | deviceParameters => behind part deviceIntermediate part deviceText deviceText c
    | deviceIntermediate => behind part part deviceText deviceText deviceText c
    | systemText => if c == '\x07' then outside else part
    | deviceText | otherText => if endsString c then outside else part

end ControlPart

/-- Whether a character is white space that moves the place of writing. -/
def isLayout (c : Char) : Bool := c == '\t' || c == '\n' || c == '\x0c' || c == '\r'

/-- Whether a character is shown outside of control sequences. -/
def isShown (c : Char) : Bool := isLayout c || (' ' ≤ c && c != '\x7f')

/-- The characters that stay behind some part of a control sequence. A sequence is open when white
space inside of it has let text through. -/
def visible : ControlPart → (isOpen : Bool) → List Char → List Char
  | _, _, [] => []
  | part, isOpen, c :: rest =>
    if isOpen || part == .outside then
      if isShown c then
        c :: if c.toNat < 0x80 then visible part isOpen rest else visible .outside false rest
      else visible (part.next c) false rest
    else if isLayout c && part.keepsBlanks then c :: visible part true rest
    else visible (part.next c) false rest

/-- A text without control characters and sequences. -/
def withoutControls (text : String) : String :=
  String.ofList (visible .outside false text.toList)

/-- Of a text without control characters, all is kept. -/
theorem visible_of_shown {text : List Char} (h : ∀ c ∈ text, isShown c = true) :
    visible .outside false text = text := by
  induction text with
  | nil => rfl
  | cons c rest ih => simp_all [visible]

/-- All that is kept is shown. -/
theorem isShown_of_mem_visible {part : ControlPart} {isOpen : Bool} {text : List Char} {c : Char}
    (h : c ∈ visible part isOpen text) : isShown c = true := by
  fun_induction visible part isOpen text <;> simp_all [isShown]
  all_goals grind

end WorkingCopies.Text
