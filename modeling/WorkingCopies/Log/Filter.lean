import WorkingCopies.Log
import WorkingCopies.Pattern.Meaning
import WorkingCopies.Text.Blank
import WorkingCopies.Text.Replace

/-!
# Selecting entries of the log

Rules say up to which level entries are shown, for all topics or for those whose names start with a
given text. Of the rules that fit a topic, the one with the longest text counts, and of several such
rules the last. A pattern may have to occur in the texts of the entries besides.
-/

namespace WorkingCopies.Log

/-- The entries that are shown: none, or all up to a level. -/
abbrev Threshold := Option Level

/-- How far down a level stands in the order of importance. -/
def Level.rank : Level → Nat
  | error => 1
  | warning => 2
  | info => 3
  | debug => 4
  | trace => 5

/-- The threshold of a name, in capitals or not. -/
def threshold? (name : String) : Option Threshold :=
  match name.map Char.toLower with
  | "off" => some none
  | "error" => some (some .error)
  | "warn" => some (some .warning)
  | "info" => some (some .info)
  | "debug" => some (some .debug)
  | "trace" => some (some .trace)
  | _ => none

/-- Whether entries of a level are shown. -/
def Level.isWithin (level : Level) (threshold : Threshold) : Bool :=
  threshold.any fun last => level.rank ≤ last.rank

/-- A rule: the start of the names of the topics that it is for, without which it is for all, and
its threshold. -/
structure Rule where
  start : Option String
  threshold : Threshold
  deriving Repr, DecidableEq

/-- Which entries are shown. -/
structure Filter where
  rules : List Rule
  /-- A pattern that has to occur in an entry. -/
  wanted : Option Pattern.Expression := none
  deriving Repr, DecidableEq

/-- Rules, what they want of entries, and complaints about what could not be understood. -/
structure Specification where
  rules : List Rule := []
  wanted : Option Pattern.Expression := none
  complaints : List String := []

namespace Specification

/-- The parts of a text between marks. -/
def split (mark : Char) (text : String) : List String :=
  (text.toList.splitOn mark).map String.ofList

/-- The complaint about a text. -/
def complaint (text : String) : String := "invalid logging spec '" ++ text ++ "'"

/-- The rule that a part of a specification gives: a threshold for all topics, the start of a topic
for which everything is shown, or both with an equals sign between them. -/
def rule (part : String) : Except String Rule :=
  match split '=' part with
  | [word] =>
    match threshold? word with
    | some threshold => .ok ⟨none, threshold⟩
    | none => .ok ⟨some word, some .trace⟩
  | [start, level] =>
    let level := Text.trim level
    if level.isEmpty then .ok ⟨some start, some .trace⟩
    else match threshold? level with
      | some threshold => .ok ⟨some start, threshold⟩
      | none => .error (complaint level)
  | _ => .error (complaint part)

/-- Add the rule of a part, or the complaint about it. -/
def addPart (specification : Specification) (part : String) : Specification :=
  match rule part with
  | .ok rule => { specification with rules := specification.rules ++ [rule] }
  | .error complaint =>
    { specification with complaints := specification.complaints ++ [complaint] }

/-- Want a pattern of entries, or add the complaint about it. -/
def addPattern (specification : Specification) (pattern : String) : Specification :=
  match Pattern.Expression.ofText pattern with
  | .ok wanted => { specification with wanted := some wanted }
  | .error problem =>
    let complaint := "invalid regex filter - " ++ problem.report pattern
    { specification with complaints := specification.complaints ++ [complaint] }

/-- Read a specification: parts between commas, and behind a slash the pattern that has to occur in
entries. -/
def read (text : String) : Specification :=
  let parts (list : String) : Specification :=
    (((split ',' list).map Text.trim).filter fun part => !part.isEmpty).foldl addPart {}
  match split '/' text with
  | [list] => parts list
  | [list, pattern] => (parts list).addPattern pattern
  | _ => { complaints := [complaint text ++ " (too many '/'s)"] }

end Specification

namespace Filter

/-- Add a rule. It takes the place of a rule for the same topics. -/
def add (rules : List Rule) (rule : Rule) : List Rule :=
  if rules.any fun old => old.start = rule.start then
    rules.map fun old => if old.start = rule.start then rule else old
  else rules ++ [rule]

/-- The filter of a threshold for all topics and a specification, which counts more. -/
def of (threshold : Threshold) (specification : Specification) : Filter where
  rules := specification.rules.foldl add [⟨none, threshold⟩]
  wanted := specification.wanted

/-- Whether a rule fits a topic. -/
def fits (topic : Topic) (rule : Rule) : Bool :=
  rule.start.all fun start => (Text.stripInitial? start.toList topic.name.toList).isSome

/-- The length of the text of a rule. -/
def weight (rule : Rule) : Nat := (rule.start.map (·.utf8ByteSize)).getD 0

/-- The rule that counts for a topic. -/
def ruleFor? (filter : Filter) (topic : Topic) : Option Rule :=
  ((filter.rules.mergeSort fun a b => weight a ≤ weight b).reverse).find? (fits topic)

/-- Whether an entry is shown. -/
def shows (filter : Filter) (entry : Entry) : Bool :=
  (filter.ruleFor? entry.topic).any (fun rule => entry.level.isWithin rule.threshold) &&
    filter.wanted.all fun wanted => wanted.occursIn entry.text

end Filter

end WorkingCopies.Log
