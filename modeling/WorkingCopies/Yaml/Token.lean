import WorkingCopies.Text.Utf8
import WorkingCopies.Yaml.Cursor

/-!
# Tokens of YAML

A token is a mark, a scalar or a word with a meaning of its own, and the place where it starts.
Blocks that are shown by indentation have tokens for their start and their end as well.
-/

namespace WorkingCopies.Yaml

/-- What a token is. -/
inductive Token.Kind where
  | versionDirective (major minor : Nat)
  | tagDirective (handle : String) (target : Bytes)
  | documentStart
  | documentEnd
  | streamEnd
  | blockSequenceStart
  | blockMappingStart
  | blockEnd
  | flowSequenceStart
  | flowSequenceEnd
  | flowMappingStart
  | flowMappingEnd
  | blockEntry
  | flowEntry
  | key
  | value
  | anchor (name : String)
  | aliasOf (name : String)
  | tag (handle : String) (suffix : Bytes)
  | scalar (text : String) (isPlain : Bool)
  deriving Repr, DecidableEq, Inhabited

/-- A token and the place where it starts. -/
structure Token where
  kind : Token.Kind
  place : Place
  deriving Repr, DecidableEq, Inhabited

end WorkingCopies.Yaml
