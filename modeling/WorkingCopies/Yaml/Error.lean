/-!
# Errors in YAML texts

An error either points at a place of the text or concerns the document as a whole. Lines and
columns count from one.
-/

namespace WorkingCopies.Yaml

/-- Why a YAML text gives no value. -/
inductive Error where
  /-- The text is wrong at one place. -/
  | malformed (line column : Nat) (problem : String)
  /-- A second document follows the first. -/
  | severalDocuments
  /-- Aliases repeat so much of the document that reading it would not end in reasonable time. -/
  | tooMuchRepetition
  /-- A value has another shape than the one wanted. -/
  | wrongShape (found expected : String)
  /-- A field is given twice. -/
  | repeatedField (name : String)
  deriving Repr, DecidableEq, Inhabited

namespace Error

/-- The text of an error. -/
def message : Error → String
  | malformed line column problem =>
    problem ++ " at line " ++ toString line ++ " column " ++ toString column
  | severalDocuments => "deserializing from YAML containing more than one document is not supported"
  | tooMuchRepetition => "repetition limit exceeded"
  | wrongShape found expected => "invalid type: " ++ found ++ ", expected " ++ expected
  | repeatedField name => "duplicate field `" ++ name ++ "`"

/-- Whether the error points at a place of the text. -/
def hasPlace : Error → Bool
  | malformed .. => true
  | _ => false

end Error

end WorkingCopies.Yaml
