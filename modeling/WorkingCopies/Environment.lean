import WorkingCopies.Text.Replace

/-!
# Environment variables

An environment is a list of texts of the form `name=value`, of which the first one with a name
counts. A name is found by the text `name=` at the start of an entry, so a name that itself holds
the sign `=` is found as well.
-/

namespace WorkingCopies

/-- Environment variables, each written as `name=value`. -/
structure Environment where
  entries : List String
  deriving Repr, DecidableEq, Inhabited

namespace Environment

/-- The value of a variable. The empty name has none. -/
def get? (environment : Environment) (name : String) : Option String :=
  if name.isEmpty then none
  else environment.entries.findSome? fun entry =>
    (Text.stripInitial? (name ++ "=").toList entry.toList).map String.ofList

/-- Whether a variable has a value for which a test holds. -/
def holds (environment : Environment) (name : String) (test : String → Bool) : Bool :=
  (environment.get? name).any test

/-- Take a variable away. -/
def erase (environment : Environment) (name : String) : Environment :=
  ⟨environment.entries.filter fun entry =>
    (Text.stripInitial? (name ++ "=").toList entry.toList).isNone⟩

/-- Set a variable. -/
def insert (environment : Environment) (name value : String) : Environment :=
  ⟨(environment.erase name).entries ++ [name ++ "=" ++ value]⟩

end Environment

end WorkingCopies
