import WorkingCopies.Failure

/-!
# References

A reference is a name for a commit. What it names decides how git has to be given it: a branch of
the remote is reached through the remote's name and a tag through `tags/`, while a local branch and
a commit stand for themselves.
-/

namespace WorkingCopies

namespace Reference

/-- The name of the remote that every working copy follows. -/
def remoteName : String := "origin"

/-- What a reference names. -/
inductive Kind where
  | remoteBranch
  | localBranch
  | tag
  | hash
  deriving Repr, DecidableEq, Inhabited

namespace Kind

/-- Every kind, in the order of their numbers. -/
def all : List Kind := [remoteBranch, localBranch, tag, hash]

/-- The name of a kind. -/
def name : Kind → String
  | remoteBranch => "remote-branch"
  | localBranch => "local-branch"
  | tag => "tag"
  | hash => "hash"

/-- The kind with a name. -/
def ofName (text : String) : Except Failure Kind :=
  match all.find? fun kind => kind.name == text with
  | some kind => .ok kind
  | none => .error (.unknownKind text)

/-- The kind with a number. Kinds are numbered from zero. -/
def ofNumber (number : Int) : Except Failure Kind :=
  match number.toNat?.bind fun index => all[index]? with
  | some kind => .ok kind
  | none => .error (.unknownKind (toString number))

/-- Reading the name of a kind gives the kind. -/
theorem ofName_name (kind : Kind) : ofName kind.name = .ok kind := by
  cases kind <;> rfl

end Kind

/-- A reference of a known kind as git has to be given it. -/
def qualify (reference : String) : Kind → String
  | .remoteBranch => remoteName ++ "/" ++ reference
  | .tag => "tags/" ++ reference
  | .localBranch | .hash => reference

end Reference

end WorkingCopies
