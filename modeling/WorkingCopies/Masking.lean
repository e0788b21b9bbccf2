import WorkingCopies.Text.Replace

/-!
# Hiding secrets

A secret is hidden in a text by putting something else in its place wherever it occurs.
-/

namespace WorkingCopies

/-- A secret text and what is shown in its place. -/
structure Mask where
  secret : String
  shown : String
  deriving Repr, DecidableEq, Inhabited

namespace Mask

/-- Hide a secret. -/
def hide (mask : Mask) (text : String) : String := Text.replace mask.secret mask.shown text

/-- Hide several secrets, one after the other. -/
def hideAll (masks : List Mask) (text : String) : String :=
  masks.foldl (fun text mask => mask.hide text) text

end Mask

/-- What is shown in place of a password. -/
def hiddenPassword : String := "<password-hidden>"

/-- A text in which a password is hidden. The empty password hides nothing. -/
def redact (password text : String) : String := Mask.hide ⟨password, hiddenPassword⟩ text

end WorkingCopies
