import WorkingCopies.Environment

/-!
# Coloured output

Whether the output has colours and pictures. A setting of `always` or `never` decides; otherwise
the environment does, and without a word from it the output is plain, as it goes to no terminal.
-/

namespace WorkingCopies

/-- Whether the output is coloured. -/
structure Colour where
  isOn : Bool
  deriving Repr, DecidableEq, Inhabited

namespace Colour

/-- What the environment says. A variable against colours beats one that asks for them. -/
def ofEnvironment (environment : Environment) : Colour :=
  if (environment.get? "NO_COLOR").isSome || environment.holds "CLICOLOR" (· == "0") then ⟨false⟩
  else ⟨environment.holds "CLICOLOR_FORCE" fun value => value != "0" && !value.isEmpty⟩

/-- The colours asked for by a setting, in capitals or not. -/
def ofSetting (setting : String) (environment : Environment) : Colour :=
  match setting.map Char.toLower with
  | "always" => ⟨true⟩
  | "never" => ⟨false⟩
  | _ => ofEnvironment environment

/-- The first text with colours, the second without. -/
def choose (colour : Colour) (picture plain : String) : String :=
  if colour.isOn then picture else plain

end Colour

end WorkingCopies
