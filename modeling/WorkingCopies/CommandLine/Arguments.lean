import WorkingCopies.CommandLine.Request
import WorkingCopies.Defaults

/-!
# Reading a command line

A command line has two levels: options that stand before the name of the command, and what stands
behind it. Common options may stand on either level, and count once on each; the value given behind
the command wins. The value of an option follows its name, behind an equals sign or as the next
argument, which then may not look like an option itself. Behind a lone `--` nothing is an option any
more.

The help texts and the command that prints completion scripts for a shell are left out. They are
written from the descriptions of the options, and neither reads a manifest nor asks git; a command
line that asks for them counts as one that is not understood. How a refusal is worded is left open.
-/

namespace WorkingCopies.CommandLine

/-- Options that take a value. -/
inductive ValueOption where
  | manifest
  | settings
  | colour
  | logLevel
  | workingCopy
  | reference
  | folder
  deriving Repr, DecidableEq

/-- Options that take no value. -/
inductive Flag where
  | quiet
  | verbose
  | json
  | used
  | version
  deriving Repr, DecidableEq

/-- An option. -/
inductive Switch where
  | value (option : ValueOption)
  | flag (flag : Flag)
  deriving Repr, DecidableEq

/-- What can be given on a level. -/
structure Level where
  /-- The options by their long names. -/
  long : List (String × Switch)
  /-- The flags by their letters. -/
  short : List (Char × Flag)
  /-- How many other arguments there may be. -/
  room : Nat := 0
  /-- Whether the name of a command is looked for. -/
  isTop : Bool := false

/-- The options that may stand on either level. -/
def commonOptions : List (String × Switch) :=
  [("manifest", .value .manifest), ("settings", .value .settings), ("color", .value .colour),
   ("log-level", .value .logLevel), ("quiet", .flag .quiet), ("verbose", .flag .verbose)]

/-- The letters of the flags that may stand on either level. -/
def commonLetters : List (Char × Flag) := [('q', .quiet), ('v', .verbose)]

/-- The level before the command. -/
def Level.top : Level where
  long := ("version", .flag .version) :: commonOptions
  short := ('V', .version) :: commonLetters
  isTop := true

/-- A level behind a command. -/
def Level.behind (room : Nat) (own : List (String × Switch)) : Level where
  long := own ++ commonOptions
  short := commonLetters
  room

/-- The option for the place of a working copy. -/
def placeOption : String × Switch := ("path", .value .workingCopy)

/-- The commands and the levels behind them. -/
def commands : List (String × Level) :=
  [("download", .behind 2 [placeOption]),
   ("update", .behind 2 [placeOption]),
   ("fetch-file",
     .behind 2 [placeOption, ("ref", .value .reference), ("dest", .value .folder)]),
   ("hash", .behind 2 [placeOption]),
   ("commits", .behind 2 [placeOption, ("json", .flag .json)]),
   ("kind", .behind 2 [placeOption]),
   ("status", .behind 1 [placeOption]),
   ("fixup-origin", .behind 1 [placeOption]),
   ("list", .behind 0 [("used", .flag .used)])]

/-- What was given on a level. -/
structure Given where
  values : List (ValueOption × String) := []
  flags : List Flag := []
  /-- The other arguments, in their order. -/
  others : List String := []

/-- Whether an option accepts a value: paths are not empty, and a log level is known. -/
def ValueOption.accepts (option : ValueOption) (value : String) : Bool :=
  match option with
  | manifest | settings | workingCopy | folder => !value.isEmpty
  | logLevel => (Log.threshold? value).isSome
  | colour | reference => true

/-- The refusal of a command line that is not understood. -/
def refuse {α : Type} (problem : String) : Except Refusal α := .error (.usage problem)

namespace Given

/-- Add the value of an option. -/
def addValue (given : Given) (option : ValueOption) (value : String) : Except Refusal Given :=
  if (given.values.lookup option).isSome then refuse "an option is given twice"
  else if option.accepts value then .ok { given with values := (option, value) :: given.values }
  else refuse ("invalid value '" ++ value ++ "'")

/-- Add a flag. The version is given at once. -/
def addFlag (given : Given) (flag : Flag) : Except Refusal Given :=
  if flag = .version then .error .version
  else if given.flags.contains flag then refuse "an option is given twice"
  else .ok { given with flags := flag :: given.flags }

/-- Add an argument that is no option. -/
def addOther (given : Given) (level : Level) (argument : String) : Except Refusal Given :=
  if given.others.length < level.room then .ok { given with others := given.others ++ [argument] }
  else refuse ("unexpected argument '" ++ argument ++ "'")

/-- Add an option by its long name, with its value if that is part of the same argument. An option
that still needs its value is given back. -/
def addLong (given : Given) (level : Level) (name : String) (value : Option String) :
    Except Refusal (Given × Option ValueOption) :=
  match level.long.lookup name, value with
  | none, _ => refuse ("unexpected argument '--" ++ name ++ "'")
  | some (.flag _), some _ => refuse ("unexpected value for '--" ++ name ++ "'")
  | some (.flag flag), none => return (← given.addFlag flag, none)
  | some (.value option), some value => return (← given.addValue option value, none)
  | some (.value option), none => return (given, some option)

/-- Add flags by their letters. -/
def addLetters (given : Given) (level : Level) (letters : List Char) : Except Refusal Given :=
  letters.foldlM (fun given letter =>
    match level.short.lookup letter with
    | some flag => given.addFlag flag
    | none => refuse ("unexpected argument '-" ++ letter.toString ++ "'")) given

end Given

/-- A long option: its name, and its value if there is an equals sign. -/
def splitLong (text : List Char) : String × Option String :=
  let name := text.takeWhile (· != '=')
  match text.drop name.length with
  | _ :: value => (String.ofList name, some (String.ofList value))
  | [] => (String.ofList name, none)

/-- What an argument looks like. -/
inductive Shape where
  /-- Nothing behind it is an option. -/
  | separator
  | long (name : String) (value : Option String)
  | letters (letters : List Char)
  | other

/-- What an argument looks like. A lone hyphen looks like no option. -/
def Shape.of (argument : String) : Shape :=
  match argument.toList with
  | ['-', '-'] => separator
  | '-' :: '-' :: rest => let (name, value) := splitLong rest; long name value
  | '-' :: c :: rest => letters (c :: rest)
  | _ => other

/-- Read a level on, while an option may still need its value. The first level ends at the name of a
command, which comes back with the arguments behind it. -/
def readLevel (level : Level) (given : Given) :
    (pending : Option ValueOption) → List String →
      Except Refusal (Given × Option (String × List String))
  | some _, [] => refuse "a value is missing"
  | none, [] => .ok (given, none)
  | some option, argument :: arguments =>
    match Shape.of argument with
    | .other => do readLevel level (← given.addValue option argument) none arguments
    | _ => refuse "a value is missing"
  | none, argument :: arguments =>
    if level.isTop && (commands.lookup argument).isSome then .ok (given, some (argument, arguments))
    else
      match Shape.of argument with
      | .separator => do
        let given ← arguments.foldlM (fun given argument => given.addOther level argument) given
        return (given, none)
      | .long name value => do
        let (given, pending) ← given.addLong level name value
        readLevel level given pending arguments
      | .letters letters => do
        readLevel level (← given.addLetters level letters) none arguments
      | .other => do readLevel level (← given.addOther level argument) none arguments

/-- Both levels of a command line. -/
structure Levels where
  before : Given
  behind : Given

namespace Levels

/-- The value of an option: the one given behind the command, else the one given before it. -/
def value? (levels : Levels) (option : ValueOption) : Option String :=
  (levels.behind.values.lookup option).or (levels.before.values.lookup option)

/-- Whether a flag is given on either level. -/
def has (levels : Levels) (flag : Flag) : Bool :=
  levels.behind.flags.contains flag || levels.before.flags.contains flag

/-- The path that an option gives. -/
def path? (levels : Levels) (option : ValueOption) : Option Path :=
  (levels.value? option).map Path.mk

/-- The settings, which the environment may give as well. An empty value there is refused wherever
it would count. -/
def settings (levels : Levels) (environment : Environment) : Except Refusal (Option Path) :=
  let given (level : Given) : Bool := (level.values.lookup .settings).isSome
  match environment.get? "REPOSYNC_SETTINGS" with
  | none => .ok (levels.path? .settings)
  | some value =>
    if value.isEmpty && !(given levels.before && given levels.behind) then
      refuse "a value is missing"
    else .ok (some ((levels.path? .settings).getD ⟨value⟩))

/-- The common options. -/
def options (levels : Levels) (environment : Environment) : Except Refusal Options := do
  let contradicts (given : Given) : Bool :=
    given.flags.contains .quiet && given.flags.contains .verbose
  if contradicts levels.before || contradicts levels.behind then
    refuse "'--quiet' cannot be used with '--verbose'"
  return {
    manifest := (levels.path? .manifest).getD Defaults.manifest
    settings := ← levels.settings environment
    colour := (levels.value? .colour).getD "auto"
    logLevel := ((levels.value? .logLevel).bind Log.threshold?).getD (some .info)
    isQuiet := levels.has .quiet
    isVerbose := levels.has .verbose }

/-- A command by its name. -/
def command (levels : Levels) (name : String) : Except Refusal Command := do
  let target (repository : String) : Target := ⟨repository, levels.path? .workingCopy⟩
  match name, levels.behind.others with
  | "download", [repository, reference] => return .download (target repository) reference
  | "update", [repository, reference] => return .update (target repository) reference
  | "fetch-file", [repository, file] =>
    match levels.value? .reference with
    | some reference =>
      return .fetchFile (target repository) file reference ((levels.path? .folder).getD ⟨"."⟩)
    | none => refuse "'--ref' is missing"
  | "hash", repository :: rest => return .hash (target repository) (rest.headD "HEAD")
  | "commits", repository :: rest =>
    return .names (target repository) (rest.headD "HEAD") (levels.has .json)
  | "kind", [repository, reference] => return .kind (target repository) reference
  | "status", [repository] => return .status (target repository)
  | "fixup-origin", [repository] => return .repairOrigin (target repository)
  | "list", [] => return .list (levels.has .used)
  | _, _ => refuse "an argument is missing"

end Levels

/-- Read a command line. -/
def Request.read (arguments : List String) (environment : Environment) :
    Except Refusal Request := do
  match ← readLevel .top {} none arguments with
  | (_, none) => refuse "a command is missing"
  | (before, some (name, arguments)) =>
    let level := (commands.lookup name).getD (.behind 0 [])
    let (behind, _) ← readLevel level {} none arguments
    let levels : Levels := { before, behind }
    return { options := ← levels.options environment, command := ← levels.command name }

end WorkingCopies.CommandLine
