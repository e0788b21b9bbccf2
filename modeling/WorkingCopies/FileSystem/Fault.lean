/-!
# Faults of the file system

Why an operation on files or folders was refused. The faults of the operating system have a number,
which their text shows; the others are raised before the operating system is asked.
-/

namespace WorkingCopies.FileSystem

/-- Why the file system refused an operation. -/
inductive Fault where
  /-- Nothing is there. -/
  | noSuchEntry
  /-- Something is there already. -/
  | alreadyExists
  /-- A folder was needed. -/
  | notAFolder
  /-- Something other than a folder was needed. -/
  | isAFolder
  /-- The system needs what is there. -/
  | inUse
  /-- The operation makes no sense at this place. -/
  | invalidArgument
  /-- A name has more than 255 bytes, or a path more than 4095. -/
  | nameTooLong
  /-- A folder that still holds something cannot be removed. -/
  | notEmpty
  /-- More than forty links were followed. -/
  | tooManyLinks
  /-- The text of a file is not UTF-8. -/
  | notUtf8
  /-- Only the bytes of a regular file can be copied. -/
  | notRegular
  /-- A path holds the character NUL. -/
  | nulInPath
  /-- An argument or a folder for a program to be started holds the character NUL. -/
  | nulInArgument
  /-- The folder to copy is missing, or is no folder. -/
  | sourceNotAFolder (path : String)
  /-- The path has no part left that could be a folder. -/
  | noFolderToCreate
  /-- A fault known by its text alone. -/
  | other (text : String)
  deriving Repr, DecidableEq, Inhabited

namespace Fault

/-- The number and the words of a fault of the operating system. -/
def system? : Fault → Option (Nat × String)
  | noSuchEntry => some (2, "No such file or directory")
  | inUse => some (16, "Device or resource busy")
  | alreadyExists => some (17, "File exists")
  | notAFolder => some (20, "Not a directory")
  | isAFolder => some (21, "Is a directory")
  | invalidArgument => some (22, "Invalid argument")
  | nameTooLong => some (36, "File name too long")
  | notEmpty => some (39, "Directory not empty")
  | tooManyLinks => some (40, "Too many levels of symbolic links")
  | _ => none

/-- The words of a fault raised before the operating system is asked. -/
def ownMessage : Fault → String
  | notUtf8 => "stream did not contain valid UTF-8"
  | notRegular => "the source path is neither a regular file nor a symlink to a regular file"
  | nulInPath => "file name contained an unexpected NUL byte"
  | nulInArgument => "nul byte found in provided data"
  | sourceNotAFolder path => path ++ " is not a directory"
  | noFolderToCreate => "failed to create whole tree"
  | other text => text
  | _ => ""

/-- The text of a fault. -/
def message (fault : Fault) : String :=
  match fault.system? with
  | some (number, words) => words ++ " (os error " ++ toString number ++ ")"
  | none => fault.ownMessage

/-- Whether the fault says that something is missing. -/
def saysMissing : Fault → Bool
  | noSuchEntry => true
  | sourceNotAFolder _ => true
  | _ => false

end Fault

end WorkingCopies.FileSystem
