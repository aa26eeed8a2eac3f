import PseudoAsm.Files.Tree

/-!
# Outcomes of commands

What a command leaves behind: an exit code, what it printed, and the files as they are afterwards.
A command fails with one final error, printed with its cause if it has one.
-/

namespace PseudoAsm

/-- What a finished command leaves behind. -/
structure Outcome where
  code : Nat := 0
  stdout : String := ""
  stderr : String := ""
  tree : FileTree

/-- The error a command ends with, and what caused it. -/
structure FinalError where
  message : String
  cause : Option String := none
deriving DecidableEq, Repr

/-- The printed form of a final error. -/
def FinalError.text (error : FinalError) : String :=
  "Error: " ++ error.message ++ "\n" ++ (match error.cause with
    | some cause => "\nCaused by:\n    " ++ cause ++ "\n"
    | none => "")

/-- A failure to read a file. -/
def FinalError.reading (path : String) (cause : FileError) : FinalError :=
  ⟨"reading " ++ path, some cause.message⟩

end PseudoAsm
