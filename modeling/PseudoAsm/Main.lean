import PseudoAsm.Command.Batch
import PseudoAsm.Command.Inspection

/-!
# The program

Two commands on real files: `run` runs a batch of programs, and `inspect` prints listings and
control-flow reports.  The files that the arguments name are read into a file tree, the command
answers, and files that it changed are written back.  Nobody subscribes to the log.
-/

namespace PseudoAsm

/-- The entries of a directory of the file system, as the file system lists them. -/
def listDirectory (path : String) : IO (List IO.FS.DirEntry) := do
  let self : IO.FS.DirEntry := { root := path, fileName := "." }
  return (← self.path.readDir).toList

/-- The entries of the file system at a path, if it leads to a directory with its files. -/
def readDirectory (path : String) : IO (List (Place × FileNode)) := do
  let place := FileTree.placeOf path
  let mut entries := [(place, FileNode.directory)]
  for child in ← listDirectory path do
    try
      let content ← IO.FS.readBinFile child.path
      entries := (place ++ [child.fileName], .file content) :: entries
    catch _ => pure ()
  return entries

/-- The entries of the file system at a path; none if nothing is there. -/
def readPath (path : String) : IO (List (Place × FileNode)) := do
  try readDirectory path
  catch _ =>
    try return [(FileTree.placeOf path, .file (← IO.FS.readBinFile path))]
    catch _ => return []

/-- The directory that holds the place of a path, if it exists. -/
def readParent (path : String) : IO (List (Place × FileNode)) := do
  let parent := (FileTree.placeOf path).dropLast
  try
    let _ ← listDirectory (FileTree.pathOf parent)
    return [(parent, .directory)]
  catch _ => return []

/-- The part of the file system that arguments may name. -/
def readTree (arguments : List String) : IO FileTree := do
  let mut entries := []
  for argument in arguments do
    let attached := (argument.toList.dropWhile (· ≠ '=')).drop 1
    for path in [argument, String.ofList attached] do
      unless path.isEmpty do
        entries := entries ++ (← readParent path) ++ (← readPath path)
  return ⟨entries⟩

/-- Write the files of a tree that another tree does not have like this. -/
def writeChanges (before after : FileTree) : IO Unit := do
  for (place, node) in after.entries do
    match node with
    | .directory => pure ()
    | .file content =>
      unless (before.content? place).any (·.data == content.data) do
        IO.FS.writeBinFile (FileTree.pathOf place) content

/-- Print what a command printed and write the files it changed. -/
def deliver (before : FileTree) (outcome : Outcome) : IO UInt32 := do
  writeChanges before outcome.tree
  (← IO.getStdout).putStr outcome.stdout
  (← IO.getStderr).putStr outcome.stderr
  return outcome.code.toUInt32

/-- Refuse arguments. -/
def refuse (reason : String) : IO UInt32 := do
  (← IO.getStderr).putStr ("error: " ++ reason ++ "\n")
  return 2

/-- A number of steps that no run on a real machine takes. -/
def endlessPatience : Nat := 0x4000000000000000

end PseudoAsm

open PseudoAsm in
/-- Run the command that the first argument names. -/
def main (arguments : List String) : IO UInt32 := do
  match arguments with
  | "run" :: rest =>
    match BatchRequest.ofArguments rest with
    | .error error => refuse error.message
    | .ok request =>
      let tree ← readTree rest
      match runBatch endlessPatience tree request with
      | some outcome => deliver tree outcome
      | none => refuse "the programs do not end"
  | "inspect" :: rest =>
    match InspectionRequest.ofArguments rest with
    | .error error => refuse error.message
    | .ok request =>
      let tree ← readTree rest
      deliver tree (runInspection tree request)
  | _ => refuse "the first argument is run or inspect"
