import PseudoAsm.Files.Tree

/-!
# Source files

Programs are read from a file, or from all plain files of a directory in ascending order of their
names.  Names are ordered by code point, which is the order of their UTF-8 bytes.

* `FileTree.sourcePaths` — the files that a path stands for;
* `loadSource`, `loadSources` — their texts.
-/

namespace PseudoAsm

/-- A named program text. -/
structure Source where
  name : String
  text : String
deriving DecidableEq, Repr

/-- Why sources cannot be loaded. -/
inductive LoadError where
  | unreadable (path : String) (cause : FileError)
  | noSources (path : String)
deriving DecidableEq, Repr

/-- The wording of a load error. -/
def LoadError.message : LoadError → String
  | .unreadable path _ => "reading " ++ path
  | .noSources path => "no source files in " ++ path

/-! ### Names and paths -/

/-- Names in ascending order. -/
def sortNames (names : List String) : List String :=
  names.mergeSort fun a b => decide (a ≤ b)

/-- The path of a file in a directory; no slash is doubled. -/
def joinPath (directory name : String) : String :=
  if directory.toList.getLast? = some '/' then directory ++ name else directory ++ "/" ++ name

/-- The name of the file at the end of a path; a path that ends in none stands for itself. -/
def fileName (path : String) : String :=
  match ((FileTree.names path).filter fun name => name ≠ "" && name ≠ ".").getLast? with
  | some name => if name = ".." then path else name
  | none => path

/-- The paths of the plain files of a directory, in ascending order of their names. -/
def FileTree.directorySources (tree : FileTree) (path : String) : List String :=
  match tree.locate path with
  | .ok place => (sortNames (tree.plainFiles place)).map (joinPath path)
  | .error _ => []

/-- The source files that a path stands for: itself, or the files of the directory it leads to. -/
def FileTree.sourcePaths (tree : FileTree) (path : String) : List String :=
  if tree.leadsToDirectory path then tree.directorySources path else [path]

/-! ### Loading -/

/-- The source in a file. -/
def loadSource (tree : FileTree) (path : String) : Except LoadError Source :=
  match tree.readText path with
  | .ok text => .ok ⟨fileName path, text⟩
  | .error cause => .error (.unreadable path cause)

/-- All sources that a path stands for; a directory without any is an error. -/
def loadSources (tree : FileTree) (path : String) : Except LoadError (List Source) :=
  match tree.sourcePaths path with
  | [] => .error (.noSources path)
  | paths => paths.mapM (loadSource tree)

end PseudoAsm
