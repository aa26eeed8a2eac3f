/-!
# File trees

The files that a command sees, as a value.  A path is walked name by name from the working
directory, or from the root if it starts with a slash; every name but the last has to be that of a
directory.

* `FileTree` — files and directories by their paths, in the order in which they are listed;
* `FileTree.locate` — the place that a written path leads to;
* `FileTree.readText`, `FileTree.writeText` — the text of a file;
* `FileTree.plainFiles` — the files in a directory, subdirectories left out.
-/

namespace PseudoAsm

/-- A place in a file tree: the names on the way there.  A path from the root starts with `/`. -/
abbrev Place := List String

/-- What stands at a place. -/
inductive FileNode where
  | file (content : ByteArray)
  | directory
deriving Inhabited

/-- Whether a node is a directory. -/
def FileNode.isDirectory : FileNode → Bool
  | .file _ => false
  | .directory => true

/-- Files and directories in listing order.  The directories above an entry exist with it. -/
structure FileTree where
  entries : List (Place × FileNode) := []
deriving Inhabited

/-- Why a file cannot be read or written. -/
inductive FileError where
  | notFound
  | notDirectory
  | isDirectory
  | invalidText
deriving DecidableEq, Repr

/-- The wording of a file error. -/
def FileError.message : FileError → String
  | .notFound => "No such file or directory (os error 2)"
  | .notDirectory => "Not a directory (os error 20)"
  | .isDirectory => "Is a directory (os error 21)"
  | .invalidText => "stream did not contain valid UTF-8"

namespace FileTree

/-! ### What stands where -/

/-- The content of the file at a place. -/
def content? (tree : FileTree) (place : Place) : Option ByteArray :=
  tree.entries.findSome? fun (other, node) =>
    match node with
    | .file content => if other = place then some content else none
    | .directory => none

/-- Whether a place is a directory: the root, the working directory or one above it, a directory of
its own, or one above another entry. -/
def isDirectory (tree : FileTree) (place : Place) : Bool :=
  place == ["/"] || place.all (· == "..") || tree.entries.any fun (other, node) =>
    if other = place then node.isDirectory else place.isPrefixOf other

/-- The names of the files in a directory, in listing order. -/
def plainFiles (tree : FileTree) (directory : Place) : List String :=
  tree.entries.filterMap fun (place, node) =>
    match node with
    | .directory => none
    | .file _ => if place.dropLast = directory then place.getLast? else none

/-! ### Walking a path -/

/-- The place that a name leads to from a directory. -/
def enter (here : Place) (name : String) : Place :=
  if name = "" ∨ name = "." then here
  else if name = ".." then
    match here.getLast? with
    | none => [".."]
    | some last =>
      if last = ".." then here ++ [".."]
      else if last = "/" then here
      else here.dropLast
  else here ++ [name]

/-- Follow names from a place.  Only from a directory can a name lead on. -/
def follow (tree : FileTree) (here : Place) : List String → Except FileError Place
  | [] => .ok here
  | name :: rest =>
    if tree.isDirectory here then follow tree (enter here name) rest
    else if (tree.content? here).isSome then .error .notDirectory
    else .error .notFound

/-- The names in a written path. -/
def names (path : String) : List String :=
  (path.toList.splitOn '/').map String.ofList

/-- The place where a written path starts: the root or the working directory. -/
def origin (path : String) : Place :=
  if path.toList.head? = some '/' then ["/"] else []

/-- The place that a written path leads to; something need not stand there. -/
def locate (tree : FileTree) (path : String) : Except FileError Place :=
  if path.isEmpty then .error .notFound else tree.follow (origin path) (names path)

/-- The place that a written path would lead to if all directories on the way existed. -/
def placeOf (path : String) : Place :=
  (names path).foldl enter (origin path)

theorem eq_foldl_of_follow {tree : FileTree} {here place : Place} {names : List String}
    (h : tree.follow here names = .ok place) : place = names.foldl enter here := by
  induction names generalizing here with
  | nil => simp only [follow, Except.ok.injEq] at h; exact h.symm
  | cons name rest ih =>
    simp only [follow] at h
    split at h
    · exact ih h
    · split at h <;> contradiction

/-- A path leads nowhere else than to the place it names. -/
theorem eq_placeOf_of_locate {tree : FileTree} {path : String} {place : Place}
    (h : tree.locate path = .ok place) : place = placeOf path := by
  unfold locate at h
  split at h
  · contradiction
  · exact eq_foldl_of_follow h

/-- A written path of a place. -/
def pathOf (place : Place) : String :=
  match place with
  | [] => "."
  | "/" :: rest => "/" ++ String.intercalate "/" rest
  | names => String.intercalate "/" names

/-- Whether a written path leads to a directory. -/
def leadsToDirectory (tree : FileTree) (path : String) : Bool :=
  match tree.locate path with
  | .ok place => tree.isDirectory place
  | .error _ => false

/-! ### Texts -/

/-- The text of a file. -/
def readText (tree : FileTree) (path : String) : Except FileError String := do
  let place ← tree.locate path
  match tree.content? place with
  | some bytes =>
    match String.fromUTF8? bytes with
    | some text => return text
    | none => throw .invalidText
  | none => throw (if tree.isDirectory place then .isDirectory else .notFound)

/-- Put a file into a list of entries, in the stead of one that stands there or at the end. -/
def putFile (place : Place) (content : ByteArray) :
    List (Place × FileNode) → List (Place × FileNode)
  | [] => [(place, .file content)]
  | (other, node) :: rest =>
    if other = place then (place, .file content) :: rest
    else (other, node) :: putFile place content rest

/-- A path without the slashes at its end; one of slashes alone is kept. -/
def withoutFinalSlashes (path : String) : String :=
  match path.toList.reverse.dropWhile (· = '/') with
  | [] => path
  | cs => String.ofList cs.reverse

/-- The tree with a text written to a file, which need not exist; its directory must, and a path
with a slash at its end is none of a file. -/
def writeText (tree : FileTree) (path text : String) : Except FileError FileTree := do
  let place ← tree.locate (withoutFinalSlashes path)
  if withoutFinalSlashes path ≠ path || tree.isDirectory place then throw .isDirectory
  return ⟨putFile place text.toUTF8 tree.entries⟩

end FileTree

end PseudoAsm
