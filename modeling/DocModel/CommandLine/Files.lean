import DocModel.Text.Quoted

/-!
# Files

The command line names files by paths. A tree of files below the current directory says what stands
at each path; what is wrong with a path is told in the words of the operating system.

A path is first brought into a plain form: empty parts and dots are dropped, so that `./a` and `a/`
are other ways of writing `a`, and the current directory itself is written as a dot.
-/

namespace DocModel

/-! ## Paths -/

/-- **A path**: where it starts and the names on the way. -/
structure Path where
  /-- Nothing for a path from the current directory, and slashes for one from the top. -/
  root : Text
  /-- The names on the way. -/
  names : List Text
  deriving DecidableEq

namespace Path

/-- The names in a text between slashes, without the empty ones. -/
def namesIn (t : Text) : List Text := (Text.splitWhere (· == '/') t).filter (!·.isEmpty)

/-- The root of a path; of several slashes one counts, but two are kept. -/
def rootOf (t : Text) : Text :=
  match t.takeWhile (· == '/') with
  | [] => []
  | ['/', '/'] => "//"
  | _ => "/"

/-- **The plain form of a path.** -/
def parse (t : Text) : Path := ⟨rootOf t, (namesIn t).filter (· ≠ ".")⟩

/-- The directory from which a path leads on. The top stands beside the current directory under a
name of its own, which no file can have. -/
def origin (p : Path) : List Text := if p.root.isEmpty then [] else ["/"]

/-- A path as it is written. -/
def display (p : Path) : Text :=
  if p.root.isEmpty && p.names.isEmpty then "." else p.root ++ Text.join "/" p.names

end Path

/-! ## Trees of files -/

/-- **A tree of files** below the current directory. -/
structure FileTree where
  /-- The files, with the names on the way to them. -/
  files : List (List Text × Text) := []
  /-- Directories that hold no file. -/
  bare : List (List Text) := []

/-- What stands at a path. -/
inductive Entry where
  /-- A file with this content. -/
  | file (content : Text)
  /-- A directory. -/
  | directory
  /-- Nothing. -/
  | nothing
  /-- Nothing, because the path leads through a file. -/
  | beyondFile
  deriving DecidableEq

/-- **Why a file cannot be read or written.** -/
inductive FileProblem where
  /-- There is none. -/
  | missing
  /-- The path leads through a file. -/
  | notDirectory
  /-- It is a directory. -/
  | isDirectory
  deriving DecidableEq

/-- The message for a file that cannot be read or written. -/
def FileProblem.message (path : Text) (p : FileProblem) : Text :=
  let reason : Text :=
    match p with
    | missing => "[Errno 2] No such file or directory: "
    | notDirectory => "[Errno 20] Not a directory: "
    | isDirectory => "[Errno 21] Is a directory: "
  reason ++ Text.quote path

namespace FileTree

/-- Whether there is a directory with the given names on the way. -/
def isDirectory (t : FileTree) (names : List Text) : Bool :=
  names.isEmpty || t.bare.contains names
    || t.files.any fun (way, _) => names.isPrefixOf way && names.length < way.length

/-- What stands at a path from a directory of the tree. -/
def entryBelow (t : FileTree) (directory : List Text) : List Text → Entry
  | [] => .directory
  | name :: names =>
    if name = "." then t.entryBelow directory names
    else if name = ".." then
      if directory.isEmpty then (if names.all (· = "..") then .directory else .nothing)
      else t.entryBelow directory.dropLast names
    else
      let way := directory ++ [name]
      match t.files.lookup way with
      | some content => if names.isEmpty then .file content else .beyondFile
      | none => if t.isDirectory way then t.entryBelow way names else .nothing

/-- **What stands at a path.** -/
def entry (t : FileTree) (p : Path) : Entry := t.entryBelow p.origin p.names

/-- **The content of a file.** -/
def read (t : FileTree) (p : Path) : Except FileProblem Text :=
  match t.entry p with
  | .file content => .ok content
  | .directory => .error .isDirectory
  | .nothing => .error .missing
  | .beyondFile => .error .notDirectory

/-- The names on the way to a place, from the current directory, with the dots resolved. -/
def resolve (p : Path) : List Text :=
  let step (way : List Text) (name : Text) : List Text :=
    if name = "." then way else if name = ".." then way.dropLast else way ++ [name]
  p.names.foldl step p.origin

/-- The tree with one more file, or with another content of a file. -/
def insert (t : FileTree) (p : Path) (content : Text) : FileTree :=
  let way := resolve p
  { t with files := t.files.filter (fun (other, _) => other ≠ way) ++ [(way, content)] }

/-- The tree with one more directory. -/
def insertDirectory (t : FileTree) (p : Path) : FileTree := { t with bare := resolve p :: t.bare }

/-- **Writes a file.** The path is taken as it stands: its directory has to be there, and a slash
at its end asks for a directory. -/
def write (t : FileTree) (path content : Text) : Except FileProblem FileTree :=
  match (Path.namesIn path).getLast?, (Path.namesIn path).dropLast with
  | none, _ => .error .isDirectory
  | some name, above =>
    match t.entry ⟨Path.rootOf path, above⟩ with
    | .nothing => .error .missing
    | .beyondFile | .file _ => .error .notDirectory
    | .directory =>
      if name = "." ∨ name = ".." ∨ path.getLast? = some '/' then .error .isDirectory
      else
        match t.entry ⟨Path.rootOf path, above ++ [name]⟩ with
        | .directory => .error .isDirectory
        | _ => .ok (t.insert ⟨Path.rootOf path, above ++ [name]⟩ content)

end FileTree

end DocModel
