import Mailroom.Path
import Mailroom.Table
import Mailroom.Text.Quoted

/-!
# Workspaces

The directories and files that a command can see, and where paths lead among them.  A
directory is given by its names from the innermost one outwards, so the root is the empty
list.

Main definitions:

- `Workspace` is a tree of files with a current directory.
- `Workspace.resolve` follows a path, and says what is at its end.
- `Workspace.write` writes a file, or says why that is impossible.
-/

namespace Mailroom

open Text

/-- The bytes of a file. -/
abbrev Bytes :=
  List UInt8

/-- A tree of directories and files. -/
structure Workspace where
  current : List String
  directories : List (List String)
  files : Table String Bytes

/-! ## Places -/

/-- The key of a file with the given names, from the innermost one outwards. -/
def fileKey (names : List String) : String :=
  "/".intercalate names.reverse

/-- The greatest number of bytes in a name. -/
def nameLimit : Nat :=
  255

/-- The greatest number of bytes in a path. -/
def pathLimit : Nat :=
  4095

/-- What is at the end of a path. -/
inductive Place
  | file (key : String) (content : Bytes)
  | directory
  | vacant (key : String)
  | noDirectory
  | notDirectory
  /-- The path, or a name that is looked for on the way, has too many bytes. -/
  | tooLong
  deriving DecidableEq

/-- Why a file cannot be written. -/
inductive WriteError
  | noDirectory (path : String)
  | notDirectory (path : String)
  | isDirectory (path : String)
  | tooLong (path : String)
  deriving DecidableEq, Repr

/-- The wording of a write error. -/
def WriteError.message : WriteError → String
  | noDirectory path => "[Errno 2] No such file or directory: " ++ quoted path
  | notDirectory path => "[Errno 20] Not a directory: " ++ quoted path
  | isDirectory path => "[Errno 21] Is a directory: " ++ quoted path
  | tooLong path => "[Errno 36] File name too long: " ++ quoted path

namespace Workspace

/-- The root and the listed directories are directories. -/
def isDirectory (ws : Workspace) (names : List String) : Bool :=
  names.isEmpty || ws.directories.contains names

/-- Follow names from a directory. -/
def follow (ws : Workspace) (here : List String) : List String → Place
  | [] => .directory
  | name :: rest =>
    if name = "." then ws.follow here rest
    else if name = ".." then ws.follow here.tail rest
    else if nameLimit < name.utf8ByteSize then .tooLong
    else if ws.isDirectory (name :: here) then ws.follow (name :: here) rest
    else
      match ws.files.find? (fileKey (name :: here)), rest with
      | some content, [] => .file (fileKey (name :: here)) content
      | some _, _ :: _ => .notDirectory
      | none, [] => .vacant (fileKey (name :: here))
      | none, _ :: _ => .noDirectory

/-- What a path leads to.  The empty path leads nowhere. -/
def resolve (ws : Workspace) (path : String) : Place :=
  if path = "" then .noDirectory
  else if pathLimit < path.utf8ByteSize then .tooLong
  else ws.follow (if isAbsolute path then [] else ws.current) (pathNames path)

/-- Write a file under a path that is shown as it is. -/
def write (ws : Workspace) (path : String) (content : Bytes) :
    Except WriteError Workspace :=
  let put := fun key => { ws with files := ws.files.insert key content }
  match ws.resolve path with
  | .file key _ => .ok (put key)
  | .vacant key => .ok (put key)
  | .directory => .error (.isDirectory path)
  | .noDirectory => .error (.noDirectory path)
  | .notDirectory => .error (.notDirectory path)
  | .tooLong => .error (.tooLong path)

/-! ## Working directories -/

/-- The name of the directory that commands work in. -/
def workName : String :=
  "work"

/-- The directories above a file in the working directory. -/
def directoriesAbove : List String → List (List String)
  | [] => []
  | _ :: outer => outer :: directoriesAbove outer

/-- A working directory with the given files. -/
def ofFiles (files : List (String × Bytes)) : Workspace where
  current := [workName]
  directories := [workName] ::
    files.flatMap fun f => directoriesAbove ((pathNames f.1).reverse ++ [workName])
  files := .ofList (files.map fun f => (fileKey ((pathNames f.1).reverse ++ [workName]), f.2))

/-- The files in the working directory, with their paths from there. -/
def workFiles (ws : Workspace) : List (String × Bytes) :=
  let above := (workName ++ "/").toList
  ws.files.entries.filterMap fun f =>
    if above.isPrefixOf f.1.toList then
      some (String.ofList (f.1.toList.drop above.length), f.2)
    else none

end Workspace

end Mailroom
