import RouteDoc.Files.Tree

/-!
# File systems

A tree of files as seen from a working directory. A path that begins with a slash is followed from
the root, and any other path from the working directory.
-/

set_option autoImplicit false

namespace RouteDoc

/-- Files, and the directory in which a program works. -/
structure FileSystem where
  /-- All files. -/
  root : FileTree := .empty
  /-- The names that lead from the root to the working directory. -/
  here : List String := []
deriving Inhabited

namespace FileSystem

/-- The parts of a path that are followed from the root. -/
def parts (fs : FileSystem) (path : String) : List String :=
  if Path.isAbsolute path then Path.parts path else fs.here ++ Path.parts path

/-- What a path leads to. -/
def locate (fs : FileSystem) (path : String) : Except FileError FileTree :=
  if path.toList.contains '\x00' then .error .invalidPath
  else if path.isEmpty then .error .notFound
  else FileTree.follow [] fs.root (fs.parts path)

/-- Whether a path leads to something. -/
def has (fs : FileSystem) (path : String) : Bool :=
  (fs.locate path).isOk

/-- Whether a path leads to a file. -/
def isFile (fs : FileSystem) (path : String) : Bool :=
  match fs.locate path with
  | .ok (.file _) => true
  | _ => false

/-- The bytes of a file. -/
def bytes (fs : FileSystem) (path : String) : Except FileError (List UInt8) :=
  match fs.locate path with
  | .ok (.file bs) => .ok bs
  | .ok (.directory _) => .error .isDirectory
  | .error e => .error e

/-- The text of a file. -/
def text (fs : FileSystem) (path : String) : Except FileError String :=
  match fs.bytes path with
  | .error e => .error e
  | .ok bs =>
    match Text.utf8? bs with
    | some s => .ok (String.ofList s)
    | none => .error .notText

/-- The files with one written at a path, whose directory has to be there. -/
def write (fs : FileSystem) (path : String) (bs : List UInt8) : Except FileError FileSystem :=
  if path.toList.contains '\x00' then .error .invalidPath
  else if path.isEmpty then .error .notFound
  else
    let ps := fs.parts path
    match FileTree.directoryNames [] fs.root ps.dropLast, ps.getLast? with
    | .error e, _ => .error e
    | .ok _, none => .error .notFound
    | .ok dir, some name =>
      if name = "" ∨ name = "." ∨ name = ".." then .error .isDirectory
      else
        match fs.locate path with
        | .ok (.directory _) => .error .isDirectory
        | .error .nameTooLong => .error .nameTooLong
        | _ => .ok { fs with root := FileTree.putAt (.file bs) (dir ++ [name]) fs.root }

/-- The names that parts of a path lead through, one list for each part, and the last of these
lists; a part that goes up drops a name. -/
def trail (names : List String) : List String → List (List String) × List String
  | [] => ([], names)
  | p :: ps =>
    let next :=
      if p = "" ∨ p = "." then names
      else if p = ".." then names.dropLast
      else names ++ [p]
    let (passed, last) := trail next ps
    (names :: passed, last)

/-- The tree with a directory at the end of these names, unless there is something already. -/
def ensure (t : FileTree) (names : List String) : FileTree :=
  if (FileTree.follow [] t names).isOk then t else FileTree.putAt .empty names t

/-- The files with something put where a path leads, and with all directories on the way. -/
def put (fs : FileSystem) (path : String) (node : FileTree) : FileSystem :=
  let (passed, names) := trail [] (fs.parts path)
  { fs with root := FileTree.putAt node names (passed.foldl ensure fs.root) }

end FileSystem

end RouteDoc
