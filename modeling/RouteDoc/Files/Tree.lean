import RouteDoc.Fault
import RouteDoc.Files.Path
import RouteDoc.Text.Utf8

/-!
# File trees

A tree of directories and files. A path is followed part by part from the root; the directory above
the root is the root itself.
-/

set_option autoImplicit false

namespace RouteDoc

/-- A file or a directory. -/
inductive FileTree where
  /-- A file with its bytes. -/
  | file (bytes : List UInt8)
  /-- A directory with its entries by name. -/
  | directory (entries : List (String × FileTree))
deriving Inhabited

/-- Why a file could not be read or written. -/
inductive FileError where
  /-- There is nothing at the path. -/
  | notFound
  /-- A component on the way is no directory. -/
  | notDirectory
  /-- There is a directory at the path. -/
  | isDirectory
  /-- A component is longer than 255 bytes. -/
  | nameTooLong
  /-- The path has a character that no path may have. -/
  | invalidPath
  /-- The bytes spell no text. -/
  | notText
deriving DecidableEq, Repr

/-- The wording of the reason. -/
def FileError.message : FileError → String
  | notFound => "No such file or directory (os error 2)"
  | notDirectory => "Not a directory (os error 20)"
  | isDirectory => "Is a directory (os error 21)"
  | nameTooLong => "File name too long (os error 36)"
  | invalidPath => "file name contained an unexpected NUL byte"
  | notText => "stream did not contain valid UTF-8"

namespace FileTree

/-- A directory without entries. -/
def empty : FileTree := directory []

/-- The entry of a directory. -/
def entry (t : FileTree) (name : String) : Except FileError FileTree :=
  match t with
  | file _ => .error .notDirectory
  | directory es =>
    if 255 < name.utf8ByteSize then .error .nameTooLong
    else
      match es.lookup name with
      | some t => .ok t
      | none => .error .notFound

/-- Follows parts of a path. The directories on the way are those above the place, the nearest
first; a part that is empty or a dot needs a directory and stays there. -/
def follow (above : List FileTree) (t : FileTree) : List String → Except FileError FileTree
  | [] => .ok t
  | p :: ps =>
    match t with
    | file _ => .error .notDirectory
    | directory es =>
      if p = "" ∨ p = "." then follow above t ps
      else if p = ".." then
        match above with
        | [] => follow [] t ps
        | up :: above => follow above up ps
      else
        match entry (directory es) p with
        | .error e => .error e
        | .ok child => follow (t :: above) child ps

/-- The entries with one of them set. -/
def setEntry (es : List (String × FileTree)) (name : String) (t : FileTree) :
    List (String × FileTree) :=
  if es.any (·.1 == name) then es.map fun e => if e.1 == name then (name, t) else e
  else es ++ [(name, t)]

/-- The tree with something put below it, through directories that are made where they lack. -/
def putAt (node : FileTree) : List String → FileTree → FileTree
  | [], _ => node
  | p :: ps, t =>
    let es := match t with
      | directory es => es
      | file _ => []
    directory (setEntry es p (putAt node ps ((es.lookup p).getD empty)))

/-- The names that lead to the directory that parts of a path lead to. Those above the place come
with their directories, the nearest first. -/
def directoryNames (above : List (String × FileTree)) (t : FileTree) :
    List String → Except FileError (List String)
  | [] =>
    match t with
    | file _ => .error .notDirectory
    | directory _ => .ok (above.map Prod.fst).reverse
  | p :: ps =>
    match t with
    | file _ => .error .notDirectory
    | directory es =>
      if p = "" ∨ p = "." then directoryNames above t ps
      else if p = ".." then
        match above with
        | [] => directoryNames [] t ps
        | (_, up) :: above => directoryNames above up ps
      else
        match entry (directory es) p with
        | .error e => .error e
        | .ok child => directoryNames ((p, t) :: above) child ps

end FileTree

end RouteDoc
