/-!
# Paths

A path is a text with slashes between its components. It is joined to a directory without being
normalised.
-/

set_option autoImplicit false

namespace RouteDoc.Path

/-- Whether a path begins at the root. -/
def isAbsolute (p : String) : Bool :=
  p.toList.head? == some '/'

/-- A path below a directory. An absolute path stands for itself, and so does a path below nothing;
else there is a slash between the two. -/
def join (dir p : String) : String :=
  if isAbsolute p || dir.isEmpty then p
  else if dir.toList.getLast? == some '/' then dir ++ p
  else dir ++ "/" ++ p

/-- The parts of a path between slashes. -/
def parts (p : String) : List String :=
  (p.toList.splitOn '/').map String.ofList

/-- The components of a path: its parts without those that are empty or stay where they are. -/
def components (p : String) : List String :=
  (parts p).filter fun s => s != "" && s != "."

/-- The last component of a path, if it names something. -/
def fileName? (p : String) : Option String :=
  ((components p).getLast?).filter (· != "..")

/-- The part of a file's name behind its last dot, if the dot is not the first character. -/
def extension? (p : String) : Option String :=
  (fileName? p).bind fun n =>
    let rev := n.toList.reverse
    let ext := rev.takeWhile (· != '.')
    let stem := (rev.dropWhile (· != '.')).drop 1
    if stem.isEmpty then none else some (String.ofList ext.reverse)

/-- A path whose file name has an extension more. -/
def withExtension (p ext : String) : String :=
  let rev := p.toList.reverse.dropWhile (· == '/')
  String.ofList rev.reverse ++ "." ++ ext

end RouteDoc.Path
