import RouteDoc.Files.System
import RouteDoc.Allowed.Basic
import RouteDoc.Action
import RouteDoc.Settings.Basic

/-!
# Finding classes in files

A class lies in the file that its name spells: what is left of the name behind the stem of a root,
with slashes for backslashes, under the directory of that root. Of several roots the one with the
longest stem counts, and of those the last.
-/

set_option autoImplicit false

namespace RouteDoc.Autoload

open Text

/-- A root that a class belongs to, with what is left of the name behind its stem. -/
structure Candidate where
  /-- The path of the root. -/
  path : String
  /-- The number of bytes of the stem. -/
  width : Nat
  /-- What is left of the name. -/
  rest : List Char

/-- What a root says about a class, if the class belongs to it. -/
def candidate? (name : List Char) (r : ClassRoot) : Option Candidate :=
  let stem := bareName r.stem
  (after? stem.toList name).map fun rest => ⟨r.path, stem.utf8ByteSize, rest⟩

/-- The better of two candidates, the second unless the first has the longer stem. -/
def better (a : Option Candidate) (b : Candidate) : Option Candidate :=
  match a with
  | none => some b
  | some a => if b.width < a.width then some a else some b

/-- The path of the file for what is left of a name: backslashes become slashes, after those at the
beginning are dropped. -/
def fileFor (rest : List Char) : Option String :=
  let r := rest.dropWhile (· == '\\')
  if r.isEmpty then none
  else some (String.ofList (r.map fun c => if c == '\\' then '/' else c) ++ ".php")

/-- The path of the file in which a class lies. -/
def path? (base : String) (roots : List ClassRoot) (className : String) : Option String :=
  let name := (bareName className).toList
  ((roots.filterMap (candidate? name)).foldl better none).bind fun c =>
    (fileFor c.rest).map fun f => Path.join (Path.join base c.path) f

/-- Reads the source in a file. -/
def read (files : FileSystem) (path : String) : Except Fault ParsedSource :=
  match files.text path with
  | .ok s => .ok (.parse path s)
  | .error e => .error (.io path e.message)

/-- Loads the sources of classes from their files. -/
def load (files : FileSystem) (base : String) (roots : List ClassRoot) : Loader := fun className =>
  match (path? base roots className).filter files.isFile with
  | some p => read files p
  | none => .error (.noSource className)

end RouteDoc.Autoload
