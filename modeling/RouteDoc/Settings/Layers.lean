import RouteDoc.Files.System
import RouteDoc.Json.Parser
import RouteDoc.Settings.Value
import RouteDoc.Toml.Document
import RouteDoc.Toml.Printer

/-!
# Layers of settings

Settings come in layers: the defaults, then a file, then the environment. A later layer replaces
what it sets and leaves everything else; tables are merged entry by entry, with names in small
letters.

A top-level name of a layer may be a path into the tree, such as `parameters.filter` or
`autoload[0].path`. A variable of the environment names such a path behind `QBDOC__`, with `__` for
each dot.
-/

set_option autoImplicit false

namespace RouteDoc

open Number

/-! ## Merging -/

namespace Setting

/-- The entries of a table; anything else has none. -/
def entries : Option Setting → List (String × Setting)
  | some (table es) => es
  | _ => []

/-- The elements of a list; anything else has none. -/
def elements : Option Setting → List Setting
  | some (list vs) => vs
  | _ => []

/-- A name in small letters. -/
def lower (s : String) : String :=
  String.ofList (s.toList.map Char.toLower)

/-- The entries with one of them set. -/
def put (es : List (String × Setting)) (name : String) (v : Setting) : List (String × Setting) :=
  if es.any (·.1 == name) then es.map fun e => if e.1 == name then (name, v) else e
  else es ++ [(name, v)]

mutual
/-- A value over an older one: a table is merged into it, and anything else replaces it. -/
def merge (old : Option Setting) : Setting → Setting
  | table es => table (mergeAll (entries old) es)
  | v => v
/-- Entries over older ones. -/
def mergeAll (old : List (String × Setting)) : List (String × Setting) → List (String × Setting)
  | [] => old
  | (k, v) :: es => mergeAll (put old (lower k) (merge (old.lookup (lower k)) v)) es
end

/-! ## Paths -/

/-- A step into a tree. -/
inductive Step where
  /-- To an entry of a table. -/
  | name (s : String)
  /-- To an element of a list, counted from the end if negative. -/
  | index (i : Int)
deriving DecidableEq, Repr

/-- The list with an element set; it is filled with nothing up to there. -/
def setElement (vs : List Setting) (i : Int) (f : Option Setting → Setting) : List Setting :=
  let n := if 0 ≤ i then i.toNat else vs.length - i.natAbs
  let vs := vs ++ List.replicate (n + 1 - vs.length) null
  vs.modify n fun v => f (some v)

/-- The tree with a value set at a path. On the way anything that is no table, or no list, makes way
for one. -/
def setPath (v : Setting) : List Step → Option Setting → Setting
  | [], old => merge old v
  | .name s :: steps, old =>
    let es := entries old
    table (put es (lower s) (setPath v steps (es.lookup (lower s))))
  | [.index i], old => list (setElement (elements old) i fun _ => v)
  | .index i :: steps, old => list (setElement (elements old) i (setPath v steps))

/-- Whether a character may stand in a name on a path. -/
def isPathChar (c : Char) : Bool :=
  c.isAlphanum || c == ' ' || c == '_' || c == '-'

/-- Whether a character may stand around the number in the brackets of a step. -/
def isPadding (c : Char) : Bool :=
  c == ' ' || c == '\t' || c == '\r' || c == '\n'

/-- The number in the brackets of a step. -/
def index? (s : List Char) : Option Int :=
  let s := s.dropWhile isPadding
  match (s.reverse.dropWhile isPadding).reverse with
  | '-' :: r => (natural? 10 r).map fun n => -(n : Int)
  | r => (natural? 10 r).map Int.ofNat

/-- The steps behind the first name of a path. -/
def steps? : Nat → List Char → Option (List Step)
  | _, [] => some []
  | 0, _ => none
  | fuel + 1, '.' :: r =>
    let n := r.takeWhile isPathChar
    if n.isEmpty then none
    else (steps? fuel (r.drop n.length)).map (.name (String.ofList n) :: ·)
  | fuel + 1, '[' :: r =>
    let n := r.takeWhile (· != ']')
    match r.drop n.length with
    | _ :: r => do
      let i ← index? n
      (steps? fuel r).map (.index i :: ·)
    | [] => none
  | _, _ => none

/-- The path that a top-level name stands for: one of several steps if it reads as such, and itself
otherwise. -/
def path (name : String) : List Step :=
  let s := name.toList
  let n := s.takeWhile isPathChar
  if n.isEmpty then [.name name]
  else
    match steps? s.length (s.drop n.length) with
    | some steps => .name (String.ofList n) :: steps
    | none => [.name name]

/-- A layer over a tree. -/
def overlay (base : Setting) (layer : List (String × Setting)) : Setting :=
  layer.foldl (fun t e => setPath e.2 (path e.1) (some t)) base

end Setting

/-! ## The environment -/

/-- The variables of the environment. -/
abbrev Environment := List (String × String)

namespace Environment

/-- What the names of variables with settings begin with, in small letters. -/
def lead : List Char := "qbdoc__".toList

/-- A name with a dot for each pair of low lines. -/
def dotted : List Char → List Char
  | '_' :: '_' :: cs => '.' :: dotted cs
  | c :: cs => c :: dotted cs
  | [] => []

/-- The value that a text stands for: a truth value, a number, or else itself. -/
def valueOf (s : String) : Setting :=
  let w := Setting.lower s
  if w = "true" then .bool true
  else if w = "false" then .bool false
  else
    match signed64? s.toList with
    | some i => .int i
    | none =>
      match Double.read? s.toList with
      | some x => .real x
      | none => .text s

/-- The setting that a variable makes. -/
def setting? (v : String × String) : Option (String × Setting) :=
  (Text.after? lead (v.1.toList.map Char.toLower)).map fun name =>
    (String.ofList (dotted name), valueOf v.2)

/-- The layer of the environment. -/
def layer (env : Environment) : List (String × Setting) :=
  env.filterMap setting?

end Environment

/-! ## Files -/

namespace Settings

/-- The layer of defaults. -/
def defaults : Setting :=
  let d : Settings := {}
  .table [
    ("parameters", .table [
      ("include", .text d.keys.relation),
      ("filter", .text d.keys.filter),
      ("sort", .text d.keys.sort),
      ("fields", .text d.keys.field)]),
    ("annotations", .table [("tag", .text d.tag)]),
    ("synthesis", .table [
      ("emit_unsupported", .bool d.synthesis.emitUnsupported),
      ("shuffle_includes", .bool d.synthesis.shuffleIncludes)])]

mutual
/-- A tree in which whole numbers that do not fit into 64 bits with a sign are fractions. -/
def narrow : Setting → Setting
  | .int i =>
    if i < half64 then .int i else .real (Double.ofDecimal ⟨false, i.toNat, 0⟩)
  | .list vs => .list (narrowAll vs)
  | .table es => .table (narrowEntries es)
  | v => v
/-- Trees with such numbers. -/
def narrowAll : List Setting → List Setting
  | [] => []
  | v :: vs => narrow v :: narrowAll vs
/-- Entries with such numbers. -/
def narrowEntries : List (String × Setting) → List (String × Setting)
  | [] => []
  | (k, v) :: es => (k, narrow v) :: narrowEntries es
end

/-- A notation for settings. -/
inductive Format where
  /-- TOML. -/
  | toml
  /-- JSON. -/
  | json
deriving DecidableEq, Repr

/-- The notation that goes with the extension of a path. -/
def format? (path : String) : Option Format :=
  match Path.extension? path with
  | some "toml" => some .toml
  | some "json" => some .json
  | _ => none

/-- The file that a path stands for, with its notation: itself, or the path with an extension more.
-/
def sourceFile? (files : FileSystem) (path : String) : Option (String × Format) :=
  if files.isFile path then (format? path).map (path, ·)
  else
    [("toml", Format.toml), ("json", .json)].findSome? fun (ext, n) =>
      let p := Path.withExtension path ext
      if files.isFile p then some (p, n) else none

/-- The top-level entries of a text. -/
def layerOf? (n : Format) (text : String) : Option (List (String × Setting)) :=
  let tree := match n with
    | .toml => Toml.read? text
    | .json => (Json.parse? text).map fun v => narrow (.ofJson v)
  match tree with
  | some (.table es) => some es
  | _ => none

/-- The text of a file of settings: a mark of the byte order is dropped, and faults are read over.
-/
def textOf (bytes : List UInt8) : String :=
  let bytes := match bytes with
    | 0xEF :: 0xBB :: 0xBF :: r => r
    | r => r
  String.ofList (Text.utf8Lenient bytes)

/-- The layer of the file at a path, which is there. -/
def fileLayer? (files : FileSystem) (path : String) : Option (List (String × Setting)) := do
  let (p, n) ← sourceFile? files path
  let bytes ← (files.bytes p).toOption
  layerOf? n (textOf bytes)

/-- The settings of the defaults, the file at a path if there is one, and the environment. -/
def ofFile (files : FileSystem) (env : Environment) (path : String) : Except Fault Settings :=
  let file := if files.has path then fileLayer? files path else some []
  match file with
  | none => .error (.settings ("Failed to build config: cannot read " ++ path))
  | some layer =>
    let tree := Setting.overlay (Setting.overlay defaults layer) env.layer
    match Settings.read? .lenient tree with
    | some s => .ok s
    | none => .error (.settings "Failed to deserialize config: a value does not fit")

/-- The path of the file of settings that belongs to a home directory. -/
def globalPath (home : String) : String :=
  Path.join (Path.join home ".qbdoc") "config.toml"

/-- The settings of a TOML document alone. -/
def ofToml (text : String) : Except Fault Settings :=
  match (Toml.read? text).bind (Settings.read? .exact) with
  | some s => .ok s
  | none => .error (.settings "Failed to parse TOML: the document does not fit")

/-- The files with the settings written to a path. -/
def save (files : FileSystem) (path : String) (s : Settings) : Except Fault FileSystem :=
  match Toml.write? s with
  | none => .error (.unwritable "Failed to serialize config: the seed is too large")
  | some text =>
    match files.write path text.toUTF8.toList with
    | .ok files => .ok files
    | .error e => .error (.io path e.message)

end Settings

end RouteDoc
