import RouteDoc.Autoload
import RouteDoc.Documenter
import RouteDoc.Parameter.Codec
import RouteDoc.Settings.Layers

/-!
# Commands

What the program can be asked to do: document the handlers of actions whose classes are found under
the roots, document one handler of one file, and load settings that are usable.
-/

set_option autoImplicit false

namespace RouteDoc.Command

/-- Loads settings from the file at a path, or from the one of the home directory, and the
environment, and refuses those that are not usable. -/
def loadSettings (files : FileSystem) (env : Environment) (home : String) (path : Option String) :
    Except Failure Settings :=
  match Settings.ofFile files env (path.getD (Settings.globalPath home)) with
  | .error e => .error (.ofFault "Failed to load configuration" e)
  | .ok s =>
    match s.validate with
    | .error e => .error (.ofFault "Invalid configuration" e)
    | .ok _ => .ok s

/-- Operations by action. -/
abbrev Operations := List (String × Operation)

/-- The operations with that of an action, in the place of an earlier one. -/
def setOperation (ops : Operations) (action : String) (op : Operation) : Operations :=
  if ops.any (·.1 == action) then ops.map fun o => if o.1 == action then (action, op) else o
  else ops ++ [(action, op)]

/-- Documents actions one after the other, up to the first that fails. -/
def documentAll (d : Documenter) : List String → Generator → Operations → Except Failure Operations
  | [], _, ops => .ok ops
  | a :: more, g, ops =>
    match d.document g a with
    | .error e => .error (.ofFault ("Failed to document " ++ a) e)
    | .ok r => documentAll d more r.generator (setOperation ops a r.operation)

/-- Documents the handlers of actions, whose classes are found under the roots of the settings. -/
def documentActions (s : Settings) (files : FileSystem) (base : String) (today : Date)
    (g : Generator) (actions : List String) : Except Failure Operations :=
  if s.autoload.isEmpty then
    .error (.ofStatement "No [[autoload]] roots configured; cannot locate controller classes")
  else
    let d : Documenter := { settings := s, load := Autoload.load files base s.autoload, today }
    documentAll d actions g []

/-- The class whose handler is documented: the one that is named, or the first that a source
declares. -/
def classToInspect (u : ParsedSource) (file : String) (className : Option String) :
    Except Failure String :=
  match className with
  | some c => .ok (bareName c)
  | none =>
    match u.classNames.head? with
    | some c => .ok c
    | none => .error (.ofStatement (file ++ " declares no class"))

/-- Documents one handler of one file. Members of the class are looked for in the same file. -/
def inspect (s : Settings) (files : FileSystem) (today : Date) (g : Generator)
    (file method : String) (className : Option String) : Except Failure Operation :=
  match Autoload.read files file with
  | .error e => .error (.ofFault ("Failed to load " ++ file) e)
  | .ok u =>
    match classToInspect u file className with
    | .error e => .error e
    | .ok c =>
      let load := (({} : Library).insert c u.source).load
      let d : Documenter := { settings := s, load, today }
      let action := c ++ "@" ++ method
      match d.documentIn (.named action) g u c method with
      | .error e => .error (.ofFault ("Failed to document " ++ action) e)
      | .ok r => .ok r.operation

/-- Operations as JSON. -/
def operationsJson (ops : Operations) : Json :=
  .obj (ops.map fun (a, op) => (a, op.toJson))

end RouteDoc.Command
