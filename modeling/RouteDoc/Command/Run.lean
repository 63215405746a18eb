import RouteDoc.Command.Arguments
import RouteDoc.Command.Basic
import RouteDoc.Json.Printer
import RouteDoc.Parameter.Codec

/-!
# Runs of the program

A run takes a command line and the world as it finds it, and ends with an exit code, a text for the
output and a text for the error output. A run that fails writes no output.
-/

set_option autoImplicit false

namespace RouteDoc.Command

/-- What a run finds. -/
structure World where
  /-- The files, as seen from the working directory. -/
  files : FileSystem
  /-- The variables of the environment. -/
  env : Environment
  /-- The home directory. -/
  home : String
  /-- The day. -/
  today : Date
  /-- A seed for runs without one of their own. -/
  entropy : UInt64

/-- How a run ends. -/
structure Outcome where
  /-- The exit code. -/
  code : Nat
  /-- The output. -/
  output : String := ""
  /-- The error output. -/
  complaint : String := ""
deriving DecidableEq, Repr

/-- The name of the program. -/
def programName : String := "qbdoc"

/-- The version of the program. -/
def version : String := "0.1.0"

/-- How the program is used. -/
def usage : String :=
  "Usage: " ++ programName ++ " [OPTIONS] <COMMAND>\n\nCommands:\n" ++
  "  document  Document the handlers of ACTIONS, whose classes lie under the autoload roots\n" ++
  "  inspect   Document METHOD of FILE; --class names its class\n" ++
  "  features  List the capabilities\n" ++
  "  help      Tell how the program is used\n\nOptions:\n" ++
  "  -c, --config <FILE>  Path of the file of settings\n" ++
  "  -v, --verbose        Log more\n" ++
  "  -h, --help           Tell how the program is used\n" ++
  "  -V, --version        Tell the version\n"

/-- The paths at which the settings of a run may stand. -/
def Invocation.settingsPaths (i : Invocation) (home : String) : List String :=
  let path := i.config.getD (Settings.globalPath home)
  [path, Path.withExtension path "toml", Path.withExtension path "json"]

/-- The paths at which the sources of a run stand. -/
def Invocation.sourcePaths (i : Invocation) (s : Settings) : List String :=
  match i.request with
  | .document actions => actions.filterMap fun a =>
      match Handler.ofAction a with
      | .ok h => Autoload.path? "" s.autoload h.className
      | .error _ => none
  | .inspect file _ _ => [file]
  | .features => []

/-- The generator of a run: that of the seed in the settings, or else one from the entropy. -/
def World.generator (w : World) (s : Settings) : Generator :=
  .ofSeed ((s.synthesis.seed.map UInt64.ofNat).getD w.entropy)

/-- Carries out a request. -/
def World.perform (w : World) (s : Settings) : Request → Except Failure Json
  | .document actions =>
    (documentActions s w.files "" w.today (w.generator s) actions).map operationsJson
  | .inspect file method className =>
    (inspect s w.files w.today (w.generator s) file method className).map Operation.toJson
  | .features => .ok (.arr (s.features.map Feature.toJson))

/-- Carries out an invocation. -/
def World.invoke (w : World) (i : Invocation) : Outcome :=
  let answer := do
    let s ← loadSettings w.files w.env w.home i.config
    w.perform s i.request
  match answer with
  | .ok v => { code := 0, output := v.pretty ++ "\n" }
  | .error e => { code := 1, complaint := "Error: " ++ e.message ++ "\n" }

/-- Runs the program. -/
def World.run (w : World) (args : List String) : Outcome :=
  match meaning args with
  | .run i => w.invoke i
  | .version => { code := 0, output := programName ++ " " ++ version ++ "\n" }
  | .help => { code := 0, output := usage }
  | .misuse => { code := 2, complaint := usage }

end RouteDoc.Command
