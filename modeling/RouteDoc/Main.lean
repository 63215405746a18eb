import RouteDoc.Command.Run
import Std.Time.Zoned

/-!
# The program

The outer layer of the program: it finds the arguments, the environment, the day and the files that
a run may look at, and leaves all else to `Command.World.run`.
-/

set_option autoImplicit false

namespace RouteDoc.Program

open Command

/-- The variables of the environment; there are none where the system does not list them. -/
def environment : IO Environment := do
  try
    let h ← IO.FS.Handle.mk "/proc/self/environ" .read
    let text := String.ofList (Text.utf8Lenient (← h.readBinToEnd).toList)
    return ((text.toList.splitOn '\x00').filter (·.contains '=')).map fun v =>
      (String.ofList (v.takeWhile (· != '=')), String.ofList ((v.dropWhile (· != '=')).drop 1))
  catch _ => return []

/-- What stands at a path, if it can be read. -/
def find? (path : String) : IO (Option FileTree) := do
  try
    return some (.file (← IO.FS.readBinFile path).toList)
  catch
    | .inappropriateType .. => return some .empty
    | _ => return none

/-- Files together with what stands at some paths. -/
def withPaths (files : FileSystem) (paths : List String) : IO FileSystem :=
  paths.foldlM (fun fs p => do
    if fs.has p then return fs
    else return ((← find? p).map (fs.put p)).getD fs) files

/-- The files that a run looks at: first those that may hold its settings, and then its sources. -/
def filesFor (w : World) (i : Invocation) : IO FileSystem := do
  let files ← withPaths w.files (i.settingsPaths w.home)
  match loadSettings files w.env w.home i.config with
  | .ok s => withPaths files (i.sourcePaths s)
  | .error _ => return files

/-- The day, by the clock and the time zone of the system. -/
def today : IO Date := do
  let d ← Std.Time.PlainDate.now
  return ⟨d.year, d.month.val.toNat, d.day.val.toNat⟩

/-- A seed that nobody can foresee. -/
def entropy : IO UInt64 := do
  return (← IO.getRandomBytes 8).foldl (fun n b => n * 256 + b.toUInt64) 0

/-- The world as a run finds it, so far without files but for the directories above. -/
def world : IO World := do
  let env ← environment
  let here := Path.components (toString (← IO.currentDir))
  let files : FileSystem := { root := FileTree.putAt .empty here .empty, here }
  return ⟨files, env, (env.lookup "HOME").getD "/", ← today, ← entropy⟩

/-- Runs the program and tells its exit code. -/
def run (args : List String) : IO UInt32 := do
  let w ← world
  let files ←
    match meaning args with
    | .run i => filesFor w i
    | _ => pure w.files
  let outcome := { w with files }.run args
  IO.print outcome.output
  IO.eprint outcome.complaint
  return UInt32.ofNat outcome.code

end RouteDoc.Program

/-- The entry point. -/
def main (args : List String) : IO UInt32 :=
  RouteDoc.Program.run args
