/-!
# Faults

What can go wrong while routes are documented. Each cause is a constructor, and `Fault.message`
holds all wordings. A command that gives up reports a `Failure`: a fault or a plain statement under
the contexts in which it arose.
-/

set_option autoImplicit false

namespace RouteDoc

/-- Why a documentation run cannot go on. -/
inductive Fault where
  /-- A file could not be read or written, for the reason given. -/
  | io (path reason : String)
  /-- The settings are not usable. -/
  | settings (detail : String)
  /-- A source text could not be read. -/
  | source (file detail : String)
  /-- No source declares the class. -/
  | noSource (className : String)
  /-- The class has no such method. -/
  | noMethod (className method : String)
  /-- A route's action does not name a class and a method. -/
  | badAction (detail : String)
  /-- The settings cannot be written. -/
  | unwritable (detail : String)
  /-- Another fault, met while doing something. -/
  | during (context : String) (cause : Fault)
deriving DecidableEq, Repr

namespace Fault

/-- The wording of a fault. -/
def message : Fault → String
  | io path reason => "I/O error on " ++ path ++ ": " ++ reason
  | settings detail => "Configuration error: " ++ detail
  | source file detail => "Parse error in " ++ file ++ ": " ++ detail
  | noSource className => "Source unit not found for " ++ className
  | noMethod className method => "Method " ++ method ++ " not found in " ++ className
  | badAction detail => "Invalid route action: " ++ detail
  | unwritable detail => "Serialization error: " ++ detail
  | during context cause => context ++ ": " ++ cause.message

/-- The wordings of what lies behind a fault, the nearest first. -/
def causes : Fault → List String
  | io _ reason => [reason]
  | during _ cause => cause.message :: cause.causes
  | _ => []

/-- The fault under contexts, each put around the one before. -/
def within (f : Fault) (contexts : List String) : Fault :=
  contexts.foldl (fun f c => during c f) f

end Fault

/-- What a failed command reports at the root of its contexts. -/
inductive Failure.Root where
  /-- A fault of the library. -/
  | fault (f : Fault)
  /-- A statement of the command itself. -/
  | statement (text : String)
deriving DecidableEq, Repr

/-- Why a command gave up. -/
structure Failure where
  /-- What was being done, the outermost first. -/
  contexts : List String := []
  /-- What went wrong. -/
  root : Failure.Root
deriving DecidableEq, Repr

namespace Failure

/-- The fault met while doing something. -/
def ofFault (context : String) (f : Fault) : Failure :=
  ⟨[context], .fault f⟩

/-- A statement without context. -/
def ofStatement (text : String) : Failure :=
  ⟨[], .statement text⟩

/-- The contexts, the root and what lies behind it, outermost first, with colons between. -/
def message (f : Failure) : String :=
  let root := match f.root with
    | .fault g => g.message :: g.causes
    | .statement text => [text]
  ": ".intercalate (f.contexts ++ root)

end Failure

end RouteDoc
