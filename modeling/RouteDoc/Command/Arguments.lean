/-!
# Arguments of the command line

A command line is a subcommand with its own arguments. Two options may stand before and behind the
subcommand, each once on either side; an option behind it counts more. A text that begins with a
dash is an option unless it is the dash alone or stands behind `--`.
-/

set_option autoImplicit false

namespace RouteDoc.Command

/-- What the program is asked to do. -/
inductive Request where
  /-- To document actions. -/
  | document (actions : List String)
  /-- To document one handler of a file. -/
  | inspect (file method : String) (className : Option String)
  /-- To list the capabilities. -/
  | features
deriving DecidableEq, Repr

/-- A request with the options that are common to all. -/
structure Invocation where
  /-- The path of the file of settings. -/
  config : Option String := none
  /-- Whether to log more. -/
  verbose : Bool := false
  /-- The request. -/
  request : Request
deriving DecidableEq, Repr

/-- What a command line means. -/
inductive Meaning where
  /-- To carry out a request. -/
  | run (i : Invocation)
  /-- To tell the version. -/
  | version
  /-- To tell how the program is used. -/
  | help
  /-- Nothing: the command line is wrong. -/
  | misuse
deriving DecidableEq, Repr

/-- The options of one side of the subcommand, and the plain arguments there. -/
structure Side where
  /-- The path of the file of settings. -/
  config : Option String := none
  /-- Whether to log more. -/
  verbose : Bool := false
  /-- The class of the handler. -/
  className : Option String := none
  /-- The plain arguments. -/
  plain : List String := []
deriving DecidableEq, Repr

/-- The subcommands that carry out a request. -/
inductive Subcommand where
  /-- Documents actions. -/
  | document
  /-- Documents one handler of a file. -/
  | inspect
  /-- Lists the capabilities. -/
  | features
deriving DecidableEq, Repr

namespace Subcommand

/-- All subcommands. -/
def all : List Subcommand :=
  [document, inspect, features]

/-- The name of a subcommand. -/
def name : Subcommand → String
  | document => "document"
  | inspect => "inspect"
  | features => "features"

/-- The subcommand of that name. -/
def ofName? (s : String) : Option Subcommand :=
  all.find? (·.name == s)

/-- How many plain arguments a subcommand takes at most, if there is a bound. -/
def room : Subcommand → Option Nat
  | document => none
  | inspect => some 2
  | features => some 0

end Subcommand

/-- Where options are read. -/
inductive Place where
  /-- Before the subcommand. -/
  | front
  /-- Behind a subcommand. -/
  | behind (c : Subcommand)
deriving DecidableEq, Repr

/-- Whether one more plain argument is one too many. -/
def Place.isFull (p : Place) (s : Side) : Bool :=
  match p with
  | .front => false
  | .behind c => c.room.any (· ≤ s.plain.length)

/-- The options that take a value. -/
inductive Valued where
  /-- The file of settings, which needs a path. -/
  | config
  /-- The class of the handler. -/
  | className
deriving DecidableEq, Repr

/-- What an argument that begins with a dash does. -/
inductive Effect where
  /-- It changes the side. -/
  | set (s : Side)
  /-- It changes the side and takes the next argument as a value. -/
  | wants (s : Side) (o : Valued)
  /-- It settles the meaning of the command line. -/
  | settle (m : Meaning)
deriving DecidableEq, Repr

/-- The side with a value of an option, which may be given once. -/
def Side.setValue (s : Side) (o : Valued) (v : String) : Option Side :=
  match o with
  | .config => if s.config.isSome || v.isEmpty then none else some { s with config := some v }
  | .className => if s.className.isSome then none else some { s with className := some v }

/-- The effect of a value that belongs to an option. -/
def valueEffect (s : Side) (o : Valued) (v : String) : Effect :=
  match s.setValue o v with
  | some s => .set s
  | none => .settle .misuse

/-- The effect of the wish for more logging, which may be given once. -/
def verboseEffect (s : Side) : Effect :=
  if s.verbose then .settle .misuse else .set { s with verbose := true }

/-- The effect of a short option, and of those behind it in the same argument. -/
def shortEffect (p : Place) (s : Side) : List Char → Effect
  | [] => .set s
  | 'c' :: value =>
    match value with
    | [] => .wants s .config
    | '=' :: v => valueEffect s .config (String.ofList v)
    | v => valueEffect s .config (String.ofList v)
  | 'v' :: more =>
    match verboseEffect s with
    | .set s => shortEffect p s more
    | e => e
  | 'h' :: _ => .settle .help
  | 'V' :: _ => .settle (if p = .front then .version else .misuse)
  | _ => .settle .misuse

/-- The option of that name that takes a value. -/
def valued? (p : Place) (name : String) : Option Valued :=
  if name = "config" then some .config
  else if name = "class" ∧ p = .behind .inspect then some .className
  else none

/-- The effect of a long option, without its dashes. -/
def longEffect (p : Place) (s : Side) (option : List Char) : Effect :=
  let name := String.ofList (option.takeWhile (· != '='))
  match valued? p name, option.dropWhile (· != '=') with
  | some o, _ :: v => valueEffect s o (String.ofList v)
  | some o, [] => .wants s o
  | none, _ :: _ => .settle .misuse
  | none, [] =>
    if name = "verbose" then verboseEffect s
    else if name = "help" then .settle .help
    else if name = "version" ∧ p = .front then .settle .version
    else .settle .misuse

/-- Whether an argument begins an option, or ends all of them. -/
def isOption (a : String) : Bool :=
  match a.toList with
  | '-' :: _ :: _ => true
  | _ => false

/-- The effect of an argument that begins with a dash. -/
def effect (p : Place) (s : Side) (a : String) : Effect :=
  match a.toList with
  | '-' :: '-' :: option => longEffect p s option
  | '-' :: options => shortEffect p s options
  | _ => .settle .misuse

/-- Reads the arguments of a side. Before the subcommand it ends at the first plain argument. -/
def readSide (p : Place) (s : Side) : List String → Except Meaning (Side × List String)
  | [] => .ok (s, [])
  | a :: more =>
    if a = "--" then
      if p = .front then .error .misuse else .ok ({ s with plain := s.plain ++ more }, [])
    else if isOption a then
      match effect p s a with
      | .settle m => .error m
      | .set s => readSide p s more
      | .wants s o =>
        match more with
        | [] => .error .misuse
        | v :: rest =>
          if isOption v then .error .misuse
          else
            match s.setValue o v with
            | some s => readSide p s rest
            | none => .error .misuse
    else if p = .front then .ok (s, a :: more)
    else if p.isFull s then .error .misuse
    else readSide p { s with plain := s.plain ++ [a] } more

/-- The request of a subcommand with its side. -/
def request? (c : Subcommand) (s : Side) : Option Request :=
  match c, s.plain with
  | .document, a :: more => some (.document (a :: more))
  | .inspect, [file, method] =>
    if file.isEmpty then none else some (.inspect file method s.className)
  | .features, [] => some .features
  | _, _ => none

/-- The name of the subcommand that tells how the program, or one of its subcommands, is used. -/
def helpName : String := "help"

/-- Whether a subcommand has that name. -/
def isCommand (s : String) : Bool :=
  s == helpName || (Subcommand.ofName? s).isSome

/-- What a command line means. -/
def meaning (args : List String) : Meaning :=
  match readSide .front {} args with
  | .error m => m
  | .ok (_, []) => .misuse
  | .ok (front, command :: more) =>
    if command = helpName then
      if more.all isCommand && more.length ≤ 1 then .help else .misuse
    else
      match Subcommand.ofName? command with
      | none => .misuse
      | some c =>
        match readSide (.behind c) {} more with
        | .error m => m
        | .ok (side, _) =>
          match request? c side with
          | none => .misuse
          | some r => .run ⟨side.config.or front.config, front.verbose || side.verbose, r⟩

end RouteDoc.Command
