import RouteDoc.Capability
import RouteDoc.Date
import RouteDoc.Random.Generator
import RouteDoc.Synthesis.Guess
import RouteDoc.Synthesis.Merge
import RouteDoc.Allowed.Resolved

/-!
# Synthesis of descriptors

A capability with a parameter for each value gives one descriptor for each, guessed from its name
and merged with the records of the comment. Inclusion and sorting give one descriptor each, with a
set of examples. The generator is drawn from in the order of the values, before any record is
merged.
-/

set_option autoImplicit false

namespace RouteDoc

/-- How descriptors are synthesised. -/
structure SynthesisOptions where
  /-- Whether values without a name are documented too. -/
  emitUnsupported : Bool := false
  /-- Whether the examples of inclusion are put in a random order. -/
  shuffleIncludes : Bool := true
  /-- The seed of the generator; without one it starts anywhere. -/
  seed : Option Nat := none
deriving DecidableEq, Repr

namespace Synthesis

/-- The description of the inclusion parameter. -/
def inclusionText : String :=
  "Comma separated list of relationships to include."

/-- The description of the sorting parameter. -/
def sortingText : String :=
  "Comma separated list of values. Prefix with '-' to exclude."

/-- The names under which values are documented. -/
def names (options : SynthesisOptions) (values : List Resolved) : List String :=
  (values.filter fun v => options.emitUnsupported || v.isSupported).map Resolved.rendered

/-- An example for a guess. -/
def sample (today : Date) (g : Generator) : Guess → Json × Generator
  | .date => (.str today.text, g)
  | .identifier =>
    let (n, g) := g.identifier
    (.int n, g)
  | .flag =>
    let (b, g) := g.flag
    (.bool b, g)
  | .text => (.str "", g)

/-- The key of one value. -/
def keyOf (key name : String) : String :=
  key ++ "[" ++ name ++ "]"

/-- What the name of a value alone says about its parameter. -/
def guessed (today : Date) (key name : String) (g : Generator) : Descriptor × Generator :=
  let guess := Guess.ofName name
  let (e, g) := sample today g guess
  ({ key := keyOf key name
     valueType := guess.valueType
     format := guess.format
     example? := some e }, g)

/-- The descriptor of one value. -/
def perValue (today : Date) (key : String) (records : List Override) (name : String)
    (g : Generator) : Descriptor × Generator :=
  let (d, g) := guessed today key name g
  (d.applyAll name records, g)

/-- The descriptors of values, in order. -/
def perValueAll (today : Date) (key : String) (records : List Override) :
    List String → Generator → List Descriptor × Generator
  | [], g => ([], g)
  | name :: names, g =>
    let (d, g) := perValue today key records name g
    let (ds, g) := perValueAll today key records names g
    (d :: ds, g)

/-- A descriptor with a set of examples, of which the first is the representative. -/
def withExamples (key description : String) (examples : List String) : Descriptor where
  key := key
  valueType := .string
  description := some description
  example? := examples.head?.map .str
  examples := examples.map .str

/-- The inclusion parameter. -/
def includes (options : SynthesisOptions) (key : String) (names : List String) (g : Generator) :
    Descriptor × Generator :=
  let (names, g) := if options.shuffleIncludes then g.shuffle names else (names, g)
  (withExamples key inclusionText names, g)

/-- The sorting parameter: each name upwards and downwards. -/
def sorts (key : String) (names : List String) : Descriptor :=
  withExamples key sortingText (names.flatMap fun n => [n, "-" ++ n])

/-- The descriptors of a feature, in order of emission. -/
def synthesize (options : SynthesisOptions) (today : Date) (feature : Feature)
    (values : List Resolved) (records : List Override) (g : Generator) :
    List Descriptor × Generator :=
  let names := names options values
  match feature.capability with
  | .filter | .field => perValueAll today feature.key records names g
  | .relation =>
    let (d, g) := includes options feature.key names g
    ([d], g)
  | .sort => ([sorts feature.key names], g)

end Synthesis

end RouteDoc
