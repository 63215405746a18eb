import RouteDoc.Fault
import RouteDoc.Json.Basic
import RouteDoc.Synthesis.Basic

/-!
# Settings

What a host can set: the query key of each capability, the tag whose values describe parameters, how
descriptors are synthesised, and the roots under which classes are found. Every setting has a
default.
-/

set_option autoImplicit false

namespace RouteDoc

/-- The query key of each capability. -/
structure QueryKeys where
  /-- The key of inclusion. -/
  relation : String := "include"
  /-- The key of filters. -/
  filter : String := "filter"
  /-- The key of sorting. -/
  sort : String := "sort"
  /-- The key of fields. -/
  field : String := "fields"
deriving DecidableEq, Repr

/-- The key of a capability. -/
def QueryKeys.keyOf (k : QueryKeys) : Capability → String
  | .relation => k.relation
  | .filter => k.filter
  | .sort => k.sort
  | .field => k.field

/-- A directory that holds the classes of a namespace. -/
structure ClassRoot where
  /-- What the names of these classes begin with. -/
  stem : String
  /-- The path of the directory. -/
  path : String
deriving DecidableEq, Repr

/-- The settings of a host. -/
structure Settings where
  /-- The query keys. -/
  keys : QueryKeys := {}
  /-- The tag whose values describe parameters. -/
  tag : String := "@queryParam"
  /-- How descriptors are synthesised. -/
  synthesis : SynthesisOptions := {}
  /-- Where classes are found. -/
  autoload : List ClassRoot := []
deriving DecidableEq, Repr

namespace Settings

/-- Whether a text is blank throughout. -/
def isBlankText (s : String) : Bool :=
  s.toList.all Text.isBlank

/-- Whether a tag begins with `@` and has more than that. -/
def isTag (tag : String) : Bool :=
  match tag.toList with
  | '@' :: _ :: _ => true
  | _ => false

/-- The first capability with a blank key. -/
def blankKey? (s : Settings) : Option Capability :=
  Capability.all.find? fun c => isBlankText (s.keys.keyOf c)

/-- The first root with a blank stem. -/
def blankRoot? (s : Settings) : Option ClassRoot :=
  s.autoload.find? fun r => isBlankText r.stem

/-- Refuses settings with a blank key, with a tag that is none, or with a blank stem, in this order.
-/
def validate (s : Settings) : Except Fault Unit :=
  match s.blankKey? with
  | some c => .error (.settings ("Query parameter key for " ++ c.name ++ " must not be empty"))
  | none =>
    if !isTag s.tag then
      .error (.settings ("Invalid annotation tag '" ++ s.tag ++ "'. Must start with '@'"))
    else
      match s.blankRoot? with
      | some r =>
        .error (.settings ("Autoload root " ++ r.path ++ " has an empty namespace prefix"))
      | none => .ok ()

/-- The four capabilities under the keys set for them. -/
def features (s : Settings) : List Feature :=
  Capability.all.map fun c => { capability := c, key := s.keys.keyOf c }

/-- The settings as JSON, with all fields. -/
def toJson (s : Settings) : Json :=
  .obj [
    ("parameters", .obj [
      ("include", .str s.keys.relation),
      ("filter", .str s.keys.filter),
      ("sort", .str s.keys.sort),
      ("fields", .str s.keys.field)]),
    ("annotations", .obj [("tag", .str s.tag)]),
    ("synthesis", .obj [
      ("emit_unsupported", .bool s.synthesis.emitUnsupported),
      ("shuffle_includes", .bool s.synthesis.shuffleIncludes),
      ("seed", (s.synthesis.seed.map fun n => Json.int n).getD .null)]),
    ("autoload", .arr (s.autoload.map fun r =>
      .obj [("prefix", .str r.stem), ("path", .str r.path)]))]

end Settings

end RouteDoc
