import RouteDoc.Settings.Basic

/-!
# Written settings

Settings are read from a tree of values, whatever notation the tree was written in. Notations differ
in how strict they are, and a `Reading` says so. A record may be written as a table, where unknown
entries are passed over, or as a list of its fields in order. What is not written has its default.
-/

set_option autoImplicit false

namespace RouteDoc

open Number

/-- A value as it was written. -/
inductive Setting where
  /-- Nothing. -/
  | null
  /-- A truth value. -/
  | bool (b : Bool)
  /-- A whole number. -/
  | int (i : Int)
  /-- Any other number. -/
  | real (x : Double)
  /-- A text. -/
  | text (s : String)
  /-- A date, a time or both, by its text. -/
  | moment (s : String)
  /-- A list. -/
  | list (items : List Setting)
  /-- A table, as its entries. -/
  | table (entries : List (String × Setting))
deriving Inhabited

namespace Setting

mutual
/-- The tree of a JSON value. -/
def ofJson : Json → Setting
  | .null => null
  | .bool b => bool b
  | .int i => int i
  | .real x => real x
  | .str s => text s
  | .arr items => list (ofItems items)
  | .obj members => table (ofMembers members)
/-- The trees of the elements of an array. -/
def ofItems : List Json → List Setting
  | [] => []
  | v :: vs => ofJson v :: ofItems vs
/-- The trees of the members of an object. -/
def ofMembers : List (String × Json) → List (String × Setting)
  | [] => []
  | (k, v) :: ms => (k, ofJson v) :: ofMembers ms
end

end Setting

/-- How strictly written values are read. -/
structure Reading where
  /-- Whether a scalar of one kind may stand for one of another. -/
  coerces : Bool
  /-- Whether a record that is written as a list may have more elements than fields. -/
  surplus : Bool
deriving DecidableEq, Repr

namespace Reading

/-- Every value has the kind that is asked for, and lists have no surplus. -/
def strict : Reading := ⟨false, false⟩

/-- Every value has the kind that is asked for. -/
def exact : Reading := ⟨false, true⟩

/-- Scalars stand for each other where that makes sense. -/
def lenient : Reading := ⟨true, true⟩

/-- The text of a whole number. -/
def intText (i : Int) : List Char :=
  (if i < 0 then ['-'] else []) ++ decimalText i.natAbs

/-- A text. When coerced, numbers and truth values stand for their texts. -/
def text? (r : Reading) : Setting → Option String
  | .text s => some s
  | .bool b => if r.coerces then some (if b then "true" else "false") else none
  | .int i => if r.coerces then some (String.ofList (intText i)) else none
  | .real x => if r.coerces then some (String.ofList (x.toText .plain)) else none
  | .moment s => if r.coerces then some s else none
  | _ => none

/-- The truth value that a word stands for, in any case. -/
def word? (s : String) : Option Bool :=
  let w := String.ofList (s.toList.map Char.toLower)
  if ["1", "true", "on", "yes"].contains w then some true
  else if ["0", "false", "off", "no"].contains w then some false
  else none

/-- A truth value. When coerced, some words and all numbers stand for one, a number for whether it
differs from zero. -/
def bool? (r : Reading) : Setting → Option Bool
  | .bool b => some b
  | .int i => if r.coerces then some (i != 0) else none
  | .real x => if r.coerces then some (!x.isZero) else none
  | .text s | .moment s => if r.coerces then word? s else none
  | _ => none

/-- The number that a text stands for: one and zero for some words, or else a numeral. -/
def numeral? (s : String) : Option Nat :=
  let w := String.ofList (s.toList.map Char.toLower)
  if ["true", "on", "yes"].contains w then some 1
  else if ["false", "off", "no"].contains w then some 0
  else unsigned? max64 w.toList

/-- A whole number from zero on, of 64 bits. When coerced, a fraction is rounded, a truth value
stands for one or zero, and a text for the number it spells. -/
def natural? (r : Reading) : Setting → Option Nat
  | .int i => if 0 ≤ i ∧ i ≤ max64 then some i.toNat else none
  | .bool b => if r.coerces then some b.toNat else none
  | .real x => if r.coerces then some x.round64 else none
  | .text s | .moment s => if r.coerces then numeral? s else none
  | _ => none

/-- An optional value: nothing stands for none. -/
def optional {α : Type} (read : Setting → Option α) : Setting → Option (Option α)
  | .null => some none
  | v => (read v).map some

/-- A list of values of one kind. -/
def list? {α : Type} (read : Setting → Option α) : Setting → Option (List α)
  | .list items => items.mapM read
  | _ => none

/-- The fields of a record, by name. Of a moment none is known. -/
def record? (r : Reading) (fields : List String) : Setting → Option (List (String × Setting))
  | .table entries => some entries
  | .list items =>
    if r.surplus || items.length ≤ fields.length then some (fields.zip items) else none
  | .moment _ => if r.coerces then none else some []
  | _ => none

/-- A field with a default. -/
def fieldD {α : Type} (read : Setting → Option α) (default : α) (name : String)
    (entries : List (String × Setting)) : Option α :=
  match entries.lookup name with
  | none => some default
  | some v => read v

/-- A field that has to be there. -/
def field? {α : Type} (read : Setting → Option α) (name : String)
    (entries : List (String × Setting)) : Option α :=
  (entries.lookup name).bind read

end Reading

open Reading

/-- The query keys that a value stands for. -/
def QueryKeys.read? (r : Reading) (v : Setting) : Option QueryKeys := do
  let m ← r.record? ["include", "filter", "sort", "fields"] v
  let d : QueryKeys := {}
  some {
    relation := ← fieldD r.text? d.relation "include" m
    filter := ← fieldD r.text? d.filter "filter" m
    sort := ← fieldD r.text? d.sort "sort" m
    field := ← fieldD r.text? d.field "fields" m }

/-- The tag that a value stands for. -/
def Settings.readTag? (r : Reading) (v : Setting) : Option String := do
  let m ← r.record? ["tag"] v
  fieldD r.text? ({} : Settings).tag "tag" m

/-- The options that a value stands for. -/
def SynthesisOptions.read? (r : Reading) (v : Setting) : Option SynthesisOptions := do
  let m ← r.record? ["emit_unsupported", "shuffle_includes", "seed"] v
  let d : SynthesisOptions := {}
  some {
    emitUnsupported := ← fieldD r.bool? d.emitUnsupported "emit_unsupported" m
    shuffleIncludes := ← fieldD r.bool? d.shuffleIncludes "shuffle_includes" m
    seed := ← fieldD (optional r.natural?) d.seed "seed" m }

/-- The root that a value stands for. -/
def ClassRoot.read? (r : Reading) (v : Setting) : Option ClassRoot := do
  let m ← r.record? ["prefix", "path"] v
  some ⟨← field? r.text? "prefix" m, ← field? r.text? "path" m⟩

/-- The settings that a value stands for. -/
def Settings.read? (r : Reading) (v : Setting) : Option Settings := do
  let m ← r.record? ["parameters", "annotations", "synthesis", "autoload"] v
  let d : Settings := {}
  some {
    keys := ← fieldD (QueryKeys.read? r) d.keys "parameters" m
    tag := ← fieldD (Settings.readTag? r) d.tag "annotations" m
    synthesis := ← fieldD (SynthesisOptions.read? r) d.synthesis "synthesis" m
    autoload := ← fieldD (list? (ClassRoot.read? r)) d.autoload "autoload" m }

end RouteDoc
