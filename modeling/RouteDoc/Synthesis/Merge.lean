import RouteDoc.Comment.Override
import RouteDoc.Parameter.Descriptor

/-!
# Merging override records into a descriptor

A record that targets a descriptor replaces what it has something to say about. A type that is known
also clears what was guessed with the former type: format, examples and values; values are kept for
texts alone.
-/

set_option autoImplicit false

namespace RouteDoc.Descriptor

/-- The descriptor with another type and nothing that hung on the former one. -/
def retype (d : Descriptor) (t : ValueType) (enumValues : List String) : Descriptor :=
  { d with
    valueType := t
    format := none
    example? := none
    examples := []
    enumValues := if t = .string ∧ enumValues ≠ [] then some enumValues else none }

/-- The descriptor with a free text, if there is one. -/
def redescribe (d : Descriptor) : Option String → Descriptor
  | none => d
  | some text => { d with description := some text }

/-- The descriptor with a set of examples, unless the set is empty. -/
def setExamples (d : Descriptor) : List String → Descriptor
  | [] => d
  | e :: es => { d with example? := some (.str e), examples := (e :: es).map .str }

/-- The descriptor with a record merged into it. -/
def merge (d : Descriptor) (r : Override) : Descriptor :=
  let d := match r.typeName.bind ValueType.ofName? with
    | some t => d.retype t r.enumValues
    | none => d
  (d.redescribe r.description).setExamples r.examples

/-- Merges a record if it targets the descriptor of that value, and says whether it did. -/
def apply (d : Descriptor) (valueName : String) (r : Override) : Bool × Descriptor :=
  if r.targets d.key valueName then (true, d.merge r) else (false, d)

/-- Merges the records that target the descriptor of that value, in order. -/
def applyAll (d : Descriptor) (valueName : String) (rs : List Override) : Descriptor :=
  rs.foldl (fun d r => (d.apply valueName r).2) d

end RouteDoc.Descriptor
