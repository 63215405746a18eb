import RouteDoc.Parameter.Codec
import RouteDoc.Proofs.Json.Record

/-!
# Reading back parameters and operations

Absence, null and emptiness are written differently: an optional field that is absent is left out,
and so is an empty set of examples, while an example may itself be null. Only this last is lost, as
an example that is null reads as no example. `NullFree` excludes it, for a descriptor and for all
that an operation holds; examples within a set may be null, and so may anything deeper.

For each record, `Reads` lists what the reader asks of the members, one field of the record each,
and `fields` what the writer puts there.

## Main statements

* `Descriptor.faithful`, `Operation.faithful`: what is written is read back exactly when it is free
  of null examples, and nothing else is ever read.
-/

set_option autoImplicit false

namespace RouteDoc

open Json

/-! ## Kinds of fields -/

/-- Types are written by their names. -/
theorem ValueType.faithful : Faithful toJson ofJson? fun _ => True where
  read_write t _ := ofName?_name t
  fit _ _ _ := trivial

/-- An optional text. -/
theorem faithfulField_text (name : String) :
    FaithfulField name (Option.map Json.str) (optionalField str? name) fun _ => True where
  read_write m x _ :=
    (Faithful.str.optionalField name fun _ => rfl).read_write m x fun _ _ => trivial
  fit _ _ _ := trivial

/-- An optional list of texts. -/
theorem faithfulField_texts (name : String) :
    FaithfulField name (Option.map fun l => .arr (l.map Json.str))
      (optionalField (listOf str?) name) fun _ => True where
  read_write m x _ :=
    (Faithful.str.list.optionalField name fun _ => rfl).read_write m x fun _ _ _ _ => trivial
  fit _ _ _ := trivial

/-! ## Descriptors -/

namespace Descriptor

/-- The example, if there is one, is not null. -/
def NullFree (d : Descriptor) : Prop :=
  d.example? ≠ some .null

/-- The fields as they are written. -/
def fields (d : Descriptor) : List (String × Option Json) := [
  ("key", some (.str d.key)),
  ("value_type", some d.valueType.toJson),
  ("format", d.format.map .str),
  ("description", d.description.map .str),
  ("example", d.example?),
  ("examples", if d.examples.isEmpty then none else some (.arr d.examples)),
  ("enum_values", d.enumValues.map fun l => .arr (l.map .str))]

theorem toJson_eq (d : Descriptor) : d.toJson = .obj (members d.fields) := rfl

/-- The descriptor is what the members of a record give, field by field. -/
structure Reads (m : List (String × Json)) (d : Descriptor) : Prop where
  key : field? str? "key" m = some d.key
  valueType : field? ValueType.ofJson? "value_type" m = some d.valueType
  format : optionalField str? "format" m = some d.format
  description : optionalField str? "description" m = some d.description
  example? : optionalField some "example" m = some d.example?
  examples : fieldD arr? [] "examples" m = some d.examples
  enumValues : optionalField (listOf str?) "enum_values" m = some d.enumValues

/-- A descriptor is read from a record that has no other members. -/
theorem ofJson?_eq_some_iff {v : Json} {d : Descriptor} :
    ofJson? v = some d ↔ ∃ m, record? fieldNames v = some m ∧ Reads m d := by
  simp only [ofJson?, Option.bind_eq_bind, Option.bind_eq_some_iff, Option.some.injEq]
  constructor
  · rintro ⟨m, record, key, hkey, type, htype, format, hformat, text, htext, shown, hshown, set,
      hset, values, hvalues, rfl⟩
    exact ⟨m, record, hkey, htype, hformat, htext, hshown, hset, hvalues⟩
  · rintro ⟨m, record, reads⟩
    exact ⟨m, record, _, reads.key, _, reads.valueType, _, reads.format, _, reads.description, _,
      reads.example?, _, reads.examples, _, reads.enumValues, rfl⟩

/-- The members that are written give the descriptor, unless its example is null. -/
theorem reads_members {d : Descriptor} (nullFree : d.NullFree) : Reads (members d.fields) d := by
  have distinct : (d.fields.map Prod.fst).Nodup := by
    show fieldNames.Nodup
    decide
  constructor
  · exact (Faithful.str.field "key").read_members distinct (by simp [fields]) trivial
  · exact (ValueType.faithful.field "value_type").read_members distinct (by simp [fields]) trivial
  · exact (faithfulField_text "format").read_members distinct (by simp [fields]) trivial
  · exact (faithfulField_text "description").read_members distinct (by simp [fields]) trivial
  · exact (faithfulField_any "example").read_members distinct (by simp [fields]) nullFree
  · exact (faithfulField_items "examples").read_members distinct (by simp [fields]) trivial
  · exact (faithfulField_texts "enum_values").read_members distinct (by simp [fields]) trivial

/-- What is written is read back unless the example is null, and no such descriptor is read. -/
theorem faithful : Faithful toJson ofJson? NullFree where
  read_write d nullFree := by
    rw [toJson_eq, ofJson?_eq_some_iff]
    exact ⟨members d.fields, rfl, reads_members nullFree⟩
  fit v d read := by
    obtain ⟨m, -, reads⟩ := ofJson?_eq_some_iff.mp read
    exact (faithfulField_any "example").fit m d.example? reads.example?

/-- An example that is null is lost, and one among several is not. -/
example : (ofJson? (toJson ⟨"sort", .string, none, none, some .null, [.null], none⟩)) =
    some ⟨"sort", .string, none, none, none, [.null], none⟩ := rfl

end Descriptor

/-! ## Schemas and parameters -/

namespace Schema

/-- The example, if there is one, is not null. -/
def NullFree (s : Schema) : Prop :=
  s.example? ≠ some .null

/-- The fields as they are written. -/
def fields (s : Schema) : List (String × Option Json) := [
  ("type", some s.valueType.toJson),
  ("format", s.format.map .str),
  ("description", s.description.map .str),
  ("example", s.example?),
  ("examples", if s.examples.isEmpty then none else some (.arr s.examples)),
  ("enum", s.enumValues.map fun l => .arr (l.map .str))]

theorem toJson_eq (s : Schema) : s.toJson = .obj (members s.fields) := rfl

/-- The schema is what the members of a record give, field by field. -/
structure Reads (m : List (String × Json)) (s : Schema) : Prop where
  valueType : field? ValueType.ofJson? "type" m = some s.valueType
  format : optionalField str? "format" m = some s.format
  description : optionalField str? "description" m = some s.description
  example? : optionalField some "example" m = some s.example?
  examples : fieldD arr? [] "examples" m = some s.examples
  enumValues : optionalField (listOf str?) "enum" m = some s.enumValues

theorem ofJson?_eq_some_iff {v : Json} {s : Schema} :
    ofJson? v = some s ↔ ∃ m, record? fieldNames v = some m ∧ Reads m s := by
  simp only [ofJson?, Option.bind_eq_bind, Option.bind_eq_some_iff, Option.some.injEq]
  constructor
  · rintro ⟨m, record, type, htype, format, hformat, text, htext, shown, hshown, set, hset, values,
      hvalues, rfl⟩
    exact ⟨m, record, htype, hformat, htext, hshown, hset, hvalues⟩
  · rintro ⟨m, record, reads⟩
    exact ⟨m, record, _, reads.valueType, _, reads.format, _, reads.description, _, reads.example?,
      _, reads.examples, _, reads.enumValues, rfl⟩

/-- The members that are written give the schema, unless its example is null. -/
theorem reads_members {s : Schema} (nullFree : s.NullFree) : Reads (members s.fields) s := by
  have distinct : (s.fields.map Prod.fst).Nodup := by
    show fieldNames.Nodup
    decide
  constructor
  · exact (ValueType.faithful.field "type").read_members distinct (by simp [fields]) trivial
  · exact (faithfulField_text "format").read_members distinct (by simp [fields]) trivial
  · exact (faithfulField_text "description").read_members distinct (by simp [fields]) trivial
  · exact (faithfulField_any "example").read_members distinct (by simp [fields]) nullFree
  · exact (faithfulField_items "examples").read_members distinct (by simp [fields]) trivial
  · exact (faithfulField_texts "enum").read_members distinct (by simp [fields]) trivial

/-- What is written is read back unless the example is null, and no such schema is read. -/
theorem faithful : Faithful toJson ofJson? NullFree where
  read_write s nullFree := by
    rw [toJson_eq, ofJson?_eq_some_iff]
    exact ⟨members s.fields, rfl, reads_members nullFree⟩
  fit v s read := by
    obtain ⟨m, -, reads⟩ := ofJson?_eq_some_iff.mp read
    exact (faithfulField_any "example").fit m s.example? reads.example?

end Schema

namespace Parameter

/-- Neither its own example nor that of its schema is null. -/
def NullFree (p : Parameter) : Prop :=
  p.example? ≠ some .null ∧ p.schema.NullFree

/-- The fields as they are written. -/
def fields (p : Parameter) : List (String × Option Json) := [
  ("name", some (.str p.name)),
  ("in", some (.str p.location)),
  ("example", p.example?),
  ("schema", some p.schema.toJson)]

theorem toJson_eq (p : Parameter) : p.toJson = .obj (members p.fields) := rfl

/-- The parameter is what the members of a record give, field by field. -/
structure Reads (m : List (String × Json)) (p : Parameter) : Prop where
  name : field? str? "name" m = some p.name
  location : field? str? "in" m = some p.location
  example? : optionalField some "example" m = some p.example?
  schema : field? Schema.ofJson? "schema" m = some p.schema

theorem ofJson?_eq_some_iff {v : Json} {p : Parameter} :
    ofJson? v = some p ↔ ∃ m, record? fieldNames v = some m ∧ Reads m p := by
  simp only [ofJson?, Option.bind_eq_bind, Option.bind_eq_some_iff, Option.some.injEq]
  constructor
  · rintro ⟨m, record, name, hname, location, hlocation, shown, hshown, schema, hschema, rfl⟩
    exact ⟨m, record, hname, hlocation, hshown, hschema⟩
  · rintro ⟨m, record, reads⟩
    exact ⟨m, record, _, reads.name, _, reads.location, _, reads.example?, _, reads.schema, rfl⟩

/-- The members that are written give the parameter, unless an example is null. -/
theorem reads_members {p : Parameter} (nullFree : p.NullFree) : Reads (members p.fields) p := by
  have distinct : (p.fields.map Prod.fst).Nodup := by
    show fieldNames.Nodup
    decide
  constructor
  · exact (Faithful.str.field "name").read_members distinct (by simp [fields]) trivial
  · exact (Faithful.str.field "in").read_members distinct (by simp [fields]) trivial
  · exact (faithfulField_any "example").read_members distinct (by simp [fields]) nullFree.1
  · exact (Schema.faithful.field "schema").read_members distinct (by simp [fields]) nullFree.2

/-- What is written is read back unless an example is null, and no such parameter is read. -/
theorem faithful : Faithful toJson ofJson? NullFree where
  read_write p nullFree := by
    rw [toJson_eq, ofJson?_eq_some_iff]
    exact ⟨members p.fields, rfl, reads_members nullFree⟩
  fit v p read := by
    obtain ⟨m, -, reads⟩ := ofJson?_eq_some_iff.mp read
    exact ⟨(faithfulField_any "example").fit m p.example? reads.example?,
      (Schema.faithful.field "schema").fit m p.schema reads.schema⟩

end Parameter

/-! ## Operations -/

namespace Operation

/-- No example of a parameter or of its schema is null. -/
def NullFree (op : Operation) : Prop :=
  ∀ p ∈ op.parameters, p.NullFree

/-- The fields as they are written. -/
def fields (op : Operation) : List (String × Option Json) := [
  ("operationId", op.id.map .str),
  ("parameters", some (.arr (op.parameters.map Parameter.toJson)))]

theorem toJson_eq (op : Operation) : op.toJson = .obj (members op.fields) := rfl

/-- The operation is what the members of a record give, field by field. -/
structure Reads (m : List (String × Json)) (op : Operation) : Prop where
  id : optionalField str? "operationId" m = some op.id
  parameters : fieldD (listOf Parameter.ofJson?) [] "parameters" m = some op.parameters

theorem ofJson?_eq_some_iff {v : Json} {op : Operation} :
    ofJson? v = some op ↔ ∃ m, record? fieldNames v = some m ∧ Reads m op := by
  simp only [ofJson?, Option.bind_eq_bind, Option.bind_eq_some_iff, Option.some.injEq]
  constructor
  · rintro ⟨m, record, id, hid, parameters, hparameters, rfl⟩
    exact ⟨m, record, hid, hparameters⟩
  · rintro ⟨m, record, reads⟩
    exact ⟨m, record, _, reads.id, _, reads.parameters, rfl⟩

/-- The parameters of an operation, which may be missing. -/
theorem faithfulField_parameters :
    FaithfulField "parameters" (fun ps => some (.arr (ps.map Parameter.toJson)))
      (fieldD (listOf Parameter.ofJson?) [] "parameters") fun ps => ∀ p ∈ ps, p.NullFree :=
  Parameter.faithful.list.fieldD "parameters" (List.forall_mem_nil _)

/-- The members that are written give the operation, unless an example is null. -/
theorem reads_members {op : Operation} (nullFree : op.NullFree) :
    Reads (members op.fields) op := by
  have distinct : (op.fields.map Prod.fst).Nodup := by
    show fieldNames.Nodup
    decide
  constructor
  · exact (faithfulField_text "operationId").read_members distinct (by simp [fields]) trivial
  · exact faithfulField_parameters.read_members distinct (by simp [fields]) nullFree

/-- What is written is read back unless an example is null, and no such operation is read. -/
theorem faithful : Faithful toJson ofJson? NullFree where
  read_write op nullFree := by
    rw [toJson_eq, ofJson?_eq_some_iff]
    exact ⟨members op.fields, rfl, reads_members nullFree⟩
  fit v op read := by
    obtain ⟨m, -, reads⟩ := ofJson?_eq_some_iff.mp read
    exact faithfulField_parameters.fit m op.parameters reads.parameters

end Operation

end RouteDoc
