import RouteDoc.Json.Record

/-!
# Reading back what was written

A writer and a reader of one type of values seldom fit together on all values: an optional value
that is written as null is read as absent. `Faithful` says for which values they do, and that the
reader gives no others. The same is said of one field of a record by `FaithfulField`, where the
writer may leave the field out; what the other fields are does not matter to it.

## Main statements

* `lookup_members`: a field is found in the written members under its name;
  `FaithfulField.read_members`: so it is read back from them.
* `Faithful.list`: lists, from their elements.
* `Faithful.field`, `Faithful.fieldD`, `Faithful.optionalField`, `faithfulField_any`,
  `faithfulField_items`: the kinds of fields.
-/

set_option autoImplicit false

namespace RouteDoc.Json

/-! ## Looking up fields -/

/-- A name that no field has is not among the written members. -/
theorem lookup_members_of_not_mem {fields : List (String × Option Json)} {name : String}
    (absent : name ∉ fields.map Prod.fst) : (members fields).lookup name = none := by
  rw [List.lookup_eq_none_iff]
  intro member mem
  obtain ⟨⟨other, v⟩, field, eq⟩ := List.mem_filterMap.mp mem
  obtain ⟨w, -, rfl⟩ := Option.map_eq_some_iff.mp eq
  have different : name ≠ other := by
    rintro rfl
    exact absent (List.mem_map_of_mem field)
  simpa using different

/-- Where the names of the fields are distinct, what is found under the name of a field is what was
written there, or nothing if it was left out. -/
theorem lookup_members {fields : List (String × Option Json)}
    (distinct : (fields.map Prod.fst).Nodup) {name : String} {v : Option Json}
    (field : (name, v) ∈ fields) : (members fields).lookup name = v := by
  induction fields with
  | nil => cases field
  | cons head fields ih =>
    obtain ⟨other, u⟩ := head
    obtain ⟨absent, rest⟩ := List.nodup_cons.mp distinct
    rcases List.mem_cons.mp field with same | later
    · cases same
      cases v with
      | none =>
        show (members fields).lookup name = none
        exact lookup_members_of_not_mem absent
      | some v => exact List.lookup_cons_self
    · have different : (name == other) = false := by
        rw [beq_eq_false_iff_ne]
        rintro rfl
        exact absent (List.mem_map.mpr ⟨_, later, rfl⟩)
      cases u with
      | none => exact ih rest later
      | some u =>
        show ((other, u) :: members fields).lookup name = v
        rw [List.lookup_cons, different]
        exact ih rest later

/-! ## Values -/

variable {α : Type}

/-- A writer and a reader fit together on the values with a property. -/
structure Faithful (write : α → Json) (read : Json → Option α) (Fit : α → Prop) : Prop where
  /-- What is written of a value with the property is read back. -/
  read_write : ∀ a, Fit a → read (write a) = some a
  /-- What is read has the property. -/
  fit : ∀ v a, read v = some a → Fit a

namespace Faithful

variable {write : α → Json} {read : Json → Option α} {Fit : α → Prop}

/-- The property tells the values that are read back. -/
theorem read_write_iff (h : Faithful write read Fit) (a : α) :
    read (write a) = some a ↔ Fit a :=
  ⟨h.fit (write a) a, h.read_write a⟩

/-- What was read once is read again. -/
theorem read_again (h : Faithful write read Fit) {v : Json} {a : α} (once : read v = some a) :
    read (write a) = some a :=
  h.read_write a (h.fit v a once)

/-- A text is read back as it was written. -/
theorem str : Faithful Json.str str? fun _ => True where
  read_write _ _ := rfl
  fit _ _ _ := trivial

/-- Lists are read element by element. -/
theorem list (h : Faithful write read Fit) :
    Faithful (fun l => .arr (l.map write)) (listOf read) fun l => ∀ a ∈ l, Fit a where
  read_write l fit := by
    show (l.map write).mapM read = some l
    induction l with
    | nil => rfl
    | cons a l ih =>
      obtain ⟨first, rest⟩ := List.forall_mem_cons.mp fit
      rw [List.map_cons, List.mapM_cons, h.read_write a first, ih rest]
      rfl
  fit v l items := by
    cases v with
    | arr vs =>
      replace items : vs.mapM read = some l := items
      induction vs generalizing l with
      | nil =>
        cases items
        exact List.forall_mem_nil _
      | cons v vs ih =>
        rw [List.mapM_cons] at items
        obtain ⟨a, first, items⟩ := Option.bind_eq_some_iff.mp items
        obtain ⟨l', rest, eq⟩ := Option.bind_eq_some_iff.mp items
        cases eq
        exact List.forall_mem_cons.mpr ⟨h.fit v a first, ih l' rest⟩
    | _ => cases items

end Faithful

/-! ## Fields -/

/-- A writer and a reader of one field fit together on the values with a property. The writer may
leave the field out, and the reader sees it among the members of the record. -/
structure FaithfulField (name : String) (write : α → Option Json)
    (read : List (String × Json) → Option α) (Fit : α → Prop) : Prop where
  /-- What is written of a value with the property is read back. -/
  read_write : ∀ m a, Fit a → m.lookup name = write a → read m = some a
  /-- What is read has the property. -/
  fit : ∀ m a, read m = some a → Fit a

/-- A field is read back from the written members of a record. -/
theorem FaithfulField.read_members {name : String} {write : α → Option Json}
    {read : List (String × Json) → Option α} {Fit : α → Prop}
    (h : FaithfulField name write read Fit) {fields : List (String × Option Json)} {a : α}
    (distinct : (fields.map Prod.fst).Nodup) (field : (name, write a) ∈ fields) (fit : Fit a) :
    read (members fields) = some a :=
  h.read_write _ a fit (lookup_members distinct field)

namespace Faithful

variable {write : α → Json} {read : Json → Option α} {Fit : α → Prop}

/-- A field that is always written and has to be there. -/
theorem field (h : Faithful write read Fit) (name : String) :
    FaithfulField name (fun a => some (write a)) (field? read name) Fit where
  read_write m a fit found := by
    rw [field?, found]
    exact h.read_write a fit
  fit m a read := by
    obtain ⟨v, -, read⟩ := Option.bind_eq_some_iff.mp read
    exact h.fit v a read

/-- A field that is always written and may be missing. -/
theorem fieldD (h : Faithful write read Fit) (name : String) {default : α}
    (fit_default : Fit default) :
    FaithfulField name (fun a => some (write a)) (fieldD read default name) Fit where
  read_write m a fit found := by
    rw [Json.fieldD, found]
    exact h.read_write a fit
  fit m a read := by
    unfold Json.fieldD at read
    split at read
    · cases read
      exact fit_default
    · exact h.fit _ a read

/-- An optional field whose values are never written as null. -/
theorem optionalField (h : Faithful write read Fit) (name : String)
    (present : ∀ a, (write a).isNull = false) :
    FaithfulField name (Option.map write) (optionalField read name) fun x => ∀ a ∈ x, Fit a where
  read_write m x fit found := by
    rw [Json.optionalField, Json.fieldD, found]
    cases x with
    | none => rfl
    | some a =>
      have other : optional read (write a) = (read (write a)).map some := by
        have shown := present a
        revert shown
        cases write a with
        | null => exact fun shown => absurd shown nofun
        | _ => exact fun _ => rfl
      show optional read (write a) = some (some a)
      rw [other, h.read_write a (fit a rfl)]
      rfl
  fit m x shown := by
    unfold Json.optionalField Json.fieldD at shown
    split at shown
    · cases shown
      exact nofun
    · unfold optional at shown
      split at shown
      · cases shown
        exact nofun
      · obtain ⟨a, value, rfl⟩ := Option.map_eq_some_iff.mp shown
        rintro _ ⟨⟩
        exact h.fit _ a value

end Faithful

/-- An optional field that takes any value as it is. A null there is read as absent, so null is the
one value that is not read back. -/
theorem faithfulField_any (name : String) :
    FaithfulField name id (optionalField some name) (· ≠ some .null) where
  read_write m x fit found := by
    rw [optionalField, fieldD, found]
    rcases x with - | v
    · rfl
    · cases v with
      | null => exact absurd rfl fit
      | _ => rfl
  fit m x read := by
    unfold optionalField fieldD at read
    split at read
    · cases read
      exact nofun
    · unfold optional at read
      split at read
      · cases read
        exact nofun
      · next v other =>
        cases read
        rintro ⟨⟩
        exact other rfl

/-- A list of any values, which is left out when it is empty. -/
theorem faithfulField_items (name : String) :
    FaithfulField name (fun l => if l.isEmpty then none else some (.arr l)) (fieldD arr? [] name)
      fun _ => True where
  read_write m l _ found := by
    rw [fieldD, found]
    cases l with
    | nil => rfl
    | cons v l => rfl
  fit _ _ _ := trivial

end RouteDoc.Json
