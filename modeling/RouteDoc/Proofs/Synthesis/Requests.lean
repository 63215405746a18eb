import RouteDoc.Proofs.Documenter.Proposals
import RouteDoc.Proofs.Synthesis.Merging

/-!
# Records and the generator

One generator serves all requests for descriptors, in their order. It is drawn from for every name
that suggests an identifier or a flag, and for every inclusion that is shuffled; whether a record
replaces what was drawn is decided afterwards. So two runs over the same features and values go on
in step, whatever records each of them has, and they tell a descriptor apart only where the records
about its value differ.

## Main statements

* `respond_undisturbed`, `generator_respond`: the step, for one request at one generator.
* `proposedByAll_eq`: what a handler proposes are the responses to its requests, so that the calls on
  a documenter are such a run as well.
* `respondAll_undisturbed`: the runs, and what this means for handlers. The comment of one handler
  has no say in where the next one finds the generator.
-/

set_option autoImplicit false

namespace RouteDoc

namespace Synthesis

/-! ## Requests in order -/

/-- What descriptors are asked for, before any record is known. -/
structure Query where
  feature : Feature
  values : List Resolved

/-- A query and the records of a comment. -/
structure Request extends Query where
  records : List Override

/-- Two requests that differ in their records alone. -/
def Request.SameQuery (p q : Request) : Prop :=
  p.toQuery = q.toQuery

/-- A request and its descriptors. -/
structure Response where
  request : Request
  descriptors : List Descriptor

section Runs

variable (options : SynthesisOptions) (today : Date)

/-- The response to a request, and the generator behind what was drawn for it. -/
def respond (q : Request) (g : Generator) : Response × Generator :=
  let (ds, g) := synthesize options today q.feature q.values q.records g
  (⟨q, ds⟩, g)

/-- The responses to requests, each of which finds the generator as the one before left it. -/
def respondAll : List Request → Generator → List Response × Generator
  | [], g => ([], g)
  | q :: qs, g =>
    let (r, g) := respond options today q g
    let (rs, g) := respondAll qs g
    (r :: rs, g)

end Runs

/-- What two responses have in common whose requests differ in their records alone. -/
structure Undisturbed (options : SynthesisOptions) (x y : Response) : Prop where
  query : x.request.toQuery = y.request.toQuery
  /-- There are as many descriptors, under the same keys, in the same order. -/
  keys : x.descriptors.map Descriptor.key = y.descriptors.map Descriptor.key
  /-- The descriptors of inclusion and sorting are the same. -/
  whole : x.request.feature.capability.isPerValue = false → x.descriptors = y.descriptors
  /-- The descriptor of a value is the same where both sides have the same records about it. -/
  told (perValue : x.request.feature.capability.isPerValue = true) {i : Nat} {name : String}
    (here : (names options x.request.values)[i]? = some name)
    (same : recordsFor x.request.feature.key x.request.records name =
      recordsFor x.request.feature.key y.request.records name) :
    x.descriptors[i]? = y.descriptors[i]?
  /-- In particular it is the same where no record of either side targets the value. -/
  untold (perValue : x.request.feature.capability.isPerValue = true) {i : Nat} {name : String}
    (here : (names options x.request.values)[i]? = some name)
    (untargeted : ∀ r ∈ x.request.records ++ y.request.records,
      r.targets (keyOf x.request.feature.key name) name = false) :
    x.descriptors[i]? = y.descriptors[i]?

section Values

variable (today : Date) (key : String) (records records' : List Override)

/-- Records are merged into what was drawn already. -/
theorem generator_perValueAll (names : List String) (g : Generator) :
    (perValueAll today key records names g).2 = (perValueAll today key records' names g).2 := by
  induction names generalizing g with
  | nil => rfl
  | cons name names ih => exact ih (guessed today key name g).2

variable {key records records'}

/-- The records about a value are all that its descriptor knows of them, at any generator. -/
theorem perValue_congr {name : String}
    (same : recordsFor key records name = recordsFor key records' name) (g : Generator) :
    perValue today key records name g = perValue today key records' name g := by
  refine Prod.ext ?_ rfl
  rw [perValue_eq, perValue_eq, same]

/-- The descriptor of one value hangs on the records about that value alone. -/
theorem getElem?_perValueAll {names : List String} {i : Nat} {name : String}
    (here : names[i]? = some name)
    (same : recordsFor key records name = recordsFor key records' name) (g : Generator) :
    (perValueAll today key records names g).1[i]? =
      (perValueAll today key records' names g).1[i]? := by
  induction names generalizing i g with
  | nil => cases here
  | cons first names ih =>
    cases i with
    | zero =>
      cases here
      exact congrArg (fun made : Descriptor × Generator => some made.1)
        (perValue_congr today same g)
    | succ i => exact ih here (guessed today key first g).2

/-- About a value that no record targets there are no records. -/
theorem recordsFor_eq_of_untargeted {name : String}
    (untargeted : ∀ r ∈ records ++ records', r.targets (keyOf key name) name = false) :
    recordsFor key records name = recordsFor key records' name := by
  obtain ⟨first, second⟩ := List.forall_mem_append.mp untargeted
  have none_first : recordsFor key records name = [] :=
    List.filter_eq_nil_iff.mpr fun r mem => by simp [first r mem]
  have none_second : recordsFor key records' name = [] :=
    List.filter_eq_nil_iff.mpr fun r mem => by simp [second r mem]
  rw [none_first, none_second]

end Values

/-! ## Two runs -/

section Runs

variable (options : SynthesisOptions) (today : Date) {p q : Request}

/-- The step, for the generator: a response leaves it where it would without records. -/
theorem generator_respond (same : p.SameQuery q) (g : Generator) :
    (respond options today p g).2 = (respond options today q g).2 := by
  obtain ⟨⟨f, values⟩, records⟩ := p
  obtain ⟨query, records'⟩ := q
  cases same
  show (synthesize options today f values records g).2 =
    (synthesize options today f values records' g).2
  unfold synthesize
  cases f.capability with
  | filter => exact generator_perValueAll today f.key records records' _ g
  | field => exact generator_perValueAll today f.key records records' _ g
  | relation => rfl
  | sort => rfl

/-- The responses to one query, with two lists of records, at one generator. -/
theorem respond_undisturbed (same : p.SameQuery q) (g : Generator) :
    Undisturbed options (respond options today p g).1 (respond options today q g).1 := by
  obtain ⟨⟨f, values⟩, records⟩ := p
  obtain ⟨query, records'⟩ := q
  cases same
  have told : f.capability.isPerValue = true → ∀ {i : Nat} {name : String},
      (names options values)[i]? = some name →
        recordsFor f.key records name = recordsFor f.key records' name →
        (synthesize options today f values records g).1[i]? =
          (synthesize options today f values records' g).1[i]? := by
    intro perValue i name here same
    unfold synthesize
    cases kind : f.capability with
    | filter => exact getElem?_perValueAll today here same g
    | field => exact getElem?_perValueAll today here same g
    | relation => simp [kind, Capability.isPerValue] at perValue
    | sort => simp [kind, Capability.isPerValue] at perValue
  constructor
  · rfl
  · exact (synthesize_keys today records options f values g).trans
      (synthesize_keys today records' options f values g).symm
  · intro plain
    change f.capability.isPerValue = false at plain
    show (synthesize options today f values records g).1 =
      (synthesize options today f values records' g).1
    unfold synthesize
    cases kind : f.capability with
    | filter => simp [kind, Capability.isPerValue] at plain
    | field => simp [kind, Capability.isPerValue] at plain
    | relation => rfl
    | sort => rfl
  · exact told
  · intro perValue i name here untargeted
    exact told perValue here (recordsFor_eq_of_untargeted untargeted)

theorem generator_respondAll {a b : List Request}
    (same : List.Forall₂ Request.SameQuery a b) (g : Generator) :
    (respondAll options today a g).2 = (respondAll options today b g).2 := by
  induction same generalizing g with
  | nil => rfl
  | @cons p q a b head tail ih =>
    show (respondAll options today a (respond options today p g).2).2 =
      (respondAll options today b (respond options today q g).2).2
    rw [generator_respond options today head g, ih]

end Runs

end Synthesis

/-! ## Handlers -/

namespace Documenter

variable (d : Documenter) (handler : Code.Tree) (owner : String) (records : List Override)

/-- The queries for the capabilities that a handler uses. -/
def queries (fs : List Feature) : List Synthesis.Query :=
  fs.filterMap fun f => (BuilderCall.find? handler f.capability owner).map fun call =>
    ⟨f, Allowed.resolve d.load call⟩

/-- The queries of a handler with the records of its comment. -/
def requests (fs : List Feature) : List Synthesis.Request :=
  (d.queries handler owner fs).map fun q => ⟨q, records⟩

/-- What a response proposes. -/
def proposals (r : Synthesis.Response) : List Proposal :=
  r.descriptors.map fun x => ⟨.ofDescriptor x, featureFor r.request.feature r.descriptors⟩

/-- What a handler proposes are the responses to its requests. -/
theorem proposedByAll_eq (fs : List Feature) (g : Generator) :
    d.proposedByAll handler owner records fs g =
      let (rs, g) := Synthesis.respondAll d.settings.synthesis d.today
        (d.requests handler owner records fs) g
      ⟨rs.flatMap proposals, g⟩ := by
  induction fs generalizing g with
  | nil => rfl
  | cons f fs ih =>
    rw [proposedByAll, requests, queries, List.filterMap_cons]
    unfold proposedBy
    cases BuilderCall.find? handler f.capability owner with
    | none => exact ih g
    | some call =>
      simp only [ih, requests, queries, Option.map_some, List.map_cons, Synthesis.respondAll,
        Synthesis.respond, proposals, List.flatMap_cons]

/-- What a handler proposes leaves the generator at the same place, whatever records there are. -/
theorem generator_proposedByAll (records' : List Override) (fs : List Feature) (g : Generator) :
    (d.proposedByAll handler owner records fs g).generator =
      (d.proposedByAll handler owner records' fs g).generator := by
  have same : List.Forall₂ Synthesis.Request.SameQuery
      (d.requests handler owner records fs) (d.requests handler owner records' fs) := by
    unfold requests
    rw [List.forall₂_map_left_iff, List.forall₂_map_right_iff]
    exact List.forall₂_same.mpr fun _ _ => rfl
  rw [proposedByAll_eq, proposedByAll_eq]
  exact Synthesis.generator_respondAll d.settings.synthesis d.today same g

end Documenter

/-- **Records never disturb the generator.** Two runs over the same queries, with any records on
either side, end at the same generator, and response by response they have descriptors of the same
keys; those of inclusion and sorting are the same, and so is that of every value about which both
sides have the same records, none for one. A handler makes such a run, so it leaves the generator to
the next one where it would leave it under any other comment. -/
theorem Synthesis.respondAll_undisturbed (options : SynthesisOptions) (today : Date)
    {a b : List Request} (same : List.Forall₂ Request.SameQuery a b)
    (g : Generator) :
    (respondAll options today a g).2 = (respondAll options today b g).2 ∧
      List.Forall₂ (Undisturbed options) (respondAll options today a g).1
        (respondAll options today b g).1 ∧
      ∀ (d : Documenter) (handler : Code.Tree) (owner : String) (records records' : List Override)
        (fs : List Feature), (d.proposedByAll handler owner records fs g).generator =
          (d.proposedByAll handler owner records' fs g).generator := by
  refine ⟨generator_respondAll options today same g, ?_, ?_⟩
  · induction same generalizing g with
    | nil => exact .nil
    | @cons p q a b head tail ih =>
      refine .cons (respond_undisturbed options today head g) ?_
      -- The tails start where the heads left the generator, which is the same place.
      show List.Forall₂ _ (respondAll options today a (respond options today p g).2).1
        (respondAll options today b (respond options today q g).2).1
      rw [generator_respond options today head g]
      exact ih _
  · intro d handler owner records records' fs
    exact d.generator_proposedByAll handler owner records records' fs g

namespace Sample

open Synthesis

/-- Two filters, the first of which suggests an identifier. -/
def filters : Query :=
  ⟨⟨.filter, "filter", []⟩, [.name "user_id", .name "status"]⟩

/-- Inclusions, which are shuffled unless this is switched off. -/
def inclusions : Query :=
  ⟨⟨.relation, "include", []⟩, [.name "posts", .unsupported, .name "author"]⟩

/-- The requests of a handler with records. -/
def commented : List Request :=
  [⟨filters, repeating⟩, ⟨inclusions, repeating⟩]

/-- The same requests without records. -/
def uncommented : List Request :=
  [⟨filters, []⟩, ⟨inclusions, []⟩]

/-- With records about the status, the identifier is the one that is drawn without them, and both
runs end at the same generator. -/
theorem respondAll_undisturbed_of_repeating :
    List.Forall₂ Request.SameQuery commented uncommented ∧
    ∀ g, (respondAll {} ⟨2024, 5, 1⟩ commented g).2 = (respondAll {} ⟨2024, 5, 1⟩ uncommented g).2 ∧
      (respond {} ⟨2024, 5, 1⟩ ⟨filters, repeating⟩ g).1.descriptors[0]? =
        (respond {} ⟨2024, 5, 1⟩ ⟨filters, []⟩ g).1.descriptors[0]? := by
  have same : List.Forall₂ Request.SameQuery commented uncommented := .cons rfl (.cons rfl .nil)
  have here : (names {} filters.values)[0]? = some "user_id" := by decide +kernel
  have untargeted : ∀ r ∈ repeating ++ [],
      r.targets (keyOf filters.feature.key "user_id") "user_id" = false := by decide +kernel
  refine ⟨same, fun g => ?_⟩
  obtain ⟨final, each, -⟩ := respondAll_undisturbed {} ⟨2024, 5, 1⟩ same g
  exact ⟨final, (List.forall₂_cons.mp each).1.untold rfl here untargeted⟩

end Sample

end RouteDoc
