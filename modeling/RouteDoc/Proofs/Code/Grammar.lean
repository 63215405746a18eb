import RouteDoc.Proofs.Code.Reading

/-!
# What the grammar gives

Each reader of the grammar gives raw trees, and those of values give parts, if the grammar below it
does. There is one triple for each, in the order of the grammar: the conditions that are left of it
say that what the reader puts together is raw if its pieces are.

A string without an interpolation is the one case in which something is to be said of the source:
the pieces of its text are read one right behind the other, from the quote that opens it to the quote
that closes it.

## Main statements

* `Grammar.gives_string`: a string leaves no room for a comment.
* `Grammar.sound_grammar`: the whole grammar, however deep it is read.
* `Grammar.gives_programItems`: the items of a program.
-/

set_option autoImplicit false
set_option mvcgen.warning false

namespace RouteDoc.Code

open Std.Do Reader RouteDoc.Code.Tree

/-- A grammar that gives trees as they are read, of which the values fill holes. -/
structure Grammar.Sound (g : Grammar) : Prop where
  expression : ∀ least, Gives (g (.expression least)) RawPart
  operand : Gives (g .operand) RawPart
  statement : Gives (g .statement) Raw

namespace Grammar

/-! ## Names, variables and texts -/

/-- A name is a part, with a namespace before it or without. -/
@[spec] theorem gives_qualified : Gives qualified RawPart := by
  mvcgen [qualified]
  all_goals simp_all +decide

/-- The name of a namespace is no value, so it is only asked to be raw. -/
@[spec] theorem gives_namespaceName : Gives namespaceName Raw := by
  mvcgen [namespaceName]
  all_goals simp_all +decide

/-- A type is made of names, and parentheses around names add marks only. -/
@[spec] theorem gives_typePart : Gives typePart RawAll := by
  mvcgen [typePart]
  all_goals simp_all

/-- Whether a type goes on may hang on the token behind the next one. Neither is taken. -/
@[spec] theorem gives_atTypeJoint : Gives atTypeJoint fun _ => True := by
  mvcgen [atTypeJoint]
  all_goals simp_all

/-- A type is raw, however many parts it is joined of. -/
@[spec] theorem gives_typeName : Gives typeName Raw := by
  mvcgen [typeName]
  all_goals simp_all +decide

/-- Each sign in front wraps a variable once more, and adds nothing but itself. -/
theorem raw_nested {ds : List Tree} (raws : RawAll ds) {t : Tree} (raw : t.Raw) :
    (ds.foldl (fun t d => .over .dynamicVariableName [d, t]) t).Raw := by
  induction ds generalizing t with
  | nil => exact raw
  | cons d ds ih =>
    obtain ⟨first, rest⟩ := rawAll_cons.mp raws
    exact ih rest (by simp +decide [first, raw])

/-- What is wrapped fills a hole just as the variable does. -/
theorem fills_nested (ds : List Tree) {t : Tree} (fill : t.fills = true) :
    (ds.foldl (fun t d => .over .dynamicVariableName [d, t]) t).fills = true := by
  induction ds generalizing t with
  | nil => exact fill
  | cons d ds ih => exact ih rfl

/-- A fragment of text is a piece of its own. -/
theorem piece_of_fragment {g : Grammar} {t : Token} {ts us : List Token}
    (front : afterGaps ts = t :: us) (fragment : t.kind = .fragment) :
    piece g ts = some ([t.leaf], us) := by
  have here : (afterGaps ts).head?.any (·.kind == .fragment) = true := by
    rw [front, List.head?_cons, Option.any_some, fragment]
    rfl
  change (if (afterGaps ts).head?.any (·.kind == .fragment) = true then
    (next >>= fun t => pure [t.leaf]) else _ : Reader (List Tree)) ts = _
  rw [if_pos here]
  change (next ts).bind _ = _
  rw [next_eq_some_iff.mpr front]
  rfl

/-- Where no text goes on, a piece is an expression in braces or a plain interpolation. -/
theorem piece_of_other {g : Grammar} {ts : List Token}
    (other : (afterGaps ts).head?.any (·.kind == .fragment) = false) :
    piece g ts = (do
      if ← atSymbol openBrace then
        return [← symbol openBrace, ← g (.expression 0), ← symbol closeBrace]
      else return [← plainInterpolation g] : Reader (List Tree)) ts := by
  change (if (afterGaps ts).head?.any (·.kind == .fragment) = true then _ else _ :
    Reader (List Tree)) ts = _
  rw [other]
  rfl

/-- The pieces of a string fill a hole, or else they are seamless and what comes next follows on
them. -/
structure Reaches (start : Nat) (ps : List Tree) (ts : List Token) : Prop where
  readable : Readable ts
  raw : RawAll ps
  text : ps.any fills = true ∨
    ∃ stop, Seamless start ps stop ∧ ∀ t ∈ ts.head?, t.start = stop ∧ t.kind.isInk = true

/-- One more tree leaves no room either, if it begins where the others stop. -/
theorem seamless_concat {start stop : Nat} {ps : List Tree} (h : Seamless start ps stop) {t : Tree}
    (next : t.start = stop) : Seamless start (ps ++ [t]) t.stop := by
  induction ps generalizing start with
  | nil => exact ⟨next.trans h.symm, rfl⟩
  | cons p ps ih => exact ⟨h.1, ih h.2⟩

/-- Ink is no gap. -/
theorem afterGaps_of_ink {ts : List Token} (ink : ∀ t ∈ ts.head?, t.kind.isInk = true) :
    afterGaps ts = ts := by
  cases ts with
  | nil => rfl
  | cons t ts =>
    refine List.dropWhile_cons_of_neg ?_
    intro gap
    have := ink t rfl
    rw [beq_iff_eq.mp gap] at this
    contradiction

/-- A fragment goes on where the pieces end, for no gap is passed. -/
theorem Reaches.fragment {start : Nat} {ps : List Tree} {t : Token} {ts us : List Token}
    (h : Reaches start ps ts) (front : afterGaps ts = t :: us) (fragment : t.kind = .fragment) :
    Reaches start (ps ++ [t.leaf]) us := by
  have left := h.readable.front front
  refine ⟨left.tail, by simp [h.raw, left.head], ?_⟩
  refine h.text.imp (fun fill => by rw [List.any_append, fill, Bool.true_or]) ?_
  rintro ⟨stop, seamless, ink⟩
  rw [afterGaps_of_ink fun t first => (ink t first).2] at front
  subst front
  refine ⟨t.stop, seamless_concat seamless (ink t rfl).1, fun b first => ?_⟩
  exact (List.isChain_cons.mp left.chain).1 b first (by rw [fragment]; rfl)

/-- Between two quotes the pieces make a string without room for a comment. -/
theorem Reaches.raw_string {ps : List Tree} {t c : Token} {ts us : List Token}
    (h : Reaches t.stop ps ts) (noComment : t.kind ≠ .comment) (behind : afterGaps ts = c :: us) :
    (Tree.over .encapsedString (t.leaf :: ps ++ [c.leaf])).Raw := by
  have raws : RawAll (t.leaf :: (ps ++ [c.leaf])) := by
    simp [noComment, h.raw, (h.readable.front behind).head]
  have stringKind : Kind.encapsedString ≠ .comment := by decide
  refine raw_node.mpr ⟨⟨stringKind, fun _ => h.text.imp (fun fill => ?_) ?_⟩, raws⟩
  · simp [fill]
  · rintro ⟨stop, seamless, ink⟩
    rw [afterGaps_of_ink fun t first => (ink t first).2] at behind
    subst behind
    have ends : ((t.leaf :: ps ++ [c.leaf]).getLast?.map Tree.stop).getD 0 = c.stop := by
      rw [List.getLast?_concat]
      rfl
    rw [ends]
    exact ⟨rfl, seamless_concat seamless (ink c rfl).1⟩

section

variable {g : Grammar} (sound : g.Sound)
include sound

/-- A variable is a part, also where its name is computed. -/
@[spec] theorem gives_variableName : Gives (variableName g) RawPart := by
  have values := sound.expression
  mvcgen [variableName, values]
  all_goals simp_all +zetaDelta +decide [raw_nested, fills_nested]

/-- An offset in a text is a word, a number or a variable between brackets. -/
@[spec] theorem gives_plainOffset : Gives (plainOffset g) RawAll := by
  mvcgen [plainOffset]
  all_goals simp_all +decide

/-- A variable in a text fills the hole in which it stands. -/
@[spec] theorem gives_plainInterpolation : Gives (plainInterpolation g) RawPart := by
  mvcgen [plainInterpolation]
  all_goals simp_all +decide

/-- A piece of a text is raw. Whether it leaves room behind it is for `Reaches` to say. -/
@[spec] theorem gives_piece : Gives (piece g) RawAll := by
  have values := sound.expression
  mvcgen [piece, values]
  all_goals simp_all

/-- A text that is no string may have comments anywhere, so its pieces need not be seamless. -/
@[spec] theorem gives_interpolated {k : Kind} (common : k.isCommon = true) (close : TokenKind) :
    Gives (interpolated g k close) RawPart := by
  mvcgen [interpolated]
  all_goals simp_all

/-- What is read as a piece where no text goes on fills a hole. -/
theorem gives_filling : Gives (do
    if ← atSymbol openBrace then
      return [← symbol openBrace, ← g (.expression 0), ← symbol closeBrace]
    else return [← plainInterpolation g]) fun qs => RawAll qs ∧ qs.any fills = true := by
  have values := sound.expression
  mvcgen [values]
  all_goals simp_all

/-- One more piece: a fragment goes on where the text stopped, and anything else fills a hole. -/
theorem Reaches.piece {start : Nat} {ps qs : List Tree} {ts us : List Token}
    (h : Reaches start ps ts) (read : piece g ts = some (qs, us)) :
    Reaches start (ps ++ qs) us := by
  cases next : (afterGaps ts).head?.any (·.kind == .fragment) with
  | true =>
    obtain ⟨t, ahead, kind⟩ := (Option.any_eq_true _ _).mp next
    obtain ⟨r, front⟩ := List.head?_eq_some_iff.mp ahead
    have fragment : t.kind = .fragment := beq_iff_eq.mp kind
    cases (piece_of_fragment front fragment).symm.trans read
    exact h.fragment front fragment
  | false =>
    rw [piece_of_other next] at read
    obtain ⟨left, raws, fill⟩ := triple_iff.mp (gives_filling sound) ts h.readable qs us read
    exact ⟨left, rawAll_append.mpr ⟨h.raw, raws⟩,
      .inl (by rw [List.any_append, fill, Bool.or_true])⟩

/-- The pieces behind the quote that opens a string. -/
theorem reaches_pieces {t : Token} {ts us : List Token} (readable : Readable (t :: ts))
    (opens : t.kind = .quoteOpen) {begins : Reader Bool}
    (looks : ∀ ts b us, begins ts = some (b, us) → us = ts) {ps : List Tree}
    (read : many begins (piece g) ts = some (ps, us)) : Reaches t.stop ps us := by
  refine many_induct (P := Reaches t.stop) (fun ps ts b us before read => ?_)
    (fun ps ts qs us before read => before.piece sound read) ?_ ps us read
  · rw [looks ts b us read]
    exact before
  · refine ⟨readable.tail, rawAll_nil, .inr ⟨t.stop, rfl, fun b first => ?_⟩⟩
    exact (List.isChain_cons.mp readable.chain).1 b first (by rw [opens]; rfl)

/-- A string is whole: its text leaves no room for a comment. -/
theorem gives_string {t : Token} (opens : t.kind = .quoteOpen) :
    GivesAt t (interpolated g .encapsedString .quoteClose) RawPart := by
  refine triple_iff.mpr fun ts before s us read => ?_
  obtain ⟨readable, ahead⟩ := before
  obtain ⟨r, front⟩ := List.head?_eq_some_iff.mp ahead
  have left := readable.front front
  obtain ⟨⟨first, vs⟩, opened, read⟩ := Option.bind_eq_some_iff.mp read
  cases (next_eq_some_iff.mpr front).symm.trans opened
  obtain ⟨⟨ps, vs⟩, pieces, read⟩ := Option.bind_eq_some_iff.mp read
  obtain ⟨⟨c, vs'⟩, closed, read⟩ := Option.bind_eq_some_iff.mp read
  cases read
  have reaches : Reaches t.stop ps vs :=
    reaches_pieces sound left opens (fun ts b us look => by cases look; rfl) pieces
  have behind : afterGaps vs = c :: us := next_eq_some_iff.mp closed
  exact ⟨(reaches.readable.front behind).tail, reaches.raw_string left.head behind, rfl⟩

end

/-! ## Arguments, arrays and attributes -/

section

variable {g : Grammar} (sound : g.Sound)
include sound

/-- Unpacking puts a mark in front of a value. -/
@[spec] theorem gives_unpackable : Gives (unpackable g) Raw := by
  have values := sound.expression
  mvcgen [unpackable, values]
  all_goals simp_all +decide

@[spec] theorem gives_argument : Gives (argument g) Raw := by
  mvcgen [argument]
  all_goals simp_all +decide

@[spec] theorem gives_arguments : Gives (arguments g) Raw := by
  mvcgen [arguments]
  all_goals simp_all +decide

/-- A reference has its mark in front of the value, as an unpacking has. -/
@[spec] theorem gives_referable : Gives (referable g) Raw := by
  have values := sound.expression
  mvcgen [referable, values]
  all_goals simp_all +decide

@[spec] theorem gives_arrayElement : Gives (arrayElement g) Raw := by
  mvcgen [arrayElement]
  all_goals simp_all +decide

/-- The elements may leave places empty, as a list on the left of an assignment does. -/
@[spec] theorem gives_arrayElements (close : String) : Gives (arrayElements g close) RawAll := by
  mvcgen [arrayElements]
  all_goals simp_all

@[spec] theorem gives_attributeItem : Gives (attributeItem g) Raw := by
  mvcgen [attributeItem]
  all_goals simp_all +decide

/-- Any number of lists of attributes, perhaps none. -/
@[spec] theorem gives_attributes : Gives (attributes g) RawAll := by
  mvcgen [attributes]
  all_goals simp_all +decide

end

/-! ## Functions, members and classes -/

/-- A modifier may have a word in parentheses behind it. -/
@[spec] theorem gives_modifiers : Gives modifiers RawAll := by
  mvcgen [modifiers]
  all_goals simp_all +decide

@[spec] theorem gives_resultType : Gives resultType RawAll := by
  mvcgen [resultType]
  all_goals simp_all

/-- What a class takes over from traits is kept as its tokens. -/
@[spec] theorem gives_traitUse : Gives traitUse Raw := by
  mvcgen [traitUse]
  all_goals simp_all +decide

/-- The classes and interfaces behind a class are names with commas between them. -/
@[spec] theorem gives_ancestors : Gives ancestors RawAll := by
  mvcgen [ancestors]
  all_goals simp_all +decide

section

variable {g : Grammar} (sound : g.Sound)
include sound

/-- The statements in braces are raw by what is assumed of the grammar below. -/
@[spec] theorem gives_block : Gives (block g) Raw := by
  have statements := sound.statement
  mvcgen [block, statements]
  all_goals simp_all +decide

@[spec] theorem gives_default? : Gives (default? g) RawAll := by
  have values := sound.expression
  mvcgen [default?, values]
  all_goals simp_all

/-- A parameter, with all that may stand around its variable. -/
@[spec] theorem gives_parameter : Gives (parameter g) Raw := by
  mvcgen [parameter]
  all_goals simp_all +decide

@[spec] theorem gives_parameters : Gives (parameters g) Raw := by
  mvcgen [parameters]
  all_goals simp_all +decide

/-- A function without a body ends with a semicolon. -/
@[spec] theorem gives_bodyOrEnd : Gives (bodyOrEnd g) RawAll := by
  mvcgen [bodyOrEnd]
  all_goals simp_all

/-- The name and the body of a method get their roles, which leaves them raw. -/
@[spec] theorem gives_method {before : List Tree} (raw : RawAll before) :
    Gives (method g before) Raw := by
  mvcgen [method]
  all_goals simp_all +zetaDelta +decide

@[spec] theorem gives_constant : Gives (constant g) Raw := by
  have values := sound.expression
  mvcgen [constant, values]
  all_goals simp_all +decide

@[spec] theorem gives_constants {before : List Tree} (raw : RawAll before) :
    Gives (constants g before) Raw := by
  mvcgen [constants]
  all_goals simp_all +decide

@[spec] theorem gives_enumCase {before : List Tree} (raw : RawAll before) :
    Gives (enumCase g before) Raw := by
  mvcgen [enumCase]
  all_goals simp_all +decide

/-- A property with the roles of its variable and its default. -/
@[spec] theorem gives_propertyElement : Gives (propertyElement g) Raw := by
  have values := sound.expression
  mvcgen [propertyElement, values]
  all_goals simp_all +zetaDelta +decide

/-- A hook has a value behind an arrow, or what stands behind the head of a method. -/
@[spec] theorem gives_propertyHook : Gives (propertyHook g) Raw := by
  have values := sound.expression
  mvcgen [propertyHook, values]
  all_goals simp_all +decide

/-- Properties end with their hooks or with a semicolon. -/
@[spec] theorem gives_propertyEnd : Gives (propertyEnd g) RawAll := by
  mvcgen [propertyEnd]
  all_goals simp_all +decide

@[spec] theorem gives_properties {before : List Tree} (raw : RawAll before) :
    Gives (properties g before) Raw := by
  mvcgen [properties]
  all_goals simp_all +decide

/-- What kind of member follows hangs on the word behind the modifiers. -/
@[spec] theorem gives_member : Gives (member g) Raw := by
  mvcgen [member]
  all_goals simp_all +zetaDelta

@[spec] theorem gives_memberList : Gives (memberList g) Raw := by
  mvcgen [memberList]
  all_goals simp_all +decide

@[spec] theorem gives_classLike {before : List Tree} (raw : RawAll before) :
    Gives (classLike g before) Raw := by
  mvcgen [classLike]
  all_goals simp_all +zetaDelta +decide

/-- A class without a name may have arguments, for its creation. -/
@[spec] theorem gives_anonymousClass : Gives (anonymousClass g) RawAll := by
  mvcgen [anonymousClass]
  all_goals simp_all

@[spec] theorem gives_closureUse : Gives (closureUse g) RawAll := by
  mvcgen [closureUse]
  all_goals simp_all +decide

/-- A closure is a value, so it is a part, with statements in it or with one expression. -/
@[spec] theorem gives_closure {before : List Tree} (raw : RawAll before) :
    Gives (closure g before) RawPart := by
  have values := sound.expression
  mvcgen [closure, values]
  all_goals simp_all +zetaDelta +decide

@[spec] theorem gives_namedFunction {before : List Tree} (raw : RawAll before) :
    Gives (namedFunction g before) Raw := by
  mvcgen [namedFunction]
  all_goals simp_all +zetaDelta +decide

end

/-! ## Expressions -/

@[spec] theorem gives_atCast : Gives atCast fun _ => True := by
  mvcgen [atCast]
  all_goals simp_all

@[spec] theorem gives_atStop : Gives atStop fun _ => True := by
  mvcgen [atStop]
  all_goals simp_all

/-- The words that are literals are leaves of common kinds. -/
theorem isCommon_of_literalKind? {word : String} {k : Kind} (found : literalKind? word = some k) :
    k.isCommon = true := by
  unfold literalKind? at found
  split_ifs at found <;> cases found <;> rfl

/-- The words in front of an expression make nodes of common kinds. -/
theorem isCommon_of_leadingWord {word : String} {k : Kind}
    (found : leadingWords.lookup word = some k) : k.isCommon = true := by
  have all : ∀ p ∈ leadingWords, p.2.isCommon = true := by decide
  obtain ⟨before, behind, whole, -⟩ := List.lookup_eq_some_iff.mp found
  exact all (word, k) (by rw [whole]; simp)

section

variable {g : Grammar} (sound : g.Sound)
include sound

@[spec] theorem gives_parenthesized : Gives (parenthesized g) RawPart := by
  have values := sound.expression
  mvcgen [parenthesized, values]
  all_goals simp_all +decide

@[spec] theorem gives_bracketArray : Gives (bracketArray g) RawPart := by
  mvcgen [bracketArray]
  all_goals simp_all +decide

@[spec] theorem gives_wordArray {k : Kind} (common : k.isCommon = true) :
    Gives (wordArray g k) RawPart := by
  mvcgen [wordArray]
  all_goals simp_all

/-- A branch is chosen by a value, or it is the one for all others. -/
@[spec] theorem gives_matchCondition : Gives (matchCondition g) Raw := by
  have values := sound.expression
  mvcgen [matchCondition, values]
  all_goals simp_all

@[spec] theorem gives_matchBranch : Gives (matchBranch g) Raw := by
  have values := sound.expression
  mvcgen [matchBranch, values]
  all_goals simp_all +decide

@[spec] theorem gives_matchExpression : Gives (matchExpression g) RawPart := by
  mvcgen [matchExpression]
  all_goals simp_all +zetaDelta +decide

/-- One more step from a variable to a class, if there is one: to a member or to an element. -/
@[spec] theorem gives_classPath {t : Tree} (first : RawPart t) :
    Gives (classPath g t) fun o => ∀ u ∈ o, RawPart u := by
  have values := sound.expression
  mvcgen [classPath, values]
  all_goals simp_all +zetaDelta +decide

@[spec] theorem gives_classReference : Gives (classReference g) Raw := by
  mvcgen [classReference]
  all_goals simp_all

@[spec] theorem gives_creation : Gives (creation g) RawPart := by
  mvcgen [creation]
  all_goals simp_all +decide

/-- A word may begin a closure, a new object, a choice, an array, a literal or a name. What it is
hangs on the tokens behind it, which are looked at first. -/
@[spec] theorem gives_wordPart (t : Token) : Gives (wordPart g t) RawPart := by
  have leaf : ∀ {k : Kind}, k.isCommon = true → Gives (return (← next).leafOf k) RawPart := by
    intro k common
    mvcgen
    all_goals simp_all
  have closures : Gives (closure g []) RawPart := gives_closure sound rawAll_nil
  unfold wordPart
  refine gives_bind (gives_symbolAt 1 "(") fun opens _ => ?_
  refine gives_bind (gives_symbolAt 1 "::") fun colons _ => ?_
  refine gives_bind (gives_symbolAt 1 "&") fun _ _ => gives_ite closures ?_
  refine gives_bind (gives_keywordAt 1 "function") fun _ _ => ?_
  refine gives_bind (gives_keywordAt 1 "fn") fun _ _ => gives_ite closures ?_
  refine gives_ite (gives_creation sound) (gives_ite (gives_matchExpression sound) ?_)
  refine gives_ite (gives_wordArray sound rfl) (gives_ite (gives_wordArray sound rfl) ?_)
  refine gives_ite (leaf rfl) ?_
  split
  next k found =>
    refine gives_bind (gives_symbolAt 1 "\\") fun _ _ => ?_
    exact gives_ite gives_qualified (leaf (isCommon_of_literalKind? found))
  next => exact gives_qualified

/-- Another first part for each kind of token. That of a string is sound because the quote is known
to be the next token. -/
@[spec] theorem gives_firstPart : Gives (firstPart g) RawPart := by
  unfold firstPart
  have nothing : Gives (failure : Reader Tree) RawPart := gives_failure.mono fun _ => False.elim
  refine gives_peek_bind nothing fun t => ?_
  dsimp only
  have leaf : t.leafKind.isCommon = true →
      GivesAt t (do return (← next).leaf) RawPart := fun common =>
    givesAt_next_bind fun noComment =>
      gives_pure ⟨raw_leaf.mpr noComment, fills_of_common common []⟩
  split
  next kind => exact leaf (by rw [Token.leafKind, kind]; rfl)
  next kind => exact leaf (by rw [Token.leafKind, kind]; rfl)
  next kind => exact leaf (by rw [Token.leafKind, kind]; rfl)
  next kind => exact leaf (by rw [Token.leafKind, kind]; rfl)
  next kind => exact gives_string sound kind
  next => exact (gives_interpolated sound rfl .docClose).at t
  next => exact (gives_interpolated sound rfl .shellQuote).at t
  next => exact (gives_wordPart sound t).at t
  next =>
    refine Gives.at ?_ t
    refine gives_ite (gives_parenthesized sound) (gives_ite (gives_bracketArray sound) ?_)
    refine gives_ite (gives_variableName sound) (gives_ite gives_qualified ?_)
    exact gives_ite (gives_bind (gives_attributes sound) fun _ raw => gives_closure sound raw)
      nothing
  next => exact nothing.at t

/-- The name of a member may be computed, and has its role all the same. -/
@[spec] theorem gives_memberName : Gives (memberName g) RawAll := by
  have values := sound.expression
  mvcgen [memberName, values]
  all_goals simp_all

/-- A member of a value, called or not. Both kinds are the caller's and have to be common. -/
@[spec] theorem gives_memberLink {access call : Kind} (common : access.isCommon = true)
    (common' : call.isCommon = true) {t : Tree} (first : RawPart t) :
    Gives (memberLink g access call t) RawPart := by
  mvcgen [memberLink]
  all_goals simp_all +zetaDelta

@[spec] theorem gives_scopedLink {t : Tree} (first : RawPart t) :
    Gives (scopedLink g t) RawPart := by
  mvcgen [scopedLink]
  all_goals simp_all +zetaDelta +decide

@[spec] theorem gives_subscriptLink {t : Tree} (first : RawPart t) :
    Gives (subscriptLink g t) RawPart := by
  have values := sound.expression
  mvcgen [subscriptLink, values]
  all_goals simp_all +decide

@[spec] theorem gives_link {t : Tree} (first : RawPart t) :
    Gives (link g t) fun o => ∀ u ∈ o, RawPart u := by
  mvcgen [link]
  all_goals simp_all +decide

@[spec] theorem gives_chain : Gives (chain g) RawPart := by
  mvcgen [chain]
  all_goals simp_all

@[spec] theorem gives_cast : Gives (cast g) RawPart := by
  have operands := sound.operand
  mvcgen [cast, operands]
  all_goals simp_all +decide

@[spec] theorem gives_yielded : Gives (yielded g) RawPart := by
  have values := sound.expression
  mvcgen [yielded, values]
  all_goals simp_all +decide

/-- A mark or a word in front of an expression makes a node of the kind that the caller gives. -/
@[spec] theorem gives_marked {k : Kind} (common : k.isCommon = true) (least : Nat) :
    Gives (marked g k least) RawPart := by
  have values := sound.expression
  mvcgen [marked, values]
  all_goals simp_all

@[spec] theorem gives_wordOperand (t : Token) : Gives (wordOperand g t) RawPart := by
  mvcgen [wordOperand]
  all_goals first
    | exact fun _ _ => isCommon_of_leadingWord ‹_›
    | simp_all +decide

@[spec] theorem gives_operand : Gives (operand g) RawPart := by
  mvcgen [operand]
  all_goals simp_all +decide

@[spec] theorem gives_assignment {t : Tree} (first : RawPart t) :
    Gives (assignment g t) RawPart := by
  have values := sound.expression
  mvcgen [assignment, values]
  all_goals simp_all +zetaDelta +decide

@[spec] theorem gives_choice {t : Tree} (first : RawPart t) : Gives (choice g t) RawPart := by
  have values := sound.expression
  mvcgen [choice, values]
  all_goals simp_all +decide

@[spec] theorem gives_operator (least : Nat) {t : Tree} (first : RawPart t) :
    Gives (operator g least t) fun o => ∀ u ∈ o, RawPart u := by
  have values := sound.expression
  mvcgen [operator, values]
  all_goals simp_all +decide

@[spec] theorem gives_expression (least : Nat) : Gives (expression g least) RawPart := by
  mvcgen [expression]
  all_goals simp_all

end

/-! ## Statements -/

@[spec] theorem gives_caseMark : Gives caseMark RawAll := by
  mvcgen [caseMark]
  all_goals simp_all

@[spec] theorem gives_caught : Gives caught RawAll := by
  mvcgen [caught]
  all_goals simp_all

/-- The tokens of a statement are leaves, none of which is a comment. -/
@[spec] theorem gives_plainStatement : Gives plainStatement Raw := by
  mvcgen [plainStatement]
  all_goals simp_all +decide

@[spec] theorem gives_classWordAt (n : Nat) : Gives (classWordAt n) fun _ => True := by
  mvcgen [classWordAt]
  all_goals simp_all

@[spec] theorem gives_atClass : Gives atClass fun _ => True := by
  mvcgen [atClass]
  all_goals simp_all

@[spec] theorem gives_atFunction : Gives atFunction fun _ => True := by
  mvcgen [atFunction]

section

variable {g : Grammar} (sound : g.Sound)
include sound

@[spec] theorem gives_statementsUntil (words : List String) :
    Gives (statementsUntil g words) RawAll := by
  have statements := sound.statement
  mvcgen [statementsUntil, statements]
  all_goals simp_all

/-- A body is one statement, or statements behind a colon up to a word. -/
@[spec] theorem gives_bodyOrColon (close : String) : Gives (bodyOrColon g close) RawAll := by
  have statements := sound.statement
  mvcgen [bodyOrColon, statements]
  all_goals simp_all +decide

/-- A branch with a colon has a condition or, as the last one, none. -/
@[spec] theorem gives_colonBranch : Gives (colonBranch g) RawAll := by
  mvcgen [colonBranch]
  all_goals simp_all +decide

@[spec] theorem gives_ifStatement : Gives (ifStatement g) Raw := by
  have statements := sound.statement
  mvcgen [ifStatement, statements]
  all_goals simp_all +decide

@[spec] theorem gives_whileStatement : Gives (whileStatement g) Raw := by
  mvcgen [whileStatement]
  all_goals simp_all +decide

@[spec] theorem gives_doStatement : Gives (doStatement g) Raw := by
  have statements := sound.statement
  mvcgen [doStatement, statements]
  all_goals simp_all +decide

@[spec] theorem gives_expressionsUntil (close : String) :
    Gives (expressionsUntil g close) RawAll := by
  have values := sound.expression
  mvcgen [expressionsUntil, values]
  all_goals simp_all

/-- A counting loop has three lists of expressions, and each may be empty. -/
@[spec] theorem gives_forStatement : Gives (forStatement g) Raw := by
  mvcgen [forStatement]
  all_goals simp_all +decide

@[spec] theorem gives_foreachStatement : Gives (foreachStatement g) Raw := by
  have values := sound.expression
  mvcgen [foreachStatement, values]
  all_goals simp_all +decide

@[spec] theorem gives_caseClause : Gives (caseClause g) Raw := by
  have values := sound.expression
  have statements := sound.statement
  mvcgen [caseClause, values, statements]
  all_goals simp_all +decide

@[spec] theorem gives_switchStatement : Gives (switchStatement g) Raw := by
  mvcgen [switchStatement]
  all_goals simp_all +zetaDelta +decide

@[spec] theorem gives_tryStatement : Gives (tryStatement g) Raw := by
  mvcgen [tryStatement]
  all_goals simp_all +decide

/-- A keyword, perhaps with a value. The kind of the statement is the caller's. -/
@[spec] theorem gives_wordStatement {k : Kind} (common : k.isCommon = true) :
    Gives (wordStatement g k) Raw := by
  have values := sound.expression
  mvcgen [wordStatement, values]
  all_goals simp_all

@[spec] theorem gives_echoStatement : Gives (echoStatement g) Raw := by
  have values := sound.expression
  mvcgen [echoStatement, values]
  all_goals simp_all +decide

@[spec] theorem gives_staticStatement : Gives (staticStatement g) Raw := by
  mvcgen [staticStatement]
  all_goals simp_all +decide

/-- The name of a namespace gets its role; a body is a block of statements. -/
@[spec] theorem gives_namespaceDefinition : Gives (namespaceDefinition g) Raw := by
  mvcgen [namespaceDefinition]
  all_goals simp_all +decide

@[spec] theorem gives_declareStatement : Gives (declareStatement g) Raw := by
  mvcgen [declareStatement]
  all_goals simp_all +decide

@[spec] theorem gives_expressionStatement : Gives (expressionStatement g) Raw := by
  have values := sound.expression
  mvcgen [expressionStatement, values]
  all_goals simp_all +decide

@[spec] theorem gives_declared : Gives (declared g) Raw := by
  mvcgen [declared]
  all_goals simp_all

@[spec] theorem gives_wordOpening (t : Token) : Gives (wordOpening g t) Raw := by
  have statements := sound.statement
  mvcgen [wordOpening, statements]
  all_goals simp_all +decide

/-- A statement is raw, whatever it begins with. -/
@[spec] theorem gives_statement : Gives (statement g) Raw := by
  mvcgen [statement]
  all_goals simp_all +decide

end

/-! ## The whole grammar -/

/-- **The grammar gives trees without comments, and strings without room for them.** -/
theorem sound_grammar : ∀ fuel, (grammar fuel).Sound
  | 0 =>
    ⟨fun _ => gives_failure.mono fun _ => False.elim, gives_failure.mono fun _ => False.elim,
      gives_failure.mono fun _ => False.elim⟩
  | fuel + 1 =>
    have sound := sound_grammar fuel
    ⟨gives_expression sound, gives_operand sound, gives_statement sound⟩

/-- The items of a program are statements, and tokens that begin none, which are leaves. -/
theorem gives_programItems {g : Grammar} (sound : g.Sound) : Gives (programItems g) RawAll := by
  have statements := sound.statement
  mvcgen [programItems, statements]
  all_goals simp_all

end Grammar

end RouteDoc.Code
