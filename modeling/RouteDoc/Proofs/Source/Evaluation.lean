import Mathlib.Data.List.TakeWhile
import RouteDoc.Number.Digits
import RouteDoc.Proofs.Source.Quoting

/-!
# What a literal evaluates to

When PHP runs, a literal evaluates to bytes. Between single quotes a backslash escapes itself and the
quote. Between double quotes there are escapes by letter, and escapes by number: a byte by up to
three octal digits, a byte by up to two hexadecimal digits behind `x`, and a character by its code
point in braces behind `u`. A backslash that begins no escape stands for itself. This module evaluates
literals in that way and compares the result with the value that is read off them. Reading knows no
escapes by number and keeps their spelling, which is always longer than what they evaluate to.

## Main statements

* `evaluate_single`, `evaluate_of_numberFree`: the value is right between single quotes, and between
  double quotes where there is no escape by number.
* `length_evaluate_le`: an escape by number makes the value too long, and nothing makes up for it.
* `evaluate_literal_iff`: so the value of a literal in double quotes is right just if it has no escape
  by number.
* `evaluate_hex`: a literal with one such escape, and the wrong value.
-/

set_option autoImplicit false

namespace RouteDoc

open Text Code

namespace Literal

/-- The bytes of characters. -/
def utf8 (s : List Char) : List UInt8 :=
  s.flatMap String.utf8EncodeChar

/-! ## Escapes -/

/-- What a backslash begins. -/
structure Escape where
  /-- The bytes that it evaluates to, if the language allows it. -/
  bytes? : Option (List UInt8)
  /-- How many characters behind the backslash belong to it. -/
  width : Nat

/-- A backslash that stands for itself. -/
def Escape.alone : Escape := ⟨some (utf8 ['\\']), 0⟩

/-- An escape between single quotes, by the text behind the backslash. -/
def escapeSingle : List Char → Escape
  | c :: _ => if c ∈ singleSpecials then ⟨some (utf8 [c]), 1⟩ else .alone
  | [] => .alone

/-- The digits at the start of a text, at most `limit` of them. -/
def digitsAt (base limit : Nat) (cs : List Char) : List Char :=
  (cs.take limit).takeWhile fun c => (Number.digit? base c).isSome

/-- The number that digits stand for. -/
def numberOf (base : Nat) (ds : List Char) : Nat :=
  Number.ofDigits base (ds.filterMap (Number.digit? base))

/-- The bytes of a code point. Those that are no characters have bytes of the same form. -/
def encode (n : Nat) : List UInt8 :=
  if n < 0x80 then [.ofNat n]
  else if n < 0x800 then [.ofNat (0xC0 + n / 0x40), .ofNat (0x80 + n % 0x40)]
  else if n < 0x10000 then
    [.ofNat (0xE0 + n / 0x1000), .ofNat (0x80 + n / 0x40 % 0x40), .ofNat (0x80 + n % 0x40)]
  else
    [.ofNat (0xF0 + n / 0x40000), .ofNat (0x80 + n / 0x1000 % 0x40),
      .ofNat (0x80 + n / 0x40 % 0x40), .ofNat (0x80 + n % 0x40)]

/-- A byte by its digits. Bits beyond eight are lost. -/
def byteEscape? (base limit lead : Nat) (cs : List Char) : Option Escape :=
  match digitsAt base limit cs with
  | [] => none
  | ds => some ⟨some [.ofNat (numberOf base ds)], lead + ds.length⟩

/-- A code point in braces, by the text behind the opening brace. -/
def codePointEscape (cs : List Char) : Escape :=
  let ds := digitsAt 16 cs.length cs
  let allowed := ds ≠ [] ∧ (cs.drop ds.length).head? = some '}' ∧ numberOf 16 ds ≤ 0x10FFFF
  ⟨if allowed then some (encode (numberOf 16 ds)) else none, ds.length + 3⟩

/-- An escape by number, by the text behind the backslash. -/
def byNumber? : List Char → Option Escape
  | 'u' :: '{' :: cs => some (codePointEscape cs)
  | 'x' :: cs | 'X' :: cs => byteEscape? 16 2 1 cs
  | cs => byteEscape? 8 3 0 cs

/-- The character that another one stands for behind a backslash between double quotes. -/
def named? (c : Char) : Option Char :=
  if c ∈ doubleSpecials then some c else (controls.find? (·.2 == c)).map Prod.fst

/-- An escape between double quotes, by the text behind the backslash. -/
def escapeDouble (cs : List Char) : Escape :=
  match byNumber? cs, cs.head?.bind named? with
  | some e, _ => e
  | none, some d => ⟨some (utf8 [d]), 1⟩
  | none, none => .alone

/-- The bytes that the text between quotes evaluates to, behind `skip` characters of it, if the
language allows all escapes in it. -/
def evaluate (escape : List Char → Escape) : (skip : Nat) → List Char → Option (List UInt8)
  | _, [] => some []
  | skip + 1, _ :: cs => evaluate escape skip cs
  | 0, c :: cs =>
    if c = '\\' then
      (escape cs).bytes?.bind fun bytes =>
        (evaluate escape (escape cs).width cs).map (bytes ++ ·)
    else (evaluate escape 0 cs).map (String.utf8EncodeChar c ++ ·)

/-- An escape of each kind: `\u{e9}`, `\x41a`, `\1018`, and one letter that is no escape. -/
example : evaluate escapeDouble 0 ['\\', 'u', '{', 'e', '9', '}', '\\', 'x', '4', '1', 'a', '\\',
    '1', '0', '1', '8', '\\', 'q'] = some [0xC3, 0xA9, 0x41, 0x61, 0x41, 0x38, 0x5C, 0x71] := by
  decide

/-- Whether a backslash that no other one escapes begins an escape by number. -/
def hasNumber : List Char → Bool
  | [] => false
  | '\\' :: '\\' :: cs => hasNumber cs
  | '\\' :: cs => (byNumber? cs).isSome || hasNumber cs
  | _ :: cs => hasNumber cs

/-! ## One step -/

/-- To skip characters is to begin behind them. -/
theorem evaluate_skip (escape : List Char → Escape) (skip : Nat) (cs : List Char) :
    evaluate escape skip cs = evaluate escape 0 (cs.drop skip) := by
  induction cs generalizing skip with
  | nil => cases skip <;> rfl
  | cons c cs ih =>
    cases skip with
    | zero => rfl
    | succ skip => exact ih skip

/-- A backslash and what belongs to it come before what stands behind. -/
theorem evaluate_backslash (escape : List Char → Escape) (cs : List Char) :
    evaluate escape 0 ('\\' :: cs) = (escape cs).bytes?.bind fun bytes =>
      (evaluate escape 0 (cs.drop (escape cs).width)).map (bytes ++ ·) := by
  rw [evaluate, if_pos rfl, evaluate_skip]

theorem evaluate_cons {c : Char} (other : c ≠ '\\') (escape : List Char → Escape)
    (cs : List Char) :
    evaluate escape 0 (c :: cs) = (evaluate escape 0 cs).map (String.utf8EncodeChar c ++ ·) := by
  rw [evaluate, if_neg other]

/-- A backslash that stands for itself. -/
theorem evaluate_alone {escape : List Char → Escape} {cs : List Char} (alone : escape cs = .alone) :
    evaluate escape 0 ('\\' :: cs) = (evaluate escape 0 cs).map (String.utf8EncodeChar '\\' ++ ·) := by
  rw [evaluate_backslash, alone]
  rfl

theorem utf8_cons (c : Char) (s : List Char) : utf8 (c :: s) = String.utf8EncodeChar c ++ utf8 s :=
  List.flatMap_cons

theorem utf8_append (s s' : List Char) : utf8 (s ++ s') = utf8 s ++ utf8 s' :=
  List.flatMap_append

/-! ## Single quotes -/

/-- The value of a literal in single quotes is what it evaluates to. -/
theorem evaluate_single (body : List Char) :
    evaluate escapeSingle 0 body = some (utf8 (unescapeSingle body)) := by
  fun_induction unescapeSingle body with
  | case1 cs ih =>
    rw [evaluate_backslash]
    show (evaluate escapeSingle 0 cs).map _ = _
    rw [ih]
    rfl
  | case2 cs ih =>
    rw [evaluate_backslash]
    show (evaluate escapeSingle 0 cs).map _ = _
    rw [ih]
    rfl
  | case3 c cs noBackslash noQuote ih =>
    rw [utf8_cons]
    by_cases backslash : c = '\\'
    · subst backslash
      have alone : escapeSingle cs = .alone := by
        cases cs with
        | nil => rfl
        | cons d ds =>
          have ordinary : d ∉ singleSpecials := by
            simp only [singleSpecials, List.mem_cons, List.not_mem_nil, or_false, not_or]
            constructor
            · rintro rfl
              exact noBackslash ds rfl rfl
            · rintro rfl
              exact noQuote ds rfl rfl
          rw [escapeSingle, if_neg ordinary]
      rw [evaluate_alone alone, ih]
      rfl
    · rw [evaluate_cons backslash, ih]
      rfl
  | case4 => rfl

/-! ## Double quotes -/

/-- Reading and evaluating agree on the escapes by letter. -/
theorem named?_eq (c : Char) : named? c = escaped? c := by
  unfold escaped?
  split <;> try rfl
  next n t r v e f backslash dollar quote =>
    have ordinary : c ∉ doubleSpecials := by
      simp only [doubleSpecials, List.mem_cons, List.not_mem_nil, or_false, not_or]
      exact ⟨backslash, quote, dollar⟩
    have noLetter : controls.find? (·.2 == c) = none := by
      rw [List.find?_eq_none]
      simp only [controls, List.forall_mem_cons, List.not_mem_nil, beq_iff_eq]
      refine ⟨Ne.symm n, Ne.symm t, Ne.symm r, Ne.symm v, Ne.symm e, Ne.symm f, fun _ => False.elim⟩
    rw [named?, if_neg ordinary, noLetter]
    rfl

/-- Reading keeps a text without backslashes. -/
theorem unescapeDouble_append {front : List Char} (plain : '\\' ∉ front) (rest : List Char) :
    unescapeDouble (front ++ rest) = front ++ unescapeDouble rest := by
  induction front with
  | nil => rfl
  | cons c front ih =>
    obtain ⟨other, plain⟩ := not_or.mp (mt List.mem_cons.mpr plain)
    rw [List.cons_append, unescapeDouble_cons (Ne.symm other), ih plain, List.cons_append]

/-- Reading keeps a backslash in front of what it does not escape. -/
theorem unescapeDouble_backslash {cs : List Char} (unnamed : ∀ c ∈ cs.head?, escaped? c = none) :
    unescapeDouble ('\\' :: cs) = '\\' :: unescapeDouble cs := by
  cases cs with
  | nil => rfl
  | cons c cs =>
    have none : escaped? c = none := unnamed c rfl
    have other : c ≠ '\\' := by
      rintro rfl
      exact absurd none (by decide)
    rw [unescapeDouble_cons other, unescapeDouble, none]

/-! ## Escapes by number -/

/-- The digits are a beginning of the text. -/
theorem front_digitsAt (base limit : Nat) (cs : List Char) : digitsAt base limit cs <+: cs :=
  (List.takeWhile_prefix _).trans (List.take_prefix _ _)

/-- Each of the digits is one in the base. -/
theorem digit?_of_mem_digitsAt {base limit : Nat} {cs : List Char} {c : Char}
    (mem : c ∈ digitsAt base limit cs) : (Number.digit? base c).isSome :=
  List.mem_takeWhile_imp (p := fun c => (Number.digit? base c).isSome) mem

/-- No digit is a backslash. -/
theorem backslash_notMem_digitsAt (base limit : Nat) (cs : List Char) :
    '\\' ∉ digitsAt base limit cs := by
  intro mem
  have none : Number.digit? base '\\' = none := if_neg (Nat.lt_irrefl base)
  have digit := digit?_of_mem_digitsAt mem
  rw [none] at digit
  exact absurd digit (by decide)

theorem length_encode_le (n : Nat) : (encode n).length ≤ 4 := by
  unfold encode
  split_ifs <;> exact Nat.le_of_ble_eq_true rfl

/-- An escape whose spelling `front` reading keeps, although it evaluates to fewer bytes. -/
structure Escape.Spelled (e : Escape) (cs front : List Char) (bytes : List UInt8) : Prop where
  start : front <+: cs
  width : front.length = e.width
  plain : '\\' ∉ front
  short : bytes.length ≤ front.length

/-- A byte takes no more room than its digits. -/
theorem byteEscape?_spelled (sign : List Char) {base limit : Nat} {cs : List Char} {e : Escape}
    (number : byteEscape? base limit sign.length cs = some e) (plain : '\\' ∉ sign)
    {bytes : List UInt8} (allowed : e.bytes? = some bytes) : ∃ front, e.Spelled (sign ++ cs) front bytes := by
  unfold byteEscape? at number
  split at number
  next => contradiction
  next ds some =>
    cases number
    cases allowed
    refine ⟨sign ++ digitsAt base limit cs, ⟨?_, ?_, ?_, ?_⟩⟩
    · exact (List.prefix_append_right_inj sign).mpr (front_digitsAt base limit cs)
    · rw [List.length_append]
    · rw [List.mem_append, not_or]
      exact ⟨plain, backslash_notMem_digitsAt base limit cs⟩
    · have digits := List.length_pos_iff.mpr some
      rw [List.length_append]
      exact Nat.le_add_left_of_le digits

/-- A code point takes no more room than its digits, two braces and a letter. -/
theorem codePointEscape_spelled {cs : List Char} {bytes : List UInt8}
    (allowed : (codePointEscape cs).bytes? = some bytes) :
    ∃ front, (codePointEscape cs).Spelled ('u' :: '{' :: cs) front bytes := by
  obtain ⟨rest, split⟩ := front_digitsAt 16 cs.length cs
  obtain ⟨⟨some, closed, -⟩, encoded⟩ := Option.ite_none_right_eq_some.mp allowed
  cases encoded
  set ds := digitsAt 16 cs.length cs with isDigits
  have plain : '\\' ∉ ds := backslash_notMem_digitsAt 16 cs.length cs
  obtain ⟨rest, rfl⟩ : ∃ more, rest = '}' :: more := by
    rw [← split, List.drop_left] at closed
    exact List.head?_eq_some_iff.mp closed
  refine ⟨'u' :: '{' :: (ds ++ ['}']), ⟨⟨rest, ?_⟩, ?_, ?_, ?_⟩⟩
  · simp [← split]
  · simp [codePointEscape, isDigits]
  · simp [plain]
  · have digits := List.length_pos_iff.mpr some
    have := length_encode_le (numberOf 16 ds)
    simp only [List.length_cons, List.length_append, List.length_nil]
    omega

/-- An escape by number is spelled with at least as many characters as it has bytes. -/
theorem byNumber?_spelled {cs : List Char} {e : Escape} (number : byNumber? cs = some e)
    {bytes : List UInt8} (allowed : e.bytes? = some bytes) :
    ∃ front, e.Spelled cs front bytes := by
  unfold byNumber? at number
  split at number
  next =>
    cases number
    exact codePointEscape_spelled allowed
  next cs => exact byteEscape?_spelled ['x'] number (by decide) allowed
  next cs => exact byteEscape?_spelled ['X'] number (by decide) allowed
  next => exact byteEscape?_spelled [] number (by decide) allowed

/-- No escape by number is also one by letter. -/
theorem escaped?_of_byNumber? {cs : List Char} {e : Escape} (number : byNumber? cs = some e) :
    ∀ c ∈ cs.head?, escaped? c = none := by
  unfold byNumber? at number
  split at number
  next => rintro c ⟨⟩; rfl
  next => rintro c ⟨⟩; rfl
  next => rintro c ⟨⟩; rfl
  next =>
    rintro c first
    obtain ⟨cs, rfl⟩ := List.head?_eq_some_iff.mp first
    have digit : (Number.digit? 8 c).isSome := by
      by_contra none
      have nothing : digitsAt 8 3 (c :: cs) = [] := List.takeWhile_cons_of_neg none
      rw [byteEscape?, nothing] at number
      exact absurd number nofun
    unfold escaped?
    split <;> first | rfl | exact absurd digit (by decide)

/-! ## Reading and evaluating side by side -/

/-- A step that reading and evaluating take alike. -/
structure Alike (body : List Char) (d : Char) (rest : List Char) : Prop where
  shorter : rest.length < body.length
  read : unescapeDouble body = d :: unescapeDouble rest
  evaluated : evaluate escapeDouble 0 body =
    (evaluate escapeDouble 0 rest).map (String.utf8EncodeChar d ++ ·)
  number : hasNumber body = hasNumber rest

theorem hasNumber_cons {c : Char} (other : c ≠ '\\') (cs : List Char) :
    hasNumber (c :: cs) = hasNumber cs :=
  hasNumber.eq_4 c cs (fun _ same _ => other same) other

/-- A backslash that escapes no character may begin one. -/
theorem hasNumber_backslash {cs : List Char} (unnamed : ∀ c ∈ cs.head?, escaped? c = none) :
    hasNumber ('\\' :: cs) = ((byNumber? cs).isSome || hasNumber cs) := by
  refine hasNumber.eq_3 cs ?_
  rintro cs rfl
  exact absurd (unnamed '\\' rfl) (by decide)

theorem alike_plain {c : Char} (other : c ≠ '\\') (cs : List Char) : Alike (c :: cs) c cs where
  shorter := Nat.lt_succ_self _
  read := unescapeDouble_cons other cs
  evaluated := evaluate_cons other escapeDouble cs
  number := hasNumber_cons other cs

theorem alike_letter {c d : Char} (escaped : escaped? c = some d) (cs : List Char) :
    Alike ('\\' :: c :: cs) d cs := by
  have noNumber : byNumber? (c :: cs) = none := by
    by_contra some
    obtain ⟨e, number⟩ := Option.ne_none_iff_exists'.mp some
    have none : escaped? c = none := escaped?_of_byNumber? number c rfl
    rw [escaped] at none
    contradiction
  have escape : escapeDouble (c :: cs) = ⟨some (utf8 [d]), 1⟩ := by
    have named : (c :: cs).head?.bind named? = some d := (named?_eq c).trans escaped
    rw [escapeDouble, noNumber, named]
  refine ⟨Nat.lt_succ_of_lt (Nat.lt_succ_self _), unescapeDouble_escaped escaped cs, ?_, ?_⟩
  · rw [evaluate_backslash, escape]
    simp [utf8]
  · by_cases backslash : c = '\\'
    · rw [backslash, hasNumber]
    · rw [hasNumber.eq_3 _ fun cs same => backslash (List.cons.inj same).1, noNumber,
        hasNumber_cons backslash]
      rfl

theorem alike_alone {cs : List Char} (noNumber : byNumber? cs = none)
    (unnamed : ∀ c ∈ cs.head?, escaped? c = none) : Alike ('\\' :: cs) '\\' cs := by
  have alone : escapeDouble cs = .alone := by
    have noLetter : cs.head?.bind named? = none := by
      rw [Option.bind_eq_none_iff]
      exact fun c first => (named?_eq c).trans (unnamed c first)
    rw [escapeDouble, noNumber, noLetter]
  refine ⟨Nat.lt_succ_self _, unescapeDouble_backslash unnamed, evaluate_alone alone, ?_⟩
  rw [hasNumber_backslash unnamed, noNumber]
  rfl

/-- The steps are alike up to the first escape by number. -/
theorem alike_or_number (c : Char) (cs : List Char) :
    (∃ d rest, Alike (c :: cs) d rest) ∨ c = '\\' ∧ ∃ e, byNumber? cs = some e := by
  by_cases backslash : c = '\\'
  swap
  · exact .inl ⟨c, cs, alike_plain backslash cs⟩
  subst backslash
  cases number : byNumber? cs with
  | some e => exact .inr ⟨rfl, e, rfl⟩
  | none =>
    left
    cases letter : cs.head?.bind escaped? with
    | none => exact ⟨_, _, alike_alone number (Option.bind_eq_none_iff.mp letter)⟩
    | some d =>
      obtain ⟨c, first, escaped⟩ := Option.bind_eq_some_iff.mp letter
      obtain ⟨cs, rfl⟩ := List.head?_eq_some_iff.mp first
      exact ⟨d, cs, alike_letter escaped cs⟩

/-- Induction along reading and evaluating. -/
theorem double_induction {motive : List Char → Prop} (nil : motive [])
    (alike : ∀ body d rest, Alike body d rest → motive rest → motive body)
    (number : ∀ cs e, byNumber? cs = some e → (∀ rest, rest <:+ cs → motive rest) →
      motive ('\\' :: cs)) : ∀ body, motive body
  | [] => nil
  | c :: cs => by
    rcases alike_or_number c cs with ⟨d, rest, step⟩ | ⟨rfl, e, found⟩
    · exact alike _ d rest step (double_induction nil alike number rest)
    · exact number cs e found fun rest suffix => double_induction nil alike number rest
termination_by body => body.length
decreasing_by
  · exact step.shorter
  · exact Nat.lt_succ_of_le suffix.length_le

/-- Without an escape by number the value is what the literal evaluates to. -/
theorem evaluate_of_numberFree {body : List Char} (free : hasNumber body = false) :
    evaluate escapeDouble 0 body = some (utf8 (unescapeDouble body)) := by
  induction body using double_induction with
  | nil => rfl
  | alike body d rest step ih =>
    rw [step.evaluated, step.read, utf8_cons, ih (step.number ▸ free)]
    rfl
  | number cs e found =>
    rw [hasNumber_backslash (escaped?_of_byNumber? found), found] at free
    contradiction

/-- Every character has at least one byte. -/
theorem length_le_utf8 (s : List Char) : s.length ≤ (utf8 s).length := by
  induction s with
  | nil => exact Nat.le_refl 0
  | cons c s ih =>
    have one : 0 < (String.utf8EncodeChar c).length := by
      rw [String.length_utf8EncodeChar]
      exact c.utf8Size_pos
    rw [utf8_cons, List.length_append, List.length_cons]
    omega

/-- What a literal evaluates to is never longer than its value, and shorter if there is an escape by
number. -/
theorem length_evaluate_le {body : List Char} {bytes : List UInt8}
    (evaluated : evaluate escapeDouble 0 body = some bytes) :
    bytes.length + (hasNumber body).toNat ≤ (utf8 (unescapeDouble body)).length := by
  induction body using double_induction generalizing bytes with
  | nil =>
    cases evaluated
    exact Nat.le_refl 0
  | alike body d rest step ih =>
    rw [step.evaluated] at evaluated
    obtain ⟨more, onward, rfl⟩ := Option.map_eq_some_iff.mp evaluated
    have := ih onward
    rw [step.number, step.read, utf8_cons, List.length_append, List.length_append]
    omega
  | number cs e found ih =>
    have escape : escapeDouble cs = e := by rw [escapeDouble, found]
    rw [evaluate_backslash, escape] at evaluated
    obtain ⟨first, allowed, evaluated⟩ := Option.bind_eq_some_iff.mp evaluated
    obtain ⟨more, onward, rfl⟩ := Option.map_eq_some_iff.mp evaluated
    obtain ⟨front, ⟨rest, rfl⟩, width, plain, short⟩ := byNumber?_spelled found allowed
    rw [← width, List.drop_left] at onward
    have := ih rest (List.suffix_append front rest) onward
    have := length_le_utf8 front
    -- The backslash itself is the byte by which the value is too long.
    have backslash : (String.utf8EncodeChar '\\').length = 1 := by decide
    have := (hasNumber ('\\' :: (front ++ rest))).toNat_le
    rw [unescapeDouble_backslash (escaped?_of_byNumber? found), unescapeDouble_append plain,
      utf8_cons, utf8_append]
    simp only [List.length_append]
    omega

/-! ## Literals -/

/-- A value is right if its bytes are those that the literal evaluates to. -/
def Right (value : String) (bytes : List UInt8) : Prop :=
  value.toUTF8 = bytes.toByteArray

/-- A value is right if its characters have these bytes. -/
theorem right_ofList_iff (s : List Char) (bytes : List UInt8) :
    Right (String.ofList s) bytes ↔ utf8 s = bytes := by
  rw [Right, String.toUTF8_eq_toByteArray, String.toByteArray_ofList]
  exact List.toByteArray_inj

/-- **The value of a literal is right between single quotes, and between double quotes just if there
is no escape by number.** -/
theorem evaluate_literal_iff {mark : List Char} (marked : mark ∈ marks) (body : List Char)
    (t : Code.Tree) :
    (t.IsSingle → t.text.toList = literal mark '\'' body →
      ∃ value bytes, t.stringValue? = some value ∧
        evaluate escapeSingle 0 body = some bytes ∧ Right value bytes) ∧
    (t.IsDouble → t.text.toList = literal mark '"' body →
      ∃ value, t.stringValue? = some value ∧
        ∀ bytes, evaluate escapeDouble 0 body = some bytes →
          (Right value bytes ↔ hasNumber body = false)) := by
  refine ⟨fun kind text => ?_, fun kind text => ?_⟩
  · exact ⟨_, _, kind.stringValue? marked text, evaluate_single body,
      (right_ofList_iff _ _).mpr rfl⟩
  · refine ⟨_, kind.stringValue? marked text, fun bytes evaluated => ?_⟩
    rw [right_ofList_iff]
    constructor
    · rintro rfl
      have long := length_evaluate_le evaluated
      cases number : hasNumber body with
      | false => rfl
      | true =>
        rw [number] at long
        exact absurd long (Nat.not_succ_le_self _)
    · intro free
      exact Option.some.inj ((evaluate_of_numberFree free).symm.trans evaluated)

end Literal

namespace Sample

open Literal

/-- A literal in single quotes with an escape, and the same one in double quotes. -/
theorem evaluate_literal_tab : ∃ single double : Code.Tree,
    [] ∈ marks ∧
    single.IsSingle ∧ single.text.toList = literal [] '\'' ['\\', 't', '\\', '\\'] ∧
    double.IsDouble ∧ double.text.toList = literal [] '"' ['\\', 't', '\\', '\\'] ∧
    (∃ value, single.stringValue? = some value ∧ Right value [0x5C, 0x74, 0x5C]) ∧
    ∃ value, double.stringValue? = some value ∧ Right value [0x09, 0x5C] := by
  have marked : [] ∈ marks := by decide
  let body := ['\\', 't', '\\', '\\']
  have closes : Scan.singleQuoted (body ++ ['\'', ';']) = body.length + 1 := by decide
  have closesDouble : Scan.plain '"' (body ++ ['"', ';']) = body.length := by decide
  obtain ⟨single, -, kind, text⟩ := literal?_single marked closes
  obtain ⟨double, -, kindDouble, whole, textDouble⟩ := literal?_double marked closesDouble
  have text : single.text.toList = literal [] '\'' body := by rw [text, String.toList_ofList]
  have textDouble : double.text.toList = literal [] '"' body := by
    rw [textDouble, String.toList_ofList]
  have evaluated : evaluate escapeSingle 0 body = some [0x5C, 0x74, 0x5C] := by decide
  have evaluatedDouble : evaluate escapeDouble 0 body = some [0x09, 0x5C] := by decide
  obtain ⟨value, bytes, read, same, right⟩ :=
    (evaluate_literal_iff marked body single).1 kind text
  obtain ⟨valueDouble, readDouble, rightDouble⟩ :=
    (evaluate_literal_iff marked body double).2 ⟨kindDouble, whole⟩ textDouble
  cases evaluated.symm.trans same
  exact ⟨single, double, marked, kind, text, ⟨kindDouble, whole⟩, textDouble,
    ⟨value, read, right⟩, valueDouble, readDouble,
    (rightDouble _ evaluatedDouble).mpr (by decide)⟩

/-- A byte by its hexadecimal digits, which the value spells out. -/
theorem evaluate_hex :
    (literal? "<?php $a = \"\\x41\";").map Code.Tree.text = some "\"\\x41\"" ∧
    (literal? "<?php $a = \"\\x41\";").bind Code.Tree.stringValue? = some "\\x41" ∧
    evaluate escapeDouble 0 ['\\', 'x', '4', '1'] = some [0x41] ∧ ¬Right "\\x41" [0x41] := by
  refine ⟨by decide +kernel, by decide +kernel, by decide, ?_⟩
  exact mt (right_ofList_iff ['\\', 'x', '4', '1'] [0x41]).mp (by decide)

end Sample

end RouteDoc
