/-!
# UTF-8

A sequence of bytes is cut into characters and faults: a fault is the longest part, of one byte at
least, that begins a character and does not go on as one. A text has no faults; a lenient reader
puts U+FFFD for each.
-/

set_option autoImplicit false

namespace RouteDoc.Text

/-- The form of the characters with that first byte: the number of bytes that follow, the bounds of
the first of these, and the bits that the first byte gives. -/
structure Utf8Lead where
  /-- The number of bytes that follow. -/
  more : Nat
  /-- The least second byte. -/
  lo : Nat
  /-- The greatest second byte. -/
  hi : Nat
  /-- The bits of the first byte. -/
  bits : Nat

/-- The form of a character by its first byte. -/
def utf8Lead? (b : Nat) : Option Utf8Lead :=
  if b < 0x80 then some ⟨0, 0, 0, b⟩
  else if b < 0xC2 then none
  else if b < 0xE0 then some ⟨1, 0x80, 0xBF, b - 0xC0⟩
  else if b < 0xF0 then
    some ⟨2, if b = 0xE0 then 0xA0 else 0x80, if b = 0xED then 0x9F else 0xBF, b - 0xE0⟩
  else if b < 0xF5 then
    some ⟨3, if b = 0xF0 then 0x90 else 0x80, if b = 0xF4 then 0x8F else 0xBF, b - 0xF0⟩
  else none

/-- The bytes that go on with a character: the bits so far with theirs if all that are needed
follow, and how many there are. -/
def utf8More (lo hi : Nat) (bits : Nat) : Nat → List UInt8 → Option Nat × Nat
  | 0, _ => (some bits, 0)
  | _ + 1, [] => (none, 0)
  | n + 1, b :: bs =>
    if lo ≤ b.toNat ∧ b.toNat ≤ hi then
      let (r, k) := utf8More 0x80 0xBF (bits * 64 + (b.toNat - 0x80)) n bs
      (r, k + 1)
    else (none, 0)

/-- The characters of a sequence of bytes, with nothing for each fault. -/
def utf8Pieces : List UInt8 → List (Option Char)
  | [] => []
  | b :: bs =>
    match utf8Lead? b.toNat with
    | none => none :: utf8Pieces bs
    | some f =>
      let (r, k) := utf8More f.lo f.hi f.bits f.more bs
      r.map Char.ofNat :: utf8Pieces (bs.drop k)
termination_by s => s.length
decreasing_by
  · simp
  · simp only [List.length_drop, List.length_cons]
    omega

/-- The text that bytes spell, if they have no fault. -/
def utf8? (bs : List UInt8) : Option (List Char) :=
  (utf8Pieces bs).mapM id

/-- The text that bytes spell, with U+FFFD for each fault. -/
def utf8Lenient (bs : List UInt8) : List Char :=
  (utf8Pieces bs).map (·.getD '\uFFFD')

end RouteDoc.Text
