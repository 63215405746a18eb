/-!
# Blank characters

The blank characters are those with the White_Space property of Unicode, and a line ends at a line
feed. This file holds what reads a text by its blanks: trimming, cutting at the first blank, words
and lines. A text is a list of characters throughout the library's readers; `String` stands at their
ends only.

## Main statements

* `not_isBlank_of_mem_words`: no word holds a blank.
* `eq_append_of_after?`: what is left after a head is what stands behind it.
-/

set_option autoImplicit false

namespace RouteDoc.Text

/-- Whether a character has the White_Space property. -/
def isBlank (c : Char) : Bool :=
  (0x09 ≤ c.toNat && c.toNat ≤ 0x0D) || c.toNat == 0x20 || c.toNat == 0x85 || c.toNat == 0xA0 ||
    c.toNat == 0x1680 || (0x2000 ≤ c.toNat && c.toNat ≤ 0x200A) || c.toNat == 0x2028 ||
    c.toNat == 0x2029 || c.toNat == 0x202F || c.toNat == 0x205F || c.toNat == 0x3000

theorem isBlank_space : isBlank ' ' = true := by
  decide

/-- The text without its leading blanks. -/
def trimStart (s : List Char) : List Char :=
  s.dropWhile isBlank

/-- The text without its trailing blanks. -/
def trimEnd (s : List Char) : List Char :=
  (s.reverse.dropWhile isBlank).reverse

/-- The text without the blanks around it. -/
def trim (s : List Char) : List Char :=
  trimEnd (trimStart s)

/-- The pieces between blanks that are not empty, in order. -/
def words : List Char → List (List Char)
  | [] => []
  | c :: cs =>
    if isBlank c then words cs
    else
      match cs with
      | [] => [[c]]
      | d :: _ =>
        if isBlank d then [c] :: words cs
        else
          match words cs with
          | [] => [[c]]
          | w :: ws => (c :: w) :: ws

/-- No word holds a blank. -/
theorem not_isBlank_of_mem_words {s w : List Char} (hw : w ∈ words s) {c : Char} (hc : c ∈ w) :
    isBlank c = false := by
  induction s generalizing w c with
  | nil => simp [words] at hw
  | cons a s ih =>
    cases s with
    | nil => grind [words]
    | cons b s => grind [words]

/-- Dropping from the front makes no text longer. -/
theorem length_dropWhile_le (p : Char → Bool) (s : List Char) :
    (s.dropWhile p).length ≤ s.length :=
  (List.dropWhile_sublist p).length_le

/-- The words joined by single spaces. -/
def collapse (s : List Char) : List Char :=
  [' '].intercalate (words s)

/-- The lines of a text: the pieces between line feeds. -/
def lines : List Char → List (List Char)
  | [] => [[]]
  | c :: cs =>
    if c == '\n' then [] :: lines cs
    else
      match lines cs with
      | [] => [[c]]
      | l :: ls => (c :: l) :: ls

/-- What stands before the first blank and what stands after it; the second part is empty when
there is no blank. -/
def cutAtBlank (s : List Char) : List Char × List Char :=
  (s.takeWhile (! isBlank ·), (s.dropWhile (! isBlank ·)).drop 1)

/-- The text after `head`, when the text begins with it. -/
def after? : (head : List Char) → List Char → Option (List Char)
  | [], s => some s
  | _ :: _, [] => none
  | h :: hs, c :: cs => if h == c then after? hs cs else none

/-- The text before `tail`, when the text ends with it. -/
def before? (tail s : List Char) : Option (List Char) :=
  (after? tail.reverse s.reverse).map List.reverse

/-- The pieces between commas, trimmed, without the empty ones. -/
def commaList (s : List Char) : List (List Char) :=
  ((s.splitOn ',').map trim).filter (! List.isEmpty ·)

/-- What is left after `head` is what stands behind it. -/
theorem eq_append_of_after? {head s r : List Char} (h : after? head s = some r) :
    s = head ++ r := by
  induction head generalizing s with
  | nil => exact Option.some.inj h
  | cons a head ih =>
    cases s with
    | nil => cases h
    | cons c cs =>
      rw [after?] at h
      split at h
      next same => rw [ih h, beq_iff_eq.mp same, List.cons_append]
      next => cases h

end RouteDoc.Text
