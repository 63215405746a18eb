import RouteDoc.Number.Digits

/-!
# Dates

A day of the calendar, written year first. A year from 0 to 9999 has four digits; any other year has
a sign and at least four.
-/

set_option autoImplicit false

namespace RouteDoc

/-- A day of the calendar. -/
structure Date where
  /-- The year, with a year zero. -/
  year : Int
  /-- The month, from one. -/
  month : Nat
  /-- The day of the month, from one. -/
  day : Nat
deriving DecidableEq, Repr

namespace Date

/-- A numeral with zeros in front up to a width. -/
def padded (width n : Nat) : List Char :=
  let ds := Number.decimalText n
  List.replicate (width - ds.length) '0' ++ ds

/-- The text of a date: year, month and day with dashes between. -/
def text (d : Date) : String :=
  let sign : List Char :=
    if d.year < 0 then ['-'] else if 9999 < d.year then ['+'] else []
  String.ofList (sign ++ padded 4 d.year.natAbs ++ '-' :: padded 2 d.month ++ '-' :: padded 2 d.day)

end Date

end RouteDoc
