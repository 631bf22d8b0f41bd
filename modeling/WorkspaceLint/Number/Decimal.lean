/-!
# Decimal digits

Whole numbers as lists of decimal digits, and decimal fractions as a whole number and a power of ten.
-/

namespace WorkspaceLint.Number

/-- A whole number times a power of ten. -/
structure Decimal where
  /-- The digits, read as one whole number. -/
  digits : Nat
  /-- The power of ten. -/
  exponent : Int
deriving DecidableEq

/-- A digit of base ten. -/
def isDigit (c : Char) : Bool := '0' ≤ c && c ≤ '9'

/-- The value of a digit of base ten. -/
def digitValue (c : Char) : Nat := c.toNat - 48

/-- The number that a list of digits of some base writes, each digit below the base. -/
def ofDigits (base : Nat) (ds : List Nat) : Nat := ds.foldl (fun n d => n * base + d) 0

/-- The number that a list of decimal digits writes. -/
def ofDecimalDigits (ds : List Char) : Nat := ofDigits 10 (ds.map digitValue)

/-- How many decimal digits a number has. -/
def digitCount (n : Nat) : Nat := (Nat.toDigits 10 n).length

end WorkspaceLint.Number
