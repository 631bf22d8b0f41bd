/-!
# How long a whole number may be

A whole number of base ten that is read from a text has at most a fixed number of digits, leading zeros among them. One that is
written has no more either.
-/

namespace WorkspaceLint.Number

/-- The greatest number of digits. -/
def maxDigits : Nat := 4300

/-- The message for a whole number of too many digits. -/
def tooLongMessage (digits : Nat) : String :=
  "Exceeds the limit (" ++ toString maxDigits ++ " digits) for integer string conversion: value has " ++
    toString digits ++ " digits; use sys.set_int_max_str_digits() to increase the limit"

/-- Whether a whole number has few enough digits to be written. -/
def isWritable (n : Int) : Bool := n.natAbs < Nat.pow 10 maxDigits

/-- The message for a whole number that has too many digits to be written. -/
def unwritableMessage : String :=
  "Exceeds the limit (" ++ toString maxDigits ++
    " digits) for integer string conversion; use sys.set_int_max_str_digits() to increase the limit"

end WorkspaceLint.Number
