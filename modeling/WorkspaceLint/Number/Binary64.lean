import WorkspaceLint.Number.Decimal

/-!
# Numbers of the format binary64

Fractions as the format binary64 keeps them, by exact arithmetic: a number is a whole number of fifty-three bits times a power
of two. `ofRatio` takes the number nearest to a quotient, and of two equally near ones the one whose last bit is zero.
-/

namespace WorkspaceLint.Number

/-- A number of the format binary64. -/
inductive Binary64 where
  /-- A whole number times a power of two, with a sign. -/
  | finite (negative : Bool) (mantissa : Nat) (exponent : Int)
  /-- A number past the greatest one. -/
  | infinite (negative : Bool)
  /-- No number. -/
  | nan
deriving DecidableEq

namespace Binary64

/-- The least power of two. -/
def leastExponent : Int := -1074

/-- The greatest power of two. -/
def greatestExponent : Int := 971

/-- Zero with a sign. -/
def zero (negative : Bool) : Binary64 := .finite negative 0 leastExponent

/-- The quotient of two numbers to the nearest whole number, and to the even one when two are equally near. -/
def roundQuotient (num den : Nat) : Nat :=
  let q := num / den
  let twice := 2 * (num % den)
  if twice > den ∨ (twice = den ∧ q % 2 = 1) then q + 1 else q

/-- A quotient times a power of two, as a quotient. -/
def scaleRatio (num den : Nat) (power : Int) : Nat × Nat :=
  (num * Nat.pow 2 power.toNat, den * Nat.pow 2 (-power).toNat)

/-- The greatest power of two that is not above a quotient of positive numbers. -/
def floorLog2 (num den : Nat) : Int :=
  let guess : Int := (Nat.log2 num : Int) - Nat.log2 den
  let (n, d) := scaleRatio num den (-guess)
  if d ≤ n then guess else guess - 1

/-- The number nearest to a quotient. -/
def ofRatio (negative : Bool) (num den : Nat) : Binary64 :=
  if num = 0 then zero negative else
    let exponent := max (floorLog2 num den - 52) leastExponent
    let (n, d) := scaleRatio num den (-exponent)
    let m := roundQuotient n d
    let (m, exponent) := if m = Nat.pow 2 53 then (Nat.pow 2 52, exponent + 1) else (m, exponent)
    if exponent > greatestExponent then .infinite negative else .finite negative m exponent

/-- The number nearest to a decimal fraction. Fractions far outside the range of the format are settled by their size alone. -/
def ofDecimal (negative : Bool) (d : Decimal) : Binary64 :=
  if d.digits = 0 then zero negative else
    let size := d.exponent + digitCount d.digits
    if size > 310 then .infinite negative
    else if size < -330 then zero negative
    else ofRatio negative (d.digits * Nat.pow 10 d.exponent.toNat) (Nat.pow 10 (-d.exponent).toNat)

/-- The number nearest to a whole number. -/
def ofNat (n : Nat) : Binary64 := ofRatio false n 1

/-- The size of a finite number as a quotient. -/
def ratio (mantissa : Nat) (exponent : Int) : Nat × Nat := scaleRatio mantissa 1 exponent

/-- A number with the other sign. -/
def neg : Binary64 → Binary64
  | .finite negative m e => .finite (!negative) m e
  | .infinite negative => .infinite (!negative)
  | .nan => .nan

/-- The product of two numbers. Zero times an infinite number is no number. -/
def mul : Binary64 → Binary64 → Binary64
  | .finite s m e, .finite t m' e' =>
    let (n, d) := ratio m e
    let (n', d') := ratio m' e'
    ofRatio (s != t) (n * n') (d * d')
  | .finite s m _, .infinite t => if m = 0 then .nan else .infinite (s != t)
  | .infinite s, .finite t m _ => if m = 0 then .nan else .infinite (s != t)
  | .infinite s, .infinite t => .infinite (s != t)
  | _, _ => .nan

/-- A whole number of a size with a sign. -/
def signed (negative : Bool) (size : Nat) : Int := if negative then -(size : Int) else size

/-- The sum of two numbers. A sum of zero is negative only when both numbers are. -/
def add : Binary64 → Binary64 → Binary64
  | .finite s m e, .finite t m' e' =>
    let (n, d) := ratio m e
    let (n', d') := ratio m' e'
    let total := signed s (n * d') + signed t (n' * d)
    ofRatio (if total = 0 then s && t else total < 0) total.natAbs (d * d')
  | .finite _ _ _, .infinite t => .infinite t
  | .infinite s, .finite _ _ _ => .infinite s
  | .infinite s, .infinite t => if s = t then .infinite s else .nan
  | _, _ => .nan

/-- Whether a number is zero, of either sign. -/
def isZero : Binary64 → Bool
  | .finite _ m _ => m == 0
  | _ => false

/-- The whole number that a number is. -/
def toInt? : Binary64 → Option Int
  | .finite negative m e =>
    let (n, d) := ratio m e
    if n % d = 0 then some (signed negative (n / d)) else none
  | _ => none

/-- Whether a number is neither past the greatest nor no number. -/
def isFinite : Binary64 → Bool
  | .finite .. => true
  | _ => false

end Binary64

end WorkspaceLint.Number
