import WorkspaceLint.Number.Binary64

/-!
# The shortest decimal of a number

A number of the format binary64 is written with the fewest digits that read back as it, and with the digits nearest to it among
those. Sizes from a ten thousandth to below ten to the sixteenth are written positionally, others with an exponent.
-/

namespace WorkspaceLint.Number

namespace Decimal

/-- Whether a decimal is at most a whole number times a power of two. -/
def leBinary (d : Decimal) (m : Nat) (e : Int) : Bool :=
  d.digits * Nat.pow 10 d.exponent.toNat * Nat.pow 2 (-e).toNat ≤ m * Nat.pow 2 e.toNat * Nat.pow 10 (-d.exponent).toNat

/-- Whether a decimal is at least a whole number times a power of two. -/
def geBinary (d : Decimal) (m : Nat) (e : Int) : Bool :=
  m * Nat.pow 2 e.toNat * Nat.pow 10 (-d.exponent).toNat ≤ d.digits * Nat.pow 10 d.exponent.toNat * Nat.pow 2 (-e).toNat

/-- The distance of a decimal from a whole number times a power of two, on the grid that both lie on. -/
def distance (d : Decimal) (m : Nat) (e : Int) : Nat :=
  let a := d.digits * Nat.pow 10 d.exponent.toNat * Nat.pow 2 (-e).toNat
  let b := m * Nat.pow 2 e.toNat * Nat.pow 10 (-d.exponent).toNat
  (a - b) + (b - a)

/-- A decimal without zeros at its end. The bound is on how many are dropped. -/
def dropZeros : Nat → Decimal → Decimal
  | 0, d => d
  | bound + 1, d => if d.digits % 10 = 0 then dropZeros bound ⟨d.digits / 10, d.exponent + 1⟩ else d

end Decimal

namespace Binary64

/-- Whether a decimal reads back as the finite number of a mantissa and an exponent: it lies between the halfway points to the
neighbours, the points themselves being taken when the mantissa is even. -/
def readsBack (m : Nat) (e : Int) (d : Decimal) : Bool :=
  let gapBelow := if m = Nat.pow 2 52 ∧ leastExponent < e then 1 else 2
  let below := 4 * m - gapBelow
  let above := 4 * m + 2
  let closed := m % 2 = 0
  d.geBinary below (e - 2) && d.leBinary above (e - 2) &&
    (closed || (!d.leBinary below (e - 2) && !d.geBinary above (e - 2)))

/-- The greatest power of ten that is not above a positive quotient. -/
def floorLog10 (num den : Nat) : Int :=
  let guess : Int := (digitCount num : Int) - digitCount den
  if den * Nat.pow 10 guess.toNat ≤ num * Nat.pow 10 (-guess).toNat then guess else guess - 1

/-- Of the two neighbours of a number on the grid of decimals with a given exponent, those that read back, nearest first. -/
def gridNeighbours (m : Nat) (e : Int) (exponent : Int) : List Decimal :=
  let (n, d) := ratio m e
  let floor := n * Nat.pow 10 (-exponent).toNat / (d * Nat.pow 10 exponent.toNat)
  let low : Decimal := ⟨floor, exponent⟩
  let high : Decimal := ⟨floor + 1, exponent⟩
  let nearLow := low.distance m e
  let nearHigh := high.distance m e
  let lowFirst := nearLow < nearHigh || (nearLow == nearHigh && floor % 2 == 0)
  (if lowFirst then [low, high] else [high, low]).filter (readsBack m e)

/-- The shortest decimal that reads back, looked for from a number of digits on; the bound is on how often one digit more is
tried. -/
def shortestFrom (m : Nat) (e : Int) (lead : Int) : Nat → Nat → Decimal
  | 0, digits => ⟨0, lead - digits⟩
  | bound + 1, digits =>
    match gridNeighbours m e (lead + 1 - digits) with
    | d :: _ => d
    | [] => shortestFrom m e lead bound (digits + 1)

/-- The shortest decimal that reads back as a positive finite number. -/
def shortest (m : Nat) (e : Int) : Decimal :=
  let (n, d) := ratio m e
  (shortestFrom m e (floorLog10 n d) 17 1).dropZeros 17

/-- The digits of an exponent, two at least, after its sign. -/
def exponentText (n : Int) : String :=
  (if n < 0 then "-" else "+") ++ (if n.natAbs < 10 then "0" else "") ++ toString n.natAbs

/-- A positive decimal as text: positional when its first digit stands between the fourth place after the point and the
sixteenth before it, and with an exponent otherwise. -/
def decimalText (d : Decimal) : String :=
  let digits := Nat.toDigits 10 d.digits
  let point := d.exponent + digits.length
  if -3 ≤ point ∧ point ≤ 16 then
    if point ≤ 0 then "0." ++ String.ofList (List.replicate (-point).toNat '0' ++ digits)
    else if digits.length ≤ point.toNat then
      String.ofList (digits ++ List.replicate (point.toNat - digits.length) '0') ++ ".0"
    else String.ofList (digits.take point.toNat) ++ "." ++ String.ofList (digits.drop point.toNat)
  else
    String.ofList (digits.take 1) ++
      (if digits.length = 1 then "" else "." ++ String.ofList (digits.drop 1)) ++ "e" ++ exponentText (point - 1)

/-- A number as text. -/
def text : Binary64 → String
  | .finite negative m e =>
    (if negative then "-" else "") ++ (if m = 0 then "0.0" else decimalText (shortest m e))
  | .infinite negative => if negative then "-inf" else "inf"
  | .nan => "nan"

end Binary64

end WorkspaceLint.Number
