/-!
# Decimals and the exact value of a double

A finite double is exactly `mantissa · 2 ^ exponent`. Everything here is a statement about that
rational number: its quotient by a power of ten, the decade it lies in, and its rounding to a
decimal grid, all in exact integer arithmetic.
-/

namespace RateCurves

/-- The magnitude `mantissa · 2 ^ exponent` of a finite double. -/
structure BinaryValue where
  mantissa : Nat
  exponent : Int
  deriving DecidableEq, Repr

/-- The magnitude `digits · 10 ^ exponent`. -/
structure Decimal where
  digits : Nat
  exponent : Int
  deriving DecidableEq, Repr

/-- `num / den` rounded to the nearest whole number, an exact half to the even neighbour. -/
def roundHalfEven (num den : Nat) : Nat :=
  let q := num / den
  let r := num % den
  if 2 * r < den then q
  else if den < 2 * r then q + 1
  else q + q % 2

namespace BinaryValue

/-- The mantissas of full length start here: `2 ^ 52`. -/
def fullMantissa : Nat := 4503599627370496

/-- The magnitude encoded in the low 63 bits of a finite double. -/
def ofBits (bits : Nat) : BinaryValue :=
  let fraction : Nat := bits % fullMantissa
  let biased : Nat := bits / fullMantissa % 2048
  if biased = 0 then ⟨fraction, -1074⟩ else ⟨fraction + fullMantissa, (biased : Int) - 1075⟩

/-- The numerator that one unit of the mantissa contributes to `value / 10 ^ grid`. -/
def unit (x : BinaryValue) (grid : Int) : Nat :=
  Nat.pow 2 x.exponent.toNat * Nat.pow 10 (-grid).toNat

def numerator (x : BinaryValue) (grid : Int) : Nat :=
  x.mantissa * x.unit grid

def denominator (x : BinaryValue) (grid : Int) : Nat :=
  Nat.pow 2 (-x.exponent).toNat * Nat.pow 10 grid.toNat

def belowPowerOfTen (x : BinaryValue) (e : Int) : Bool :=
  x.numerator e < x.denominator e

/-- The least `e` with `value < 10 ^ e`, for a positive value: the first candidate comes from the
binary logarithm, and the answer is it or one of its two successors. -/
def decade (x : BinaryValue) : Int :=
  let guess := (x.mantissa.log2 + x.exponent) * 30103 / 100000
  if x.belowPowerOfTen guess then guess
  else if x.belowPowerOfTen (guess + 1) then guess + 1
  else guess + 2

/-- The value rounded to a multiple of `10 ^ grid`, ties to even. -/
def roundTo (x : BinaryValue) (grid : Int) : Decimal :=
  ⟨roundHalfEven (x.numerator grid) (x.denominator grid), grid⟩

def roundSignificant (x : BinaryValue) (n : Nat) : Decimal :=
  if x.mantissa = 0 then ⟨0, 0⟩ else x.roundTo (x.decade - n)

end BinaryValue

namespace Decimal

/-- The same value without trailing zeros among its digits. -/
def trim (d : Decimal) : Decimal :=
  if h : d.digits ≠ 0 ∧ d.digits % 10 = 0 then trim ⟨d.digits / 10, d.exponent + 1⟩ else d
termination_by d.digits
decreasing_by
  exact Nat.div_lt_self (Nat.pos_of_ne_zero h.1) (by decide)

end Decimal

end RateCurves
