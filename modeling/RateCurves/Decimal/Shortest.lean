import RateCurves.Decimal.Basic

/-!
# The shortest decimal of a double

Among the decimals that read back as a given double, the one with the fewest digits, and of those
the nearest. The doubles that surround a value leave it an interval of reals that round to it; a
decimal reads back exactly if it lies there. On each decimal grid only the two neighbours of the
value need a test.
-/

namespace RateCurves

namespace BinaryValue

/-- `candidate · 10 ^ grid` reads back as this double: it lies between the midpoints to the
neighbouring doubles, the midpoints included if the mantissa is even. Below a power of two the
neighbour is half as far. -/
def readsBack (x : BinaryValue) (grid : Int) (candidate : Nat) : Bool :=
  let unit := x.unit grid
  let below := if x.mantissa = fullMantissa ∧ -1074 < x.exponent then 1 else 2
  let low := (4 * x.mantissa - below) * unit
  let high := (4 * x.mantissa + 2) * unit
  let point := 4 * candidate * x.denominator grid
  if x.mantissa % 2 = 0 then low ≤ point && point ≤ high else low < point && point < high

/-- The neighbour of the value on the grid `10 ^ grid` that reads back, the nearer one if both do,
and the upper one of two equally near. -/
def neighbour? (x : BinaryValue) (grid : Int) : Option Decimal :=
  let den := x.denominator grid
  let floor := x.numerator grid / den
  let rest := x.numerator grid % den
  match x.readsBack grid floor, x.readsBack grid (floor + 1) with
  | true, true => some ⟨if 2 * rest < den then floor else floor + 1, grid⟩
  | true, false => some ⟨floor, grid⟩
  | false, true => some ⟨floor + 1, grid⟩
  | false, false => none

/-- The shortest decimal that reads back as this double; seventeen digits always do. -/
def shortest (x : BinaryValue) : Decimal :=
  if x.mantissa = 0 then ⟨0, 0⟩
  else
    let decade := x.decade
    let found := (List.range 17).findSome? fun n : Nat => x.neighbour? (decade - (n + 1))
    (found.getD (x.roundSignificant 17)).trim

end BinaryValue

end RateCurves
