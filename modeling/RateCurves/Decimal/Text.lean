import RateCurves.Decimal.Shortest

/-!
# Number texts

How the chosen digits are laid out: `NumberStyle` holds the decisions of a layout, and the three
styles in use are its values `plain`, `listed` and `scientific`. `fixedText` writes a set number of
places instead, rounded from the exact value.
-/

namespace RateCurves

/-- The parts of a double: its sign and what it is without it. -/
inductive Magnitude where
  | nan
  | infinite
  | finite (value : BinaryValue)

/-- The place of the sign bit among the bits of a double: `2 ^ 63`. -/
def signPlace : Nat := 9223372036854775808

def signBit (x : Float) : Bool :=
  signPlace ≤ x.toBits.toNat

def magnitude (x : Float) : Magnitude :=
  if x.isNaN then .nan
  else if x.isInf then .infinite
  else .finite (.ofBits (x.toBits.toNat % signPlace))

structure NumberStyle where
  /-- The exponents of the leading digit that are written without an exponent mark. -/
  positional : Int → Bool
  /-- What follows the digits of a whole number in positional form. -/
  wholeSuffix : String

namespace NumberStyle

/-- Positional always, whole numbers bare: `0.0000001`, `1`. -/
def plain : NumberStyle := ⟨fun _ => true, ""⟩

/-- Positional from `0.0001` up to below `1e16`, whole numbers with a fraction: `1e-7`, `1.0`. -/
def listed : NumberStyle := ⟨fun e => decide (-4 ≤ e ∧ e < 16), ".0"⟩

/-- Always with an exponent: `1e0`, `-2.5e-3`. -/
def scientific : NumberStyle := ⟨fun _ => false, ""⟩

/-- The digits with the point after the first `lead` of them, zeros filled in on either side. -/
def positionalText (style : NumberStyle) (digits : String) (lead : Int) : String :=
  let zeros (n : Int) := "".pushn '0' n.toNat
  if lead ≤ 0 then "0." ++ zeros (-lead) ++ digits
  else if digits.length ≤ lead then digits ++ zeros (lead - digits.length) ++ style.wholeSuffix
  else
    let chars := digits.toList
    String.ofList (chars.take lead.toNat) ++ "." ++ String.ofList (chars.drop lead.toNat)

/-- One digit before the point, the others behind it, then the exponent. -/
def exponentText (digits : String) (exponent : Int) : String :=
  let fraction := String.ofList (digits.toList.drop 1)
  String.ofList (digits.toList.take 1) ++ (if fraction.isEmpty then "" else "." ++ fraction) ++
    "e" ++ toString exponent

def decimalText (style : NumberStyle) (d : Decimal) : String :=
  let digits := toString d.digits
  let lead := d.exponent + digits.length
  if style.positional (lead - 1) then style.positionalText digits lead
  else exponentText digits (lead - 1)

/-- The shortest text of `x` that reads back, in the given style. -/
def text (style : NumberStyle) (x : Float) : String :=
  match magnitude x with
  | .nan => "NaN"
  | .infinite => if signBit x then "-inf" else "inf"
  | .finite value => (if signBit x then "-" else "") ++ style.decimalText value.shortest

/-- Numbers in brackets, parted by commas. -/
def listText (style : NumberStyle) (xs : List Float) : String :=
  "[" ++ String.intercalate ", " (xs.map style.text) ++ "]"

end NumberStyle

/-- The text of `x` with exactly `places` decimals, rounded from its exact value. -/
def fixedText (places : Nat) (x : Float) : String :=
  match magnitude x with
  | .nan => "NaN"
  | .infinite => if signBit x then "-inf" else "inf"
  | .finite value =>
    let digits := toString (value.roundTo (-places)).digits
    let padded := ("".pushn '0' (places + 1 - digits.length) ++ digits).toList
    let whole := padded.length - places
    (if signBit x then "-" else "") ++ String.ofList (padded.take whole) ++
      (if places = 0 then "" else "." ++ String.ofList (padded.drop whole))

end RateCurves
