import RateCurves.Decimal.Text
import RateCurves.InterestRate.Basic

/-!
# The text of a rate

The rate in percent with four decimals, its day count and its convention, and the frequency for the
conventions that use one: `5.0000% Actual/365 (Fixed) Compounded Annual`.
-/

namespace RateCurves.InterestRate

/-- The text of a rate. -/
def text (ir : InterestRate Float) : String :=
  s!"{fixedText 4 (ir.rate * 100.0)}% {ir.dayCount.name} {ir.compounding.name}" ++
    (if ir.compounding.usesFrequency then " " ++ ir.frequency.text else "")

end RateCurves.InterestRate
