/-
  Decimal text of doubles.

  Numbers in a middle range are written positionally, with at least one digit on each
  side of the point; all others with one digit before the point and an exponent.  Where the middle range
  begins, and which of two equally near decimals stands for a double, depends on the purpose
  (`DecimalStyle`).
-/
import ClassRecovery.Decimal.Shortest

namespace ClassRecovery

/-- How doubles are written. -/
structure DecimalStyle where
  /-- Written positionally are the numbers below `10^16` with at most so many zeros between the
      point and the first digit. -/
  leadingZeros : Nat
  ties : TieRule

/-- Settings in messages: positional from `10^-4` on. -/
def DecimalStyle.message : DecimalStyle := ⟨3, .upper⟩

/-- Numbers in JSON text: positional from `10^-5` on. -/
def DecimalStyle.json : DecimalStyle := ⟨4, .even⟩

/-- The text of a positive decimal. -/
def Decimal.text (style : DecimalStyle) (d : Decimal) : String :=
  let digits := Nat.toDigits 10 d.digits
  -- the number is `0.digits · 10^point`
  let point : Int := (digits.length : Int) + d.exponent
  if -(style.leadingZeros : Int) ≤ point ∧ point ≤ 16 then
    if point ≤ 0 then
      "0." ++ String.ofList (List.replicate point.natAbs '0' ++ digits)
    else
      let whole := digits.take point.natAbs
      let rest := digits.drop point.natAbs
      let pad := List.replicate (point.natAbs - digits.length) '0'
      String.ofList (whole ++ pad) ++ "." ++ (if rest.isEmpty then "0" else String.ofList rest)
  else
    let rest := digits.drop 1
    String.ofList (digits.take 1) ++ (if rest.isEmpty then "" else "." ++ String.ofList rest) ++
      "e" ++ toString (point - 1)

/-- The text of a double. -/
def floatText (style : DecimalStyle) (x : Float) : String :=
  let bits := x.toBits.toNat
  let sign := if bits < 0x8000000000000000 then "" else "-"
  let size := bits % 0x8000000000000000
  if size = 0 then sign ++ "0.0"
  else if 0x7FF0000000000000 < size then "NaN"
  else if size = 0x7FF0000000000000 then sign ++ "inf"
  else sign ++ (Decimal.shortest style.ties size).text style

end ClassRecovery
