/-
  The value of a JSON number.

  A number without fraction and exponent is an integer if it fits a signed or unsigned word.
  Every other number is a double: the digits are read into a word as long as they fit, the
  digits after that only count as powers of ten, and the word is multiplied or divided
  once by the power of ten that is left.
-/
import ClassRecovery.Json.Value

namespace ClassRecovery.Json

/-- A number as it is spelled: sign, whole digits, digits of the fraction, exponent. -/
structure Numeral where
  negative : Bool
  whole : List Nat
  fraction : Option (List Nat)
  /-- Whether the exponent is negative, and its digits. -/
  exponent : Option (Bool × List Nat)

/-- A word that takes in digits, and how many digits it took. -/
structure Significand where
  value : Nat
  taken : Nat

/-- Takes in digits until the next one would leave the range of a word. -/
def Significand.absorb (s : Significand) : List Nat → Significand
  | [] => s
  | d :: rest =>
    if s.value * 10 + d < UInt64.size then
      Significand.absorb ⟨s.value * 10 + d, s.taken + 1⟩ rest
    else s

/-- `10^k`, for an exponent that has a double. -/
def powerOfTen (k : Nat) : Float := Float.ofScientific 1 false k

/-- `x · 10^e`, if it is finite.  Divisors beyond the range of a double are split. -/
def scale (x : Float) (e : Int) : Nat → Option Float
  | 0 => some x
  | fuel + 1 =>
    if e.natAbs ≤ 308 then
      if 0 ≤ e then
        let y := x * powerOfTen e.toNat
        if y.isInf then none else some y
      else some (x / powerOfTen e.natAbs)
    else if x == 0 then some x
    else if 0 ≤ e then none
    else scale (x / powerOfTen 308) (e + 308) fuel

/-- The value of a list of decimal digits. -/
def digitsValue (digits : List Nat) : Nat := digits.foldl (fun n d => n * 10 + d) 0

/-- The double of a number with a fraction, an exponent, or too many digits. -/
def Numeral.toFloat? (n : Numeral) : Option Float :=
  let whole := (⟨0, 0⟩ : Significand).absorb n.whole
  let all := (⟨whole.value, 0⟩ : Significand).absorb (n.fraction.getD [])
  let start : Int := ((n.whole.length - whole.taken : Nat) : Int) - (all.taken : Int)
  let signed (x : Float) : Float := if n.negative then -x else x
  let base := (UInt64.ofNat all.value).toFloat
  match n.exponent with
  | none => (scale base start 8).map signed
  | some (down, digits) =>
    let e := digitsValue digits
    if 0x80000000 ≤ e then
      if all.value ≠ 0 ∧ !down then none else some (signed 0)
    else (scale base (start + if down then -(e : Int) else (e : Int)) 8).map signed

/-- The value of a number. -/
def Numeral.value (n : Numeral) : Json :=
  let size := digitsValue n.whole
  let isWhole := n.fraction.isNone && n.exponent.isNone
  if isWhole && !n.negative && size < UInt64.size then .int size
  else if isWhole && n.negative && 0 < size && size ≤ 0x8000000000000000 then .int (-size)
  else match n.toFloat? with
    | some x => .float x
    | none => .unreadable

end ClassRecovery.Json
