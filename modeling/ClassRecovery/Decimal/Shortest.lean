/-
  The shortest decimal that reads back as a given double.

  A positive double is `m · 2^q`.  The reals that round to it form an interval around it,
  with its ends exactly when `m` is even.  For 1, 2, … digits the two neighbours of the
  double on the grid of that many digits are tested for lying in the interval; the first grid with a
  hit wins, and of two hits the nearer one.  Between two that are equally near a rule decides
  (`TieRule`).
-/

namespace ClassRecovery

/-- `digits · 10^exponent`. -/
structure Decimal where
  digits : Nat
  exponent : Int
  deriving DecidableEq, Repr

/-- Which of two equally near decimals is taken. -/
inductive TieRule where
  /-- The larger one. -/
  | upper
  /-- The one whose last digit is even. -/
  | even
  deriving DecidableEq, Repr

/-- Whether a double halfway between `below` and `below + 1` becomes `below`. -/
def TieRule.picksBelow (rule : TieRule) (below : Nat) : Bool :=
  match rule with
  | .upper => false
  | .even => below % 2 = 0

namespace Decimal

/-- A positive rational number. -/
structure Ratio where
  num : Nat
  den : Nat

/-- `n · b^e`. -/
def Ratio.scaled (n b : Nat) (e : Int) : Ratio :=
  match e with
  | .ofNat k => ⟨n * b.pow k, 1⟩
  | .negSucc k => ⟨n, b.pow (k + 1)⟩

def Ratio.lt (x y : Ratio) : Bool := x.num * y.den < y.num * x.den

def Ratio.le (x y : Ratio) : Bool := x.num * y.den ≤ y.num * x.den

/-- The distance of two numbers. -/
def Ratio.distance (x y : Ratio) : Ratio :=
  let a := x.num * y.den
  let b := y.num * x.den
  ⟨(a - b) + (b - a), x.den * y.den⟩

/-- A finite positive double as `mantissa · 2^exponent`, and whether the double below it
    is only half as far away as the one above. -/
structure Binary where
  mantissa : Nat
  exponent : Int
  narrowBelow : Bool

/-- The parts of the finite double with the given bits, its sign left out. -/
def Binary.ofBits (bits : Nat) : Binary :=
  let fraction : Nat := bits % 0x10000000000000
  let biased : Nat := bits / 0x10000000000000 % 2048
  if biased = 0 then ⟨fraction, -1074, false⟩
  else ⟨0x10000000000000 + fraction, (biased : Int) - 1075, fraction = 0 && biased ≠ 1⟩

namespace Binary

def value (b : Binary) : Ratio := .scaled b.mantissa 2 b.exponent

/-- The lower end of the numbers that round to the double. -/
def lower (b : Binary) : Ratio :=
  .scaled (4 * b.mantissa - (if b.narrowBelow then 1 else 2)) 2 (b.exponent - 2)

/-- The upper end of the numbers that round to the double. -/
def upper (b : Binary) : Ratio := .scaled (4 * b.mantissa + 2) 2 (b.exponent - 2)

/-- Whether a number rounds to the double. -/
def covers (b : Binary) (x : Ratio) : Bool :=
  if b.mantissa % 2 = 0 then b.lower.le x && x.le b.upper else b.lower.lt x && x.lt b.upper

end Binary

/-- How many places `x < 1` has to move to the left until it is at least 1. -/
def leadingPlaces (num den : Nat) : Nat → Nat
  | 0 => 0
  | fuel + 1 => if den ≤ num then 0 else leadingPlaces (10 * num) den fuel + 1

/-- The position of the first digit: the least `p` with `x < 10^p`. -/
def magnitude (x : Ratio) : Int :=
  if x.den ≤ x.num then ((Nat.toDigits 10 (x.num / x.den)).length : Int)
  else 1 - (leadingPlaces x.num x.den 400 : Int)

/-- The decimal of `count` digits nearest to the double, if one of that many digits reads back as it. -/
def withDigits? (ties : TieRule) (b : Binary) (count : Nat) : Option Decimal :=
  let x := b.value
  let exponent := magnitude x - (count : Int)
  let unit := Ratio.scaled 1 10 exponent
  let below := x.num * unit.den / (x.den * unit.num)
  let at_ (n : Nat) : Ratio := ⟨n * unit.num, unit.den⟩
  let lowFits := b.covers (at_ below)
  let highFits := b.covers (at_ (below + 1))
  let toLow := x.distance (at_ below)
  let toHigh := x.distance (at_ (below + 1))
  let lowIsNearer := toLow.lt toHigh || toLow.le toHigh && ties.picksBelow below
  if lowFits && (!highFits || lowIsNearer) then
    some ⟨below, exponent⟩
  else if highFits then
    some (if below + 1 = Nat.pow 10 count then ⟨1, exponent + count⟩ else ⟨below + 1, exponent⟩)
  else none

/-- The shortest decimal that reads back as the finite positive double with the given bits. -/
def shortest (ties : TieRule) (bits : Nat) : Decimal :=
  let b := Binary.ofBits bits
  ((List.range 17).findSome? fun i => withDigits? ties b (i + 1)).getD ⟨b.mantissa, 0⟩

end Decimal

end ClassRecovery
