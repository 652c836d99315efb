import Conductor.Decimal.Binary

/-!
# Decimal digits of a double

Two choices of digits for a finite double that is not zero: the fewest that
read back as the same double (of those the nearest), and a set number of
significant digits correctly rounded. A result `(digits, point)` stands for
`0.digits · 10 ^ point`.
-/

set_option autoImplicit false

namespace Conductor.Decimal

structure Digits where
  digits : List Char
  point : Int
  deriving DecidableEq, Repr

def compareScaled (d : Nat) (e : Int) (m : Nat) (q : Int) : Ordering :=
  let left := (if e ≥ 0 then d * Nat.pow 10 e.toNat else d) * (if q < 0 then Nat.pow 2 (-q).toNat else 1)
  let right := (if q ≥ 0 then m * Nat.pow 2 q.toNat else m) * (if e < 0 then Nat.pow 10 (-e).toNat else 1)
  compare left right

/-- The doubles' rounding interval around `m · 2 ^ q`, at four times the scale: its ends and whether
they belong to it. Below a power of two the gap is half as wide. -/
def roundsTo (m : Nat) (q : Int) (d : Nat) (e : Int) : Bool :=
  let low := if m = Nat.pow 2 52 ∧ q > -1074 then 4 * m - 1 else 4 * m - 2
  let inclusive := m % 2 == 0
  let above := match compareScaled d e low (q - 2) with
    | .gt => true
    | .eq => inclusive
    | .lt => false
  let below := match compareScaled d e (4 * m + 2) (q - 2) with
    | .lt => true
    | .eq => inclusive
    | .gt => false
  above && below

def magnitudeFrom (m : Nat) (q : Int) : Nat → Int → Int
  | 0, k => k
  | fuel + 1, k => if compareScaled 1 k m q == .gt then magnitudeFrom m q fuel (k - 1) else k

/-- The decimal exponent of the leading digit. The binary length gives a start that is at most two
too large. -/
def magnitude (m : Nat) (q : Int) : Int :=
  let bits : Int := (Nat.log2 m : Int) + q
  magnitudeFrom m q 4 (bits * 30103 / 100000 + 1)

def scaled (m : Nat) (q e : Int) : Nat × Nat :=
  ((if q ≥ 0 then m * Nat.pow 2 q.toNat else m) * (if e < 0 then Nat.pow 10 (-e).toNat else 1),
   (if q < 0 then Nat.pow 2 (-q).toNat else 1) * (if e ≥ 0 then Nat.pow 10 e.toNat else 1))

/-- The grid of decimals with `count` digits: the neighbour that reads back, if one does. -/
def onGrid (m : Nat) (q e : Int) : Option Nat :=
  let (num, den) := scaled m q e
  let low := num / den
  let high := low + 1
  let lowFits := low > 0 && roundsTo m q low e
  let highFits := roundsTo m q high e
  match lowFits, highFits with
  | true, true => some (roundDiv num den)
  | true, false => some low
  | false, true => some high
  | false, false => none

def shortestFrom (m : Nat) (q k : Int) : Nat → Nat → Nat × Int
  | 0, _ => (m, q)
  | fuel + 1, count =>
    let e := k - (count : Int) + 1
    match onGrid m q e with
    | some d => (d, e)
    | none => shortestFrom m q k fuel (count + 1)

def dropTrailingZeros (ds : List Char) : List Char :=
  (ds.reverse.dropWhile (· == '0')).reverse

def Digits.ofScaled (d : Nat) (e : Int) : Digits :=
  let ds := Nat.toDigits 10 d
  ⟨dropTrailingZeros ds, (ds.length : Int) + e⟩

def shortest (m : Nat) (q : Int) : Digits :=
  let (d, e) := shortestFrom m q (magnitude m q) 18 1
  Digits.ofScaled d e

def significant (count m : Nat) (q : Int) : Digits :=
  let e := magnitude m q - (count : Int) + 1
  let (num, den) := scaled m q e
  Digits.ofScaled (roundDiv num den) e

end Conductor.Decimal
