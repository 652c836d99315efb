/-!
# Binary fractions

A finite double is `± m · 2 ^ q` with natural `m`; here it is taken apart into
those numbers and the other way round a quotient of naturals is rounded to the
nearest double, a tie going to the even neighbour. All arithmetic is exact.
-/

set_option autoImplicit false

namespace Conductor.Decimal

structure Parts where
  negative : Bool
  mantissa : Nat
  exponent : Int
  deriving DecidableEq, Repr

def signBit (x : Float) : Bool := Nat.pow 2 63 ≤ x.toBits.toNat

def parts? (x : Float) : Option Parts :=
  let bits : Nat := x.toBits.toNat
  let fraction : Nat := bits % Nat.pow 2 52
  let field : Nat := bits / Nat.pow 2 52 % Nat.pow 2 11
  if field = 2047 then none
  else if field = 0 then some ⟨signBit x, fraction, -1074⟩
  else some ⟨signBit x, Nat.pow 2 52 + fraction, (field : Int) - 1075⟩

def ofMagnitudeBits (negative : Bool) (bits : Nat) : Float :=
  Float.ofBits (UInt64.ofNat (if negative then Nat.pow 2 63 + bits else bits))

def infinityBits : Nat := 2047 * Nat.pow 2 52

def roundDiv (num den : Nat) : Nat :=
  let q := num / den
  let r := num % den
  if 2 * r > den || (2 * r == den && q % 2 == 1) then q + 1 else q

/-- The magnitude bits of the double nearest to `num / den`; those of infinity when it is too large. -/
def quotientBits (num den : Nat) : Nat :=
  if num = 0 ∨ den = 0 then 0 else
    let guess : Int := (Nat.log2 num : Int) - (Nat.log2 den : Int) - 52
    -- the exponent for which the quotient has 53 binary places, or the least one there is
    let fits : Bool :=
      if guess ≥ 0 then den * Nat.pow 2 (guess.toNat + 52) ≤ num
      else den * Nat.pow 2 52 ≤ num * Nat.pow 2 (-guess).toNat
    let q : Int := max (if fits then guess else guess - 1) (-1074)
    let m := if q ≥ 0 then roundDiv num (den * Nat.pow 2 q.toNat) else roundDiv (num * Nat.pow 2 (-q).toNat) den
    min ((q + 1074).toNat * Nat.pow 2 52 + m) infinityBits

def ofQuotient (negative : Bool) (num den : Nat) : Float :=
  ofMagnitudeBits negative (quotientBits num den)

def ofInt? (n : Int) : Option Float :=
  let bits := quotientBits n.natAbs 1
  if bits = infinityBits then none else some (ofMagnitudeBits (n < 0) bits)

def Parts.truncated (p : Parts) : Int :=
  let size : Nat := if p.exponent ≥ 0 then p.mantissa * Nat.pow 2 p.exponent.toNat
    else p.mantissa / Nat.pow 2 (-p.exponent).toNat
  if p.negative then -(size : Int) else size

def Parts.isWhole (p : Parts) : Bool :=
  p.exponent ≥ 0 || p.mantissa % Nat.pow 2 (-p.exponent).toNat == 0

def Parts.compareInt (p : Parts) (n : Int) : Ordering :=
  let signed : Int := if p.negative then -(p.mantissa : Int) else p.mantissa
  if p.exponent ≥ 0 then compare (signed * Int.pow 2 p.exponent.toNat) n
  else compare signed (n * Int.pow 2 (-p.exponent).toNat)

/-- The remainder of two magnitudes, exactly; the result takes the sign of the dividend. -/
def Parts.remainder (a b : Parts) : Float :=
  let e := min a.exponent b.exponent
  let x := a.mantissa * Nat.pow 2 (a.exponent - e).toNat
  let y := b.mantissa * Nat.pow 2 (b.exponent - e).toNat
  let r := x % y
  if e ≥ 0 then ofQuotient a.negative (r * Nat.pow 2 e.toNat) 1 else ofQuotient a.negative r (Nat.pow 2 (-e).toNat)

end Conductor.Decimal
