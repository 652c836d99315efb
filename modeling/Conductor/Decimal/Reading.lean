import Conductor.Decimal.Binary
import Conductor.Text.Property

/-!
# Reading decimals

A numeral has an optional sign, digits with an optional point, and an optional
exponent; digits may be of any script. A decimal is read as the nearest double.
Exponents far outside the range of doubles are settled by the number of digits
alone, so that no huge power is computed.
-/

set_option autoImplicit false

namespace Conductor.Decimal

structure Scientific where
  negative : Bool
  mantissa : Nat
  exponent : Int
  deriving DecidableEq, Repr

def naturalFrom (n : Nat) : List Char → Option Nat
  | [] => some n
  | c :: rest =>
    match Text.decimalValue? c with
    | some d => naturalFrom (n * 10 + d) rest
    | none => none

def natural? (cs : List Char) : Option Nat :=
  if cs.isEmpty then none else naturalFrom 0 cs

def Scientific.toFloat (d : Scientific) : Float :=
  if d.mantissa = 0 then ofMagnitudeBits d.negative 0 else
    let lead : Int := (Nat.log2 d.mantissa : Int) * 30103 / 100000 + d.exponent
    if lead > 400 then ofMagnitudeBits d.negative infinityBits
    else if lead < -400 then ofMagnitudeBits d.negative 0
    else if d.exponent ≥ 0 then ofQuotient d.negative (d.mantissa * Nat.pow 10 d.exponent.toNat) 1
    else ofQuotient d.negative d.mantissa (Nat.pow 10 (-d.exponent).toNat)

/-- The two spans of a text before and after the first character that `p` refuses. -/
def spanDigits (p : Char → Bool) (cs : List Char) : List Char × List Char :=
  (cs.takeWhile p, cs.dropWhile p)

def takeSign : List Char → Bool × List Char
  | '-' :: rest => (true, rest)
  | '+' :: rest => (false, rest)
  | rest => (false, rest)

/-- The exponent part of a numeral: its value and what follows; no exponent is the exponent zero. -/
def takeExponent (cs : List Char) : Int × List Char :=
  match cs with
  | c :: rest =>
    if c == 'e' || c == 'E' then
      let (negative, rest') := takeSign rest
      let (ds, after) := spanDigits Text.isDecimal rest'
      match natural? ds with
      | some n => (if negative then -(n : Int) else n, after)
      | none => (0, cs)
    else (0, cs)
  | [] => (0, [])

def decimal? (cs : List Char) : Option Scientific :=
  let (negative, cs) := takeSign cs
  let (whole, rest) := spanDigits Text.isDecimal cs
  let (fraction, rest) := match rest with
    | '.' :: after => spanDigits Text.isDecimal after
    | _ => ([], rest)
  if whole.isEmpty && fraction.isEmpty then none else
    let (exponent, rest) := takeExponent rest
    match rest, natural? (whole ++ fraction) with
    | [], some m => some ⟨negative, m, exponent - fraction.length⟩
    | _, _ => none

end Conductor.Decimal
