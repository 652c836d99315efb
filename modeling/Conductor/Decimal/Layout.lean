import Conductor.Decimal.Digits

/-!
# Layouts of decimals

How chosen digits are written: positionally between two exponents and with a
signed exponent of at least two places outside them. Two layouts are used: one
always shows that the value is a fraction, the other writes whole values plainly.
-/

set_option autoImplicit false

namespace Conductor.Decimal

structure Layout where
  least : Int
  limit : Int
  pointed : Bool
  deriving DecidableEq, Repr

/-- The layout of a fraction in a structured text: the fewest digits, positional below `10 ^ 16`. -/
def exactLayout : Layout := ⟨-4, 16, true⟩

/-- The layout of a fraction in the language's own text: fifteen digits, positional below `10 ^ 15`. -/
def generalLayout : Layout := ⟨-4, 15, false⟩

def exponentText (e : Int) : String :=
  let digits := Nat.repr e.natAbs
  "e" ++ (if e < 0 then "-" else "+") ++ (if digits.length < 2 then "0" ++ digits else digits)

def Layout.render (layout : Layout) (ds : Digits) : String :=
  let lead := ds.point - 1
  let text := String.ofList ds.digits
  if layout.least ≤ lead ∧ lead < layout.limit then
    if ds.point ≤ 0 then
      "0." ++ String.ofList (List.replicate (-ds.point).toNat '0') ++ text
    else
      let whole := ds.point.toNat
      if ds.digits.length ≤ whole then
        text ++ String.ofList (List.replicate (whole - ds.digits.length) '0') ++
          (if layout.pointed then ".0" else "")
      else
        String.ofList (ds.digits.take whole) ++ "." ++ String.ofList (ds.digits.drop whole)
  else
    let mantissa := match ds.digits with
      | [] => "0"
      | [d] => String.singleton d
      | d :: rest => String.ofList (d :: '.' :: rest)
    mantissa ++ exponentText lead

def Layout.write (layout : Layout) (choose : Nat → Int → Digits) (x : Float) : String :=
  match parts? x with
  | none => if x.isNaN then "nan" else if signBit x then "-inf" else "inf"
  | some p =>
    let body :=
      if p.mantissa = 0 then (if layout.pointed then "0.0" else "0")
      else layout.render (choose p.mantissa p.exponent)
    if p.negative then "-" ++ body else body

def exactText (x : Float) : String := exactLayout.write shortest x

def generalText (x : Float) : String := generalLayout.write (significant 15) x

end Conductor.Decimal
