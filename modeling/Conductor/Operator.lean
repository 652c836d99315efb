import Conductor.Syntax.Expr
import Conductor.Tree.Shown

/-!
# What the operators compute

Operators work on what values look like, and every result is a scalar. Two values
compare as numbers when both are numbers or numerals, and as texts without the
blanks around them otherwise; numbers without an order count as equal. The strict
operators compare the texts as they are.
-/

set_option autoImplicit false

namespace Conductor

open Syntax (BinaryOp UnaryOp)

namespace Scalar

def ofNumber : Number → Scalar
  | .int n => .int n
  | .float x => .float x

def ofTest (b : Bool) : Scalar := .int (if b then 1 else 0)

def ofPower : Number.Power → Scalar
  | .real n => ofNumber n
  | .complex z => .foreign "complex" z.text z.text

end Scalar

namespace Tree

def shownText (t : Tree) : Except Problem String := t.shown.mapError .failure

def looseOrder (a b : Tree) : Except Problem Ordering :=
  if a.isNumeric && b.isNumeric then do
    let x ← a.number
    let y ← b.number
    return (x.order? y).getD .eq
  else do
    let s ← a.shownText
    let t ← b.shownText
    return Text.compare (Text.strip s) (Text.strip t)

end Tree

namespace Operator

def arithmetic (f : Number → Number → Except Failure Number) (a b : Tree) : Except Problem Scalar := do
  let x ← a.number
  let y ← b.number
  return .ofNumber (← (f x y).mapError .failure)

def dividing (f : Number → Number → Except Failure Number) (a b : Tree) : Except Problem Scalar := do
  let x ← a.number
  let y ← b.number
  if y.isZero then .error (.ofCause .divisionByZero)
  return .ofNumber (← (f x y).mapError .failure)

def divide : Number → Number → Except Failure Number
  | .int a, .int b => if a.fmod b == 0 then .ok (.int (a.fdiv b)) else Number.divide (.int a) (.int b)
  | x, y => Number.divide x y

def power (a b : Tree) : Except Problem Scalar := do
  let x ← a.number
  let y ← b.number
  return .ofPower (← (x.power y).mapError .failure)

def concat (a b : Tree) : Except Problem Scalar := do
  let s ← a.shownText
  let t ← b.shownText
  return .text (s ++ t)

def sameText (a b : Tree) : Except Problem Bool := do
  let s ← a.shownText
  let t ← b.shownText
  return s == t

def comparing (test : Ordering → Bool) (a b : Tree) : Except Problem Scalar := do
  return .ofTest (test (← a.looseOrder b))

/-- The result of an operator on two values; the logical operators are decided elsewhere, because they
need not evaluate both. -/
def binary (op : BinaryOp) (a b : Tree) : Except Problem Scalar :=
  match op with
  | .concat => concat a b
  | .add => arithmetic Number.add a b
  | .sub => arithmetic Number.sub a b
  | .mul => arithmetic Number.mul a b
  | .div => dividing divide a b
  | .mod => dividing Number.modulo a b
  | .pow => power a b
  | .strictEq => do return .ofTest (← sameText a b)
  | .strictNe => do return .ofTest !(← sameText a b)
  | .eq => comparing Ordering.isEq a b
  | .ne | .neBackslash | .neAngle => comparing (!Ordering.isEq ·) a b
  | .lt => comparing Ordering.isLT a b
  | .gt => comparing Ordering.isGT a b
  | .le => comparing (!Ordering.isGT ·) a b
  | .ge => comparing (!Ordering.isLT ·) a b
  | .and => do
    if !(← a.truthy.mapError .failure) then return .ofTest false
    return .ofTest (← b.truthy.mapError .failure)
  | .or => do
    if ← a.truthy.mapError .failure then return .ofTest true
    return .ofTest (← b.truthy.mapError .failure)

def unary (op : UnaryOp) (a : Tree) : Except Problem Scalar :=
  match op with
  | .not => do return .ofTest !(← a.truthy.mapError .failure)
  | .negate => do return .ofNumber (← a.number).neg
  | .plus => do return .ofNumber (← a.number)

end Operator

end Conductor
