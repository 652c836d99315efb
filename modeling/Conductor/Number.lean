import Conductor.Decimal.Layout
import Conductor.Decimal.Reading
import Conductor.Error
import Conductor.Text.Split

/-!
# Numbers

The language's numbers are integers of any size and doubles. An operation on two
integers stays exact where it can; as soon as a double takes part, the integer is
rounded to the nearest double first. Order and equality of an integer and a
double are exact. Remainders take the sign of the divisor.
-/

set_option autoImplicit false

namespace Conductor

inductive Number
  | int (n : Int)
  | float (x : Float)

instance : Inhabited Number := ⟨.int 0⟩

structure Complex where
  re : Float
  im : Float

/-- The longest numeral, in digits, that is converted to or from text. -/
def digitLimit : Nat := 4300

def integerText (n : Int) : Except Failure String :=
  if n.natAbs < Nat.pow 2 63 then .ok (toString n)
  else if n.natAbs ≥ Nat.pow 10 digitLimit then .error .digitsBeyondLimit
  else .ok (toString n)

namespace Number

def toFloat : Number → Except Failure Float
  | int n => match Decimal.ofInt? n with
    | some x => .ok x
    | none => .error .integerTooLargeForFloat
  | float x => .ok x

def truncate : Number → Except Failure Int
  | int n => .ok n
  | float x => match Decimal.parts? x with
    | some p => .ok p.truncated
    | none => if x.isNaN then .error .notANumberToInteger else .error .infinityToInteger

def order? : Number → Number → Option Ordering
  | int a, int b => some (compare a b)
  | float a, float b => if a < b then some .lt else if b < a then some .gt else if a == b then some .eq else none
  | float a, int b => floatInt a b
  | int a, float b => (floatInt b a).map Ordering.swap
where
  floatInt (x : Float) (n : Int) : Option Ordering :=
    match Decimal.parts? x with
    | some p => some (p.compareInt n)
    | none => if x.isNaN then none else some (if Decimal.signBit x then .lt else .gt)

def lt (a b : Number) : Bool := order? a b == some .lt
def gt (a b : Number) : Bool := order? a b == some .gt
def eq (a b : Number) : Bool := order? a b == some .eq
def le (a b : Number) : Bool := lt a b || eq a b
def ge (a b : Number) : Bool := gt a b || eq a b

def isZero (a : Number) : Bool := eq a (int 0)

def floats (f : Float → Float → Float) (a b : Number) : Except Failure Number := do
  let x ← a.toFloat
  let y ← b.toFloat
  return float (f x y)

def add : Number → Number → Except Failure Number
  | int a, int b => .ok (int (a + b))
  | a, b => floats (· + ·) a b

def sub : Number → Number → Except Failure Number
  | int a, int b => .ok (int (a - b))
  | a, b => floats (· - ·) a b

def mul : Number → Number → Except Failure Number
  | int a, int b => .ok (int (a * b))
  | a, b => floats (· * ·) a b

def neg : Number → Number
  | int a => int (-a)
  | float x => float (-x)

def abs : Number → Number
  | int a => int a.natAbs
  | float x => float x.abs

def quotient (a b : Int) : Except Failure Number :=
  let bits := Decimal.quotientBits a.natAbs b.natAbs
  if bits = Decimal.infinityBits then .error .quotientTooLargeForFloat
  else .ok (float (Decimal.ofMagnitudeBits ((a < 0) != (b < 0) && a != 0) bits))

def divide : Number → Number → Except Failure Number
  | int a, int b => quotient a b
  | a, b => floats (· / ·) a b

/-- The remainder of doubles with the sign of the divisor; the divisor is not zero. -/
def floatModulo (x y : Float) : Float :=
  let r := match Decimal.parts? x, Decimal.parts? y with
    | some p, some q => p.remainder q
    | some _, none => if y.isNaN then y else x
    | none, _ => if x.isNaN then x else 0.0 / 0.0
  if r.isNaN then r
  else if r == 0.0 then Decimal.ofMagnitudeBits (Decimal.signBit y) 0
  else if (y < 0.0) != (r < 0.0) then r + y
  else r

def modulo : Number → Number → Except Failure Number
  | int a, int b => .ok (int (a.fmod b))
  | a, b => floats floatModulo a b

inductive Power
  | real (n : Number)
  | complex (z : Complex)

def isOddWhole (y : Float) : Bool :=
  match Decimal.parts? y with
  | some p => p.isWhole && p.truncated % 2 != 0
  | none => false

def isWholeFloat (y : Float) : Bool :=
  match Decimal.parts? y with
  | some p => p.isWhole
  | none => false

def floatPower (x y : Float) : Except Failure Power :=
  let finite (z : Float) : Bool := (Decimal.parts? z).isSome
  if y == 0.0 then .ok (.real (float 1.0))
  else if x.isNaN then .ok (.real (float x))
  else if y.isNaN then .ok (.real (float (if x == 1.0 then 1.0 else y)))
  else if !finite y then
    let size := x.abs
    if size == 1.0 then .ok (.real (float 1.0))
    else if (y > 0.0) == (size > 1.0) then .ok (.real (float y.abs))
    else .ok (.real (float 0.0))
  else if !finite x then
    let odd := isOddWhole y
    if y > 0.0 then .ok (.real (float (if odd then x else x.abs)))
    else .ok (.real (float (if odd then Decimal.ofMagnitudeBits (Decimal.signBit x) 0 else 0.0)))
  else if x == 0.0 then
    if y < 0.0 then .error .zeroToNegativePower
    else .ok (.real (float (if isOddWhole y then x else 0.0)))
  else if x < 0.0 && !isWholeFloat y then
    let size := x.abs.pow y
    let phase := Float.atan2 0.0 x * y
    let z : Complex := ⟨size * phase.cos, size * phase.sin⟩
    if z.re.isInf || z.im.isInf then .error .complexOutOfRange else .ok (.complex z)
  else
    let negate := x < 0.0 && isOddWhole y
    let base := if x < 0.0 then -x else x
    if base == 1.0 then .ok (.real (float (if negate then -1.0 else 1.0))) else
      let z := base.pow y
      if finite z then .ok (.real (float (if negate then -z else z))) else .error .powerOutOfRange

def power : Number → Number → Except Failure Power
  | int a, int b =>
    if b ≥ 0 then .ok (.real (int (Int.pow a b.toNat)))
    else do floatPower (← (int a).toFloat) (← (int b).toFloat)
  | a, b => do floatPower (← a.toFloat) (← b.toFloat)

/-- The text of a number in the language: a whole double below `10 ^ 16` is written as an integer. -/
def text : Number → Except Failure String
  | int n => integerText n
  | float x => .ok (floatText x)
where
  floatText (x : Float) : String :=
    match Decimal.parts? x with
    | some p => if p.isWhole && x.abs < 1e16 then toString p.truncated else Decimal.generalText x
    | none => Decimal.generalText x

end Number

namespace Complex

/-- The text of a complex number; a real part that is a plain zero is left out. -/
def text (z : Complex) : String :=
  let part (x : Float) : String :=
    let t := Decimal.exactText x
    if Text.endsWith t ".0" then Text.takeChars (t.length - 2) t else t
  let signed (x : Float) : String := if Decimal.signBit x then part x else "+" ++ part x
  if z.re == 0.0 && !Decimal.signBit z.re then part z.im ++ "j"
  else "(" ++ part z.re ++ signed z.im ++ "j)"

end Complex

/-! ## Numerals -/

def integerOfNumeral (shown : String) (cs : List Char) : Except Failure Int :=
  let (negative, ds) := Decimal.takeSign cs
  if ds.length > digitLimit && ds.all Text.isDecimal then .error (.numeralBeyondLimit ds.length)
  else match Decimal.natural? ds with
    | some n => .ok (if negative then -(n : Int) else n)
    | none => .error (.notAnInteger (Text.quoted shown))

/-- The number that the text of a numeral denotes: a point or an exponent makes it a double. -/
def numberOfNumeral (cs : List Char) : Except Failure Number :=
  let shown := String.ofList cs
  if cs.any fun c => c == '.' || c == 'e' || c == 'E' then
    match Decimal.decimal? cs with
    | some d => .ok (.float d.toFloat)
    | none => .error (.notADecimal (Text.quoted shown))
  else (integerOfNumeral shown cs).map .int

/-- Whether a text is a numeral: blanks, a sign, digits on at least one side of a point, an exponent,
blanks. -/
def isNumeral (s : String) : Bool :=
  (Decimal.decimal? (Text.stripWhile Text.isBlank s.toList)).isSome

end Conductor
