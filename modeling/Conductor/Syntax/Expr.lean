import Conductor.Number

/-!
# Expressions

The expressions of the language: literals, simple and compound symbols, prefix and
infix operators, calls and pipes. Every node remembers the line and the column of
its own lexeme.
-/

set_option autoImplicit false

namespace Conductor.Syntax

structure Pos where
  line : Nat
  col : Nat
  deriving DecidableEq, Repr, Inhabited

/-- A simple or compound symbol: a name and the raw segments after it. -/
structure Ref where
  name : String
  tail : List String
  pos : Pos
  deriving DecidableEq, Repr, Inhabited

def Ref.symbol (r : Ref) : String := String.intercalate "." (r.name :: r.tail)

def Ref.ofText (text : String) (pos : Pos) : Ref :=
  match Text.pieces "." text with
  | [] => ⟨text, [], pos⟩
  | name :: tail => ⟨name, tail.filter fun s => !s.isEmpty, pos⟩

inductive UnaryOp
  | negate
  | plus
  | not
  deriving DecidableEq, Repr

def UnaryOp.symbol : UnaryOp → String
  | negate => "-"
  | plus => "+"
  | not => "!"

inductive BinaryOp
  | or
  | and
  | strictEq
  | strictNe
  | eq
  | ne
  | neBackslash
  | neAngle
  | lt
  | gt
  | le
  | ge
  | concat
  | add
  | sub
  | mul
  | div
  | mod
  | pow
  deriving DecidableEq, Repr

def BinaryOp.symbol : BinaryOp → String
  | or => "|"
  | and => "&"
  | strictEq => "=="
  | strictNe => "\\=="
  | eq => "="
  | ne => "!="
  | neBackslash => "\\="
  | neAngle => "<>"
  | lt => "<"
  | gt => ">"
  | le => "<="
  | ge => ">="
  | concat => "||"
  | add => "+"
  | sub => "-"
  | mul => "*"
  | div => "/"
  | mod => "%"
  | pow => "**"

inductive Literal
  | number (n : Number)
  | text (s : String) (interpolate : Bool)

inductive Expr
  | literal (l : Literal) (pos : Pos)
  | ref (r : Ref)
  | unary (op : UnaryOp) (operand : Expr) (pos : Pos)
  | binary (op : BinaryOp) (left right : Expr) (pos : Pos)
  | call (name : String) (args : List (Option String × Expr)) (pos : Pos)
  | pipe (left : Expr) (name : String) (args : List (Option String × Expr)) (callPos pos : Pos)

instance : Inhabited Expr := ⟨.literal (.text "" false) default⟩

abbrev Arg := Option String × Expr

/-- A call written without parentheses: a method and its operands. -/
structure CommandForm where
  method : String
  args : List Arg
  pos : Pos

end Conductor.Syntax
