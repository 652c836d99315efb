import Conductor.Syntax.Expr
import Conductor.Syntax.Token

/-!
# The expression grammar

Ordered choice and greedy repetition over characters. A terminal that does not fit
fails at the place where it was tried, and the furthest such place is kept whether or
not another choice succeeds: it is where a text that cannot be read is faulted. Blanks
are skipped before the terminal that follows them. Every terminal that is consumed is
recorded with its span, so that the grammar's lexemes can be compared with tokens.

From loose to tight: pipes, or, and, comparisons, concatenation, sums, products,
powers (to the right), prefixes.
-/

set_option autoImplicit false

namespace Conductor.Syntax.Grammar

open Text (isWordChar isDecimal)

/-- A place in the text, with the spans of the terminals consumed so far, the last first. -/
structure Cursor where
  position : Nat
  rest : List Char
  spans : List (Nat × Nat)

/-- A rule: from a place and the furthest failure so far to a result or none and the furthest failure. -/
def Rule (α : Type) := Cursor → Nat → Option (α × Cursor) × Nat

namespace Rule

variable {α β : Type}

def pure (a : α) : Rule α := fun c far => (some (a, c), far)

def bind (r : Rule α) (f : α → Rule β) : Rule β := fun c far =>
  match r c far with
  | (some (a, c'), far') => f a c' far'
  | (none, far') => (none, far')

instance : Monad Rule where
  pure := pure
  bind := bind

def orElse (r s : Rule α) : Rule α := fun c far =>
  match r c far with
  | (some out, far') => (some out, far')
  | (none, far') => s c far'

def optional (r : Rule α) : Rule (Option α) := orElse (bind r fun a => pure (some a)) (pure none)

def many (r : Rule α) : Nat → Rule (List α)
  | 0 => pure []
  | fuel + 1 => orElse (bind r fun a => bind (many r fuel) fun rest => pure (a :: rest)) (pure [])

end Rule

/-! ## Terminals -/

/-- A terminal: how many characters it takes, if it fits; it gives its start and its text. -/
def terminal (fits : List Char → Option Nat) : Rule (Nat × List Char) := fun c far =>
  match fits c.rest with
  | some n =>
    (some ((c.position, c.rest.take n),
      ⟨c.position + n, c.rest.drop n, (c.position, c.position + n) :: c.spans⟩), far)
  | none => (none, max far c.position)

def blanks : Rule Unit := fun c far =>
  let n := (c.rest.takeWhile isTokenBlank).length
  (some ((), ⟨c.position + n, c.rest.drop n, c.spans⟩), far)

def finish : Rule Unit := fun c far =>
  if c.rest.isEmpty then (some ((), c), far) else (none, max far c.position)

def exactly (s : String) (cs : List Char) : Option Nat :=
  if s.toList.isPrefixOf cs then some s.length else none

def oneOf (symbols : List String) (cs : List Char) : Option Nat :=
  (symbols.find? fun s => s.toList.isPrefixOf cs).map String.length

def notBefore (s : String) (after : List Char) (cs : List Char) : Option Nat :=
  if s.toList.isPrefixOf cs then
    match cs.drop s.length with
    | c :: _ => if after.contains c then none else some s.length
    | [] => some s.length
  else none

def numberExtent (cs : List Char) : Option Nat :=
  let whole := (cs.takeWhile isDecimal).length
  let fraction := match cs.drop whole with
    | '.' :: rest => let ds := (rest.takeWhile isDecimal).length; if ds == 0 then 0 else 1 + ds
    | _ => 0
  if whole + fraction == 0 then none else
    let exponent := match cs.drop (whole + fraction) with
      | e :: rest =>
        if e == 'e' || e == 'E' then
          let sign := match rest with
            | s :: _ => if s == '+' || s == '-' then 1 else 0
            | [] => 0
          let ds := ((rest.drop sign).takeWhile isDecimal).length
          if ds == 0 then 0 else 1 + sign + ds
        else 0
      | [] => 0
    some (whole + fraction + exponent)

/-- From after an opening quote to the last quote that has only doubled quotes before it. -/
def closingExtent (quote : Char) : List Char → Option Nat
  | [] => none
  | c :: rest =>
    if c == quote then
      match rest with
      | d :: more =>
        if d == quote then
          -- if no quote closes the rest, the first of these two does
          match closingExtent quote more with
          | some n => some (n + 2)
          | none => some 1
        else some 1
      | [] => some 1
    else (closingExtent quote rest).map (· + 1)

def stringExtent (quote : Char) (cs : List Char) : Option Nat :=
  match cs with
  | c :: rest => if c == quote then (closingExtent quote rest).map (· + 1) else none
  | [] => none

def isIdentifierStart (c : Char) : Bool :=
  (isWordChar c && !isDecimal c) || c == '$' || c == '@' || c == '#'

def isIdentifierPart (c : Char) : Bool :=
  isWordChar c || c == '$' || c == '@' || c == '#' || c == '.' || c == '?'

def identifierExtent (cs : List Char) : Option Nat :=
  match cs with
  | c :: rest => if isIdentifierStart c then some (1 + (rest.takeWhile isIdentifierPart).length) else none
  | [] => none

def pipeOp : Rule (Nat × List Char) := terminal (exactly "|>")
def orOp : Rule (Nat × List Char) := terminal (notBefore "|" ['|', '>'])
def andOp : Rule (Nat × List Char) := terminal (oneOf ["&&", "&"])
def comparisonOp : Rule (Nat × List Char) :=
  terminal (oneOf ["\\==", "\\=", "==", "!=", "<>", "<=", ">=", "=", "<", ">"])
def concatOp : Rule (Nat × List Char) := terminal (exactly "||")
def additiveOp : Rule (Nat × List Char) := terminal (oneOf ["+", "-"])
def multiplicativeOp : Rule (Nat × List Char) := terminal fun cs =>
  match notBefore "*" ['*'] cs with
  | some n => some n
  | none => oneOf ["/", "%"] cs
def powerOp : Rule (Nat × List Char) := terminal (exactly "**")
def unaryOp : Rule (Nat × List Char) := terminal (oneOf ["-", "+", "!", "\\"])
def leftParen : Rule (Nat × List Char) := terminal (exactly "(")
def rightParen : Rule (Nat × List Char) := terminal (exactly ")")
def comma : Rule (Nat × List Char) := terminal (exactly ",")
def equals : Rule (Nat × List Char) := terminal (notBefore "=" ['='])
def identifier : Rule (Nat × List Char) := terminal identifierExtent

/-! ## Leaves as expressions -/

structure Origin where
  text : List Char
  line : Nat
  col : Nat

/-- The line and the column of a position; a line feed inside a string starts a new line. -/
def Origin.pos (o : Origin) (p : Nat) : Pos :=
  let before := o.text.take p
  let column := (before.reverse.takeWhile (· != '\n')).length
  ⟨o.line + before.count '\n', o.col + column⟩

def unaryOf (cs : List Char) : UnaryOp :=
  match cs with
  | ['-'] => .negate
  | ['+'] => .plus
  | _ => .not

def binaryOf (cs : List Char) : BinaryOp :=
  match String.ofList cs with
  | "|" => .or
  | "&" | "&&" => .and
  | "\\==" => .strictNe
  | "\\=" => .neBackslash
  | "==" => .strictEq
  | "!=" => .ne
  | "<>" => .neAngle
  | "<=" => .le
  | ">=" => .ge
  | "<" => .lt
  | ">" => .gt
  | "||" => .concat
  | "+" => .add
  | "-" => .sub
  | "*" => .mul
  | "/" => .div
  | "%" => .mod
  | "**" => .pow
  | _ => .eq

/-- The contents of a quoted lexeme: what is between its quotes, with doubled quotes as one. -/
def unquote (cs : List Char) : String :=
  match cs with
  | quote :: rest =>
    Text.replaceAll (String.ofList [quote, quote]) (String.singleton quote) (String.ofList rest.dropLast)
  | [] => ""

def number (o : Origin) : Rule Expr := fun c far =>
  match terminal numberExtent c far with
  | (some ((p, cs), c'), far') =>
    match numberOfNumeral cs with
    | .ok n => (some (.literal (.number n) (o.pos p), c'), far')
    | .error _ => (none, far')
  | (none, far') => (none, far')

def string (o : Origin) : Rule Expr :=
  Rule.orElse (do
    let l ← terminal (stringExtent '\'')
    pure (.literal (.text (unquote l.2) false) (o.pos l.1)))
  (do
    let l ← terminal (stringExtent '"')
    pure (.literal (.text (unquote l.2) true) (o.pos l.1)))

def symbol (o : Origin) : Rule Expr := do
  let l ← identifier
  pure (.ref (Ref.ofText (String.ofList l.2) (o.pos l.1)))

/-! ## Rules -/

inductive Level
  | or
  | and
  | comparison
  | concat
  | additive
  | multiplicative
  deriving DecidableEq, Repr

def Level.operator : Level → Rule (Nat × List Char)
  | or => orOp
  | and => andOp
  | comparison => comparisonOp
  | concat => concatOp
  | additive => additiveOp
  | multiplicative => multiplicativeOp

def Level.tighter : Level → Option Level
  | or => some and
  | and => some comparison
  | comparison => some concat
  | concat => some additive
  | additive => some multiplicative
  | multiplicative => none

def foldLeft (o : Origin) (first : Expr) (rest : List ((Nat × List Char) × Expr)) : Expr :=
  rest.foldl (fun left step => .binary (binaryOf step.1.2) left step.2 (o.pos step.1.1)) first

mutual
/-- Pipes over an or-expression. The number bounds the depth. -/
def expression (o : Origin) : Nat → Rule Expr
  | 0 => fun _ far => (none, far)
  | fuel + 1 => do
    let first ← level o .or fuel
    let stages ← Rule.many (do
      blanks
      let op ← pipeOp
      blanks
      let name ← identifier
      let args ← Rule.optional (callSuffix o fuel)
      pure (op, name, args.getD [])) fuel
    pure (stages.foldl (fun left stage =>
      .pipe left (String.ofList stage.2.1.2) stage.2.2 (o.pos stage.2.1.1) (o.pos stage.1.1)) first)

def level (o : Origin) (l : Level) : Nat → Rule Expr
  | 0 => fun _ far => (none, far)
  | fuel + 1 => do
    let operand := match l.tighter with
      | some t => level o t fuel
      | none => power o fuel
    let first ← operand
    let rest ← Rule.many (do
      blanks
      let op ← l.operator
      blanks
      let right ← operand
      pure (op, right)) fuel
    pure (foldLeft o first rest)

def power (o : Origin) : Nat → Rule Expr
  | 0 => fun _ far => (none, far)
  | fuel + 1 => do
    let base ← unary o fuel
    let exponent ← Rule.optional (do
      blanks
      let op ← powerOp
      blanks
      let right ← power o fuel
      pure (op, right))
    match exponent with
    | some (op, right) => pure (.binary .pow base right (o.pos op.1))
    | none => pure base

def unary (o : Origin) : Nat → Rule Expr
  | 0 => fun _ far => (none, far)
  | fuel + 1 =>
    Rule.orElse (do
      let op ← unaryOp
      blanks
      let operand ← unary o fuel
      pure (.unary (unaryOf op.2) operand (o.pos op.1)))
    (primary o fuel)

def primary (o : Origin) : Nat → Rule Expr
  | 0 => fun _ far => (none, far)
  | fuel + 1 =>
    Rule.orElse (number o) <| Rule.orElse (string o) <|
    Rule.orElse (do
      let name ← identifier
      let args ← callSuffix o fuel
      pure (.call (String.ofList name.2) args (o.pos name.1))) <|
    Rule.orElse (symbol o) (do
      let _ ← leftParen
      blanks
      let inner ← expression o fuel
      blanks
      let _ ← rightParen
      pure inner)

def callSuffix (o : Origin) : Nat → Rule (List Arg)
  | 0 => fun _ far => (none, far)
  | fuel + 1 => do
    blanks
    let _ ← leftParen
    blanks
    let args ← Rule.optional (argumentList o fuel)
    blanks
    let _ ← rightParen
    pure (args.getD [])

def argumentList (o : Origin) : Nat → Rule (List Arg)
  | 0 => fun _ far => (none, far)
  | fuel + 1 => do
    let first ← argument o fuel
    let rest ← Rule.many (do
      blanks
      let _ ← comma
      blanks
      argument o fuel) fuel
    pure (first :: rest)

def argument (o : Origin) : Nat → Rule Arg
  | 0 => fun _ far => (none, far)
  | fuel + 1 =>
    Rule.orElse (do
      let name ← identifier
      blanks
      let _ ← equals
      blanks
      let value ← expression o fuel
      pure (some (String.ofList name.2), value))
    (do
      let value ← expression o fuel
      pure (none, value))
end

/-- A method and its operands, separated by blanks; operands are prefix expressions. -/
def command (o : Origin) (fuel : Nat) : Rule CommandForm := do
  let name ← identifier
  let args ← Rule.many (do
    blanks
    operand) fuel
  pure ⟨String.ofList name.2, args, o.pos name.1⟩
where
  operand : Rule Arg :=
    Rule.orElse (do
      let name ← identifier
      blanks
      let _ ← equals
      blanks
      let value ← unary o fuel
      pure (some (String.ofList name.2), value))
    (do
      let value ← unary o fuel
      pure (none, value))

def callTail (o : Origin) (fuel : Nat) : Rule (List Arg) :=
  Rule.orElse (do
    let args ← callSuffix o fuel
    finish
    pure args)
  (argumentList o fuel)

def whole {α : Type} (r : Rule α) : Rule α := do
  let a ← r
  finish
  pure a

def depthFor (cs : List Char) : Nat := 14 * (cs.length + 4)

/-- The result of a rule on a whole text with its spans in order, or the furthest failure. -/
def run {α : Type} (r : Rule α) (cs : List Char) : Except Nat (α × List (Nat × Nat)) :=
  match r ⟨0, cs, []⟩ 0 with
  | (some (a, c), _) => .ok (a, c.spans.reverse)
  | (none, far) => .error far

end Conductor.Syntax.Grammar
