import Conductor.Syntax.Grammar

/-!
# Expressions as they are written

The text of an expression is its lexemes with single spaces between them. Parentheses
stand where the binding of the operators asks for them and nowhere else, apart from the
arguments by place: an operation or a pipe is enclosed there, because a symbol with an
equals sign after it would be taken for the name of an argument.

Not every tree has a text of its own: an integer literal has no sign and no more digits
than can be read, and names are words.
-/

set_option autoImplicit false

namespace Conductor.Syntax

/-! ## Binding -/

def BinaryOp.tightness : BinaryOp → Nat
  | or => 1
  | and => 2
  | strictEq | strictNe | eq | ne | neBackslash | neAngle | lt | gt | le | ge => 3
  | concat => 4
  | add | sub => 5
  | mul | div | mod => 6
  | pow => 7

def BinaryOp.leftBound : BinaryOp → Nat
  | pow => 8
  | op => op.tightness

def BinaryOp.rightBound : BinaryOp → Nat
  | pow => 7
  | op => op.tightness + 1

def Expr.tightness : Expr → Nat
  | .pipe .. => 0
  | .binary op .. => op.tightness
  | .unary .. => 8
  | .literal .. | .ref _ | .call .. => 9

theorem Expr.tightness_le (e : Expr) : e.tightness ≤ 9 := by
  cases e with
  | binary op _ _ _ => cases op <;> simp [Expr.tightness, BinaryOp.tightness]
  | _ => simp [Expr.tightness]

/-! ## Lexemes -/

def doubled (quote : Char) (cs : List Char) : List Char :=
  cs.flatMap fun c => if c == quote then [quote, quote] else [c]

def enquoted (quote : Char) (s : String) : String := String.ofList (quote :: (doubled quote s.toList ++ [quote]))

def Literal.lexeme : Literal → String
  | .number (.int n) => toString n
  | .number (.float x) => Decimal.exactText x
  | .text s false => enquoted '\'' s
  | .text s true => enquoted '"' s

def enclosed (loose : Bool) (ts : List String) : List String := if loose then "(" :: (ts ++ [")"]) else ts

def inCall (args : List (List String)) : List String := "(" :: (List.intercalate [","] args ++ [")"])

mutual
/-- The lexemes of an expression. The flag says how a pipe to a function without further arguments is written: bare,
or with empty parentheses. -/
def Expr.lexemes (bare : Bool) : Expr → List String
  | .literal l _ => [l.lexeme]
  | .ref r => [r.symbol]
  | .unary op operand _ => op.symbol :: enclosed (operand.tightness < 8) (operand.lexemes bare)
  | .binary op left right _ =>
    enclosed (left.tightness < op.leftBound) (left.lexemes bare) ++
      op.symbol :: enclosed (right.tightness < op.rightBound) (right.lexemes bare)
  | .call name args _ => name :: inCall (argumentLexemes bare args)
  | .pipe left name args _ _ =>
    left.lexemes bare ++ "|>" :: name :: if bare && args.isEmpty then [] else inCall (argumentLexemes bare args)

def argumentLexemes (bare : Bool) : List (Option String × Expr) → List (List String)
  | [] => []
  | (some name, value) :: rest => (name :: "=" :: value.lexemes bare) :: argumentLexemes bare rest
  | (none, value) :: rest => enclosed (value.tightness < 8) (value.lexemes bare) :: argumentLexemes bare rest
end

def Expr.within (bare : Bool) (k : Nat) (e : Expr) : List String := enclosed (e.tightness < k) (e.lexemes bare)

def argumentLexeme (bare : Bool) (a : Arg) : List String :=
  match a.1 with
  | some name => name :: "=" :: a.2.lexemes bare
  | none => a.2.within bare 8

theorem argumentLexemes_eq (bare : Bool) (args : List Arg) : argumentLexemes bare args = args.map (argumentLexeme bare) := by
  induction args with
  | nil => rfl
  | cons a args ih =>
    obtain ⟨_ | name, value⟩ := a <;> rw [argumentLexemes, ih] <;> rfl

theorem Expr.within_of_le {bare : Bool} {k : Nat} {e : Expr} (h : k ≤ e.tightness) : e.within bare k = e.lexemes bare := by
  simp [Expr.within, enclosed, Nat.not_lt.mpr h]

theorem Expr.within_of_lt {bare : Bool} {k : Nat} {e : Expr} (h : e.tightness < k) :
    e.within bare k = "(" :: (e.lexemes bare ++ [")"]) := by
  simp [Expr.within, enclosed, h]

theorem Expr.length_lexemes_le (bare : Bool) (k : Nat) (e : Expr) :
    (e.lexemes bare).length ≤ (e.within bare k).length := by
  rcases Nat.lt_or_ge e.tightness k with h | h
  · rw [within_of_lt h, List.length_cons, List.length_append]
    omega
  · exact Nat.le_of_eq (by rw [within_of_le h])

theorem intercalate_cons {α : Type} (sep x : List α) (xs : List (List α)) :
    sep.intercalate (x :: xs) = x ++ xs.flatMap (sep ++ ·) := by
  induction xs generalizing x with
  | nil => simp
  | cons y ys ih => rw [List.intercalate_cons_cons, ih]; simp

theorem length_le_flatMap {α β : Type} (f : α → List β) {l : List α} {a : α} (h : a ∈ l) :
    (f a).length ≤ (l.flatMap f).length := by
  rw [List.flatMap_def]
  exact (List.sublist_flatten_of_mem (List.mem_map_of_mem h)).length_le

theorem count_le_flatMap {α β : Type} {f : α → List β} (hf : ∀ a, 0 < (f a).length) (l : List α) :
    l.length ≤ (l.flatMap f).length := by
  induction l with
  | nil => exact Nat.le_refl _
  | cons a l ih =>
    have := hf a
    rw [List.flatMap_cons, List.length_append, List.length_cons]
    omega

theorem Ref.toList_symbol (r : Ref) : r.symbol.toList = r.name.toList ++ r.tail.flatMap fun s => '.' :: s.toList := by
  simp only [Ref.symbol, String.toList_intercalate, List.map_cons, intercalate_cons, List.flatMap_map]
  rfl

def Expr.written (bare : Bool) (e : Expr) : String := String.intercalate " " (e.lexemes bare)

/-! ## What can be written -/

def isWord (s : String) : Bool :=
  match s.toList with
  | c :: rest => isWordStart c && rest.all isWordPart
  | [] => false

def isSegment (s : String) : Bool := !s.isEmpty && s.toList.all fun c => isWordPart c && c != '.'

def Ref.writable (r : Ref) : Bool := isWord r.name && !r.name.toList.contains '.' && r.tail.all isSegment

def Literal.writable : Literal → Bool
  | .number (.int n) => 0 ≤ n && n < Nat.pow 10 digitLimit
  | .number (.float _) => false
  | .text _ _ => true

mutual
def Expr.writable : Expr → Bool
  | .literal l _ => l.writable
  | .ref r => r.writable
  | .unary _ operand _ => operand.writable
  | .binary _ left right _ => left.writable && right.writable
  | .call name args _ => isWord name && argumentsWritable args
  | .pipe left name args _ _ => left.writable && isWord name && argumentsWritable args

def argumentsWritable : List (Option String × Expr) → Bool
  | [] => true
  | (name, value) :: rest => name.all isWord && value.writable && argumentsWritable rest
end

theorem argumentsWritable_iff (args : List Arg) :
    argumentsWritable args = true ↔ ∀ a ∈ args, a.1.all isWord = true ∧ a.2.writable = true := by
  induction args with
  | nil => simp [argumentsWritable]
  | cons a args ih => simp [argumentsWritable, ih]

/-! ## Trees without places -/

mutual
/-- An expression with all its lines and columns set to zero. -/
def Expr.unplaced : Expr → Expr
  | .literal l _ => .literal l ⟨0, 0⟩
  | .ref r => .ref { r with pos := ⟨0, 0⟩ }
  | .unary op operand _ => .unary op operand.unplaced ⟨0, 0⟩
  | .binary op left right _ => .binary op left.unplaced right.unplaced ⟨0, 0⟩
  | .call name args _ => .call name (unplacedArguments args) ⟨0, 0⟩
  | .pipe left name args _ _ => .pipe left.unplaced name (unplacedArguments args) ⟨0, 0⟩ ⟨0, 0⟩

def unplacedArguments : List (Option String × Expr) → List (Option String × Expr)
  | [] => []
  | (name, value) :: rest => (name, value.unplaced) :: unplacedArguments rest
end

theorem unplacedArguments_eq (args : List Arg) :
    unplacedArguments args = args.map fun a => (a.1, a.2.unplaced) := by
  induction args with
  | nil => rfl
  | cons a args ih => rw [unplacedArguments, ih]; rfl

end Conductor.Syntax
