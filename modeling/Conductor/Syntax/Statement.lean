import Conductor.Syntax.Expr
import Conductor.Syntax.Line

/-!
# Statements

A program is a list of statements; labels stand at its top level. A clause is a line
that starts with no keyword: what it means depends on where requests are addressed
when it runs, so it keeps every reading of its text.
-/

set_option autoImplicit false

namespace Conductor.Syntax

structure Place where
  line : Nat
  text : String
  deriving Inhabited

inductive Mode
  | command
  | function
  | heredoc
  | pattern
  deriving DecidableEq, Repr, Inhabited

def Mode.name : Mode → String
  | command => "command"
  | function => "function"
  | heredoc => "heredoc"
  | pattern => "pattern"

def Mode.all : List Mode := [.command, .function, .heredoc, .pattern]

def Mode.ofName? (s : String) : Option Mode := Mode.all.find? fun m => m.name == s

def Mode.ofWord? (word : String) : Option Mode :=
  Mode.all.find? fun m => Text.upper m.name == Text.upper word

inductive Trap
  | error
  | halt
  deriving DecidableEq, Repr

def Trap.name : Trap → String
  | error => "ERROR"
  | halt => "HALT"

inductive Source
  | expr (e : Expr)
  | command (c : CommandForm)
  | block (b : BlockLiteral)

inductive LoopHead
  | block
  | forever
  | count (n : Expr)
  | range (var : Ref) (start : Expr) (stop step : Option Expr)
  | while (condition : Expr)
  | until (condition : Expr)
  | over (var : Ref) (collection : Expr)

inductive AddressAction
  | reset
  | switch (domain : String) (mode : Option Mode) (rule : Option Expr)
  | send (domain : String) (command : Expr)

inductive SignalAction
  | on (trap : Trap) (label : String)
  | off (trap : Trap)
  | goto (label : String)

inductive InterpolationAction
  | register (name start stop : String)
  | activate (name : String)
  | sample (text : String)

inductive Statement
  | assign (target : Ref) (source : Source) (sourceText : String) (place : Place)
  | say (e : Expr) (place : Place)
  | cond (condition : Expr) (thenBody elseBody : List Statement) (place : Place)
  | loop (head : LoopHead) (body : List Statement) (place : Place)
  | leave (place : Place)
  | iterate (place : Place)
  | call (name : String) (args : List Arg) (place : Place)
  | address (action : AddressAction) (place : Place)
  | block (literal : BlockLiteral) (place : Place)
  | signal (action : SignalAction) (place : Place)
  | ret (value : Option Expr) (exit : Bool) (place : Place)
  | label (name : String) (place : Place)
  | arg (names : List String) (place : Place)
  | require (identifier : Expr) (place : Place)
  | interpolation (action : InterpolationAction) (place : Place)
  | clause (expr : Option Expr) (command : Option CommandForm) (error : Option Condition) (place : Place)
  | nop (place : Place)

instance : Inhabited Statement := ⟨.nop default⟩

def Statement.place : Statement → Place
  | assign _ _ _ p | say _ p | cond _ _ _ p | loop _ _ p | leave p | iterate p | call _ _ p | address _ p
  | block _ p | signal _ p | ret _ _ p | label _ p | arg _ p | require _ p | interpolation _ p
  | clause _ _ _ p | nop p => p

abbrev Program := List Statement

/-- The labels of a program with their places in it; of two with one name the first counts. -/
def labelsFrom (index : Nat) : Program → List (String × Nat)
  | [] => []
  | .label name _ :: rest => (name, index) :: (labelsFrom (index + 1) rest).filter fun e => e.1 != name
  | _ :: rest => labelsFrom (index + 1) rest

def Program.labels (p : Program) : List (String × Nat) := labelsFrom 0 p

end Conductor.Syntax
