import Conductor.Error
import Conductor.Text.Split

/-!
# Reports

What a run comes to: its effects, and a value or a fault. The message of a fault
names the kind and the message of the condition, its place, the lines of the program
around it with a mark under the column, and the calls in progress.
-/

set_option autoImplicit false

namespace Conductor

structure Effect where
  topics : List String
  message : String
  deriving DecidableEq, Repr, Inhabited

structure Fault where
  message : String
  kind : String := ""
  line : Option Nat := none
  col : Option Nat := none
  function : Option String := none
  domain : Option String := none
  payload : Option Tree := none

inductive Verdict
  | success (v : Value)
  | error (f : Fault)

structure Report where
  verdict : Verdict
  effects : List Effect := []

namespace Fault

def formatted (f : Fault) : String :=
  let message := if f.message.isEmpty then "Unknown error" else f.message
  match f.line with
  | none => message
  | some line =>
    if Text.startsWith message "Error on line " then message
    else
      let col := match f.col with
        | some c => ", col " ++ Nat.repr c
        | none => ""
      "Error on line " ++ Nat.repr line ++ col ++ ": " ++ message

end Fault

namespace Report

def formatted (r : Report) : String :=
  match r.verdict with
  | .success _ => ""
  | .error f => f.formatted

def stdout (r : Report) : List String :=
  (r.effects.filter fun e => e.topics.contains "stdout").map Effect.message

def radius : Nat := 2

/-- One line of a program with its number; the line of the fault is marked, and so is its column. -/
def numbered (width line : Nat) (col : Option Nat) (entry : Nat × String) : List String :=
  let (i, text) := entry
  let shown := (if i == line then ">" else " ") ++ " " ++ Text.padStart width ' ' (Nat.repr i) ++ " | " ++ text
  match col with
  | some c =>
    if i == line then [shown, "  " ++ Text.repeated width ' ' ++ " | " ++ Text.repeated (c - 1) ' ' ++ "^"]
    else [shown]
  | none => [shown]

def sourceContext (source : String) (line : Nat) (col : Option Nat) : Option String :=
  let lines := Text.lines source
  if line < 1 || line > lines.length then none
  else
    let first := max 1 (line - radius)
    let last := min lines.length (line + radius)
    let width := (Nat.repr last).length
    let entries := ((List.range lines.length).map (· + 1)).zip lines
    let shown := (entries.take last).drop (first - 1)
    some (String.intercalate "\n" (shown.flatMap (numbered width line col)))

/-- The message of a condition that ended a run; `told` is what the condition says. -/
def explain (c : Condition) (told source : String) (trace : List String) : String :=
  let head := c.kind.name ++ ": " ++ told
  let domain := match c.domain with
    | some "" | none => ""
    | some d => " [domain " ++ d ++ "]"
  let place := match c.line with
    | none => []
    | some line =>
      let col := match c.col with
        | some n => ", col " ++ Nat.repr n
        | none => ""
      ("(line " ++ Nat.repr line ++ col ++ ")") :: (sourceContext source line c.col).toList
  let stack := if trace.isEmpty then [] else ["REXA stacktrace: " ++ String.intercalate " " trace]
  String.intercalate "\n" ((head ++ domain) :: place ++ stack)

end Report

end Conductor
