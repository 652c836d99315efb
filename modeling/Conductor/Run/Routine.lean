import Conductor.Run.Exec

/-!
# Programs and routines

A program is a flat list of statements, and a label is a place in it. Calling a label
runs the statements after it in a scope of their own, with copies of the arguments,
until one returns or the program ends; whatever happens inside, the caller's scope,
arguments, loops and address are as they were. Jumps and traps belong to the top
level alone: wherever a jump or a trapped condition arises, the top level goes on at
the label.
-/

set_option autoImplicit false

namespace Conductor

open Syntax (Program Statement Trap)

def callLimit : Nat := 100

namespace Play

def loadProgram (p : Program) : Play Unit :=
  modifySession fun s =>
    let labels := p.labels
    { s with
      program := p.toArray
      labels := labels
      resolver := { s.resolver with
        internal := labels.map fun e => (Text.upper e.1, Entry.open_ e.1 .internal (.label e.1) "script") } }

def statementsFrom (index : Nat) : Play (List Statement) := do return (← session).program.toList.drop index

def routine (o : Outer) (body : List Statement) : Play Value :=
  tryCatch (do execAll o body; return .text "") fun signal =>
    match signal with
    | .ret v => return v
    | signal => throw signal

def leaveRoutine (before after : Session) : Session :=
  { after with
    args := after.args.tail
    callDepth := after.callDepth - 1
    loopDepth := before.loopDepth
    dispatcher := { after.dispatcher with context := before.dispatcher.context } }

def leftRoutine (o : Outer) (body : List Statement) (before : Session) : Play Value :=
  (routine o body).leaving fun m => { m with session := leaveRoutine before m.session }

/-- The scope and the arguments of a call: copies of what the caller gave. -/
def enterRoutine (a : Arguments) : Play Unit := do
  memory (Memory.seed a.named)
  let args ← a.placed.mapM fun v => memory (Memory.copy v)
  modifySession fun s => { s with args := args :: s.args, callDepth := s.callDepth + 1, loopDepth := 0 }

def callLabel (o : Outer) (name : String) (a : Arguments) : Play Value := do
  let s ← session
  let index ← labelIndex name s.line
  if s.callDepth ≥ callLimit then causeAt (.callDepth name) s.line
  let body ← statementsFrom (index + 1)
  (do
    enterRoutine a
    leftRoutine o body s).leaving fun m => { m with session := { m.session with scope := s.scope } }

/-! ## The top level -/

/-- Makes a condition known to the program: its context, and the variables that describe it. -/
def describe (c : Condition) : Play Unit := do
  let line : Value := match c.line with
    | some n => .ofNat n
    | none => .text ""
  modifySession fun s => { s with context := some ⟨c.line, c.function, c.domain⟩ }
  write "RC" (.int 1)
  write "SIGL" line
  write "ERROR_KIND" (.text c.kind.name)
  write "ERROR_MESSAGE" (← plant c.spoken)
  write "ERROR_LINE" line
  write "ERROR_FUNCTION" (.text (c.function.getD ""))
  write "ERROR_DOMAIN" (.text (c.domain.getD ""))

/-- How a stretch of the top level ended: with a value, or with a place to go on from. -/
inductive Stop
  | value (v : Value)
  | resume (index : Nat)

def trapFor (c : Condition) : Trap := if c.kind == .cancellation then .halt else .error

def takeTrap (c : Condition) (label : String) : Play Stop := do
  let line := (← session).line
  let c ← placed (·.atLine line) c
  let trap := trapFor c
  modifySession fun s => { s with traps := s.traps.erase trap }
  if trap == .halt then
    if (← session).isMain then modifyWorld fun w => { w with cancelled := false }
    modifySession fun s => { s with halting := some c }
  describe c
  modifySession fun s => { s with calls := [], loopDepth := if trap == .error then 0 else s.loopDepth }
  return .resume ((← labelIndex label none) + 1)

def stopOn (signal : Signal) : Play Stop := do
  match signal with
  | .ret v => return .value v
  | .jump label line =>
    modifySession fun s => { s with calls := [] }
    return .resume ((← labelIndex label line) + 1)
  | .problem (.condition c) =>
    match (← session).traps.get? (trapFor c) with
    | some label => takeTrap c label
    | none => throw signal
  | signal => throw signal

def stretch (o : Outer) (body : List Statement) : Play Stop :=
  tryCatch (do execAll o body; return .value (.text "")) stopOn

def beforeLabel : List Statement → List Statement
  | [] => []
  | .label _ _ :: _ => []
  | s :: rest => s :: beforeLabel rest

def topLevel (o : Outer) (stopAtLabel : Bool) : Nat → Nat → Play Value
  | 0, _ => throw .exhausted
  | n + 1, index => do
    let rest ← statementsFrom index
    match ← stretch o (if stopAtLabel then beforeLabel rest else rest) with
    | .value v => return v
    | .resume next => topLevel o stopAtLabel n next

def untilExit (x : Play Value) : Play Value :=
  tryCatch x fun signal =>
    match signal with
    | .exit v => return v
    | signal => throw signal

/-- A cancellation that the program trapped is raised again at its end. -/
def raiseHalted : Play Unit := do
  match (← session).halting with
  | some c =>
    modifySession fun s => { s with halting := none }
    raise c
  | none => return ⟨⟩

def runProgram (o : Outer) (p : Program) (args : List Value) (stopAtLabel cancelFirst : Bool) : Play Value := do
  loadProgram p
  modifySession fun s =>
    { s with traps := [], args := [args], calls := [], loopDepth := 0, callDepth := 0, halting := none }
  if (← session).isMain then modifyWorld fun w => { w with cancelled := cancelFirst }
  let v ← untilExit (topLevel o stopAtLabel o.rounds 0)
  raiseHalted
  return v

end Play

end Conductor
