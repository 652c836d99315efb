import Conductor.Function.Binding
import Conductor.Function.Resolver
import Conductor.Http
import Conductor.Interpolation
import Conductor.Module.Loader
import Conductor.Moment
import Conductor.Report
import Conductor.Run.Step
import Conductor.Syntax.Program

/-!
# The state of a run

A session is what one runner owns: its variables, its program, its address context
and the marks of control flow. The world is what runners share: the store, the
files, the web, the module graph and the handlers. A script module runs in a
session of its own, with nothing of its caller's but the world.
-/

set_option autoImplicit false

namespace Conductor

open Syntax (Program Trap)
open Address (Dispatcher Handler Call)

structure Frame where
  name : String
  args : List Value

structure ErrorContext where
  line : Option Nat
  function : Option String
  domain : Option String

inductive Channel
  | canned
  | http (url : String)

/-- What a requirement in a session belongs to: the session alone, or a module that is being loaded. -/
inductive Purpose
  | script
  | module (location : String) (stack : Module.Stack)

structure Session where
  scope : Scope := []
  program : Array Syntax.Statement := #[]
  labels : List (String × Nat) := []
  resolver : Resolver := {}
  channel : Option Channel := none
  dispatcher : Dispatcher := {}
  interpolation : Interpolation.Engine := Interpolation.Engine.initial
  sourceDir : Option String := none
  purpose : Purpose := .script
  isMain : Bool := false
  effects : Array Effect := #[]
  calls : List Frame := []
  context : Option ErrorContext := none
  traps : Table Trap String := []
  args : List (List Value) := [[]]
  /-- After so many statements the other tasks get their turn; never, if it is zero. -/
  yieldInterval : Int := 64
  line : Option Nat := none
  statements : Nat := 0
  /-- The statements that were not begun because the run was cancelled. -/
  withheld : Nat := 0
  loopDepth : Nat := 0
  callDepth : Nat := 0
  halting : Option Condition := none

/-- Whether the statements begun so far are so many that the other tasks get their turn. -/
def Session.isDue (s : Session) : Bool := s.yieldInterval != 0 && (s.statements : Int) % s.yieldInterval == 0

/-- A script module that was loaded: its program, its place and the libraries it required. -/
structure ScriptModule where
  program : Program
  sourceDir : String
  required : List Entry

structure World where
  store : Store := {}
  files : Files := {}
  http : Http := {}
  environ : Table String String := []
  loader : Module.Loader := {}
  modules : Array ScriptModule := #[]
  handlers : Array Handler := #[]
  calls : Array (List Call) := #[]
  replies : Array Nat := #[]
  channelReplies : List Value := []
  channelSent : List Value := []
  cancelled : Bool := false
  paused : Bool := false
  runners : Nat := 0
  now : Moment := {}
  /-- The files that were looked for. -/
  sought : List String := []

structure Machine where
  session : Session := {}
  world : World := {}

inductive Signal
  | leave
  | iterate
  | ret (v : Value)
  | exit (v : Value)
  | jump (label : String) (line : Option Nat)
  | problem (p : Problem)
  | exhausted

def Signal.interruption : Signal := .problem (.failure (.raised "CancelledError" ""))

abbrev Play := Run Machine Signal

namespace Play

def raise {α : Type} (c : Condition) : Play α := throw (.problem (.condition c))

def cause {α : Type} (c : Cause) : Play α := raise { cause := c }

def causeAt {α : Type} (c : Cause) (line : Option Nat) : Play α := raise { cause := c, line := line }

def failure {α : Type} (f : Failure) : Play α := throw (.problem (.failure f))

def liftE {α : Type} : Except Failure α → Play α
  | .ok a => pure a
  | .error f => failure f

def liftP {α : Type} : Except Problem α → Play α
  | .ok a => pure a
  | .error p => throw (.problem p)

def liftC {α : Type} : Except Condition α → Play α
  | .ok a => pure a
  | .error c => raise c

def session : Play Session := do return (← get).session

def world : Play World := do return (← get).world

def modifySession (f : Session → Session) : Play Unit := modify fun m => { m with session := f m.session }

def modifyWorld (f : World → World) : Play Unit := modify fun m => { m with world := f m.world }

def memory {α : Type} (act : Memory.Act α) : Play α := fun m =>
  let mem : Memory := { scope := m.session.scope, store := m.world.store }
  let m : Machine := { session := { m.session with scope := [] }, world := { m.world with store := {} } }
  let restore (mem : Memory) : Machine :=
    { session := { m.session with scope := mem.scope }, world := { m.world with store := mem.store } }
  match act mem with
  | .ok a mem => .done a (restore mem)
  | .error p mem => .fail (.problem p) (restore mem)

def tree (v : Value) : Play Tree := memory (Memory.tree v)

def text (v : Value) : Play String := do liftE (← tree v).shown

def number (v : Value) : Play Number := do liftP (← tree v).number

/-- Whether a value holds. Of a stem that is a question of its size, whatever it contains. -/
def truthy (v : Value) : Play Bool := do
  match v with
  | .stem a =>
    let s := (← world).store.get a
    return s.count > 0 || !s.named.isEmpty
  | v => liftE (← tree v).truthy

def plant (t : Tree) : Play Value := memory (Memory.plant t)

def plain (v : Value) : Play Value := do liftE ((← world).store.plain v)

def normalize (v : Value) : Play Value := memory (Memory.normalize v)

def write (name : String) (v : Value) : Play Unit := memory (Memory.write name v [])

def onHttp {α : Type} (f : Http → Except Failure α × Http) : Play α := do
  let (result, http) := f (← world).http
  modifyWorld fun w => { w with http := http }
  liftE result

def emit (topic message : String) : Play Unit :=
  modifySession fun s => { s with effects := s.effects.push ⟨[topic], message⟩ }

/-- Fills in the place of a condition. The failure of a load is one for all who wait for it, so what
one of them fills in is known to the others. -/
def placed (f : Condition → Condition) (c : Condition) : Play Condition := do
  let c := f c
  modifyWorld fun w => { w with loader := w.loader.note c }
  return c

def inContext {α : Type} (x : Play α) (f : Condition → Condition) : Play α :=
  tryCatch x fun e => do match e with
    | .problem (.condition c) => raise (← placed f c)
    | e => throw e

def storeResult (v : Value) : Play Unit := do
  write "RESULT" v
  write "RC" (.int 0)

def seek (path : String) : Play Unit := modifyWorld fun w => { w with sought := path :: w.sought }

def requestCancel : Play Unit := modifyWorld fun w => { w with cancelled := true, paused := false }

def requestPause : Play Unit := modifyWorld fun w => { w with paused := true }

/-- Lets the other tasks have their turn before a computation that reaches the outside. -/
def awaited {α : Type} (x : Play α) : Play α := do
  Run.await .turn
  x

/-- Runs a computation in another session; afterwards the session that was there is back. The other
session's final state comes with the result. -/
def within {α : Type} (s : Session) (x : Play α) : Play (α × Session) := do
  let saved ← session
  modifySession fun _ => s
  (do
    let a ← x
    return (a, ← session)).leaving fun m => { m with session := saved }

end Play

end Conductor
