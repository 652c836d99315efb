import Conductor.Run.Eval

/-!
# Executing statements

What each statement does to the session. Before a statement runs, a cancellation
that was asked for takes effect, and at times the other tasks get their turn; in
pattern mode its text may be a request instead.
A statement ends normally or with a signal: leaving a loop, going on with its next
round, returning, ending the program, jumping to a label, or a problem.
-/

set_option autoImplicit false

namespace Conductor

open Syntax (Expr Ref CommandForm BlockLiteral Statement Place Source LoopHead AddressAction SignalAction
  InterpolationAction)

namespace Play

def labelIndex (label : String) (line : Option Nat) : Play Nat := do
  match (← session).labels.lookup (Text.upper label) with
  | some i => return i
  | none => causeAt (.labelNotFound label) line

def isPaused : Play Bool := do
  let m ← get
  return m.session.isMain && m.world.paused

def isCancelled : Play Bool := do
  let m ← get
  return m.session.isMain && m.world.cancelled

/-- Whether so many statements have begun that the other tasks get their turn. -/
def isDue : Play Bool := do return (← session).isDue

def yieldIf (c : Play Bool) : Play Unit := do
  if ← c then Run.await .turn

def withhold (p : Place) : Play Unit := do
  if ← isCancelled then
    modifySession fun s => { s with withheld := s.withheld + 1 }
    causeAt .cancelled (some p.line)

/-- Where a statement begins: a paused run waits for its next turn, a cancelled one withholds the statement,
and any other counts it. The other tasks may get a turn after that, so a cancellation that they ask for finds
the statement begun. -/
def checkpoint (p : Place) : Play Unit := do
  yieldIf isPaused
  withhold p
  modifySession fun s => { s with statements := s.statements + 1 }
  yieldIf isDue
  modifySession fun s => { s with line := some p.line }

/-! ## Requests -/

def isDefault : Play Bool := do return (← session).dispatcher.isDefault

def mode : Play Syntax.Mode := do return (← session).dispatcher.context.mode

def request (send : Play Value) : Play Value := do
  let v ← send
  storeResult v
  return v

def sendBlock (b : BlockLiteral) : Play Value := do
  let content ← interpolate b.content
  dispatch b.delimiter (.text content) (some (← mode).name) (some b.line) (some b.delimiter) none

def requestArgs (o : Outer) (args : List Syntax.Arg) : Play (Table String Value × List Value) := do
  let values ← args.mapM fun a => do
    let v ← eval o a.2
    return (a.1, ← plain v)
  let named := values.filterMap fun e => e.1.map fun name => (name, e.2)
  return (Table.ofEntries named, (values.filter fun e => e.1.isNone).map Prod.snd)

/-- The payload of a request: the arguments by place take the parameters that no name has taken. -/
def requestPayload (params : List String) (named : Table String Value) (placed : List Value) :
    Table String Value :=
  let free := params.filter fun p => !named.contains p
  let table := Table.putAll named (free.zip placed)
  let surplus := placed.drop free.length
  if surplus.isEmpty then table else table.put "args" (.list surplus)

def sendForm (o : Outer) (c : CommandForm) (line : Nat) : Play Value := do
  let params := (← session).dispatcher.methodParams c.method none
  let (named, placed) ← requestArgs o c.args
  let payload := requestPayload params named placed
  dispatch c.method (.dict (payload.map fun e => (.text e.1, e.2))) (some "function") (some line) none none

/-- The text of a command: literals and concatenations are evaluated, anything else is sent as it is
written. -/
def commandText (o : Outer) (e : Option Expr) (raw : String) : Play String := do
  match e with
  | some (.literal l pos) => text (← eval o (.literal l pos))
  | some (.binary .concat left right pos) => text (← eval o (.binary .concat left right pos))
  | _ => interpolate raw

def sendCommand (command : String) (line : Nat) (domain : Option String) : Play Value :=
  dispatch command .absent (some "command") (some line) none domain

def sendMatched (p : Place) : Play Bool := do
  match (← session).dispatcher.match? p.text with
  | none => return false
  | some m =>
    let part (s : Option String) : Value := match s with
      | some t => .text t
      | none => .absent
    let payload : Value := .dict [(.text "line", .text p.text), (.text "groups", .list (m.groups.map part)),
      (.text "named", .dict (m.named.map fun e => (.text e.1, part e.2)))]
    discard (request (dispatch p.text payload (some "pattern") (some p.line) none none))
    return true

/-! ## Single statements -/

/-- Whether a symbol on the right of an assignment names a method of the current handler. -/
def isBareMethod (r : Ref) : Play Bool := do
  if !r.tail.isEmpty then return false
  if ← memory (Memory.has r.name) then return false
  if ← isDefault then return false
  return (← mode) == .function

def sourceValue (o : Outer) (source : Source) (line : Nat) : Play Value := do
  match source with
  | .block b => if ← isDefault then blockValue b else request (sendBlock b)
  | .command c => if ← isDefault then callNamed o c.method c.args false line else request (sendForm o c line)
  | .expr (.ref r) =>
    if ← isBareMethod r then request (sendForm o { method := r.name, args := [], pos := r.pos } line)
    else readRef r
  | .expr e => eval o e

def addressTo (o : Outer) (action : AddressAction) (line : Nat) : Play Unit := do
  let switch (domain mode rule : Option String) : Play Unit := do
    let d ← liftP ((← session).dispatcher.switch domain mode rule)
    modifySession fun s => { s with dispatcher := d }
  let act : Play Unit := match action with
    | .reset => switch none none none
    | .switch domain mode rule => do
      let rule ← match rule with
        | some e => do pure (some (← text (← eval o e)))
        | none => pure none
      switch (some domain) (mode.map Syntax.Mode.name) rule
    | .send domain command => do
      let command ← text (← eval o command)
      discard (request (sendCommand command line (some domain)))
  inContext act fun c => if c.kind == .addressHandler then c.atLine (some line) else c

def signalWith (action : SignalAction) (line : Nat) : Play Unit := do
  match action with
  | .on trap label =>
    discard (labelIndex label (some line))
    modifySession fun s => { s with traps := s.traps.put trap label }
  | .off trap => modifySession fun s => { s with traps := s.traps.erase trap }
  | .goto label =>
    discard (labelIndex label (some line))
    throw (.jump label (some line))

def setInterpolation (action : InterpolationAction) (line : Nat) : Play Unit := do
  let e := (← session).interpolation
  let outcome := match action with
    | .register name start stop => e.register name start stop
    | .activate name => e.activate name
    | .sample sample => e.activateSample sample
  match outcome with
  | .ok (_, e) => modifySession fun s => { s with interpolation := e }
  | .error c => causeAt c (some line)

def bindArguments : List String → List Value → Play Unit
  | [], _ => return ()
  | name :: names, v :: rest => do
    write name v
    bindArguments names rest
  | name :: names, [] => do
    if !(← memory (Memory.has name)) then write name (.text "")
    bindArguments names []

def execClause (o : Outer) (expr : Option Expr) (command : Option CommandForm) (error : Option Condition)
    (p : Place) : Play Unit := do
  let m ← mode
  if (← isDefault) || m == .pattern then
    match error with
    | some c => raise c
    | none =>
      let v ← match command, expr with
        | some c, _ => callNamed o c.method c.args true p.line
        | none, some (.call name args _) => callNamed o name args true p.line
        | none, some e => eval o e
        | none, none => pure (.text "")
      write "RESULT" v
  else
    let raw : Play Unit := do
      let command ← commandText o expr p.text
      discard (request (sendCommand command p.line none))
    match m, command, expr with
    | .function, some c, _ => discard (request (sendForm o c p.line))
    | .function, none, some (.call name args pos) => write "RESULT" (← eval o (.call name args pos))
    | .function, none, some (.pipe left name args callPos pos) =>
      write "RESULT" (← eval o (.pipe left name args callPos pos))
    | _, _, _ => raw

/-! ## Loops -/

/-- One round of a loop; the answer says whether the loop may go on. -/
def round (body : Play Unit) : Play Bool :=
  tryCatch (do body; return true) fun signal =>
    match signal with
    | .leave => return false
    | .iterate => return true
    | signal => throw signal

def rounds (step : Play Bool) : Nat → Play Unit
  | 0 => throw .exhausted
  | n + 1 => do
    if ← step then rounds step n

def times (body : Play Unit) : Nat → Play Unit
  | 0 => return ()
  | n + 1 => do
    if ← round body then times body n

def eachItem (r : String × List Tree) (body : Play Unit) : List Value → Play Unit
  | [] => return ()
  | v :: rest => do
    memory (Memory.write r.1 v r.2)
    if ← round body then eachItem r body rest

def rangeFrom (r : String × List Tree) (stop : Option Number) (step : Number) (body : Play Unit) :
    Nat → Number → Play Unit
  | 0, _ => throw .exhausted
  | n + 1, current => do
    let within := match stop with
      | none => true
      | some stop => if step.gt (.int 0) then current.le stop else current.ge stop
    memory (Memory.write r.1 (.ofNumber current) r.2)
    if within then
      if ← round body then
        let reached ← number (← memory (Memory.read r.1 r.2))
        rangeFrom r stop step body n (← liftE (reached.add step))

def countOf (n : Number) (line : Nat) : Play Nat := do
  let bad : Play Nat := do causeAt (.badCount (← liftE n.text)) (some line)
  if n.lt (.int 0) then bad
  else
    let i ← liftE n.truncate
    if (Number.int i).eq n then return i.toNat else bad

def loopOver (o : Outer) (var : Ref) (collection : Expr) (line : Nat) (body : Play Unit) : Play Unit := do
  match ← eval o collection with
  | .stem a =>
    let s := (← world).store.get a
    let items := if s.items.isEmpty then s.named.map fun e => Value.text e.1 else s.items
    let tail ← tailOf var
    eachItem (var.name, tail) body items
  | v => causeAt (.overNeedsStem (Text.quoted (← text v))) (some line)

def loopRange (o : Outer) (var : Ref) (start : Expr) (stop step : Option Expr) (line : Nat) (body : Play Unit) :
    Play Unit := do
  let tail ← tailOf var
  let first ← number (← eval o start)
  let limit ← match stop with
    | some e => do pure (some (← number (← eval o e)))
    | none => pure none
  let width ← match step with
    | some e => number (← eval o e)
    | none => pure (.int 1)
  if width.isZero then causeAt .zeroStep (some line)
  rangeFrom (var.name, tail) limit width body o.rounds first

def runLoop (o : Outer) (head : LoopHead) (line : Nat) (body : Play Unit) : Play Unit := do
  match head with
  | .block => discard (round body)
  | .forever => rounds (round body) o.rounds
  | .count e => times body (← countOf (← number (← eval o e)) line)
  | .while condition =>
    rounds (do if ← truthy (← eval o condition) then round body else return false) o.rounds
  | .until condition =>
    rounds (do if ← round body then return !(← truthy (← eval o condition)) else return false) o.rounds
  | .range var start stop step => loopRange o var start stop step line body
  | .over var collection => loopOver o var collection line body

def inLoop (x : Play Unit) : Play Unit := do
  modifySession fun s => { s with loopDepth := s.loopDepth + 1 }
  x.leaving fun m => { m with session := { m.session with loopDepth := m.session.loopDepth - 1 } }

def loopSignal (signal : Signal) (action : String) (line : Nat) : Play Unit := do
  if (← session).loopDepth == 0 then causeAt (.outsideLoop action) (some line) else throw signal

/-! ## All statements -/

/-- Runs a statement at its place: the text of a statement that pattern mode sends is not executed. -/
def atPlace (p : Place) (sendable : Bool) (body : Play Unit) : Play Unit := do
  checkpoint p
  if sendable then
    if ← sendMatched p then return ()
  body

mutual
def exec (o : Outer) : Statement → Play Unit
  | .assign target source _ p => atPlace p true do
    let v ← sourceValue o source p.line
    writeRef target v
  | .say e p => atPlace p true do emit "stdout" (← text (← eval o e))
  | .cond condition thenBody elseBody p => atPlace p true do
    if ← truthy (← eval o condition) then execAll o thenBody else execAll o elseBody
  | .loop head body p => atPlace p true (inLoop (runLoop o head p.line (execAll o body)))
  | .leave p => atPlace p true (loopSignal .leave "LEAVE" p.line)
  | .iterate p => atPlace p true (loopSignal .iterate "ITERATE" p.line)
  | .call name args p => atPlace p true do write "RESULT" (← callNamed o name args true p.line)
  | .address action p => atPlace p false (addressTo o action p.line)
  | .block literal p => atPlace p true do
    if ← isDefault then write "RESULT" (← blockValue literal) else discard (request (sendBlock literal))
  | .signal action p => atPlace p true (signalWith action p.line)
  | .ret value exit p => atPlace p true do
    let v ← match value with
      | some e => eval o e
      | none => pure (.text "")
    throw (if exit then .exit v else .ret v)
  | .label _ p => atPlace p false (return ())
  | .arg names p => atPlace p true do bindArguments names (((← session).args.head?).getD [])
  | .require identifier p => atPlace p true do
    let name ← text (← eval o identifier)
    requireModule o name (some p.line)
  | .interpolation action p => atPlace p true (setInterpolation action p.line)
  | .clause expr command error p => atPlace p true (execClause o expr command error p)
  | .nop p => atPlace p true (return ())

def execAll (o : Outer) : List Statement → Play Unit
  | [] => return ()
  | s :: rest => do
    exec o s
    execAll o rest
end

end Play

end Conductor
