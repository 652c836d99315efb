import Conductor.Config
import Conductor.Run.Load

/-!
# Running scripts

A session made from settings runs scripts one after the other: variables, address
and libraries stay, effects and control start afresh. Every problem of a script
becomes a fault in its report; what can still fail is the writing of the report
itself, and what interrupts a run passes through.
-/

set_option autoImplicit false

namespace Conductor

namespace Session

def domainOf : Tree → Except Problem String
  | .text s => .ok s
  | t => .error (.failure (.raised "AttributeError" ("'" ++ t.kindName ++ "' object has no attribute 'upper'")))

def engineOf (t : Tree) : Except Problem Interpolation.Engine := do
  let name ← t.asName.mapError .failure
  match Interpolation.Engine.initial.activate name with
  | .ok (_, e) => .ok e
  | .error _ => .error (.ofCause (.unknownPattern (← t.quoted.mapError .failure)))

/-- A session with the given settings; a channel of its own goes before the one that the settings name. -/
def ofConfig (c : Config) (channel : Option Channel) : Except Problem Session := do
  let channel ← match channel with
    | some ch => .ok (some ch)
    | none => if c.remoteUrl.holds then do .ok (some (.http (← c.remoteUrl.asName.mapError .failure))) else .ok none
  let domain ← domainOf c.defaultDomain
  let interpolation ← engineOf c.interpolationPattern
  return {
    dispatcher := .initial domain (c.dispatchTimeout.map .float)
    interpolation
    channel
    resolver := { hasRemote := channel.isSome, fallbackOrder := c.fallbackOrder, autoload := c.autoload }
    yieldInterval := c.yieldInterval
    isMain := true }

end Session

def Store.argumentText (store : Store) : Value → Except Failure String
  | .stem a => .ok (Printer.size (store.get a).count (!(store.get a).named.isEmpty))
  | v => do Printer.argument (← store.tree v)

def Frame.traced (store : Store) (f : Frame) : Except Failure String := do
  return Printer.call (some f.name) (← traverse store.argumentText f.args)

namespace Play

def trace : Play (List String) := do
  let calls := (← session).calls.reverse
  liftE (traverse (Frame.traced (← world).store) calls)

def faultOf (c : Condition) (source : String) : Play Fault := do
  let line := (← session).line
  let c ← if c.kind == .parse then pure c else placed (·.atLine line) c
  modifySession fun s => { s with context := some ⟨c.line, c.function, c.domain⟩ }
  let told ← liftE c.spoken.asName
  let message := Report.explain c told source (← trace)
  emit "stderr" message
  return { message, kind := c.kind.name, line := c.line, col := c.col, function := c.function, domain := c.domain
           payload := c.payload }

def verdict (x : Play Value) (source : String) : Play Verdict :=
  tryCatch (do return .success (← x)) fun signal => do
    match signal with
    | .problem (.condition c) => return .error (← faultOf c source)
    | .problem (.failure f) =>
      if f.interrupts then failure f
      else
        let c : Condition := { cause := .internal f, line := (← session).line }
        return .error (← faultOf c source)
    | signal => throw signal

def runScript (source : String) (args : List Value) (cancelFirst : Bool) : Play Report := do
  modifySession fun s => { s with effects := #[], calls := [], context := none }
  modifyWorld fun w => { w with runners := w.runners + 1 }
  let run : Play Value := do
    let program ← liftP (Syntax.parse source)
    runProgram (outer horizon) program args false cancelFirst
  let v ← (verdict run source).leaving fun m => { m with world := { m.world with runners := m.world.runners - 1 } }
  return { verdict := v, effects := (← session).effects.toList }

/-- Runs a computation that nothing runs beside. A run that goes on for ever is a failure. -/
def attempt {α : Type} (x : Play α) (m : Machine) : Except Problem α × Machine :=
  match (x m).alone with
  | .done a m => (.ok a, m)
  | .fail (.problem p) m => (.error p, m)
  | .fail _ m | .stuck m => (.error (.failure .endless), m)

end Play

end Conductor
