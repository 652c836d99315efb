import Conductor.Run.Routine

/-!
# Loading modules

A load reads the source of a module, makes its dependencies available and gives the
functions that it exports. A module of the host lists its dependencies; a script
module runs its top level once, in a session of its own, and exports its labels.
A load that fails ends in a module condition: the conditions of loading keep what
they say, anything else becomes the cause of a new one. A load that is interrupted
leaves a condition to those who wait for it and goes on with what interrupted it. Each call of a script
module's label runs in a fresh session.
-/

set_option autoImplicit false

namespace Conductor

open Conductor.Module (Location Source Stack Outcome)

namespace Play

def readSource (l : Location) : Play Source := do
  match l.origin with
  | .url =>
    match (← world).loader.sources with
    | some table =>
      onLoader fun loader => { loader with fetched := loader.fetched ++ [l.text] }
      Run.await .turn
      match table.get? l.text with
      | some source => return source
      | none => failure (.raised "RuntimeError" ("no such module: " ++ l.text))
    | none =>
      let config := (← world).loader.httpConfig
      return .text (← awaited (onHttp (Http.fetchText l.text config)))
  | _ =>
    let files := (← world).files
    match files.content? l.text with
    | some (.module m) => return .module m
    | _ => return .text (← liftE (files.readText none l.text))

def requireAll (o : Outer) (location : String) (base : Option String) (stack : Stack) : List String → Play Unit
  | [] => return ()
  | dep :: rest => do
    discard (requireDependency o location dep base stack)
    requireAll o location base stack rest

def loadHost (o : Outer) (m : HostModule) (identifier location : String) (base : Option String) (stack : Stack) :
    Play (Table String Entry) := do
  if let some e := m.raises then throw (.problem e.problem)
  let exports ← liftE m.exports
  onLoader fun l => l.count location
  let deps ← liftE m.requirements
  onLoader fun l => l.setDependencies location deps
  requireAll o location base stack deps
  liftP (m.entries exports identifier location)

def moduleSession (sourceDir : String) (required : List Entry) (purpose : Purpose) : Session :=
  { sourceDir := some sourceDir, purpose := purpose, resolver := { required := Registry.addAll [] required } }

def exportedLabel (index : Nat) (identifier location label : String) : Entry :=
  { Entry.open_ label .required (.moduleLabel index label) location with
    metadata := some { module := identifier, category := "script" } }

def loadScript (o : Outer) (source identifier : String) (l : Location) (stack : Stack) :
    Play (Table String Entry) := do
  let program ← liftP (Syntax.parse source)
  let dir := Module.parentOf (← world).files l
  onLoader fun loader => (loader.setDependencies l.text []).count l.text
  let (_, final) ← within (moduleSession dir [] (.module l.text stack)) (runProgram o program [] true false)
  let index := (← world).modules.size
  modifyWorld fun w =>
    { w with modules := w.modules.push { program, sourceDir := dir, required := final.resolver.required.values } }
  return program.labels.map fun e => (e.1, exportedLabel index identifier l.text e.1)

def loadFresh (o : Outer) (identifier : String) (l : Location) (base : Option String) (stack : Stack) :
    Play (Table String Entry) := do
  match l.origin, l.language with
  | .host, _ =>
    let m ← liftE ((← world).loader.hostModule (Text.dropChars 3 l.text))
    loadHost o m identifier l.text base stack
  | _, .host =>
    let source ← readSource l
    loadHost o source.hostModule identifier l.text (some (Module.parentOf (← world).files l)) stack
  | _, .script =>
    match ← readSource l with
    | .text source => loadScript o source identifier l stack
    | .module _ => loadScript o "" identifier l stack

def loadCondition (identifier : String) : Problem → Condition
  | .condition c =>
    if c.kind.isModuleLoad then c else { cause := .loadFailed identifier c.kind.name c.message }
  | .failure f =>
    if f.interrupts then { cause := .loadInterrupted identifier }
    else { cause := .loadFailed identifier f.kind f.message }

def outcome (x : Play (Table String Entry)) : Play (Except Problem (Table String Entry)) :=
  tryCatch (do return .ok (← x)) fun signal =>
    match signal with
    | .problem p => return .error p
    | signal => throw signal

/-- What a load is settled with: the failure of a load knows which load it is of. -/
def settlement (identifier : String) (ticket : Nat) (ended : Except Problem (Table String Entry)) : Outcome :=
  ended.mapError fun p =>
    let c := loadCondition identifier p
    { c with load := c.load <|> some ticket }

/-- What a load comes to for whoever began it: its result, unless it was interrupted. -/
def release (ended : Except Problem (Table String Entry)) (result : Outcome) : Play (Table String Entry) :=
  match ended with
  | .error (.failure f) => if f.interrupts then failure f else liftC result
  | _ => liftC result

def load (o : Outer) (identifier : String) (base : Option String) (stack : Stack) : Play (Table String Entry) := do
  let l ← locate identifier base
  match (← world).loader.enter stack identifier l.text with
  | .ready functions => return functions
  | .circular identifiers => cause (.cycle identifiers)
  | .busy ticket =>
    Run.await (.load ticket)
    match (← world).loader.outcomes.get? ticket with
    | some result => liftC (result.mapError (← world).loader.latest)
    | none => throw .exhausted
  | .fresh ticket loader =>
    modifyWorld fun w => { w with loader := loader }
    let ended ← outcome (loadFresh o identifier l base (stack ++ [(identifier, l.text)]))
    let result := settlement identifier ticket ended
    onLoader fun loader => loader.settle l.text ticket result
    release ended result

def callModule (o : Outer) (index : Nat) (label : String) (a : Arguments) : Play Value := do
  match (← world).modules[index]? with
  | none => return .absent
  | some m =>
    let call : Play Value := do
      loadProgram m.program
      untilExit (callLabel o (Text.upper label) a)
    return (← within (moduleSession m.sourceDir m.required .script) call).1

/-- The program around an expression, to a depth of calls and loads. -/
def outer : Nat → Outer
  | 0 =>
    { label := fun _ _ => throw .exhausted
      moduleLabel := fun _ _ _ => throw .exhausted
      load := fun _ _ _ => throw .exhausted
      rounds := 0 }
  | n + 1 =>
    { label := fun name a => callLabel (outer n) name a
      moduleLabel := fun index label a => callModule (outer n) index label a
      load := fun identifier base stack => load (outer n) identifier base stack
      rounds := n }

def horizon : Nat := Nat.pow 2 40

end Play

end Conductor
