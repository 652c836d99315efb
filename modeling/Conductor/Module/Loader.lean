import Conductor.Module.Location
import Conductor.Tree.Coerce

/-!
# The module graph

Every location that was asked for has a node; an edge leads from a module to each
location that it depends on. A node is loading from the moment its load begins to
the moment it is settled, and each load has a ticket under which its outcome can be
asked for; while it is under way, its ticket is pending at its location. Before a task
waits for a load that is under way, the graph is searched for a way back to the modules
that the task itself is loading, because such a wait would never end.
-/

set_option autoImplicit false

namespace Conductor.Module

inductive Status
  | pending
  | loading
  | loaded
  | failed
  deriving DecidableEq, Repr

def Status.name : Status → String
  | pending => "pending"
  | loading => "loading"
  | loaded => "loaded"
  | failed => "failed"

structure Node where
  identifier : String
  location : String
  status : Status := .pending
  functions : Table String Entry := []
  dependencies : List String := []
  error : Option Condition := none
  ticket : Nat := 0

abbrev Outcome := Except Condition (Table String Entry)

inductive Source
  | text (s : String)
  | module (m : HostModule)

def Source.hostModule : Source → HostModule
  | .module m => m
  | .text _ => {}

/-- The modules that a task is loading, the outermost first: identifier and location. -/
abbrev Stack := List (String × String)

structure Loader where
  registry : Option String := none
  httpConfig : Tree := .dict []
  sources : Option (Table String Source) := none
  hostModules : Table String HostModule := []
  nodes : Table String Node := []
  edges : Table String (List String) := []
  executions : Table String Nat := []
  fetched : List String := []
  tickets : Nat := 0
  /-- The tickets of the loads that are under way, by their locations. -/
  pending : Table String Nat := []
  outcomes : Table Nat Outcome := []
  /-- The failures of loads, with all that has become known of their places. -/
  failures : Table Nat Condition := []

namespace Loader

/-! ## Paths -/

/-- A search by breadth: `queue` holds paths, each with its latest location first. -/
def searchFrom (edges : Table String (List String)) (targets : List String) :
    Nat → List String → List (List String) → Option (List String)
  | 0, _, _ => none
  | _, _, [] => none
  | fuel + 1, seen, path :: queue =>
    let current := path.headD ""
    if targets.contains current then some path.reverse
    else
      let new := (Text.sorted ((edges.get? current).getD [])).filter fun n => !seen.contains n
      searchFrom edges targets fuel (seen ++ new) (queue ++ new.map (· :: path))

/-- A path along the edges to one of the targets; the start itself counts. -/
def pathTo? (l : Loader) (start : String) (targets : List String) : Option (List String) :=
  let size := (l.edges.map fun e => e.2.length + 1).foldl (· + ·) 0
  searchFrom l.edges targets (size + 2) [start] [[start]]

/-! ## Steps -/

inductive Entrance
  | ready (functions : Table String Entry)
  | circular (identifiers : List String)
  | busy (ticket : Nat)
  | fresh (ticket : Nat) (l : Loader)

def identifierOf (l : Loader) (location : String) : String :=
  ((l.nodes.get? location).map Node.identifier).getD location

def stackCycle? (stack : Stack) (identifier location : String) : Option (List String) :=
  match stack.dropWhile fun e => e.2 != location with
  | [] => none
  | rest => some (rest.map Prod.fst ++ [identifier])

/-- The identifiers of a cycle that runs through modules which other tasks are loading. -/
def sharedCycle? (l : Loader) (stack : Stack) (identifier location : String) : Option (List String) :=
  match l.pathTo? location (stack.map Prod.snd) with
  | none => none
  | some path =>
    let last := path.getLastD location
    let own := (stack.dropWhile fun e => e.2 != last).map Prod.fst
    some (own ++ [identifier] ++ (path.drop 1).map l.identifierOf)

/-- Asks for a module on behalf of a stack; a load that has to begin is entered in the graph. -/
def enter (l : Loader) (stack : Stack) (identifier location : String) : Entrance :=
  match stackCycle? stack identifier location with
  | some ids => .circular ids
  | none =>
    let fresh : Entrance :=
      let ticket := l.tickets
      let node : Node := { identifier, location, status := .loading, ticket }
      .fresh ticket
        { l with
          nodes := l.nodes.put location node
          tickets := ticket + 1
          pending := l.pending.put location ticket }
    match l.nodes.get? location with
    | some node =>
      match node.status with
      | .loaded => .ready node.functions
      | .loading =>
        match l.pending.get? location with
        | some ticket =>
          match l.sharedCycle? stack identifier location with
          | some ids => .circular ids
          | none => .busy ticket
        | none => fresh
      | _ => fresh
    | none => fresh

def update (l : Loader) (location : String) (f : Node → Node) : Loader :=
  match l.nodes.get? location with
  | some n => { l with nodes := l.nodes.put location (f n) }
  | none => l

def note (l : Loader) (c : Condition) : Loader :=
  match c.load with
  | some ticket => { l with failures := l.failures.put ticket c }
  | none => l

def latest (l : Loader) (c : Condition) : Condition :=
  match c.load.bind fun ticket => l.failures.get? ticket with
  | some known => c.withContext known.line known.function known.domain
  | none => c

def settle (l : Loader) (location : String) (ticket : Nat) (o : Outcome) : Loader :=
  let l := { l with outcomes := l.outcomes.put ticket o, pending := l.pending.erase location }
  match o with
  | .ok functions => l.update location fun n => { n with status := .loaded, functions := functions, error := none }
  | .error c => (l.update location fun n => { n with status := .failed, functions := [], error := some c }).note c

def addEdge (l : Loader) (source target : String) : Loader :=
  let old := (l.edges.get? source).getD []
  if old.contains target then l else { l with edges := l.edges.put source (old ++ [target]) }

def count (l : Loader) (location : String) : Loader :=
  { l with executions := l.executions.put location (((l.executions.get? location).getD 0) + 1) }

def setDependencies (l : Loader) (location : String) (deps : List String) : Loader :=
  l.update location fun n => { n with dependencies := deps }

def addDependency (l : Loader) (location dep : String) : Loader :=
  l.update location fun n => { n with dependencies := n.dependencies ++ [dep] }

end Loader

/-! ## Modules of the host -/

/-- Why a dotted name is no module of the host: the outermost part that is missing, or a part that
is a module without parts of its own. -/
def missing (known : List String) : List String → Failure
  | [] => .raised "ValueError" "Empty module name"
  | [name] => .noModule name
  | last :: outer =>
    let parent := String.intercalate "." outer.reverse
    if known.contains parent then
      .raised "ModuleNotFoundError" ("No module named " ++ Text.quoted (parent ++ "." ++ last) ++ "; " ++
        Text.quoted parent ++ " is not a package")
    else missing known outer

def Loader.hostModule (l : Loader) (name : String) : Except Failure HostModule :=
  if name.isEmpty then .error (missing [] [])
  else match l.hostModules.get? name with
    | some m => .ok m
    | none => .error (missing l.hostModules.keys (Text.pieces "." name).reverse)

/-- An export of a host module: a function, or something that cannot be called. -/
abbrev Export := String × Option HostFunction

end Conductor.Module

namespace Conductor.HostModule

open Conductor.Module (Export)

def isPrivate (name : String) : Bool := Text.startsWith name "_"

def expression (m : HostModule) (text : String) : Except Failure (Option HostFunction) :=
  match m.functions.lookup text with
  | some f => .ok (some f)
  | none =>
    if text.toList.all Char.isDigit then .ok none
    else .error (.raised "NameError" ("name " ++ Text.quoted text ++ " is not defined"))

/-- The exports of a host module: those it lists, or else its public functions. -/
def exports (m : HostModule) : Except Failure (List Export) :=
  match m.listed with
  | some names => traverse (fun e => do return (e.1, ← expression m e.2)) names
  | none => .ok ((m.functions.filter fun e => !isPrivate e.1).map fun e => (e.1, some e.2))

def requirements (m : HostModule) : Except Failure (List String) :=
  let holding (t : Option Tree) : Option Tree := t.bind fun t => if t.holds then some t else none
  match holding m.requires <|> holding m.dependencies with
  | none => .ok []
  | some (.text s) => .ok [s]
  | some t => do traverse Tree.asName (← t.elements)

def about (m : HostModule) (name : String) : Tree :=
  let found (k : String) : Option Tree := (m.metadata.lookup k).bind fun t => if t.holds then some t else none
  (found name <|> m.metadata.lookup (Text.upper name)).getD .absent

def entry (m : HostModule) (identifier location : String) (e : Export) : Except Problem Entry :=
  match e.2 with
  | none => .error (.condition { cause := .notCallable e.1 identifier })
  | some f => do
    let meta_ ← (Metadata.ofTree (about m e.1) identifier).mapError Problem.failure
    return Entry.ofHost e.1 .required f (some meta_) (some location)

def entries (m : HostModule) (exports : List Export) (identifier location : String) :
    Except Problem (Table String Entry) := do
  let es ← traverse (m.entry identifier location) exports
  return Table.ofEntries (es.map fun e => (e.name, e))

end Conductor.HostModule
