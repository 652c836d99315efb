import Conductor.Function.Host
import Conductor.Function.Builtin

/-!
# Function entries

What the resolver finds under a name: how the function takes its arguments, what it
is known as, and the routine that a call runs. An entry marked as an operation takes
named arguments only and produces no value.
-/

set_option autoImplicit false

namespace Conductor

structure Metadata where
  module : String := ""
  category : String := ""
  description : String := ""
  parameters : List String := []
  returns : String := ""
  examples : List String := []
  operation : Bool := false
  deriving Inhabited

inductive Tier
  | builtin
  | internal
  | required
  | addressMethod
  | capability
  | remote
  deriving DecidableEq, Repr, Inhabited

def Tier.name : Tier → String
  | builtin => "builtin"
  | internal => "internal"
  | required => "required"
  | addressMethod => "address-method"
  | capability => "capability"
  | remote => "remote"

/-- What a call runs. A script module is known by its place among the loaded ones. -/
inductive Routine
  | builtin (b : Builtin)
  | label (name : String)
  | host (f : HostFunction)
  | moduleLabel (module : Nat) (label : String)
  | method (domain method : String) (params : List String)
  | remote (name : String)
  | cancelRuns

structure Entry where
  name : String
  tier : Tier
  routine : Routine
  params : List String := []
  optional : List String := []
  namedOnly : List String := []
  variadic : Bool := false
  extraNamed : Bool := false
  pipeParam : Option String := none
  metadata : Option Metadata := none
  source : Option String := none

namespace Entry

def isOperation (e : Entry) : Bool :=
  match e.metadata with
  | some m => m.operation
  | none => false

def style (e : Entry) : String := if e.isOperation then "operation" else "function"

def ofHost (name : String) (tier : Tier) (f : HostFunction) (metadata : Option Metadata) (source : Option String) :
    Entry :=
  let s := f.signature
  { name := Text.upper name
    tier := tier
    routine := .host f
    params := (s.params ++ s.namedOnly).map Prod.fst
    optional := ((s.params ++ s.namedOnly).filter fun p => p.2.isSome).map Prod.fst
    namedOnly := s.namedOnly.map Prod.fst
    variadic := s.variadic.isSome
    extraNamed := s.extra.isSome
    pipeParam := f.pipe
    metadata := match metadata with
      | some m => some m
      | none => if f.operation then some { operation := true } else none
    source := source }

def ofBuiltin (b : Builtin) : Entry :=
  let d := b.describe
  { name := d.name
    tier := .builtin
    routine := .builtin b
    params := d.params.map Prod.fst
    optional := (d.params.filter Prod.snd).map Prod.fst
    variadic := d.variadic
    pipeParam := b.pipeParam
    metadata := some { module := "builtin", category := d.category, description := d.text, operation := b.isOperation }
    source := some "builtin" }

def open_ (name : String) (tier : Tier) (routine : Routine) (source : String) : Entry :=
  { name := name, tier := tier, routine := routine, variadic := true, extraNamed := true, source := some source }

end Entry

/-! ## Metadata from plain data -/

namespace Metadata

def textOf (t : Tree) : Except Failure String := t.asName

def texts (t : Option Tree) : Except Failure (List String) :=
  match t with
  | none => .ok []
  | some t => do
    let s ← t.toStem
    match t with
    | .dict entries => traverse (fun e => textOf e.1) entries
    | _ => traverse textOf (rawItems t s.items)
where
  rawItems (t : Tree) (fallback : List Tree) : List Tree :=
    match t with
    | .list items => items
    | _ => fallback

/-- Metadata described by a dictionary; a module that is empty there is the one given. -/
def ofTree (data : Tree) (module : String) : Except Failure Metadata := do
  let entries := match data with
    | .dict es => es
    | _ => []
  let field (k : String) : Option Tree := Tree.lookup? (.text k) entries
  let text (k : String) : Except Failure String :=
    match field k with
    | some t => textOf t
    | none => .ok ""
  let given ← match field "module" with
    | some t => if t.holds then textOf t else .ok module
    | none => .ok module
  let category ← text "category"
  let description ← text "description"
  let parameters ← texts (field "parameters")
  let returns ← text "returns"
  let examples ← texts (field "examples")
  let operation := match field "operation" with
    | some t => t.holds
    | none => false
  return { module := given, category, description, parameters, returns, examples, operation }

end Metadata

end Conductor
