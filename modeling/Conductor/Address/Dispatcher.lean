import Conductor.Address.Handler
import Conductor.Tree.Shown

/-!
# The dispatcher

The table of handlers by domain and the current address context. In the default
domain statements run natively; everywhere else the context says how they are sent.
A handler stands in the table by its number, under each of its domains.
-/

set_option autoImplicit false

namespace Conductor.Address

open Syntax (Mode)

structure Dispatcher where
  defaultDomain : String := "DEFAULT"
  timeout : Option Number := none
  handlers : Table String (Nat × Info) := []
  context : Context := { domain := "DEFAULT" }

namespace Dispatcher

def initial (defaultDomain : String) (timeout : Option Number) : Dispatcher :=
  let d := Text.upper defaultDomain
  { defaultDomain := d, timeout := timeout, context := { domain := d } }

def isDefault (d : Dispatcher) : Bool := d.context.domain == d.defaultDomain

def register (d : Dispatcher) (number : Nat) (r : Report) : Except Problem (Info × Dispatcher) := do
  let info ← Info.ofReport r
  let handlers := info.domains.foldl (fun t name => t.put (Text.upper name) (number, info)) d.handlers
  return (info, { d with handlers := handlers })

def unregister (d : Dispatcher) (domain : String) : Dispatcher :=
  { d with handlers := d.handlers.erase (Text.upper domain) }

def domains (d : Dispatcher) : List String := Text.sorted d.handlers.keys

def handlerFor (d : Dispatcher) (domain : String) : Except Problem (Nat × Info) :=
  match d.handlers.get? (Text.upper domain) with
  | some found => .ok found
  | none => .error (.condition { cause := .noHandler domain, domain := some domain })

/-- Selects a domain; no domain, or the default one, returns to native execution. -/
def switch (d : Dispatcher) (domain : Option String) (mode : Option String) (rule : Option String) :
    Except Problem Dispatcher :=
  let native : Dispatcher := { d with context := { domain := d.defaultDomain } }
  match domain with
  | none => .ok native
  | some name =>
    if Text.upper name == d.defaultDomain then .ok native
    else do
      let (_, info) ← d.handlerFor name
      let word := match mode with
        | some "" | none => "function"
        | some w => Text.lower w
      match Mode.ofName? word with
      | none => .error (.condition { cause := .unknownMode word, domain := some name })
      | some .pattern =>
        let rule := match rule with
          | some "" | none => info.pattern
          | r => r
        match rule with
        | some "" | none => .error (.condition { cause := .needsRule name, domain := some name })
        | some rule =>
          let matcher ← Info.compile rule name
          .ok { d with context := { domain := Text.upper name, mode := .pattern, rule := some rule, matcher := some matcher } }
      | some mode => .ok { d with context := { domain := Text.upper name, mode := mode } }

/-- Matches the text of a statement against the rule of pattern mode. -/
def match? (d : Dispatcher) (text : String) : Option Pattern.Match :=
  match d.context.mode, d.context.matcher with
  | .pattern, some m => m.match? (Text.strip text)
  | _, _ => none

def methodParams (d : Dispatcher) (method : String) (domain : Option String) : List String :=
  let domain := match domain with
    | some "" | none => d.context.domain
    | some name => name
  match d.handlers.get? (Text.upper domain) with
  | some (_, { methods := some ms, .. }) =>
    ((ms.find? fun e => Text.upper e.1 == Text.upper method).map Prod.snd).getD []
  | _ => []

/-- The entry of a method that the current handler declares. -/
def methodNamed? (d : Dispatcher) (name : String) : Option Entry :=
  if d.isDefault then none
  else match d.handlers.get? d.context.domain with
    | some (_, { methods := some ms, name := source, .. }) =>
      (ms.find? fun e => Text.upper e.1 == Text.upper name).map fun e =>
        { name := Text.upper e.1, tier := .addressMethod, routine := .method d.context.domain e.1 e.2
          params := e.2, optional := e.2, extraNamed := true, source := some source }
    | _ => none

end Dispatcher

end Conductor.Address
