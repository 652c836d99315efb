import Conductor.Address.Handler
import Conductor.Document.Exchange
import Conductor.Files

/-!
# Hosts described by data

Functions, modules and handlers of an embedding program can be described by plain
data instead of being supplied as code: a function by its parameters and by what it
does, a module by the functions it exports, a handler by its methods or by the
replies it gives. The values in a description are exchange documents; stems among
them live in the store.
-/

set_option autoImplicit false

namespace Conductor

abbrev Described := StateM Store

namespace Description

def field (t : Tree) (k : String) : Tree := (t.field? k).getD .absent

def has (t : Tree) (k : String) : Bool := (t.field? k).isSome

def text? : Tree → Option String
  | .text s => some s
  | _ => none

def text (t : Tree) : String := (text? t).getD ""

def items : Tree → List Tree
  | .list xs => xs
  | _ => []

def fields : Tree → List (String × Tree)
  | .dict entries => entries.map fun e => (text e.1, e.2)
  | _ => []

def value (t : Tree) : Described Value := fun store => Store.plant (Exchange.decode t) store

def parameter (t : Tree) : Described (String × Option Value) :=
  match t with
  | .list [name, default] => do return (text name, some (← value default))
  | .list [name] => return (text name, none)
  | t => return (text t, none)

def secondsOf (t : Tree) : Number :=
  match Exchange.decode t with
  | .int n => .int n
  | .float x => .float x
  | _ => .int 0

def behaviour (t : Tree) : Described Behaviour :=
  match items t with
  | [.text "const", v] => do return .constant (← value v)
  | [.text "get", name] => return .select (text name)
  | .text "sum" :: names => return .sum (names.map text)
  | [.text "raise", kind, message] => return .raise (.named (text kind) (text message))
  | [.text "cancel"] => return .cancel
  | [.text "pause"] => return .pause
  | [.text "sleep", seconds] => return .sleep (secondsOf seconds)
  | _ => return .arguments

def function (name : String) (t : Tree) : Described HostFunction := do
  let params ← (items (field t "params")).mapM parameter
  let namedOnly ← (items (field t "kwonly")).mapM parameter
  let behaviour ← behaviour (field t "do")
  return { name, behaviour, operation := (field t "operation").holds, pipe := text? (field t "pipe")
           signature := { params, namedOnly, variadic := text? (field t "variadic"), extra := text? (field t "extra") } }

def functions (t : Tree) : Described (List (String × HostFunction)) :=
  (fields t).mapM fun e => do return (e.1, ← function e.1 e.2)

def raised? (t : Tree) : Option Raise :=
  match t.field? "raise" with
  | some (.list [kind, message]) => some (.named (text kind) (text message))
  | _ => none

def module (t : Tree) : Described HostModule := do
  return { functions := ← functions (field t "exports")
           listed := (t.field? "as").map fun l => (fields l).map fun e => (e.1, text e.2)
           requires := t.field? "requires"
           dependencies := t.field? "dependencies"
           metadata := fields (field t "metadata")
           raises := raised? t }

def content (t : Tree) : Described Content :=
  match t, Exchange.decode t with
  | .text s, _ => return .bytes s.toUTF8.toList
  | _, .scalar (.bytes data) => return .bytes data
  | t, _ => do return .module (← module t)

def reply (t : Tree) : Described Address.Reply := do
  match t.field? "reply" with
  | some r => return .settled (field r "success").holds (← value (field r "result")) (← value (field r "error"))
  | none => return .data (← value t)

def function? (t : Tree) (k : String) : Described (Option HostFunction) := do
  if (field t k).holds then return some (← function k (field t k)) else return none

/-- A handler: a table of methods, canned replies, or something that is no handler. -/
def handler (t : Tree) : Described Address.Handler := do
  match text (field t "type") with
  | "object" => return { report := .stranger "object", service := .none }
  | "static" =>
    let report : Address.Report := match field t "info" with
      | .dict info => .info (field (.dict info) "id") (field (.dict info) "domains") (field (.dict info) "methods")
          (field (.dict info) "pattern")
      | other => .other (Exchange.decode other).kindName
    let replies ← (items (field t "replies")).mapM reply
    let raised : Option Problem := match t.field? "raise" with
      | some (.list [kind, message]) => some (.raisedWith (text kind) (Exchange.decode message))
      | _ => none
    return { report, service := .canned replies raised }
  | _ =>
    let methods : Address.Methods :=
      { name := text (field t "id"), methods := ← functions (field t "methods"), command := ← function? t "command"
        heredoc := ← function? t "heredoc", onMatch := ← function? t "on_match" }
    return { report := methods.report (field t "id") (field t "domains") (field t "pattern"), service := .methods methods }

end Description

end Conductor
