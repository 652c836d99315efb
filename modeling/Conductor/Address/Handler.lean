import Conductor.Function.Entry
import Conductor.Pattern
import Conductor.Syntax.Statement
import Conductor.Tree.Coerce

/-!
# Handlers

A handler answers for one or more domains. It reports what it is once, when it is
registered, and then takes requests. Two sorts of handler are known here: a table
of methods, and one with canned replies. A report that does not make sense is
refused with the first thing that is wrong with it.
-/

set_option autoImplicit false

namespace Conductor.Address

open Syntax (Mode)

/-- What a handler says of itself; the fields hold whatever data the handler put there. -/
inductive Report
  | info (name domains methods pattern : Tree)
  | other (kind : String)
  /-- From something that is no handler at all. -/
  | stranger (kind : String)

/-- A reply that a handler gives: data, or a reply whose parts are known. -/
inductive Reply
  | data (v : Value)
  | settled (success : Bool) (result error : Value)

structure Methods where
  name : String
  methods : List (String × HostFunction) := []
  command : Option HostFunction := none
  heredoc : Option HostFunction := none
  onMatch : Option HostFunction := none

inductive Service
  | methods (m : Methods)
  | canned (replies : List Reply) (raises : Option Problem)
  | none

structure Handler where
  report : Report
  service : Service

/-- A report that made sense. A handler without a table of methods declares none. -/
structure Info where
  name : String
  domains : List String
  methods : Option (List (String × List String)) := none
  pattern : Option String := none

structure Request where
  domain : String
  mode : String
  line : Option Nat := none
  delimiter : Option String := none

structure Call where
  method : String
  payload : Value
  request : Request

structure Context where
  domain : String
  mode : Mode := .function
  rule : Option String := none
  matcher : Option Pattern.Matcher := none

namespace Info

def textItems : List Tree → Option (List String)
  | [] => some []
  | .text s :: rest => if s.isEmpty then none else (textItems rest).map (s :: ·)
  | _ :: _ => none

def domainsOf (name : String) : Tree → Except Failure (List String)
  | .text s => if s.isEmpty then .error (.handlerWithoutDomain name) else .ok [s]
  | t => do
    let parts ← if t.holds then t.elements else .ok []
    match textItems parts with
    | some [] | none => .error (.handlerWithoutDomain name)
    | some names => .ok names

def paramsOf : Tree → List String
  | .list xs => xs.filterMap fun t => match t with
    | .text s => some s
    | _ => none
  | _ => []

def compile (rule domain : String) : Except Problem Pattern.Matcher :=
  match Pattern.compile rule with
  | .ok m => .ok m
  | .error f => .error (.condition { cause := .badRule rule (f.message rule), domain := some domain })

def ofReport (r : Report) : Except Problem Info :=
  match r with
  | .stranger kind => .error (.failure (.notAHandler kind))
  | .other kind => .error (.failure (.notHandlerInfo kind))
  | .info name domains methods pattern => do
    let name ← match name with
      | .text s => if s.isEmpty then .error (.failure .handlerWithoutName) else .ok s
      | _ => .error (.failure .handlerWithoutName)
    let domains ← (domainsOf name domains).mapError .failure
    let methods ← match methods with
      | .scalar .absent => .ok none
      | .dict es => .ok (some (es.filterMap fun e => match e.1 with
          | .text k => some (k, paramsOf e.2)
          | _ => none))
      | _ => .error (.failure (.handlerMethods name))
    let pattern ← match pattern with
      | .text rule => do
        discard (compile rule (domains.headD ""))
        .ok (some rule)
      | _ => .ok none
    return { name, domains, methods, pattern }

end Info

def Methods.report (m : Methods) (name domains pattern : Tree) : Report :=
  .info name domains
    (.dict (m.methods.map fun e =>
      (.text e.1, .list ((e.2.signature.params ++ e.2.signature.namedOnly).map fun p => .text p.1))))
    pattern

def Methods.find? (m : Methods) (name : String) : Option HostFunction :=
  match m.methods.lookup name with
  | some f => some f
  | none => (m.methods.find? fun e => Text.lower e.1 == Text.lower name).map Prod.snd

def Methods.target (m : Methods) (method : String) (payload : Value) (r : Request) :
    Option (HostFunction × Arguments) :=
  match r.delimiter with
  | some d => m.heredoc.map fun f => (f, { placed := [.text d, payload] })
  | none =>
    match r.mode == "pattern", payload with
    | true, .dict es => m.onMatch.map fun f =>
        let entry (k : String) : Value := (field k es).getD .absent
        (f, { placed := [entry "line", entry "groups", entry "named"] })
    | _, _ =>
      match (if r.mode == "function" then m.find? method else none) with
      | some f =>
        match payload with
        | .dict es => some (f, { named := es.filterMap fun e => (name? e.1).map fun k => (k, e.2) })
        | v => some (f, { placed := [v] })
      | none => m.command.map fun f => (f, { placed := [.text method] })
where
  name? : Value → Option String
    | .scalar (.text s) => some s
    | _ => none
  field (k : String) : List (Value × Value) → Option Value
    | [] => none
    | (k', v) :: rest => if name? k' == some k then some v else field k rest

end Conductor.Address
