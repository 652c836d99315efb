import Conductor.Run.Machine

/-!
# Sending requests

A request goes to the handler of a domain, and its reply settles into a value or
into a condition: whatever a handler does, nothing else can come of it. The same
holds for calls that go to the orchestrator over the control channel.
-/

set_option autoImplicit false

namespace Conductor

open Address (Handler Request Reply Service Methods)

namespace Play

inductive Answer
  | reply (r : Reply)
  | raised (p : Problem)
  | late

def problemData (p : Problem) : Tree :=
  .dict [(.text "kind", .text p.kindName), (.text "message", .text p.message)]

def outlasts (seconds : Number) : Option Number → Bool
  | some limit => !limit.isZero && seconds.gt limit
  | none => false

/-- What comes of a request before its handler begins, given the time for its answer. The answer of a
table of methods is awaited: less than no time is over at once, and a time beyond every double cannot
be waited. Other handlers answer on the spot. -/
def beforehand : Service → Option Number → Option Answer
  | .methods _, some limit =>
    if limit.isZero then none
    else if limit.lt (.int 0) then some .late
    else match limit.toFloat with
      | .ok _ => none
      | .error f => some (.raised (.failure f))
  | _, _ => none

def refused (error : Tree) : Play Answer := do return .reply (.settled false .absent (← plant error))

def callMethods (m : Methods) (method : String) (payload : Value) (r : Request) (limit : Option Number) :
    Play Answer :=
  match m.target method payload r with
  | none => refused (.dict [(.text "kind", .text "UnknownMethod"),
      (.text "message", .text (m.name ++ " has no method " ++ Text.quoted method))])
  | some (f, args) =>
    match f.call args with
    | .value v => return .reply (.settled true v .absent)
    | .problem p =>
      if p.interrupts then return .raised p
      else match p.shown with
        | .ok _ => refused (problemData p)
        | .error f => return .raised (.failure f)
    | .cancel => do
      requestCancel
      return .reply (.settled true (.text "cancelling") .absent)
    | .pause => do
      requestPause
      return .reply (.settled true (.int 1) .absent)
    | .sleep seconds => return if outlasts seconds limit then .late else .reply (.settled true (.text "slept") .absent)

def nextReply (number : Nat) (replies : List Reply) : Play Reply := do
  let i := (← world).replies.getD number 0
  modifyWorld fun w => { w with replies := w.replies.setIfInBounds number (i + 1) }
  return (replies[min i (replies.length - 1)]?).getD (.data .absent)

def record (number : Nat) (method : String) (payload : Value) (r : Request) : Play Unit :=
  modifyWorld fun w => { w with calls := w.calls.modify number (· ++ [⟨method, payload, r⟩]) }

def askHandler (number : Nat) (method : String) (payload : Value) (r : Request) (limit : Option Number) :
    Play Answer := do
  match (← world).handlers[number]? with
  | none => return .reply (.data .absent)
  | some h =>
    match beforehand h.service limit with
    | some answer => return answer
    | none =>
      record number method payload r
      match h.service with
      | .methods m => callMethods m method payload r limit
      | .canned _ (some p) => return .raised p
      | .canned replies none => return .reply (← nextReply number replies)
      | .none => return .reply (.data .absent)

def valueAt? (k : String) : List (Value × Value) → Option Value
  | [] => none
  | (.scalar (.text s), v) :: rest => if s == k then some v else valueAt? k rest
  | _ :: rest => valueAt? k rest

/-- A reply with its parts known: data is one if it is a dictionary that says whether it succeeded. -/
def coerce (domain : String) : Reply → Play (Bool × Value × Value)
  | .settled success result error => return (success, result, error)
  | .data (.dict entries) => do
    match valueAt? "success" entries with
    | some s => return ((← tree s).holds, (valueAt? "result" entries).getD .absent, (valueAt? "error" entries).getD .absent)
    | none => malformed (.dict entries)
  | .data v => malformed v
where
  malformed (v : Value) : Play (Bool × Value × Value) := do
    let t ← tree v
    let shown ← liftE t.quoted
    raise { cause := .malformedReply domain shown, domain := some domain, payload := some t }

def errorMessage? (error : Tree) : Play (Option Tree) := do
  let given (name : String) : Option Tree := (error.field? name).filter Tree.holds
  match error with
  | .dict _ => return given "message" <|> given "kind"
  | t => if t.holds then return some (.text (← liftE t.asName)) else return none

def limitText : Option Number → Except Failure String
  | some (.float x) => .ok (Decimal.exactText x)
  | some n => n.text
  | none => .ok "None"

def invoke (method : String) (payload : Value) (mode : Option String) (line : Option Nat)
    (delimiter domain : Option String) : Play Value := do
  let d := (← session).dispatcher
  let domain := Text.upper (match domain with
    | some "" | none => d.context.domain
    | some name => name)
  let (number, info) ← liftP (d.handlerFor domain)
  let mode := match mode with
    | some "" | none => d.context.mode.name
    | some m => m
  let place (c : Condition) : Condition := c.withContext line none (some domain)
  let late : Play Value := do
    let seconds ← liftE (limitText d.timeout)
    raise
      { cause := .timedOut info.name seconds, line := line, domain := some domain
        payload := some (.dict [(.text "kind", .text "Timeout"), (.text "message", .text ("timed out after " ++ seconds ++ "s"))]) }
  match ← askHandler number method payload { domain, mode, line, delimiter } d.timeout with
  | .late => late
  | .raised (.condition c) =>
    if c.kind == .addressHandler then raise (place c)
    else wrapped (.condition c) place
  | .raised p =>
    if p.interrupts then liftP (.error p)
    else if p.kindName == "TimeoutError" then late
    else wrapped p place
  | .reply r =>
    let (success, result, error) ← coerce domain r
    if success then normalize result
    else
      let error ← tree error
      match ← errorMessage? error with
      | some m => raise (place { cause := .reported m.toldText, payload := some error, said := m.untold })
      | none => raise (place { cause := .handlerFailed info.name, payload := some error })
where
  wrapped (p : Problem) (place : Condition → Condition) : Play Value := do
    let message ← liftE p.shown
    raise (place { cause := .reported (if message.isEmpty then p.kindName else message), payload := some (problemData p) })

def dispatch (method : String) (payload : Value) (mode : Option String) (line : Option Nat)
    (delimiter domain : Option String) : Play Value :=
  awaited (invoke method payload mode line delimiter domain)

/-! ## The control channel -/

def ask (channel : Channel) (message : Tree) : Play Value := do
  match channel with
  | .http url => plant (← onHttp (Http.post url message []))
  | .canned =>
    let sent ← plant message
    let w ← world
    let i := w.channelSent.length
    modifyWorld fun w => { w with channelSent := w.channelSent ++ [sent] }
    return (w.channelReplies[min i (w.channelReplies.length - 1)]?).getD .absent

def callRemote (channel : Channel) (name : String) (a : Arguments) : Play Value := do
  let placed ← a.placed.mapM plain
  let named ← a.named.mapM fun e => do return (Value.text e.1, ← plain e.2)
  let message ← tree (.dict [(.text "type", .text "call"), (.text "function", .text name),
    (.text "args", .list placed), (.text "kwargs", .dict named)])
  let reply ← tree (← ask channel message)
  match reply with
  | .dict _ =>
    if ((reply.field? "success").getD .absent).holds then plant ((reply.field? "result").getD .absent)
    else
      let error := (reply.field? "error").getD .absent
      let error ← match error with
        | .dict _ => pure error
        | e => if e.holds then do pure (Tree.dict [(.text "message", .text (← liftE e.asName))]) else pure (.dict [])
      let given := (error.field? "message").getD .absent
      let message := if given.holds then given else .text ("Remote call " ++ name ++ " failed")
      let text := message.toldText
      let unknown := match error.field? "kind" with
        | some (.text "UnknownFunctionError") => true
        | _ => false
      raise { cause := if unknown then .remoteUnknown text else .reported text
              function := some name, payload := some error, said := message.untold }
  | other => raise { cause := .malformedChannelReply name, function := some name, payload := some other }

end Play

end Conductor
