import Conductor.Document.Structured
import Conductor.Tree.Coerce
import Conductor.Url

/-!
# Requests on the web

The transport is a table of canned replies, one list to an address: each request
takes the next one and the last one repeats. A request is tried again after a
failure of the transport, and outside of the two modes that report the status also
after a status of the server's own making, with pauses that double. The log of what
was sent and the pauses are kept.
-/

set_option autoImplicit false

namespace Conductor

namespace Http

structure Response where
  status : Nat := 200
  body : List UInt8 := []
  headers : List (String × String) := []

inductive Reply
  | response (r : Response)
  | broken (kind message : String)

structure Sent where
  method : String
  url : String
  body : List UInt8
  contentType : Option String

/-- How much of a response is handed on: the body alone, the status with it, or the headers too. -/
inductive ResponseMode
  | lite
  | full
  | none
  deriving DecidableEq, Repr

def ResponseMode.name : ResponseMode → String
  | lite => "lite"
  | full => "full"
  | none => "none"

structure Settings where
  retries : Nat := 2
  backoff : Float := 0.2
  headers : List (String × String) := []
  params : List (String × String) := []
  mode : Option ResponseMode := none

end Http

structure Http where
  table : Table String (List Http.Reply) := []
  sent : List Http.Sent := []
  pauses : List Float := []

namespace Http

/-! ## Settings -/

def modeNamed? (s : String) : Option ResponseMode :=
  match Text.lower (Text.strip s) with
  | "lite" => some .lite
  | "full" => some .full
  | "none" => some .none
  | _ => none

def modeOf (settings : Tree) : Except Failure (Option ResponseMode) :=
  let given := match settings.field? "response-mode" with
    | some t => some t
    | none => settings.field? "response_mode"
  let isTrue (k : String) : Bool := match settings.field? k with
    | some (.bool true) => true
    | _ => false
  match given with
  | none | some .absent =>
    .ok (if isTrue "lite" then some .lite else if isTrue "full" then some .full else none)
  | some t => do return modeNamed? (← t.asName)

def texts (t : Option Tree) : Except Failure (List (String × String)) :=
  match t with
  | some (.dict entries) => traverse (fun e => do return (← e.1.asName, ← e.2.asName)) entries
  | _ => .ok []

def paramText : Tree → Except Failure String
  | .bool b => .ok (if b then "true" else "false")
  | .absent => .ok ""
  | t => t.asName

/-- The parameters of an address; a list of values stands for as many parameters. -/
def paramTexts (t : Option Tree) : Except Failure (List (String × String)) :=
  match t with
  | some (.dict entries) => do
    let params ← traverse (fun e => do
      let name ← e.1.asName
      let values := match e.2 with
        | .list items => items
        | v => [v]
      traverse (fun v => do return (name, ← paramText v)) values) entries
    return params.flatten
  | _ => .ok []

def Settings.ofTree (t : Tree) : Except Failure Settings := do
  discard (((t.field? "timeout").getD (.float 5.0)).asFloat)
  let retries ← ((t.field? "retries").getD (.int 2)).asInteger
  let backoff ← ((t.field? "backoff").getD (.float 0.2)).asFloat
  let headers ← texts (t.field? "headers")
  let params ← paramTexts (t.field? "params")
  let mode ← modeOf t
  return { retries := retries.toNat, backoff, headers, params, mode }

/-! ## Headers -/

def folded (headers : List (String × String)) : Table String String :=
  headers.foldl (fun t e =>
    let k := Text.lower e.1
    match Table.get? k t with
    | some v => Table.put k (v ++ ", " ++ e.2) t
    | none => Table.put k e.2 t) []

def header? (headers : List (String × String)) (name : String) : Option String := (folded headers).get? name

/-- A response from its body: the length follows the other headers unless the body is empty. -/
def Response.ofBody (status : Nat) (body : List UInt8) (headers : List (String × String)) : Response :=
  { status := status, body := body
    headers := if body.isEmpty then headers else headers ++ [("content-length", Nat.repr body.length)] }

def Response.contentType (r : Response) : String := (header? r.headers "content-type").getD ""

def Response.text (r : Response) : String := Charset.decode r.body r.contentType

def Response.data (r : Response) (raw : Bool) : Except Failure Tree :=
  if raw then .ok (.text r.text) else Structured.decode r.text r.contentType none

def Response.isSuccess (r : Response) : Bool := 200 ≤ r.status && r.status < 300

/-! ## Exchanges -/

def absentReply : Reply := .response (.ofBody 404 "not here".toUTF8.toList [])

def takeReply (url : String) (table : Table String (List Reply)) : Reply × Table String (List Reply) :=
  match table.get? url with
  | some (r :: r' :: rest) => (r, table.put url (r' :: rest))
  | some [r] => (r, table)
  | _ => (absentReply, table)

def sendOne (s : Sent) (http : Http) : Reply × Http :=
  let (reply, table) := takeReply s.url http.table
  (reply, { http with table := table, sent := http.sent ++ [s] })

def redirected? (s : Sent) (r : Response) : Option Sent :=
  if [301, 302, 303, 307, 308].contains r.status then
    (header? r.headers "location").map fun target =>
      let toGet := (r.status == 303 || r.status == 302) && s.method != "HEAD" || r.status == 301 && s.method == "POST"
      { s with url := Url.join s.url target
               method := if toGet then "GET" else s.method
               body := if toGet then [] else s.body
               contentType := if toGet then none else s.contentType }
  else none

def send : Nat → Sent → Http → Reply × Http
  | 0, _, http => (.broken "TooManyRedirects" "Exceeded maximum allowed redirects.", http)
  | fuel + 1, s, http =>
    match sendOne s http with
    | (.response r, http) =>
      match redirected? s r with
      | some s' => send fuel s' http
      | none => (.response r, http)
    | found => found

def exchange (s : Sent) (http : Http) : Reply × Http := send 21 s http

def isTransport (kind : String) : Bool := kind != "TooManyRedirects" && kind != "DecodingError"

def retryable (reportsStatus : Bool) : Reply → Bool
  | .response r => !reportsStatus && r.status ≥ 500
  | .broken kind _ => isTransport kind

def reportsStatus (mode : Option ResponseMode) : Bool := mode == some .lite || mode == some .full

def conclude (settings : Settings) (raw : Bool) (url : String) : Reply → Except Failure Tree
  | .broken _ message => .error (.badHttp ("HTTP request to " ++ url ++ " failed: " ++ message))
  | .response r =>
    if reportsStatus settings.mode then do
      let body ← r.data raw
      return .list [.int r.status, body, .dict ((folded r.headers).map fun e => (.text e.1, .text e.2))]
    else if r.isSuccess then r.data raw
    else .error (.badHttp ("HTTP " ++ Nat.repr r.status ++ " for " ++ url ++ ": " ++ Text.takeChars 200 r.text))

/-- The pause after an attempt; the power of two is an integer until it meets the backoff. -/
def pauseAfter (backoff : Float) (attempt : Nat) : Except Failure Float := do
  return backoff * (← (Number.int (Nat.pow 2 attempt)).toFloat)

def tryRequest (settings : Settings) (raw : Bool) (url : String) (s : Sent) :
    Nat → Nat → Http → Except Failure Tree × Http
  | left, attempt, http =>
    let (reply, http) := exchange s http
    match left with
    | 0 => (conclude settings raw url reply, http)
    | left + 1 =>
      if retryable (reportsStatus settings.mode) reply then
        match pauseAfter settings.backoff attempt with
        | .error e => (.error e, http)
        | .ok pause =>
          tryRequest settings raw url s left (attempt + 1) { http with pauses := http.pauses ++ [pause] }
      else (conclude settings raw url reply, http)

/-- The request that settings make; a body without a type is plain text. -/
def Settings.toSend (settings : Settings) (method url : String) (body : Option (List UInt8)) : Sent :=
  let headers := if body.isSome && !settings.headers.any (fun e => e.1 == "Content-Type") then
      settings.headers ++ [("Content-Type", "text/plain; charset=utf-8")] else settings.headers
  { method := Text.upper method, url := Url.withParams url settings.params, body := body.getD []
    contentType := header? headers "content-type" }

def request (method url : String) (config : Tree) (body : Option (List UInt8)) (raw : Bool) (http : Http) :
    Except Failure Tree × Http :=
  match Settings.ofTree config with
  | .error e => (.error e, http)
  | .ok settings =>
    tryRequest settings raw url (settings.toSend method url body) settings.retries 0 http

def fetchText (url : String) (config : Tree) (http : Http) : Except Failure String × Http :=
  match request "GET" url config none true http with
  | (.ok (.text s), http) => (.ok s, http)
  | (.ok (.list (_ :: .text s :: _)), http) => (.ok s, http)
  | (.ok _, http) => (.ok "", http)
  | (.error e, http) => (.error e, http)

/-! ## The control channel -/

def channelError (message : String) : Tree :=
  .dict [(.text "success", .bool false),
    (.text "error", .dict [(.text "kind", .text "ChannelError"), (.text "message", .text message)])]

mutual
def allFinite : Tree → Bool
  | .scalar (.float x) => (Decimal.parts? x).isSome
  | .scalar _ => true
  | .stem items named => allFiniteAll items && allFiniteNamed named
  | .list items => allFiniteAll items
  | .dict entries => allFiniteEntries entries

def allFiniteAll : List Tree → Bool
  | [] => true
  | t :: rest => allFinite t && allFiniteAll rest

def allFiniteNamed : List (String × Tree) → Bool
  | [] => true
  | (_, t) :: rest => allFinite t && allFiniteNamed rest

def allFiniteEntries : List (Tree × Tree) → Bool
  | [] => true
  | (_, t) :: rest => allFinite t && allFiniteEntries rest
end

def channelReply (url : String) : Reply → Tree
  | .broken _ message => channelError message
  | .response r =>
    if !r.isSuccess then channelError ("HTTP " ++ Nat.repr r.status ++ " from " ++ url)
    else
      let parsed : Except Failure Tree := match Charset.utf8Fault? r.body with
        | some what => .error (.undecodable what)
        | none => Json.parse (Charset.utf8 r.body)
      match parsed with
      | .error _ => channelError "reply is not JSON"
      | .ok (.dict entries) => .dict entries
      | .ok t => .dict [(.text "success", .bool true), (.text "result", t)]

def post (url : String) (message : Tree) (headers : List (String × String)) (http : Http) :
    Except Failure Tree × Http :=
  if !allFinite message then
    (.error (.raised "ValueError" "Out of range float values are not JSON compliant"), http)
  else match Json.write .compact message with
    | .error e => (.error e, http)
    | .ok text =>
      let s : Sent := { method := "POST", url := url, body := text.toUTF8.toList
                        contentType := some ((header? headers "content-type").getD "application/json") }
      let (reply, http) := exchange s http
      (.ok (channelReply url reply), http)

end Http

end Conductor
