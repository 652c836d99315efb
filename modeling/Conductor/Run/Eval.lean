import Conductor.Operator
import Conductor.Run.Require

/-!
# Evaluating expressions

The value of an expression in the current session, by recursion on the expression. A
call resolves its name first and evaluates its arguments after that; a failure from
below the language becomes a condition where the call is.
-/

set_option autoImplicit false

namespace Conductor

open Syntax (Expr Ref Arg CommandForm BlockLiteral)

namespace Play

/-! ## Symbols and texts -/

def interpolate (s : String) : Play String := do
  memory (Interpolation.apply (← session).interpolation.active s)

/-- A segment of a tail: the text of the scalar variable of that name, or the segment itself. -/
def segment (s : String) : Play Tree := do
  if s.toList.all Text.isDigit then return .text s
  let v ← memory (Memory.read s [])
  if v.isUnbound || v.isStem then return .text s
  return .text (← text v)

def tailOf (r : Ref) : Play (List Tree) := r.tail.mapM segment

/-- The value of a symbol; one that is not bound stands for itself if it is simple. -/
def readRef (r : Ref) : Play Value := do
  let tail ← tailOf r
  let v ← memory (Memory.read r.name tail)
  if v.isUnbound then return .text (if tail.isEmpty then r.symbol else "")
  return v

def writeRef (r : Ref) (v : Value) : Play Unit := do
  let tail ← tailOf r
  memory (Memory.write r.name v tail)

/-- The value of a block literal: the data that it holds, or its text where it is not well formed. -/
def blockValue (b : BlockLiteral) : Play Value := do
  let s ← interpolate b.content
  match b.structured with
  | none => return .text s
  | some format =>
    tryCatch (do normalize (← plant (← liftE (Structured.parse s format)))) fun signal =>
      match signal with
      | .problem (.failure f) => if f.isMalformedText then return .text s else throw signal
      | _ => throw signal

/-! ## Calls -/

def resolve (o : Outer) (name : String) (line : Option Nat) : Play Entry := do
  let unknown (e : Option Entry) : Play Entry :=
    match e with
    | some e => return e
    | none => raise { cause := .unknownFunction name, line := line, function := some name }
  match ← localEntry name with
  | some e => return e
  | none =>
    match (← session).resolver.autoload.get? (Text.upper name) with
    | none => unknown ((← session).resolver.fallbacks? name)
    | some identifier =>
      requireModule o identifier none
      match ← localEntry name with
      | some e => return e
      | none => unknown ((← session).resolver.fallbacks? name)

def callHost (f : HostFunction) (a : Arguments) : Play Value :=
  match f.call a with
  | .value v => return v
  | .problem p => throw (.problem p)
  | .cancel => do
    requestCancel
    return .text "cancelling"
  | .pause => do
    requestPause
    return .int 1
  | .sleep _ => return .text "slept"

def cancelRuns : Play Value := do
  let n := (← world).runners
  if n > 0 then requestCancel
  return .ofNat n

/-- Runs the routine of an entry; its result is brought into the language. -/
def perform (o : Outer) (e : Entry) (a : Arguments) : Play Value := do
  let v ← match e.routine with
    | .builtin b => if b.isAwaited then awaited (builtin b a) else builtin b a
    | .label name => o.label name a
    | .host f => awaited (callHost f a)
    | .moduleLabel index label => o.moduleLabel index label a
    | .method domain method params => do
      let payload ← liftE (a.payload (← world).store params)
      dispatch method (.dict (payload.map fun p => (.text p.1, p.2))) (some "function") none none (some domain)
    | .remote name => do
      match (← session).channel with
      | some channel => awaited (callRemote channel name a)
      | none => pure .absent
    | .cancelRuns => cancelRuns
  normalize v

/-- Calls an entry with evaluated arguments. The frame of a call that fails stays for the report. -/
def apply (o : Outer) (e : Entry) (supplied : List Supplied) (piped : Option Value) (asStatement : Bool)
    (line : Option Nat) : Play Value := do
  let place (c : Condition) : Condition := c.withContext line (some e.name) none
  let a ← match e.bind supplied piped asStatement with
    | .ok a => pure a
    | .error c => raise (place c)
  modifySession fun s => { s with calls := ⟨e.name, a.all⟩ :: s.calls }
  let v ← tryCatch (perform o e a) fun signal =>
    match signal with
    | .problem (.condition c) => do raise (← placed place c)
    | .problem (.failure f) =>
      if f.interrupts then failure f
      else raise { cause := .functionFailed e.name f, line := line, function := some e.name }
    | signal => throw signal
  modifySession fun s => { s with calls := s.calls.tail }
  return v

/-! ## Expressions -/

def binary (op : Syntax.BinaryOp) (line : Nat) (a b : Value) : Play Value := do
  let x ← tree a
  let y ← tree b
  match Operator.binary op x y with
  | .ok s => return .scalar s
  | .error (.condition c) => raise (c.atLine (some line))
  | .error (.failure f) =>
    if f.isArithmetic then causeAt (.arithmetic op.symbol f) (some line) else failure f

def unary (op : Syntax.UnaryOp) (line : Nat) (a : Value) : Play Value := do
  match op with
  | .not => return .ofBool !(← truthy a)
  | op =>
    match Operator.unary op (← tree a) with
    | .ok s => return .scalar s
    | .error (.condition c) => raise (c.atLine (some line))
    | .error (.failure f) => failure f

mutual
def eval (o : Outer) : Expr → Play Value
  | .literal (.number n) _ => return .ofNumber n
  | .literal (.text s interpolated) _ => do
    return .text (← if interpolated then interpolate s else pure s)
  | .ref r => readRef r
  | .unary op operand pos => do unary op pos.line (← eval o operand)
  | .binary .and left right _ => do
    if !(← truthy (← eval o left)) then return .ofBool false
    return .ofBool (← truthy (← eval o right))
  | .binary .or left right _ => do
    if ← truthy (← eval o left) then return .ofBool true
    return .ofBool (← truthy (← eval o right))
  | .binary op left right pos => do
    let a ← eval o left
    let b ← eval o right
    binary op pos.line a b
  | .call name args pos => do
    let e ← resolve o name (some pos.line)
    apply o e (← evalArgs o args) none false (some pos.line)
  | .pipe left name args callPos _ => do
    let piped ← eval o left
    let e ← resolve o name (some callPos.line)
    apply o e (← evalArgs o args) (some piped) false (some callPos.line)

def evalArgs (o : Outer) : List (Option String × Expr) → Play (List Supplied)
  | [] => return []
  | (name, e) :: rest => do
    let v ← eval o e
    return (name, v) :: (← evalArgs o rest)
end

def callNamed (o : Outer) (name : String) (args : List Arg) (asStatement : Bool) (line : Nat) : Play Value := do
  let e ← resolve o name (some line)
  apply o e (← evalArgs o args) none asStatement (some line)

end Play

end Conductor
