import Conductor.Memory
import Conductor.Tree.Coerce

/-!
# Host functions

A function that the embedding program supplies: a signature and what the function
does with its arguments. Arguments reach it by place and by name. A call that does
not fit the signature is refused with the first thing that is wrong, in this order:
a name that the function does not have or that is given twice, too many places,
missing places, missing names.
-/

set_option autoImplicit false

namespace Conductor

/-- The parameters of a function; a parameter with a value may be left out. -/
structure Signature where
  params : List (String × Option Value) := []
  variadic : Option String := none
  namedOnly : List (String × Option Value) := []
  extra : Option String := none

def Problem.Told : Problem → Prop
  | condition c => c.said = none
  | failure _ => True

/-- What host code raises. Whoever catches it can write its message. -/
structure Raise where
  problem : Problem
  told : problem.Told

inductive Behaviour
  | arguments
  | constant (v : Value)
  | select (param : String)
  | sum (params : List String)
  | raise (e : Raise)
  | cancel
  | pause
  | sleep (seconds : Number)

structure HostFunction where
  name : String
  signature : Signature := {}
  behaviour : Behaviour := .arguments
  operation : Bool := false
  pipe : Option String := none

/-- The arguments of a call: those by place, then those by name. -/
structure Arguments where
  placed : List Value := []
  named : Table String Value := []

namespace Signature

def names (s : Signature) : List String := s.params.map Prod.fst

def refusal (function what : String) : Failure := .wrongType (function ++ "() " ++ what)

def plural (n : Nat) : String := if n == 1 then "" else "s"

def listed : List String → String
  | [] => ""
  | [a] => "'" ++ a ++ "'"
  | [a, b] => "'" ++ a ++ "' and '" ++ b ++ "'"
  | names => String.intercalate ", " (names.dropLast.map fun a => "'" ++ a ++ "'") ++ ", and '" ++ names.getLastD "" ++ "'"

def missing (function sort : String) (names : List String) : Except Failure Unit :=
  if names.isEmpty then .ok ()
  else .error (refusal function ("missing " ++ Nat.repr names.length ++ " required " ++ sort ++ " argument" ++
    plural names.length ++ ": " ++ listed names))

def arity (s : Signature) : String :=
  let most := s.params.length
  let least := (s.params.filter fun p => p.2.isNone).length
  if least == most then Nat.repr most ++ " positional argument" ++ plural most
  else "from " ++ Nat.repr least ++ " to " ++ Nat.repr most ++ " positional arguments"

/-- Puts the arguments by name into the frame; names that the function lacks go to the extra ones. -/
def takeNamed (s : Signature) (function : String) :
    List (String × Value) → Table String Value → Table String Value →
      Except Failure (Table String Value × Table String Value)
  | [], frame, extra => .ok (frame, extra)
  | (k, v) :: rest, frame, extra =>
    if (s.params ++ s.namedOnly).any fun p => p.1 == k then
      if frame.contains k then .error (refusal function ("got multiple values for argument '" ++ k ++ "'"))
      else takeNamed s function rest (frame.put k v) extra
    else if s.extra.isSome then takeNamed s function rest frame (extra.put k v)
    else .error (refusal function ("got an unexpected keyword argument '" ++ k ++ "'"))

def settle (frame : Table String Value) (p : String × Option Value) : String × Value :=
  (p.1, ((frame.get? p.1) <|> p.2).getD .absent)

/-- The frame of a call: every parameter with its value, the extra ones at the end. -/
def frame (s : Signature) (function : String) (a : Arguments) : Except Failure (Table String Value) := do
  let placed := s.names.zip a.placed
  let (given, extra) ← takeNamed s function a.named placed []
  let rest := a.placed.drop s.params.length
  let surplus := !rest.isEmpty && s.variadic.isNone
  if surplus then
    let named := (s.namedOnly.filter fun p => given.contains p.1).length
    let aside := if named == 0 then "" else
      " positional argument" ++ plural a.placed.length ++ " (and " ++ Nat.repr named ++ " keyword-only argument" ++
        plural named ++ ")"
    .error (refusal function ("takes " ++ s.arity ++ " but " ++ Nat.repr a.placed.length ++ aside ++
      (if a.placed.length == 1 && named == 0 then " was given" else " were given")))
  let lacking (ps : List (String × Option Value)) : List String :=
    (ps.filter fun p => p.2.isNone && !given.contains p.1).map Prod.fst
  missing function "positional" (lacking s.params)
  missing function "keyword-only" (lacking s.namedOnly)
  let variadic := match s.variadic with
    | some name => [(name, Value.list rest)]
    | none => []
  let extra := match s.extra with
    | some name => [(name, Value.dict (extra.map fun e => (.text e.1, e.2)))]
    | none => []
  return (s.params ++ s.namedOnly).map (settle given) ++ variadic ++ extra

end Signature

namespace Value

def kindName : Value → String
  | .scalar s => s.kindName
  | .stem _ => "Stem"
  | .list _ => "list"
  | .dict _ => "dict"

def plus (acc : Number) (v : Value) : Except Failure Number :=
  match v with
  | .scalar (.int n) => acc.add (.int n)
  | .scalar (.float x) => acc.add (.float x)
  | .scalar (.bool b) => acc.add (.int (if b then 1 else 0))
  | v =>
    let kind := match acc with
      | .int _ => "int"
      | .float _ => "float"
    .error (.wrongType ("unsupported operand type(s) for +: '" ++ kind ++ "' and '" ++ v.kindName ++ "'"))

def ofNumber : Number → Value
  | .int n => .int n
  | .float x => .float x

end Value

inductive HostOutcome
  | value (v : Value)
  | problem (p : Problem)
  | cancel
  | pause
  | sleep (seconds : Number)

namespace HostFunction

def call (f : HostFunction) (a : Arguments) : HostOutcome :=
  match f.signature.frame f.name a with
  | .error e => .problem (.failure e)
  | .ok frame =>
    match f.behaviour with
    | .arguments => .value (.dict (frame.map fun e => (.text e.1, e.2)))
    | .constant v => .value v
    | .select param => .value ((frame.get? param).getD .absent)
    | .sum params =>
      match params.foldlM (fun acc p => Value.plus acc ((frame.get? p).getD .absent)) (Number.int 0) with
      | .ok n => .value (.ofNumber n)
      | .error e => .problem (.failure e)
    | .raise e => .problem e.problem
    | .cancel => .cancel
    | .pause => .pause
    | .sleep seconds => .sleep seconds

end HostFunction

def Problem.shown : Problem → Except Failure String
  | condition c =>
    match c.said with
    | some t => .error (.wrongType ("__str__ returned non-string (type " ++ t.kindName ++ ")"))
    | none => .ok c.message
  | failure f => .ok f.message

/-- The problem that a host raises by the name of a kind, with a text for its message. -/
def Problem.raised (kind message : String) : Problem :=
  match ConditionKind.ofName? kind with
  | some .circularDependency => .ofCause (.cycle (message.toList.map String.singleton))
  | some k => .ofCause (.raised k message)
  | none => .failure (.raised kind (if kind == "KeyError" then Text.quoted message else message))

theorem Problem.raised_told (kind message : String) : (raised kind message).Told := by
  unfold raised
  split <;> trivial

def Raise.named (kind message : String) : Raise := ⟨.raised kind message, Problem.raised_told kind message⟩

/-- The problem that a handler raises with any message; a condition keeps one that is no text. -/
def Problem.raisedWith (kind : String) (message : Tree) : Problem :=
  match raised kind message.toldText with
  | .condition c => .condition { c with said := message.untold }
  | .failure f => .failure f

end Conductor
