import Conductor.Function.Entry

/-!
# Binding arguments

How the arguments of a call meet the parameters of an entry. Named arguments bind
first, whatever their case. A piped value takes the first open place, or the
entry's pipe parameter when the arguments by place fill every open one. What is
left over goes to a variadic entry or is refused. The result lists the arguments by
place up to the first gap, and by name from there on.
-/

set_option autoImplicit false

namespace Conductor

abbrev Supplied := Option String × Value

namespace Entry

def refuse {α : Type} (e : Entry) (cause : Cause) : Except Condition α :=
  .error { cause := cause, function := some e.name }

def paramNamed? (e : Entry) (name : String) : Option String :=
  (e.params.filter fun p => Text.upper p == Text.upper name).getLast?

def checkStyle (e : Entry) (placed : List Value) (piped : Option Value) (asStatement : Bool) :
    Except Condition Unit :=
  if !e.isOperation then .ok ()
  else if !asStatement then e.refuse (.noValue e.name)
  else if !placed.isEmpty || piped.isSome then e.refuse (.namedOnly e.name)
  else .ok ()

def bindNamed (e : Entry) : List Supplied → Table String Value → Table String Value →
    Except Condition (Table String Value × Table String Value)
  | [], bound, extra => .ok (bound, extra)
  | (none, _) :: rest, bound, extra => bindNamed e rest bound extra
  | (some name, v) :: rest, bound, extra =>
    match e.paramNamed? name with
    | none =>
      if e.extraNamed then bindNamed e rest bound (extra.put name v)
      else e.refuse (.noParameter e.name name)
    | some param =>
      if bound.contains param then e.refuse (.givenTwice e.name param)
      else bindNamed e rest (bound.put param v) extra

/-- The places still open, the arguments for them, and the bindings, once a piped value has its place. -/
def bindPiped (e : Entry) (piped : Option Value) (places : List String) (placed : List Value)
    (bound : Table String Value) : Except Condition (List String × List Value × Table String Value) :=
  match piped with
  | none => .ok (places, placed, bound)
  | some v =>
    if e.variadic || placed.length < places.length then .ok (places, v :: placed, bound)
    else match e.pipeParam with
      | some param =>
        if param.isEmpty || bound.contains param then e.refuse (.cannotPipe e.name)
        else .ok (places.erase param, placed, bound.put param v)
      | none => e.refuse (.cannotPipe e.name)

/-- The arguments by place up to the first parameter without one; the others by name. -/
def arrange (e : Entry) (bound : Table String Value) : Bool → List String → Arguments
  | _, [] => {}
  | contiguous, param :: rest =>
    if e.namedOnly.contains param then
      let a := arrange e bound contiguous rest
      match bound.get? param with
      | some v => { a with named := (param, v) :: a.named }
      | none => a
    else match bound.get? param with
      | some v =>
        let a := arrange e bound contiguous rest
        if contiguous then { a with placed := v :: a.placed } else { a with named := (param, v) :: a.named }
      | none => arrange e bound false rest

def bind (e : Entry) (supplied : List Supplied) (piped : Option Value) (asStatement : Bool) :
    Except Condition Arguments := do
  let placed := (supplied.filter fun s => s.1.isNone).map Prod.snd
  e.checkStyle placed piped asStatement
  let (bound, extra) ← e.bindNamed supplied [] []
  let places := e.params.filter fun p => !bound.contains p && !e.namedOnly.contains p
  let (places, placed, bound) ← e.bindPiped piped places placed bound
  -- A parameter that is listed twice takes one argument.
  let takers := (places.filter fun p => !bound.contains p).eraseDups
  let bound := Table.putAll bound (takers.zip placed)
  let surplus := placed.drop takers.length
  if !surplus.isEmpty && !e.variadic then
    e.refuse (.tooManyPositional e.name (e.params.filter fun p => !e.namedOnly.contains p).length)
  match e.params.find? fun p => !bound.contains p && !e.optional.contains p with
  | some p => e.refuse (.missingParameter e.name p)
  | none =>
    let a := e.arrange bound true e.params
    return { placed := a.placed ++ surplus, named := Table.putAll (Table.ofEntries a.named) extra }

end Entry

namespace Arguments

def all (a : Arguments) : List Value := a.placed ++ a.named.values

def value? (a : Arguments) (params : List String) (name : String) : Option Value :=
  Table.get? name (Table.putAll (params.zip a.placed) a.named)

/-- A call folded into one table of names: parameters in order, named arguments, and what is left
over under `args`. -/
def payload (store : Store) (params : List String) (a : Arguments) : Except Failure (Table String Value) := do
  let table := Table.putAll (params.zip a.placed) a.named
  let surplus := a.placed.drop params.length
  let table := if surplus.isEmpty then table else table.put "args" (.list surplus)
  traverse (fun e => (store.plain e.2).map fun v => (e.1, v)) table

end Arguments

end Conductor
