/-!
# Computations that can wait

A computation runs from a state until it is done, fails, or has to wait: for its
next turn, or for a load that another computation has under way. A waiting
computation is a function of the state in which it is resumed, and of what is raised
where it waits if it is interrupted there. The state survives a failure. Because a
step is built before its continuation is known, every finite computation can be run
to its end by recursion on the step.
-/

set_option autoImplicit false

namespace Conductor

inductive Wait
  | turn
  | load (ticket : Nat)
  deriving DecidableEq, Repr

inductive Step (σ ε α : Type)
  | done (a : α) (s : σ)
  | fail (e : ε) (s : σ)
  | wait (w : Wait) (s : σ) (resume : Option ε → σ → Step σ ε α)

namespace Step

variable {σ ε α β : Type}

def bind (x : Step σ ε α) (f : α → σ → Step σ ε β) : Step σ ε β :=
  match x with
  | done a s => f a s
  | fail e s => fail e s
  | wait w s resume => wait w s fun raised s' => (resume raised s').bind f

def recover (x : Step σ ε α) (f : ε → σ → Step σ ε α) : Step σ ε α :=
  match x with
  | done a s => done a s
  | fail e s => f e s
  | wait w s resume => wait w s fun raised s' => (resume raised s').recover f

/-- Changes the state at the end, however the computation ends. -/
def leave (x : Step σ ε α) (f : σ → σ) : Step σ ε α :=
  match x with
  | done a s => done a (f s)
  | fail e s => fail e (f s)
  | wait w s resume => wait w s fun raised s' => (resume raised s').leave f

/-- How a computation that runs alone ends; waiting for a load of somebody else's would last for ever. -/
inductive Ending (σ ε α : Type)
  | done (a : α) (s : σ)
  | fail (e : ε) (s : σ)
  | stuck (s : σ)

def alone : Step σ ε α → Ending σ ε α
  | done a s => .done a s
  | fail e s => .fail e s
  | wait .turn s resume => (resume none s).alone
  | wait (.load _) s _ => .stuck s

end Step

def Run (σ ε α : Type) : Type := σ → Step σ ε α

namespace Run

variable {σ ε α β : Type}

instance : Monad (Run σ ε) where
  pure a := fun s => .done a s
  bind x f := fun s => (x s).bind f

instance : MonadStateOf σ (Run σ ε) where
  get := fun s => .done s s
  set s' := fun _ => .done () s'
  modifyGet f := fun s => let (a, s') := f s; .done a s'

instance : MonadExceptOf ε (Run σ ε) where
  throw e := fun s => .fail e s
  tryCatch x f := fun s => (x s).recover fun e s' => f e s'

def leaving (x : Run σ ε α) (f : σ → σ) : Run σ ε α := fun s => (x s).leave f

def await (w : Wait) : Run σ ε Unit := fun s =>
  .wait w s fun raised s' => match raised with
    | none => .done () s'
    | some e => .fail e s'

end Run

end Conductor
