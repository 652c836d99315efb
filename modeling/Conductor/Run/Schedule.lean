import Conductor.Run.Load

/-!
# Tasks side by side

Several computations share one world and take turns. A turn lasts until its task
waits or ends. The queue is served in order: a task that waits for its next turn
goes to the end, and a task that waits for a load comes back two places after the
load was settled, once for the news and once for itself. A task that is interrupted
gets a turn as well, in which the interruption is raised where it waits.
-/

set_option autoImplicit false

namespace Conductor

/-- A task of a schedule: the session it works in and what it does next. -/
structure Schedule.Task (α : Type) where
  session : Session
  next : Run Machine Signal α

/-- What the queue holds: a task that can go on, or the news of a load for a task. -/
inductive Turn
  | task (i : Nat)
  | news (i : Nat)
  deriving DecidableEq, Repr

structure Schedule (α : Type) where
  world : World
  tasks : Array (Schedule.Task α)
  /-- What each task does if something is raised where it waits. -/
  handlers : Array (Signal → Play α)
  ready : List Turn
  /-- Tickets with the tasks that wait for them. -/
  waiting : List (Nat × Nat) := []
  results : Array (Option (Except Signal α))

namespace Schedule

variable {α : Type}

def ofTasks (w : World) (tasks : List (Task α)) : Schedule α :=
  { world := w
    tasks := tasks.toArray
    handlers := (tasks.map fun _ => throw).toArray
    ready := (List.range tasks.length).map .task
    results := (tasks.map fun _ => none).toArray }

def spread (s : Schedule α) (known : Nat) (w : World) : Schedule α :=
  let settled := (w.loader.outcomes.drop known).map Prod.fst
  let news := settled.flatMap fun ticket =>
    (s.waiting.filter fun e => e.1 == ticket).map fun e => Turn.news e.2
  { s with
    world := w
    ready := s.ready ++ news
    waiting := s.waiting.filter fun e => !settled.contains e.1 }

def finish (s : Schedule α) (i : Nat) (r : Except Signal α) : Schedule α :=
  { s with results := s.results.setIfInBounds i (some r) }

def step (s : Schedule α) : Schedule α :=
  match s.ready with
  | [] => s
  | .news i :: rest => { s with ready := rest ++ [.task i] }
  | .task i :: rest =>
    match s.tasks[i]? with
    | none => { s with ready := rest }
    | some t =>
      let known := s.world.loader.outcomes.length
      let s := { s with ready := rest }
      match t.next { session := t.session, world := s.world } with
      | .done a m => (s.spread known m.world).finish i (.ok a)
      | .fail e m => (s.spread known m.world).finish i (.error e)
      | .wait w m resume =>
        let s := s.spread known m.world
        let s := { s with
          tasks := s.tasks.setIfInBounds i ⟨m.session, resume none⟩
          handlers := s.handlers.setIfInBounds i fun e => resume (some e) }
        match w with
        | .turn => { s with ready := s.ready ++ [.task i] }
        | .load ticket => { s with waiting := s.waiting ++ [(ticket, i)] }

/-- Interrupts a task that has not ended: it no longer waits for a load, and goes on where the interruption is
raised. -/
def interrupt (s : Schedule α) (i : Nat) : Schedule α :=
  match s.tasks[i]?, s.handlers[i]?, s.results[i]? with
  | some t, some raise, some none =>
    { s with
      tasks := s.tasks.setIfInBounds i { t with next := raise Signal.interruption }
      ready := s.ready ++ (s.waiting.filter fun e => e.2 == i).map fun e => .task e.2
      waiting := s.waiting.filter fun e => e.2 != i }
  | _, _, _ => s

def latest (w : World) : Signal → Signal
  | .problem (.condition c) => .problem (.condition (w.loader.latest c))
  | signal => signal

def endings (s : Schedule α) : List (Option (Except Signal α)) :=
  s.results.toList.map fun r => r.map fun e => e.mapError (latest s.world)

def serve : Nat → Schedule α → Schedule α
  | 0, s => s
  | n + 1, s => if s.ready.isEmpty then s else serve n s.step

end Schedule

end Conductor
