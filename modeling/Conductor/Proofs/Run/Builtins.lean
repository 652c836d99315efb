import Conductor.Proofs.Memory.Guard
import Conductor.Proofs.Run.Meets
import Conductor.Run.Eval

/-!
# Calls of built-in functions

Built-in functions come first among the functions, so a call of one by its name is the function itself, whatever else the
program defines.
-/

set_option autoImplicit false

namespace Conductor

open Syntax (Expr)

def Machine.withStore (m : Machine) (store : Store) : Machine := { m with world := { m.world with store := store } }

def Machine.inCall (m : Machine) (frame : Frame) : Machine :=
  { m with session := { m.session with calls := frame :: m.session.calls } }

def Machine.outOfCall (m : Machine) : Machine := { m with session := { m.session with calls := m.session.calls.tail } }

namespace Play

theorem resolve_local (o : Outer) {name : String} {e : Entry} {m : Machine}
    (h : m.session.resolver.local? m.session.dispatcher.methodNamed? name = some e) (line : Option Nat) :
    resolve o name line m = .done e m := by
  simp only [resolve, localEntry, Run.bind_apply, session_apply, Step.bind, Run.pure_apply, h]

theorem resolve_builtin (o : Outer) {b : Builtin} {m : Machine} (hb : Registry.builtins.find? b.name = some (.ofBuiltin b))
    (hm : m.session.resolver.builtins = Registry.builtins) (line : Option Nat) :
    resolve o b.name line m = .done (.ofBuiltin b) m := by
  have hlocal : m.session.resolver.local? m.session.dispatcher.methodNamed? b.name = some (.ofBuiltin b) := by
    rw [Resolver.local?, hm, hb]
    rfl
  exact resolve_local o hlocal line

theorem apply_builtin (o : Outer) {b : Builtin} {supplied : List Supplied} {a : Arguments} {m m₁ m₂ : Machine} {v w : Value}
    (hatOnce : b.isAwaited = false) (hbind : (Entry.ofBuiltin b).bind supplied none false = .ok a)
    (hb : builtin b a (m.inCall ⟨(Entry.ofBuiltin b).name, a.all⟩) = .done v m₁) (hv : normalize v m₁ = .done w m₂)
    (line : Option Nat) : apply o (.ofBuiltin b) supplied none false line m = .done w m₂.outOfCall := by
  have hperform : perform o (.ofBuiltin b) a (m.inCall ⟨(Entry.ofBuiltin b).name, a.all⟩) = .done w m₂ := by
    change (if b.isAwaited = true then (do normalize (← awaited (builtin b a))) else (do normalize (← builtin b a)) :
      Play Value) _ = _
    rw [hatOnce, if_neg Bool.false_ne_true, Run.bind_apply, hb]
    exact hv
  unfold apply
  rw [hbind]
  change (((perform o (.ofBuiltin b) a (m.inCall ⟨(Entry.ofBuiltin b).name, a.all⟩)).recover _).bind _) = _
  rw [hperform]
  rfl

theorem tree_apply {m : Machine} {v : Value} {t : Tree} (hv : m.world.store.tree v = .ok t) : tree v m = .done t m := by
  have hact : Memory.tree v { scope := m.session.scope, store := m.world.store } =
      .ok t { scope := m.session.scope, store := m.world.store } := by
    simp only [Memory.tree, bind, EStateM.bind, Memory.get_apply, hv]
    rfl
  simp only [tree, memory, hact]

theorem plain_apply {m : Machine} {v p : Value} (h : m.world.store.plain v = .ok p) : plain v m = .done p m := by
  simp only [plain, Run.bind_apply, world_apply, Step.bind, h, liftE_ok]

theorem eval_builtin (o : Outer) {b : Builtin} {args : List (Option String × Expr)} {supplied : List Supplied}
    {a : Arguments} {m m₁ m₂ m₃ : Machine} {v w : Value}
    (hname : Registry.builtins.find? b.name = some (.ofBuiltin b)) (hm : m.session.resolver.builtins = Registry.builtins)
    (hatOnce : b.isAwaited = false) (hargs : evalArgs o args m = .done supplied m₁)
    (hbind : (Entry.ofBuiltin b).bind supplied none false = .ok a)
    (hb : builtin b a (m₁.inCall ⟨(Entry.ofBuiltin b).name, a.all⟩) = .done v m₂) (hv : normalize v m₂ = .done w m₃)
    (pos : Syntax.Pos) : eval o (.call b.name args pos) m = .done w m₃.outOfCall := by
  rw [eval]
  simp only [Run.bind_apply, resolve_builtin o hname hm, Step.bind, hargs]
  exact apply_builtin o hatOnce hbind hb hv _

theorem evalArgs_one {o : Outer} {e : Expr} {m m₁ : Machine} {v : Value} (h : eval o e m = .done v m₁) :
    evalArgs o [(none, e)] m = .done [(none, v)] m₁ := by
  simp only [evalArgs, Run.bind_apply, h, Step.bind, Run.pure_apply]

theorem evalArgs_two {o : Outer} {e e' : Expr} {m m₁ m₂ : Machine} {v v' : Value} (h : eval o e m = .done v m₁)
    (h' : eval o e' m₁ = .done v' m₂) : evalArgs o [(none, e), (none, e')] m = .done [(none, v), (none, v')] m₂ := by
  simp only [evalArgs, Run.bind_apply, h, h', Step.bind, Run.pure_apply]

end Play

end Conductor
