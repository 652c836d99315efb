import Conductor.Proofs.Module.Ledger
import Conductor.Proofs.Run.Twins
import Conductor.Run.Script

/-!
# What programs are composed of

Whatever a program does is put together from quiet computations, changes of the session,
waits for a turn, and what it reaches through its surroundings: labels, labels of script
modules, and the loading of modules. So a property of computations that holds of these and
is kept by sequence, recovery and leaving holds of every expression, statement and program.
-/

set_option autoImplicit false

namespace Conductor

/-- A computation that is put together from such parts. The loader is touched in nothing but the dependencies of
modules, except by loading. -/
class inductive Composed (o : Outer) : {α : Type} → Play α → Prop
  | quiet {α : Type} (x : Play α) (h : Quiet x) : Composed o x
  | throw {α : Type} (e : Signal) : Composed o (throw e : Play α)
  | bind {α β : Type} (x : Play α) (k : α → Play β) (hx : Composed o x) (hk : ∀ a, Composed o (k a)) :
      Composed o (x >>= k)
  | recover {α : Type} (x : Play α) (k : Signal → Play α) (hx : Composed o x) (hk : ∀ e, Composed o (k e)) :
      Composed o (tryCatch x k)
  | leaving {α : Type} (x : Play α) (f : Machine → Machine) (hx : Composed o x)
      (hf : ∀ m, (f m).world.loader = m.world.loader) (hs : ∀ m, (f m).world.store = m.world.store) :
      Composed o (x.leaving f)
  | onSession (f : Session → Session) : Composed o (Play.modifySession f)
  | onWorld (f : World → World) (hf : ∀ w, (f w).loader = w.loader) (hs : ∀ w, (f w).store = w.store) :
      Composed o (Play.modifyWorld f)
  | onLoader (f : Module.Loader → Module.Loader) (hf : ∀ l, Module.SameBooks l (f l)) : Composed o (Play.onLoader f)
  | turn : Composed o (Run.await .turn : Play Unit)
  | label (name : String) (a : Arguments) : Composed o (o.label name a)
  | moduleLabel (index : Nat) (label : String) (a : Arguments) : Composed o (o.moduleLabel index label a)
  | load (identifier : String) (base : Option String) (stack : Module.Stack) :
      Composed o (o.load identifier base stack)

namespace Composed

variable {o : Outer} {α β : Type}

instance (priority := low) (x : Play α) [h : Quiet x] : Composed o x := .quiet x h

attribute [instance] throw onSession turn label moduleLabel load

instance (x : Play α) (k : α → Play β) [hx : Composed o x] [hk : ∀ a, Composed o (k a)] : Composed o (x >>= k) :=
  .bind x k hx hk

theorem andThen {x : Play α} {k : α → Play β} [hx : Composed o x] (hk : ∀ a, Composed o (k a)) :
    Composed o (x >>= k) := .bind x k hx hk

instance (f : α → β) (x : Play α) [Composed o x] : Composed o (f <$> x) :=
  inferInstanceAs (Composed o (x >>= fun a => pure (f a)))

instance (x : Play α) [Composed o x] : Composed o (discard x) :=
  inferInstanceAs (Composed o ((fun _ => PUnit.unit) <$> x))

instance (c : Prop) [Decidable c] (x y : Play α) [Composed o x] [Composed o y] : Composed o (if c then x else y) := by
  split <;> infer_instance

end Composed

namespace Play

variable {α : Type} (o : Outer)

/-! ## Requirements -/

instance (location dep : String) (base : Option String) (stack : Module.Stack) :
    Composed o (requireDependency o location dep base stack) := by
  have hedge (target : String) : Composed o (onLoader fun l => l.addEdge location target) :=
    .onLoader _ fun l => .addEdge l location target
  unfold requireDependency
  infer_instance

instance (identifier : String) : Composed o (requireHere o identifier) := by
  unfold requireHere
  refine .andThen fun s => ?_
  split
  · infer_instance
  · next location stack _ =>
    have hnote : Composed o (onLoader fun l => l.addDependency location identifier) :=
      .onLoader _ fun l => .update l location _ fun _ => rfl
    infer_instance

instance (s : Session) (x : Play α) [Composed o x] : Composed o (within s x) := by
  have hrun (saved : Session) : Composed o (Run.leaving (do let a ← x; return (a, ← session) : Play (α × Session))
      fun m => { m with session := saved }) := .leaving _ _ inferInstance (fun _ => rfl) fun _ => rfl
  unfold within
  infer_instance

end Play

/-! ## Programs -/

theorem Twin.composed {o o' : Outer} {α : Type} {x x' : Play α} (h : Twin o o' x x') : Composed o x := by
  induction h with
  | placid x hq _ => exact .quiet x hq
  | throw e => exact .throw e
  | bind x _ k _ _ _ hx hk => exact .bind x k hx hk
  | recover x _ k _ _ _ hx hk => exact .recover x k hx hk
  | leaving x _ f _ _ hx => exact .leaving x _ hx (fun _ => rfl) fun _ => rfl
  | onSession f _ => exact .onSession f
  | turn => exact .turn
  | apart s x _ _ _ hx => exact inferInstanceAs (Composed o (Play.within s x))
  | label name a => exact .label name a
  | moduleLabel index label a => exact .moduleLabel index label a
  | requireHere identifier => exact inferInstanceAs (Composed o (Play.requireHere o identifier))

instance (priority := 50) {o : Outer} {α : Type} (x : Play α) [h : Twin o o x x] : Composed o x := h.composed

namespace Play

variable (o : Outer)

/-! ## Modules -/

instance (l : Module.Location) : Composed o (readSource l) := by
  have hnote : Composed o (onLoader fun loader => { loader with fetched := loader.fetched ++ [l.text] }) :=
    .onLoader _ fun _ => ⟨rfl, rfl, rfl, rfl, rfl⟩
  unfold readSource
  split
  · refine .andThen fun w => ?_
    split
    · refine .andThen fun _ => .andThen fun _ => ?_
      split <;> infer_instance
    · infer_instance
  · refine .andThen fun w => ?_
    extract_lets files
    clear_value files
    split <;> infer_instance

instance requireAll_composed (location : String) (base : Option String) (stack : Module.Stack) (deps : List String) :
    Composed o (requireAll o location base stack deps) := by
  induction deps with
  | nil => rw [requireAll]; infer_instance
  | cons dep rest ih => rw [requireAll]; infer_instance

/-! ## Scripts -/

instance (c : Condition) (source : String) : Composed o (faultOf c source) := by
  unfold faultOf trace
  refine .andThen fun s => ?_
  extract_lets line finish
  have hfinish (c : Condition) : Composed o (finish c) := by
    unfold finish
    infer_instance
  clear_value finish
  infer_instance

instance (source : String) (args : List Value) (cancelFirst : Bool) :
    Composed (outer horizon) (runScript source args cancelFirst) := by
  have hverdict (x : Play Value) [hx : Composed (outer horizon) x] : Composed (outer horizon) (verdict x source) := by
    refine .recover _ _ inferInstance fun signal => ?_
    split <;> infer_instance
  have hrun (x : Play Verdict) [hx : Composed (outer horizon) x] : Composed (outer horizon)
      (x.leaving fun m => { m with world := { m.world with runners := m.world.runners - 1 } }) :=
    .leaving _ _ hx (fun _ => rfl) fun _ => rfl
  have hcount : Composed (outer horizon) (modifyWorld fun w => { w with runners := w.runners + 1 }) :=
    .onWorld _ (fun _ => rfl) fun _ => rfl
  unfold runScript
  infer_instance

end Play

end Conductor
