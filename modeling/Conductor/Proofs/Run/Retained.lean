import Conductor.Proofs.Run.Boundary

/-!
# What a computation keeps of its session

A computation that works on the world leaves its session alone, and one in another session comes
back to the session that was there. So a load ends in the session in which it began, whatever the
module does, however the load ends and whatever others do while it waits.

It is found by the shape of a computation what it keeps of its session, for the whole of it or for
what some view shows.
-/

set_option autoImplicit false

namespace Conductor

/-- What holds whatever others do while a computation waits. -/
theorem Step.Meets.amid {α : Type} {G : World → World → Prop} {d : α → Unit → Machine → Prop}
    {f : Signal → Unit → Machine → Prop} {x : Step Machine Signal α} (h : x.Meets (amid fun _ _ => True) d f ()) :
    x.Meets (Conductor.amid G) d f () := by
  induction x with
  | done a m => exact h
  | fail e m => exact h
  | wait w m resume ih => exact fun m' hs _ => ih none m' (h m' hs trivial)

/-- A computation that leaves as it is what is seen of its session. -/
class Retains {γ : Type} (view : Session → γ) {α : Type} (x : Play α) : Prop where
  keeps : ∀ m, (x m).Meets (amid fun _ _ => True) (fun _ _ m' => view m'.session = view m.session)
    (fun _ _ m' => view m'.session = view m.session) ()

namespace Retains

variable {α β γ : Type} {view : Session → γ}

instance (a : α) : Retains view (pure a) := ⟨fun _ => rfl⟩

instance (e : Signal) : Retains view (throw e : Play α) := ⟨fun _ => rfl⟩

theorem andThen {x : Play α} {k : α → Play β} [hx : Retains view x] (hk : ∀ a, Retains view (k a)) :
    Retains view (x >>= k) := by
  refine ⟨fun m => Run.meets_bind.mpr ((hx.keeps m).mono (amid_monotone _) (fun a _ m' h => ?_) fun _ _ _ => id)⟩
  exact ((hk a).keeps m').mono (amid_monotone _) (fun _ _ _ h' => h'.trans h) fun _ _ _ h' => h'.trans h

instance (x : Play α) (k : α → Play β) [Retains view x] [hk : ∀ a, Retains view (k a)] :
    Retains view (x >>= k) := andThen hk

theorem recover {x : Play α} {k : Signal → Play α} (hx : Retains view x) (hk : ∀ e, Retains view (k e)) :
    Retains view (tryCatch x k) := by
  refine ⟨fun m => Run.meets_tryCatch.mpr ((hx.keeps m).mono (amid_monotone _) (fun _ _ _ => id) fun e _ m' h => ?_)⟩
  exact ((hk e).keeps m').mono (amid_monotone _) (fun _ _ _ h' => h'.trans h) fun _ _ _ h' => h'.trans h

instance (f : α → β) (x : Play α) [Retains view x] : Retains view (f <$> x) :=
  inferInstanceAs (Retains view (x >>= fun a => pure (f a)))

instance (x : Play α) [Retains view x] : Retains view (discard x) :=
  inferInstanceAs (Retains view ((fun _ => PUnit.unit) <$> x))

instance (c : Prop) [Decidable c] (x y : Play α) [Retains view x] [Retains view y] :
    Retains view (if c then x else y) := by
  split <;> infer_instance

instance forM (f : α → Play PUnit) [hf : ∀ a, Retains view (f a)] (l : List α) : Retains view (l.forM f) := by
  induction l with
  | nil => exact inferInstanceAs (Retains view (pure PUnit.unit))
  | cons a l ih => exact inferInstanceAs (Retains view (f a >>= fun _ => l.forM f))

instance : Retains view (get : Play Machine) := ⟨fun _ => rfl⟩

instance : Retains view Play.world := ⟨fun _ => rfl⟩

instance : Retains view Play.session := ⟨fun _ => rfl⟩

instance (f : World → World) : Retains view (Play.modifyWorld f) := ⟨fun _ => rfl⟩

instance (f : Module.Loader → Module.Loader) : Retains view (Play.onLoader f) := ⟨fun _ => rfl⟩

instance (w : Wait) : Retains view (Run.await w : Play Unit) := ⟨fun _ _ hs _ => congrArg view hs⟩

instance (s : Session) (x : Play α) : Retains view (Play.within s x) := by
  refine ⟨fun m => ?_⟩
  rw [Play.within, Run.meets_bind, Play.session_apply, Step.meets_done, Run.meets_bind, Play.modifySession_apply,
    Step.meets_done, Run.leaving_apply]
  apply Play.leave_meets (T := fun m' => view m'.session = view m.session)
  exact fun _ => rfl

theorem comes {G : World → World → Prop} {x : Play α} {m : Machine} {ending : Step.Ending Machine Signal α}
    (hx : Retains view x) (hc : (x m).Comes (Interlude G) ending) : view ending.state.session = view m.session := by
  have hends := (hx.keeps m).amid (G := G)
  cases ending with
  | done a m' => exact hends.comes_done hc
  | fail e m' => exact hends.comes_fail hc
  | stuck m' => exact hc.not_stuck.elim

end Retains

namespace Play

variable {α γ : Type} {view : Session → γ}

/-! ## The world -/

instance (c : Condition) : Retains view (raise c : Play α) := inferInstanceAs (Retains view (throw _))

instance (c : Cause) : Retains view (cause c : Play α) := inferInstanceAs (Retains view (throw _))

instance (c : Cause) (line : Option Nat) : Retains view (causeAt c line : Play α) :=
  inferInstanceAs (Retains view (throw _))

instance (f : Failure) : Retains view (failure f : Play α) := inferInstanceAs (Retains view (throw _))

instance (x : Except Failure α) : Retains view (liftE x) := by cases x <;> unfold liftE <;> infer_instance

instance (x : Except Problem α) : Retains view (liftP x) := by cases x <;> unfold liftP <;> infer_instance

instance (x : Except Condition α) : Retains view (liftC x) := by cases x <;> unfold liftC <;> infer_instance

instance (v : Value) : Retains view (plain v) := by unfold plain; infer_instance

instance (f : Http → Except Failure α × Http) : Retains view (onHttp f) := by unfold onHttp; infer_instance

instance (f : Condition → Condition) (c : Condition) : Retains view (placed f c) := by unfold placed; infer_instance

instance (x : Play α) (f : Condition → Condition) [hx : Retains view x] : Retains view (inContext x f) := by
  refine .recover hx fun e => ?_
  split <;> infer_instance

instance (path : String) : Retains view (seek path) := by unfold seek; infer_instance

instance : Retains view requestCancel := by unfold requestCancel; infer_instance

instance : Retains view requestPause := by unfold requestPause; infer_instance

instance : Retains view registry := by
  unfold registry
  refine .andThen fun w => ?_
  split <;> infer_instance

instance (identifier : String) (base : Option String) : Retains view (locate identifier base) := by
  unfold locate
  infer_instance

instance {α : Type} (x : Play α) [Retains view x] : Retains view x.awaited := by
  unfold awaited
  infer_instance

instance (l : Module.Location) : Retains view (readSource l) := by
  unfold readSource
  split
  · refine .andThen fun w => ?_
    split
    · refine .andThen fun _ => .andThen fun _ => ?_
      split <;> infer_instance
    · infer_instance
  · refine .andThen fun w => ?_
    extract_lets files
    clear_value files
    split <;> infer_instance

end Play

/-! ## Loads -/

class Outer.Retains {γ : Type} (view : Session → γ) (o : Outer) : Prop where
  load : ∀ identifier base stack, Conductor.Retains view (o.load identifier base stack)

attribute [instance] Outer.Retains.load

namespace Play

variable {γ : Type} {view : Session → γ} (o : Outer)

section

variable [o.Retains view]

instance (location dep : String) (base : Option String) (stack : Module.Stack) :
    Retains view (requireDependency o location dep base stack) := by
  unfold requireDependency
  infer_instance

instance (identifier : String) : Retains view (requireHere o identifier) := by
  unfold requireHere
  refine .andThen fun s => ?_
  split <;> infer_instance

instance requireAll_retains (location : String) (base : Option String) (stack : Module.Stack) (deps : List String) :
    Retains view (requireAll o location base stack deps) := by
  induction deps with
  | nil => rw [requireAll]; infer_instance
  | cons dep rest ih => rw [requireAll]; infer_instance

instance (m : HostModule) (identifier location : String) (base : Option String) (stack : Module.Stack) :
    Retains view (loadHost o m identifier location base stack) := by
  unfold loadHost
  extract_lets start
  have hstart (u : Unit) : Retains view (start u) := by
    unfold start
    infer_instance
  clear_value start
  split <;> infer_instance

instance (source identifier : String) (l : Module.Location) (stack : Module.Stack) :
    Retains view (loadScript o source identifier l stack) := by
  unfold loadScript
  infer_instance

instance (identifier : String) (l : Module.Location) (base : Option String) (stack : Module.Stack) :
    Retains view (loadFresh o identifier l base stack) := by
  unfold loadFresh
  split
  · infer_instance
  · infer_instance
  · refine .andThen fun source => ?_
    split <;> infer_instance

instance (x : Play (Table String Entry)) [Retains view x] : Retains view (outcome x) := by
  refine .recover inferInstance fun signal => ?_
  split <;> infer_instance

omit [o.Retains view] in
instance (ended : Except Problem (Table String Entry)) (result : Module.Outcome) : Retains view (release ended result) := by
  unfold release
  split
  · split <;> infer_instance
  · infer_instance

instance (identifier : String) (base : Option String) (stack : Module.Stack) :
    Retains view (load o identifier base stack) := by
  unfold load
  refine .andThen fun l => .andThen fun w => ?_
  split
  · infer_instance
  · infer_instance
  · refine .andThen fun _ => .andThen fun w => ?_
    split <;> infer_instance
  · infer_instance

end

instance outer_retains (n : Nat) : (outer n).Retains view := by
  induction n with
  | zero => exact ⟨fun _ _ _ => inferInstanceAs (Retains view (throw _))⟩
  | succ n ih => exact ⟨fun identifier base stack => inferInstanceAs (Retains view (load (outer n) identifier base stack))⟩

end Play

end Conductor
