import Conductor.Proofs.Memory.Nesting
import Conductor.Proofs.Run.Composed

/-!
# What runs do to the store

All runs share one store. From where a run goes on to where it waits or ends, all that it does to the store is work on it.
So where it goes on, it may rely on the others for the same, and whatever work on a store keeps holds wherever the run
waits, and where it ends.
-/

set_option autoImplicit false

namespace Conductor

/-- Where a run waits it has only worked on the store since it went on last, and the store has a property; until it goes
on, the others only work on the store. -/
def sharing (I : Store → Prop) : Pause Signal Store Machine := fun _ before m K =>
  (before.Worked m.world.store ∧ I m.world.store) ∧
    ∀ raised m', m.world.store.Worked m'.world.store → K raised m'.world.store m'

/-- From a store on, a run only works on the store, and wherever it waits and where it ends the store has a property. -/
def Throughout {α : Type} (I : Store → Prop) (before : Store) (x : Step Machine Signal α) : Prop :=
  x.Meets (sharing I) (fun _ before m => before.Worked m.world.store ∧ I m.world.store)
    (fun _ before m => before.Worked m.world.store ∧ I m.world.store) before

/-- A computation that only works on the store. -/
class Working {α : Type} (x : Play α) : Prop where
  works : ∀ (before : Store) (m : Machine), before.Worked m.world.store → Throughout (fun _ => True) before (x m)

section

variable {α β : Type} {I : Store → Prop} {before : Store} {m : Machine}

/-- What work keeps holds throughout a run that only works. -/
theorem Throughout.kept (hI : ∀ store store' : Store, store.Worked store' → I store → I store') {x : Step Machine Signal α}
    (hx : Throughout (fun _ => True) before x) (hbefore : I before) : Throughout I before x := by
  induction x generalizing before with
  | done a m | fail e m => exact ⟨hx.1, hI _ _ hx.1 hbefore⟩
  | wait w m resume ih =>
    obtain ⟨⟨hworked, -⟩, hon⟩ := hx
    have hm := hI _ _ hworked hbefore
    exact ⟨⟨hworked, hm⟩, fun raised m' hm' => ih raised m' (hon raised m' hm') (hI _ _ hm' hm)⟩

theorem Throughout.mono {J : Store → Prop} (hIJ : ∀ store, I store → J store) {x : Step Machine Signal α}
    (hx : Throughout I before x) : Throughout J before x := by
  induction x generalizing before with
  | done a m | fail e m => exact ⟨hx.1, hIJ _ hx.2⟩
  | wait w m resume ih => exact ⟨⟨hx.1.1, hIJ _ hx.1.2⟩, fun raised m' hm' => ih raised m' (hx.2 raised m' hm')⟩

theorem Throughout.of_calm {R : Machine → Machine → Prop} (hR : ∀ m m', R m m' → m.world.store.Worked m'.world.store)
    (hbefore : before.Worked m.world.store) {x : Step Machine Signal α} (hx : Calm R m x) :
    Throughout (fun _ => True) before x := by
  cases x with
  | done a m' => exact ⟨hbefore.trans (hR m m' hx), trivial⟩
  | fail e m' => exact ⟨hbefore.trans (hR m m' hx.2), trivial⟩
  | wait w m' resume => exact hx.elim

theorem sharing_monotone (I : Store → Prop) : (sharing I).Monotone :=
  fun _ _ _ _ _ hKL h => ⟨h.1, fun raised m' hm' => hKL raised _ m' (h.2 raised m' hm')⟩

namespace Working

instance (priority := low) (x : Play α) [hx : Quiet x] : Working x :=
  ⟨fun _ m hbefore => .of_calm (fun _ _ h => h.store) hbefore (hx.calm m)⟩

instance (e : Signal) : Working (throw e : Play α) := ⟨fun _ _ hbefore => ⟨hbefore, trivial⟩⟩

theorem andThen {x : Play α} {k : α → Play β} [hx : Working x] (hk : ∀ a, Working (k a)) : Working (x >>= k) := by
  refine ⟨fun before m hbefore => Run.meets_bind.mpr ?_⟩
  exact Step.Meets.mono (sharing_monotone _) (fun a before m h => (hk a).works before m h.1) (fun _ _ _ => id)
    (hx.works before m hbefore)

instance (x : Play α) (k : α → Play β) [Working x] [hk : ∀ a, Working (k a)] : Working (x >>= k) := andThen hk

theorem recover {x : Play α} {k : Signal → Play α} (hx : Working x) (hk : ∀ e, Working (k e)) : Working (tryCatch x k) := by
  refine ⟨fun before m hbefore => Run.meets_tryCatch.mpr ?_⟩
  exact Step.Meets.mono (sharing_monotone _) (fun _ _ _ => id) (fun e before m h => (hk e).works before m h.1)
    (hx.works before m hbefore)

theorem leaving {x : Play α} {f : Machine → Machine} (hx : Working x) (hf : ∀ m, (f m).world.store = m.world.store) :
    Working (x.leaving f) := by
  refine ⟨fun before m hbefore => (Step.meets_leave _ _ _).mpr ?_⟩
  have hleft (before : Store) (m : Machine) (h : before.Worked m.world.store ∧ True) :
      before.Worked (f m).world.store ∧ True := ⟨hf m ▸ h.1, trivial⟩
  exact Step.Meets.mono (sharing_monotone _) (fun _ => hleft) (fun _ => hleft) (hx.works before m hbefore)

theorem onSession (f : Session → Session) : Working (Play.modifySession f) := ⟨fun _ _ hbefore => ⟨hbefore, trivial⟩⟩

theorem onWorld {f : World → World} (hf : ∀ w, (f w).store = w.store) : Working (Play.modifyWorld f) :=
  ⟨fun _ m hbefore => ⟨(hf m.world).symm ▸ hbefore, trivial⟩⟩

instance (f : Module.Loader → Module.Loader) : Working (Play.onLoader f) := .onWorld fun _ => rfl

instance (w : Wait) : Working (Run.await w : Play Unit) := by
  refine ⟨fun before m hbefore => ⟨⟨hbefore, trivial⟩, fun raised m' _ => ?_⟩⟩
  cases raised with
  | none | some e => exact ⟨.refl, trivial⟩

instance (s : Session) (x : Play α) [Working x] : Working (Play.within s x) := by
  have henter : Working (Play.modifySession fun _ => s) := .onSession _
  have hrun (saved : Session) : Working (Run.leaving (do let a ← x; return (a, ← Play.session) : Play (α × Session))
      fun m => { m with session := saved }) := .leaving inferInstance fun _ => rfl
  unfold Play.within
  infer_instance

end Working

end

class Outer.Working (o : Outer) : Prop where
  label : ∀ name a, Conductor.Working (o.label name a)
  moduleLabel : ∀ index label a, Conductor.Working (o.moduleLabel index label a)
  load : ∀ identifier base stack, Conductor.Working (o.load identifier base stack)

theorem Composed.working {o : Outer} [ho : o.Working] {α : Type} {x : Play α} (hx : Composed o x) : Working x := by
  induction hx with
  | quiet x _ | throw e | turn => infer_instance
  | bind x k _ _ _ ihk => exact .andThen ihk
  | recover x k _ _ ihx ihk => exact .recover ihx ihk
  | leaving x f _ _ hs ihx => exact .leaving ihx hs
  | onSession f => exact .onSession f
  | onWorld f _ hs => exact .onWorld hs
  | onLoader f _ => infer_instance
  | label name a => exact ho.label name a
  | moduleLabel index label a => exact ho.moduleLabel index label a
  | load identifier base stack => exact ho.load identifier base stack

namespace Play

/-! ## Loads -/

section

variable (o : Outer) [o.Working]

theorem working {α : Type} (x : Play α) [hx : Composed o x] : Working x := hx.working

instance (m : HostModule) (identifier location : String) (base : Option String) (stack : Module.Stack) :
    Working (loadHost o m identifier location base stack) := by
  have hall (deps : List String) := working o (requireAll o location base stack deps)
  unfold loadHost
  extract_lets start
  have hstart (u : Unit) : Working (start u) := by
    unfold start
    infer_instance
  clear_value start
  split <;> infer_instance

instance (source identifier : String) (location : Module.Location) (stack : Module.Stack) :
    Working (loadScript o source identifier location stack) := by
  have hrun (program : Syntax.Program) := working o (runProgram o program [] true false)
  have hadd (sm : ScriptModule) : Working (modifyWorld fun w => { w with modules := w.modules.push sm }) :=
    .onWorld fun _ => rfl
  unfold loadScript
  infer_instance

instance (identifier : String) (location : Module.Location) (base : Option String) (stack : Module.Stack) :
    Working (loadFresh o identifier location base stack) := by
  have hread := working o (readSource location)
  unfold loadFresh
  split
  · infer_instance
  · infer_instance
  · refine .andThen fun source => ?_
    split <;> infer_instance

instance (x : Play (Table String Entry)) [hx : Working x] : Working (outcome x) := by
  refine .recover inferInstance fun signal => ?_
  split <;> infer_instance

instance (identifier : String) (base : Option String) (stack : Module.Stack) : Working (load o identifier base stack) := by
  have hset (loader : Module.Loader) : Working (modifyWorld fun w => { w with loader := loader }) := .onWorld fun _ => rfl
  unfold load
  refine .andThen fun location => .andThen fun w => ?_
  split
  · infer_instance
  · infer_instance
  · refine .andThen fun _ => .andThen fun w => ?_
    split <;> infer_instance
  · infer_instance

end

end Play

instance outer_working (n : Nat) : (Play.outer n).Working := by
  induction n with
  | zero =>
    have hend {α : Type} : Working (throw .exhausted : Play α) := inferInstance
    exact ⟨fun _ _ => hend, fun _ _ _ => hend, fun _ _ _ => hend⟩
  | succ n ih =>
    exact ⟨fun name a => Play.working (Play.outer n) (Play.callLabel (Play.outer n) name a),
      fun index label a => Play.working (Play.outer n) (Play.callModule (Play.outer n) index label a),
      fun identifier base stack => inferInstanceAs (Working (Play.load (Play.outer n) identifier base stack))⟩

end Conductor
