import Conductor.Proofs.Run.Quiet
import Conductor.Run.Load

/-!
# What leaves a computation

A statement can end with a signal, and each kind of signal is meant to stop somewhere:
leaving a loop at the loop, a return at the routine, the end of a program at the
program, a jump at the top level. This module says which signals leave which part of a
program, and what every part of it keeps.

A jump may leave a module's label, because nothing there stops it. So a computation in
which jumps are not free may still end in one, but only in one that stands below a
label of some script module. The same holds of waiting: a run that has the loader to
itself waits for a load only if some script module has a requirement below a label.
-/

set_option autoImplicit false

namespace Conductor

namespace Syntax

mutual
def Statement.parts : Statement → List Statement
  | .cond condition thenBody elseBody p =>
    .cond condition thenBody elseBody p :: (partsOf thenBody ++ partsOf elseBody)
  | .loop head body p => .loop head body p :: partsOf body
  | s => [s]

def partsOf : List Statement → List Statement
  | [] => []
  | s :: rest => s.parts ++ partsOf rest
end

theorem partsOf_append (xs ys : List Statement) : partsOf (xs ++ ys) = partsOf xs ++ partsOf ys := by
  induction xs with
  | nil => rfl
  | cons s rest ih => simp only [List.cons_append, partsOf, ih, List.append_assoc]

def below (labels : List (String × Nat)) (p : Program) : List Statement :=
  partsOf (labels.flatMap fun e => p.drop (e.2 + 1))

end Syntax

open Syntax (Statement partsOf below)

def World.below (w : World) : List Statement := w.modules.toList.flatMap fun m => Syntax.below m.program.labels m.program

def Module.Idle (l : Module.Loader) : Prop := ∀ a t, ¬ Module.Loading l a t

/-- Some script module has a requirement below a label. -/
def World.RequiresBelow (w : World) : Prop := ∃ e p, Statement.require e p ∈ w.below

def World.JumpsBelow (w : World) (label : String) (line : Option Nat) : Prop :=
  ∃ p, Statement.signal (.goto label) p ∈ w.below ∧ line = some p.line

/-- What happens to the world while a computation runs: script modules are added, and, if it has the
loader to itself, the same loads are under way. -/
structure World.Grown (lone : Prop) (w w' : World) : Prop where
  modules : w.modules.toList <+: w'.modules.toList
  loading : lone → ∀ a t, Module.Loading w'.loader a t ↔ Module.Loading w.loader a t

namespace World.Grown

variable {lone : Prop} {w w' w'' : World}

theorem refl (w : World) : Grown lone w w := ⟨List.prefix_rfl, fun _ _ _ => Iff.rfl⟩

theorem trans (h : Grown lone w w') (h' : Grown lone w' w'') : Grown lone w w'' :=
  ⟨h.modules.trans h'.modules, fun hl a t => (h'.loading hl a t).trans (h.loading hl a t)⟩

theorem below_subset (h : Grown lone w w') : w.below ⊆ w'.below := by
  obtain ⟨more, hmore⟩ := h.modules
  simp only [World.below, ← hmore, List.flatMap_append]
  exact List.subset_append_left _ _

theorem requiresBelow (h : Grown lone w w') (hw : w.RequiresBelow) : w'.RequiresBelow := by
  obtain ⟨e, p, hmem⟩ := hw
  exact ⟨e, p, h.below_subset hmem⟩

theorem jumpsBelow (h : Grown lone w w') {label : String} {line : Option Nat} (hw : w.JumpsBelow label line) :
    w'.JumpsBelow label line := by
  obtain ⟨p, hmem, hline⟩ := hw
  exact ⟨p, h.below_subset hmem, hline⟩

end World.Grown

/-- What a computation keeps of a run. -/
structure Kept (lone : Prop) (m m' : Machine) : Prop where
  control : SameControl m.session m'.session
  depth : m'.session.loopDepth = m.session.loopDepth
  world : World.Grown lone m.world m'.world

namespace Kept

variable {lone : Prop} {m m' m'' : Machine}

theorem refl (m : Machine) : Kept lone m m := ⟨.refl m.session, rfl, .refl m.world⟩

theorem trans (h : Kept lone m m') (h' : Kept lone m' m'') : Kept lone m m'' :=
  ⟨h.control.trans h'.control, h'.depth.trans h.depth, h.world.trans h'.world⟩

theorem of_still (h : Still m m') : Kept lone m m' where
  control := h.control
  depth := h.depth
  world := ⟨by simp [h.modules], fun _ a t => by simp only [Module.Loading, h.nodes, h.pending]⟩

end Kept

/-! ## Endings -/

/-- The signals, besides problems, that a computation may end with. -/
structure Limits where
  loop : Prop
  ret : Prop
  exit : Prop
  jump : World → String → Option Nat → Prop

namespace Limits

def allow (L : Limits) (m : Machine) : Signal → Prop
  | .leave | .iterate => L.loop ∧ 0 < m.session.loopDepth
  | .ret _ => L.ret
  | .exit _ => L.exit
  | .jump label line => L.jump m.world label line
  | .problem _ => True
  | .exhausted => True

def freely (free : Prop) (w : World) (label : String) (line : Option Nat) : Prop :=
  free ∨ w.JumpsBelow label line

def statement (free : Prop) : Limits := ⟨True, True, True, freely free⟩

def loop_ (free : Prop) : Limits := ⟨False, True, True, freely free⟩

def expression (free : Prop) : Limits := ⟨False, False, True, freely free⟩

def moduleCall : Limits := ⟨False, False, False, freely False⟩

def program : Limits := ⟨False, False, True, fun _ _ _ => False⟩

def load : Limits := ⟨False, False, False, fun _ _ _ => False⟩

end Limits

/-- How a waiting computation can go on: alone, when its turn comes, as it was; else in its own session,
with script modules added to the world. -/
structure Resumes (lone : Prop) (w : Wait) (m m' : Machine) : Prop where
  session : m'.session = m.session
  modules : m.world.modules.toList <+: m'.world.modules.toList
  alone : lone → w = .turn ∧ m' = m

theorem Resumes.kept {lone : Prop} {w : Wait} {m m' : Machine} (h : Resumes lone w m m') : Kept lone m m' := by
  obtain ⟨hsession, hmodules, halone⟩ := h
  refine ⟨hsession ▸ .refl m.session, hsession ▸ rfl, hmodules, fun hl a t => ?_⟩
  rw [(halone hl).2]

/-- A computation that has the loader to itself waits for a load only while some load is under way, and
only if a script module has a requirement below a label. -/
def pause (lone : Prop) : Pause Signal Unit Machine := fun w _ m K =>
  (lone → w = .turn ∨ m.world.RequiresBelow ∧ ¬ Module.Idle m.world.loader) ∧ ∀ m', Resumes lone w m m' → K none () m'

theorem pause_monotone (lone : Prop) : (pause lone).Monotone :=
  fun _ _ _ _ _ h hp => ⟨hp.1, fun m' hm' => h none () m' (hp.2 m' hm')⟩

/-- A computation that ends within limits and in a state with a property, unless it goes too far. -/
def Ends (lone : Prop) (R : Machine → Prop) (L : Limits) {α : Type} (x : Step Machine Signal α) : Prop :=
  x.Meets (pause lone) (fun _ _ m => R m) (fun e _ m => e = .exhausted ∨ R m ∧ L.allow m e) ()

namespace Ends

variable {lone : Prop} {R R' : Machine → Prop} {L L' : Limits} {α β : Type}

theorem mono {x : Step Machine Signal α} (h : Ends lone R L x) (hR : ∀ m, R m → R' m)
    (hL : ∀ m e, R m → L.allow m e → L'.allow m e) : Ends lone R' L' x := by
  refine Step.Meets.mono (pause_monotone lone) (fun _ _ m => hR m) (fun e _ m => ?_) h
  rintro (he | ⟨hm, hle⟩)
  · exact Or.inl he
  · exact Or.inr ⟨hR m hm, hL m e hm hle⟩

theorem bind {x : Step Machine Signal α} {k : α → Play β} (hx : Ends lone R L x) (hR : ∀ m, R m → R' m)
    (hk : ∀ a m, R m → Ends lone R' L (k a m)) : Ends lone R' L (x.bind k) := by
  refine (Step.meets_bind _ _ _ _).mpr (Step.Meets.mono (pause_monotone lone) (fun a _ m => hk a m) ?_ hx)
  rintro e - m (he | ⟨hm, hle⟩)
  · exact Or.inl he
  · exact Or.inr ⟨hR m hm, hle⟩

theorem recover {x : Step Machine Signal α} {k : Signal → Play α} (hx : Ends lone R L x) (hR : ∀ m, R m → R' m)
    (hexhausted : ∀ m, k .exhausted m = .fail .exhausted m)
    (hk : ∀ e m, R m → L.allow m e → Ends lone R' L' (k e m)) : Ends lone R' L' (x.recover k) := by
  refine (Step.meets_recover _ _ _).mpr (Step.Meets.mono (pause_monotone lone) (fun _ _ m => hR m) ?_ hx)
  rintro e - m (rfl | ⟨hm, hle⟩)
  · rw [hexhausted]
    exact Or.inl rfl
  · exact hk e m hm hle

theorem leave {x : Step Machine Signal α} {f : Machine → Machine} (hx : Ends lone R L x)
    (hR : ∀ m, R m → R' (f m)) (hL : ∀ m e, R m → L.allow m e → L'.allow (f m) e) : Ends lone R' L' (x.leave f) := by
  refine (Step.meets_leave _ _ _).mpr (Step.Meets.mono (pause_monotone lone) (fun _ _ m => hR m) ?_ hx)
  rintro e - m (he | ⟨hm, hle⟩)
  · exact Or.inl he
  · exact Or.inr ⟨hR m hm, hL m e hm hle⟩

theorem await {w : Wait} {m : Machine}
    (h : lone → w = .turn ∨ m.world.RequiresBelow ∧ ¬ Module.Idle m.world.loader) :
    Ends lone (Kept lone m) L ((Run.await w : Play Unit) m) :=
  ⟨h, fun _ hm' => hm'.kept⟩

theorem of_calm {m : Machine} {x : Step Machine Signal α} (h : Calm Still m x) : Ends lone (Kept lone m) L x := by
  match x with
  | .done _ _ => exact .of_still h
  | .fail _ _ =>
    obtain ⟨⟨p, rfl⟩, hm⟩ := h
    exact Or.inr ⟨.of_still hm, trivial⟩
  | .wait _ _ _ => exact h.elim

theorem throw {m : Machine} {e : Signal} (hm : R m) (hL : L.allow m e) :
    Ends lone R L ((throw e : Play α) m) := Or.inr ⟨hm, hL⟩

theorem exhausted (m : Machine) : Ends lone R L ((MonadExceptOf.throw Signal.exhausted : Play α) m) := Or.inl rfl

end Ends

/-- A property of states that lasts while a computation runs. -/
class Lasting (lone : Prop) (S : Machine → Prop) : Prop where
  lasts : ∀ {m m' : Machine}, Kept lone m m' → S m → S m'

/-- A computation that, from a state with a property, keeps what is to be kept and ends within limits. -/
class Obeys (lone : Prop) (S : Machine → Prop) (L : Limits) {α : Type} (x : Play α) : Prop where
  ends : ∀ m, S m → Ends lone (Kept lone m) L (x m)

theorem Ends.after {lone : Prop} {L : Limits} {α : Type} {m m' : Machine} {x : Step Machine Signal α}
    (h : Kept lone m m') (hx : Ends lone (Kept lone m') L x) : Ends lone (Kept lone m) L x :=
  hx.mono (fun _ => h.trans) fun _ _ _ => id

namespace Obeys

variable {lone : Prop} {S S' : Machine → Prop} {L L' : Limits} {α β : Type}

instance (priority := low) (x : Play α) [hx : Quiet x] : Obeys lone S L x := ⟨fun m _ => .of_calm (hx.calm m)⟩

theorem weaken {x : Play α} (hx : Obeys lone S L x) (hS : ∀ m, S' m → S m)
    (hL : ∀ m e, L.allow m e → L'.allow m e) : Obeys lone S' L' x :=
  ⟨fun m hm => (hx.ends m (hS m hm)).mono (fun _ => id) fun m e _ => hL m e⟩

theorem andThen [hS : Lasting lone S] {x : Play α} {k : α → Play β} [hx : Obeys lone S L x]
    (hk : ∀ a, Obeys lone S L (k a)) : Obeys lone S L (x >>= k) :=
  ⟨fun m hm => (hx.ends m hm).bind (fun _ => id) fun a m' h => .after h ((hk a).ends m' (hS.lasts h hm))⟩

instance [Lasting lone S] (x : Play α) (k : α → Play β) [Obeys lone S L x] [hk : ∀ a, Obeys lone S L (k a)] :
    Obeys lone S L (x >>= k) := andThen hk

instance [Lasting lone S] (f : α → β) (x : Play α) [Obeys lone S L x] : Obeys lone S L (f <$> x) :=
  inferInstanceAs (Obeys lone S L (x >>= fun a => pure (f a)))

instance [Lasting lone S] (x : Play α) [Obeys lone S L x] : Obeys lone S L (discard x) :=
  inferInstanceAs (Obeys lone S L ((fun _ => PUnit.unit) <$> x))

instance (c : Prop) [Decidable c] (x y : Play α) [Obeys lone S L x] [Obeys lone S L y] :
    Obeys lone S L (if c then x else y) := by
  split <;> infer_instance

theorem recover [hS : Lasting lone S] {x : Play α} {k : Signal → Play α} (hx : Obeys lone S L x)
    (hexhausted : ∀ m, k .exhausted m = .fail .exhausted m)
    (hk : ∀ e m, S m → L.allow m e → Ends lone (Kept lone m) L' (k e m)) : Obeys lone S L' (tryCatch x k) :=
  ⟨fun m hm => (hx.ends m hm).recover (fun _ => id) hexhausted fun e m' h he =>
    .after h (hk e m' (hS.lasts h hm) he)⟩

instance turn : Obeys lone S L (Run.await .turn : Play Unit) := ⟨fun _ _ => .await fun _ => .inl rfl⟩

instance awaited [Lasting lone S] (x : Play α) [Obeys lone S L x] : Obeys lone S L x.awaited :=
  inferInstanceAs (Obeys lone S L (Run.await .turn >>= fun _ => x))

theorem exhausted : Obeys lone S L (throw Signal.exhausted : Play α) := ⟨fun m _ => .exhausted m⟩

instance mapM [Lasting lone S] (f : α → Play β) [hf : ∀ a, Obeys lone S L (f a)] (l : List α) :
    Obeys lone S L (l.mapM f) := by
  induction l with
  | nil => rw [List.mapM_nil]; infer_instance
  | cons a l ih => rw [List.mapM_cons]; infer_instance

theorem onLoader (f : Module.Loader → Module.Loader)
    (hf : ∀ l a t, Module.Loading (f l) a t ↔ Module.Loading l a t) : Obeys lone S L (Play.onLoader f) :=
  ⟨fun m _ => show Kept lone m _ from ⟨.refl m.session, rfl, List.prefix_rfl, fun _ a t => hf m.world.loader a t⟩⟩

end Obeys

/-! ## Where a program may require and jump -/

def Purpose.stack : Purpose → Module.Stack
  | .script => []
  | .module _ stack => stack

/-- Every load under way is on the stack, so that asking for it again closes a cycle; or else the fault
is known, a requirement below a label of a script module. -/
def Covering (lone : Prop) (stack : Module.Stack) (m : Machine) : Prop :=
  lone → (∀ a t, Module.Loading m.world.loader a t → a ∈ stack.map Prod.snd) ∨ m.world.RequiresBelow

def Requiring (lone : Prop) (m : Machine) : Prop := Covering lone m.session.purpose.stack m

structure Allows (lone free : Prop) (m : Machine) (ss : List Statement) : Prop where
  require : ∀ e p, Statement.require e p ∈ ss → Requiring lone m
  jump : ∀ label p, Statement.signal (.goto label) p ∈ ss → Limits.freely free m.world label (some p.line)

/-- A state in which expressions may be evaluated: every routine that they can call is allowed, and so is
what they can require by themselves. -/
structure Suits (lone free : Prop) (m : Machine) : Prop where
  autoload : m.session.resolver.autoload ≠ [] → Requiring lone m
  routines : Allows lone free m (below m.session.labels m.session.program.toList)

/-- A state in which statements may be executed. -/
structure Apt (lone free : Prop) (ss : List Statement) (m : Machine) : Prop where
  suits : Suits lone free m
  allows : Allows lone free m ss

section

variable {lone free : Prop} {m m' : Machine}

theorem Covering.mono {stack : Module.Stack} (hw : World.Grown lone m.world m'.world) (h : Covering lone stack m) :
    Covering lone stack m' := by
  intro hl
  rcases h hl with h | h
  · exact Or.inl fun a t ha => h a t ((hw.loading hl a t).mp ha)
  · exact Or.inr (hw.requiresBelow h)

theorem Requiring.mono (hc : SameControl m.session m'.session) (hw : World.Grown lone m.world m'.world)
    (h : Requiring lone m) : Requiring lone m' := by
  unfold Requiring
  rw [hc.purpose]
  exact Covering.mono hw h

theorem freely_mono {label : String} {line : Option Nat} (hw : World.Grown lone m.world m'.world)
    (h : Limits.freely free m.world label line) : Limits.freely free m'.world label line :=
  h.imp_right hw.jumpsBelow

theorem Allows.mono {ss : List Statement} (hc : SameControl m.session m'.session)
    (hw : World.Grown lone m.world m'.world) (h : Allows lone free m ss) : Allows lone free m' ss :=
  ⟨fun e p he => (h.require e p he).mono hc hw, fun label p hp => freely_mono hw (h.jump label p hp)⟩

theorem Suits.mono (hc : SameControl m.session m'.session) (hw : World.Grown lone m.world m'.world)
    (h : Suits lone free m) : Suits lone free m' where
  autoload := by
    rw [hc.autoload]
    exact fun ha => (h.autoload ha).mono hc hw
  routines := by
    rw [hc.labels, hc.program]
    exact h.routines.mono hc hw

theorem Apt.mono {ss : List Statement} (hc : SameControl m.session m'.session)
    (hw : World.Grown lone m.world m'.world) (h : Apt lone free ss m) : Apt lone free ss m' :=
  ⟨h.suits.mono hc hw, h.allows.mono hc hw⟩

instance (stack : Module.Stack) : Lasting lone (Covering lone stack) := ⟨fun h => Covering.mono h.world⟩

instance : Lasting lone (Requiring lone) := ⟨fun h => Requiring.mono h.control h.world⟩

instance : Lasting lone (Suits lone free) := ⟨fun h => Suits.mono h.control h.world⟩

instance (ss : List Statement) : Lasting lone (Apt lone free ss) := ⟨fun h => Apt.mono h.control h.world⟩

end

/-- What is known of the program around an expression. -/
class Tame (lone : Prop) (o : Outer) : Prop where
  label : ∀ free name a, Obeys lone (Suits lone free) (.expression free) (o.label name a)
  moduleLabel : ∀ index label a, Obeys lone (fun _ => True) .moduleCall (o.moduleLabel index label a)
  load : ∀ identifier base stack, Obeys lone (Covering lone stack) .load (o.load identifier base stack)

end Conductor
