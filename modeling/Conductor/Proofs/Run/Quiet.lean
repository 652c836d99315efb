import Conductor.Proofs.Run.Simple

/-!
# Quiet computations

Most of what a program does leaves alone what control depends on: the program and its
labels, what the session belongs to, the modules it loads by themselves, the depth of
its loops, the books of the loader and the script modules. A computation is
quiet if it never waits, ends in nothing but a value or a problem, and leaves all of
this as it was. Quietness is found by the shape of a computation, so each function of
the language needs its own text unfolded once.
-/

set_option autoImplicit false

namespace Conductor

/-- Two states of a session that agree in what control depends on. -/
structure SameControl (s s' : Session) : Prop where
  program : s'.program = s.program
  labels : s'.labels = s.labels
  purpose : s'.purpose = s.purpose
  autoload : s'.resolver.autoload = s.resolver.autoload

namespace SameControl

theorem refl (s : Session) : SameControl s s := ⟨rfl, rfl, rfl, rfl⟩

theorem trans {s s' s'' : Session} (h : SameControl s s') (h' : SameControl s' s'') : SameControl s s'' where
  program := h'.program.trans h.program
  labels := h'.labels.trans h.labels
  purpose := h'.purpose.trans h.purpose
  autoload := h'.autoload.trans h.autoload

end SameControl

structure Still (m m' : Machine) : Prop where
  control : SameControl m.session m'.session
  depth : m'.session.loopDepth = m.session.loopDepth
  store : m.world.store.Worked m'.world.store
  books : m'.world.loader.books = m.world.loader.books
  modules : m'.world.modules = m.world.modules

namespace Still

theorem refl (m : Machine) : Still m m := ⟨.refl m.session, rfl, .refl, rfl, rfl⟩

theorem trans {m m' m'' : Machine} (h : Still m m') (h' : Still m' m'') : Still m m'' :=
  ⟨h.control.trans h'.control, h'.depth.trans h.depth, h.store.trans h'.store, h'.books.trans h.books, h'.modules.trans h.modules⟩

theorem nodes {m m' : Machine} (h : Still m m') : m'.world.loader.nodes = m.world.loader.nodes :=
  congrArg Prod.fst h.books

theorem pending {m m' : Machine} (h : Still m m') : m'.world.loader.pending = m.world.loader.pending :=
  congrArg (·.2.2.1) h.books

end Still

class Quiet {α : Type} (x : Play α) : Prop where
  calm : ∀ m, Calm Still m (x m)

namespace Quiet

variable {α β : Type}

instance (priority := low) (x : Play α) [hx : Simple x] : Quiet x := by
  refine ⟨fun m => (hx.calm m).mono fun m' h => ?_⟩
  exact ⟨⟨h.program, h.labels, h.purpose, h.autoload⟩, congrArg Marks.loopDepth h.marks, h.store, h.books, h.modules⟩

instance (a : α) : Quiet (pure a) := ⟨fun m => Still.refl m⟩

theorem andThen {x : Play α} {k : α → Play β} [hx : Quiet x] (hk : ∀ a, Quiet (k a)) : Quiet (x >>= k) :=
  ⟨fun m => (hx.calm m).bind (fun _ _ _ => .trans) fun a => (hk a).calm⟩

instance (x : Play α) (k : α → Play β) [Quiet x] [hk : ∀ a, Quiet (k a)] : Quiet (x >>= k) := andThen hk

instance (f : α → β) (x : Play α) [hx : Quiet x] : Quiet (f <$> x) :=
  ⟨fun m => (hx.calm m).bind (fun _ _ _ => .trans) fun _ => Still.refl⟩

instance (p : Problem) : Quiet (throw (.problem p) : Play α) := ⟨fun m => ⟨⟨p, rfl⟩, .refl m⟩⟩

instance (c : Prop) [Decidable c] (x y : Play α) [Quiet x] [Quiet y] : Quiet (if c then x else y) := by
  split <;> infer_instance

instance : Quiet (get : Play Machine) := ⟨Still.refl⟩

theorem onSession (f : Session → Session) (h : ∀ s, SameControl s (f s))
    (hd : ∀ s, (f s).loopDepth = s.loopDepth) : Quiet (Play.modifySession f) :=
  ⟨fun m => ⟨h m.session, hd m.session, .refl, rfl, rfl⟩⟩

theorem onWorld (f : World → World) (hs : ∀ w, (f w).store = w.store) (hn : ∀ w, (f w).loader.books = w.loader.books)
    (hm : ∀ w, (f w).modules = w.modules) : Quiet (Play.modifyWorld f) :=
  ⟨fun m => ⟨.refl m.session, rfl, hs m.world ▸ .refl, hn m.world, hm m.world⟩⟩

end Quiet

namespace Play

variable {α : Type}

instance : Quiet session := by unfold session; infer_instance

instance : Quiet isPaused := by unfold isPaused; infer_instance
instance : Quiet isCancelled := by unfold isCancelled; infer_instance
instance : Quiet isDue := by unfold isDue; infer_instance

instance (p : Syntax.Place) : Quiet (withhold p) := by
  unfold withhold
  have hwithheld : Quiet (modifySession fun s => { s with withheld := s.withheld + 1 }) :=
    .onSession _ (fun _ => ⟨rfl, rfl, rfl, rfl⟩) fun _ => rfl
  infer_instance

instance (c : Condition) : Quiet (describe c) := by
  unfold describe
  have h : Quiet (modifySession fun s => { s with context := some ⟨c.line, c.function, c.domain⟩ }) :=
    .onSession _ (fun _ => ⟨rfl, rfl, rfl, rfl⟩) fun _ => rfl
  extract_lets line
  refine .andThen fun _ => .andThen fun _ => .andThen fun _ => ?_
  infer_instance

end Play

end Conductor
