import Conductor.Proofs.Address.Domains
import Conductor.Proofs.Memory.Work
import Conductor.Proofs.Module.Orderly
import Conductor.Proofs.Run.Meets
import Conductor.Run.Routine

/-!
# Single acts

Most of what a program does knows nothing of where it is done: it reads and writes
variables, asks a handler, computes a value. Such an act looks at none of the marks of
control flow and leaves them as they are, so it can be moved from one place of a run to
another. It never waits, and it ends with a value or a problem. An act is recognized by its
shape, so each function of the language needs its own text unfolded once; whatever holds of
all acts is proved once, by induction on the shape.
-/

set_option autoImplicit false

namespace Conductor

/-! ## The marks of control flow -/

/-- Where a run is: its calls, loops and traps, the last condition, what it has counted, and after how many
statements the others have their turn. -/
structure Marks where
  calls : List Frame
  context : Option ErrorContext
  traps : Table Syntax.Trap String
  yieldInterval : Int
  line : Option Nat
  statements : Nat
  withheld : Nat
  loopDepth : Nat
  callDepth : Nat
  halting : Option Condition

namespace Session

def marks (s : Session) : Marks :=
  ⟨s.calls, s.context, s.traps, s.yieldInterval, s.line, s.statements, s.withheld, s.loopDepth, s.callDepth, s.halting⟩

def withMarks (s : Session) (k : Marks) : Session :=
  { s with
    calls := k.calls, context := k.context, traps := k.traps, yieldInterval := k.yieldInterval, line := k.line
    statements := k.statements, withheld := k.withheld, loopDepth := k.loopDepth, callDepth := k.callDepth, halting := k.halting }

@[simp] theorem marks_withMarks (s : Session) (k : Marks) : (s.withMarks k).marks = k := rfl

end Session

def Machine.withMarks (m : Machine) (k : Marks) : Machine := { m with session := m.session.withMarks k }

/-- What a loader knows of its loads: the nodes, the tickets, what is pending, the outcomes and the executions. -/
def Module.Loader.books (l : Module.Loader) :
    Table String Module.Node × Nat × Table String Nat × Table Nat Module.Outcome × Table String Nat :=
  (l.nodes, l.tickets, l.pending, l.outcomes, l.executions)

/-! ## Acts -/

/-- A change of a session that has nothing to do with control flow. -/
structure Session.Aside (f : Session → Session) : Prop where
  withMarks : ∀ s k, f (s.withMarks k) = (f s).withMarks k
  program : ∀ s, (f s).program = s.program
  labels : ∀ s, (f s).labels = s.labels
  purpose : ∀ s, (f s).purpose = s.purpose
  autoload : ∀ s, (f s).resolver.autoload = s.resolver.autoload
  args : ∀ s, (f s).args = s.args
  isMain : ∀ s, (f s).isMain = s.isMain
  domains : ∀ s, s.dispatcher.Capitalised → (f s).dispatcher.Capitalised

theorem Session.Aside.of_kept {f : Session → Session} (hmarks : ∀ s k, f (s.withMarks k) = (f s).withMarks k)
    (h : ∀ s, (f s).program = s.program ∧ (f s).labels = s.labels ∧ (f s).purpose = s.purpose ∧
      (f s).resolver.autoload = s.resolver.autoload ∧ (f s).args = s.args ∧ (f s).isMain = s.isMain ∧
      (f s).dispatcher = s.dispatcher) : Session.Aside f where
  withMarks := hmarks
  program s := (h s).1
  labels s := (h s).2.1
  purpose s := (h s).2.2.1
  autoload s := (h s).2.2.2.1
  args s := (h s).2.2.2.2.1
  isMain s := (h s).2.2.2.2.2.1
  domains s hs := (h s).2.2.2.2.2.2 ▸ hs

/-- A change of a world that leaves its modules and loads alone, does nothing to its store but work on it and does not
take back a cancellation. -/
structure World.Aside (f : World → World) : Prop where
  store : ∀ w : World, w.store.Worked (f w).store
  books : ∀ w, (f w).loader.books = w.loader.books
  modules : ∀ w, (f w).modules = w.modules
  cancelled : ∀ w, w.cancelled = true → (f w).cancelled = true

class inductive Simple : {α : Type} → Play α → Prop
  | pure {α : Type} (a : α) : Simple (pure a)
  | problem {α : Type} (p : Problem) : Simple (throw (.problem p) : Play α)
  | bind {α β : Type} (x : Play α) (k : α → Play β) (hx : Simple x) (hk : ∀ a, Simple (k a)) : Simple (x >>= k)
  | recover {α : Type} (x : Play α) (k : Signal → Play α) (hx : Simple x) (hk : ∀ p, Simple (k (.problem p))) :
      Simple (tryCatch x k)
  | reading {α : Type} (k : Session → Play α) (hk : ∀ s, Simple (k s)) (hmarks : ∀ s c, k (s.withMarks c) = k s) :
      Simple (Play.session >>= k)
  | world : Simple Play.world
  | memory {α : Type} (act : Memory.Act α) [hact : Memory.Works act] : Simple (Play.memory act)
  | onSession (f : Session → Session) (hf : Session.Aside f) : Simple (Play.modifySession f)
  | readdress (domain mode rule : Option String) : Simple (do
      let d ← Play.liftP ((← Play.session).dispatcher.switch domain mode rule)
      Play.modifySession fun s => { s with dispatcher := d })
  | onWorld (f : World → World) (hf : World.Aside f) : Simple (Play.modifyWorld f)

structure Unmoved (m m' : Machine) : Prop where
  marks : m'.session.marks = m.session.marks
  program : m'.session.program = m.session.program
  labels : m'.session.labels = m.session.labels
  purpose : m'.session.purpose = m.session.purpose
  autoload : m'.session.resolver.autoload = m.session.resolver.autoload
  args : m'.session.args = m.session.args
  isMain : m'.session.isMain = m.session.isMain
  domains : m.session.dispatcher.Capitalised → m'.session.dispatcher.Capitalised
  store : m.world.store.Worked m'.world.store
  books : m'.world.loader.books = m.world.loader.books
  modules : m'.world.modules = m.world.modules
  cancelled : m.world.cancelled = true → m'.world.cancelled = true

namespace Unmoved

theorem refl (m : Machine) : Unmoved m m := ⟨rfl, rfl, rfl, rfl, rfl, rfl, rfl, id, .refl, rfl, rfl, id⟩

theorem trans {m m' m'' : Machine} (h : Unmoved m m') (h' : Unmoved m' m'') : Unmoved m m'' where
  marks := h'.marks.trans h.marks
  program := h'.program.trans h.program
  labels := h'.labels.trans h.labels
  purpose := h'.purpose.trans h.purpose
  autoload := h'.autoload.trans h.autoload
  args := h'.args.trans h.args
  isMain := h'.isMain.trans h.isMain
  domains := h'.domains ∘ h.domains
  store := h.store.trans h'.store
  books := h'.books.trans h.books
  modules := h'.modules.trans h.modules
  cancelled := h'.cancelled ∘ h.cancelled

end Unmoved

def Calm {α : Type} (R : Machine → Machine → Prop) (m : Machine) : Step Machine Signal α → Prop
  | .done _ m' => R m m'
  | .fail e m' => (∃ p, e = .problem p) ∧ R m m'
  | .wait _ _ _ => False

namespace Calm

variable {α β : Type} {R : Machine → Machine → Prop} {m m' : Machine}

theorem after (htrans : ∀ m m' m'', R m m' → R m' m'' → R m m'') (h : R m m') {x : Step Machine Signal α}
    (hx : Calm R m' x) : Calm R m x := by
  match x with
  | .done _ _ => exact htrans _ _ _ h hx
  | .fail _ _ => exact ⟨hx.1, htrans _ _ _ h hx.2⟩
  | .wait _ _ _ => exact hx

theorem bind (htrans : ∀ m m' m'', R m m' → R m' m'' → R m m'') {x : Step Machine Signal α} {k : α → Play β}
    (hx : Calm R m x) (hk : ∀ a m', Calm R m' (k a m')) : Calm R m (x.bind k) := by
  match x with
  | .done a m' => exact after htrans hx (hk a m')
  | .fail _ _ => exact hx
  | .wait _ _ _ => exact hx

theorem recover (htrans : ∀ m m' m'', R m m' → R m' m'' → R m m'') {x : Step Machine Signal α} {k : Signal → Play α}
    (hx : Calm R m x) (hk : ∀ p m', Calm R m' (k (.problem p) m')) : Calm R m (x.recover k) := by
  match x with
  | .done _ _ => exact hx
  | .fail e m' =>
    obtain ⟨⟨p, rfl⟩, h⟩ := hx
    exact after htrans h (hk p m')
  | .wait _ _ _ => exact hx

theorem mono {S : Machine → Machine → Prop} (hRS : ∀ m', R m m' → S m m') {x : Step Machine Signal α}
    (hx : Calm R m x) : Calm S m x := by
  match x with
  | .done _ _ => exact hRS _ hx
  | .fail _ _ => exact ⟨hx.1, hRS _ hx.2⟩
  | .wait _ _ _ => exact hx

theorem eq_of_comes {S : Machine → Machine → Prop} {x : Step Machine Signal α} (hx : Calm R m x) {a : α}
    (h : x.Comes S (.done a m')) : x = .done a m' := by
  cases h with
  | done a m' => rfl
  | wait _ _ => exact hx.elim

end Calm

theorem Step.leave_bind {σ ε α β : Type} {f : σ → σ} {k : α → σ → Step σ ε β}
    (hk : ∀ a s, k a (f s) = (k a s).leave f) (x : Step σ ε α) : (x.leave f).bind k = (x.bind k).leave f := by
  induction x with
  | done a s => exact hk a s
  | fail e s => rfl
  | wait w s resume ih => exact congrArg (Step.wait w s) (funext fun r => funext (ih r))

namespace Simple

variable {α β : Type}

/-- An act ends at once and leaves the run where it is. -/
theorem calm {x : Play α} (hx : Simple x) (m : Machine) : Calm Unmoved m (x m) := by
  induction hx generalizing m with
  | pure a => exact Unmoved.refl m
  | problem p => exact ⟨⟨p, rfl⟩, .refl m⟩
  | bind x k _ _ ihx ihk => exact (ihx m).bind (fun _ _ _ => .trans) ihk
  | recover x k _ _ ihx ihk => exact (ihx m).recover (fun _ _ _ => .trans) ihk
  | reading k _ _ ihk => exact ihk m.session m
  | world => exact Unmoved.refl m
  | @memory _ act hact =>
    have hworked := hact.worked ⟨m.session.scope, m.world.store⟩
    simp only [Play.memory]
    split
    · next hend =>
      rw [hend] at hworked
      exact ⟨rfl, rfl, rfl, rfl, rfl, rfl, rfl, id, hworked, rfl, rfl, id⟩
    · next hend =>
      rw [hend] at hworked
      exact ⟨⟨_, rfl⟩, rfl, rfl, rfl, rfl, rfl, rfl, rfl, id, hworked, rfl, rfl, id⟩
  | onSession f hf =>
    have hsame : f m.session = (f m.session).withMarks m.session.marks := hf.withMarks m.session m.session.marks
    have hmarks : (f m.session).marks = m.session.marks := by rw [hsame, Session.marks_withMarks]
    exact ⟨hmarks, hf.program _, hf.labels _, hf.purpose _, hf.autoload _, hf.args _, hf.isMain _,
      hf.domains _, .refl, rfl, rfl, id⟩
  | readdress domain mode rule =>
    simp only [Run.bind_apply, Play.session_apply, Step.bind]
    cases hswitch : m.session.dispatcher.switch domain mode rule with
    | error p => exact ⟨⟨p, rfl⟩, .refl m⟩
    | ok d => exact ⟨rfl, rfl, rfl, rfl, rfl, rfl, rfl, fun h => h.switch hswitch, .refl, rfl, rfl, id⟩
  | onWorld f hf => exact ⟨rfl, rfl, rfl, rfl, rfl, rfl, rfl, id, hf.store _, hf.books _, hf.modules _, hf.cancelled _⟩

theorem withMarks {x : Play α} (hx : Simple x) (m : Machine) (c : Marks) :
    x (m.withMarks c) = (x m).leave fun m' => m'.withMarks c := by
  induction hx generalizing m with
  | pure a => rfl
  | problem p => rfl
  | bind x k _ _ ihx ihk =>
    rw [Run.bind_apply, ihx, Step.leave_bind ihk]
    rfl
  | recover x k hx _ ihx ihk =>
    have hcalm := hx.calm m
    rw [Run.tryCatch_apply, ihx, Run.tryCatch_apply]
    cases hend : x m with
    | done a m' => rfl
    | fail e m' =>
      rw [hend] at hcalm
      obtain ⟨⟨p, rfl⟩, -⟩ := hcalm
      exact ihk p m'
    | wait w m' resume =>
      rw [hend] at hcalm
      exact hcalm.elim
  | reading k _ hmarks ihk =>
    change k (m.session.withMarks c) (m.withMarks c) = (k m.session m).leave _
    rw [hmarks, ihk]
  | world => rfl
  | memory act =>
    simp only [Play.memory, Machine.withMarks, Session.withMarks]
    split <;> rfl
  | onSession f hf =>
    simp only [Play.modifySession_apply, Machine.withMarks, hf.withMarks]
    rfl
  | readdress domain mode rule =>
    have hsame : (m.withMarks c).session.dispatcher = m.session.dispatcher := rfl
    simp only [Run.bind_apply, Play.session_apply, Step.bind, hsame]
    cases m.session.dispatcher.switch domain mode rule <;> rfl
  | onWorld f hf => rfl

attribute [instance] pure problem world memory readdress

instance (x : Play α) (k : α → Play β) [hx : Simple x] [hk : ∀ a, Simple (k a)] : Simple (x >>= k) := .bind x k hx hk

theorem andThen {x : Play α} {k : α → Play β} [hx : Simple x] (hk : ∀ a, Simple (k a)) : Simple (x >>= k) :=
  .bind x k hx hk

instance (f : α → β) (x : Play α) [Simple x] : Simple (f <$> x) :=
  inferInstanceAs (Simple (x >>= fun a => Pure.pure (f a)))

instance (x : Play α) [Simple x] : Simple (discard x) := inferInstanceAs (Simple ((fun _ => PUnit.unit) <$> x))

instance (c : Prop) [Decidable c] (x y : Play α) [Simple x] [Simple y] : Simple (if c then x else y) := by
  split <;> infer_instance

instance mapM (f : α → Play β) [hf : ∀ a, Simple (f a)] (l : List α) : Simple (l.mapM f) := by
  induction l with
  | nil => rw [List.mapM_nil]; infer_instance
  | cons a l ih => rw [List.mapM_cons]; infer_instance

end Simple

/-! ## Plain acts -/

/-- A change of a world that leaves alone, besides, what modules are located by, and the loader but for its failures. -/
structure World.Aloof (f : World → World) : Prop where
  store : ∀ w : World, w.store.Worked (f w).store
  loader : ∀ w, ∃ failures, (f w).loader = { w.loader with failures := failures }
  files : ∀ w, (f w).files = w.files
  environ : ∀ w, (f w).environ = w.environ
  modules : ∀ w, (f w).modules = w.modules
  cancelled : ∀ w, w.cancelled = true → (f w).cancelled = true

namespace World.Aloof

variable {f : World → World}

theorem of_kept (h : ∀ w : World, (f w).store = w.store ∧ (f w).loader = w.loader ∧ (f w).files = w.files ∧
    (f w).environ = w.environ ∧ (f w).modules = w.modules) (hcancelled : ∀ w, w.cancelled = true → (f w).cancelled = true) :
    World.Aloof f where
  store w := (h w).1 ▸ .refl
  loader w := ⟨w.loader.failures, (h w).2.1⟩
  files w := (h w).2.2.1
  environ w := (h w).2.2.2.1
  modules w := (h w).2.2.2.2
  cancelled := hcancelled

theorem aside (h : World.Aloof f) : World.Aside f := by
  refine ⟨h.store, fun w => ?_, h.modules, h.cancelled⟩
  obtain ⟨failures, hloader⟩ := h.loader w
  rw [hloader]
  rfl

end World.Aloof

/-- A single act that leaves alone what modules are located by: all of them but the writing of files. -/
class inductive Plain : {α : Type} → Play α → Prop
  | pure {α : Type} (a : α) : Plain (pure a)
  | problem {α : Type} (p : Problem) : Plain (throw (.problem p) : Play α)
  | bind {α β : Type} (x : Play α) (k : α → Play β) (hx : Plain x) (hk : ∀ a, Plain (k a)) : Plain (x >>= k)
  | recover {α : Type} (x : Play α) (k : Signal → Play α) (hx : Plain x) (hk : ∀ p, Plain (k (.problem p))) :
      Plain (tryCatch x k)
  | reading {α : Type} (k : Session → Play α) (hk : ∀ s, Plain (k s)) (hmarks : ∀ s c, k (s.withMarks c) = k s) :
      Plain (Play.session >>= k)
  | world : Plain Play.world
  | memory {α : Type} (act : Memory.Act α) [hact : Memory.Works act] : Plain (Play.memory act)
  | onSession (f : Session → Session) (hf : Session.Aside f) (hdir : ∀ s, (f s).sourceDir = s.sourceDir) :
      Plain (Play.modifySession f)
  | onWorld (f : World → World) (hf : World.Aloof f) : Plain (Play.modifyWorld f)

namespace Plain

variable {α β : Type}

theorem simple {x : Play α} (hx : Plain x) : Simple x := by
  induction hx with
  | pure a => exact .pure a
  | problem p => exact .problem p
  | bind x k _ _ hx hk => exact .bind x k hx hk
  | recover x k _ _ hx hk => exact .recover x k hx hk
  | reading k _ hmarks hk => exact .reading k hk hmarks
  | world => exact .world
  | memory act => exact .memory act
  | onSession f hf _ => exact .onSession f hf
  | onWorld f hf => exact .onWorld f hf.aside

instance (priority := low) (x : Play α) [h : Plain x] : Simple x := h.simple

attribute [instance] pure problem world memory

instance (x : Play α) (k : α → Play β) [hx : Plain x] [hk : ∀ a, Plain (k a)] : Plain (x >>= k) := .bind x k hx hk

theorem andThen {x : Play α} {k : α → Play β} [hx : Plain x] (hk : ∀ a, Plain (k a)) : Plain (x >>= k) :=
  .bind x k hx hk

instance (f : α → β) (x : Play α) [Plain x] : Plain (f <$> x) :=
  inferInstanceAs (Plain (x >>= fun a => Pure.pure (f a)))

instance (x : Play α) [Plain x] : Plain (discard x) := inferInstanceAs (Plain ((fun _ => PUnit.unit) <$> x))

instance (c : Prop) [Decidable c] (x y : Play α) [Plain x] [Plain y] : Plain (if c then x else y) := by
  split <;> infer_instance

instance mapM (f : α → Play β) [hf : ∀ a, Plain (f a)] (l : List α) : Plain (l.mapM f) := by
  induction l with
  | nil => rw [List.mapM_nil]; infer_instance
  | cons a l ih => rw [List.mapM_cons]; infer_instance

instance foldlM (f : β → α → Play β) [hf : ∀ b a, Plain (f b a)] (l : List α) (b : β) : Plain (l.foldlM f b) := by
  induction l generalizing b with
  | nil => rw [List.foldlM_nil]; infer_instance
  | cons a l ih => rw [List.foldlM_cons]; infer_instance

instance forM (f : α → Play PUnit) [hf : ∀ a, Plain (f a)] (l : List α) : Plain (l.forM f) := by
  induction l with
  | nil => exact inferInstanceAs (Plain (Pure.pure PUnit.unit))
  | cons a l ih => exact inferInstanceAs (Plain (f a >>= fun _ => l.forM f))

end Plain

namespace Play

variable {α : Type}

/-! ## The state -/

instance (c : Condition) : Plain (raise c : Play α) := inferInstanceAs (Plain (throw _))

instance (c : Cause) : Plain (cause c : Play α) := inferInstanceAs (Plain (throw _))

instance (c : Cause) (line : Option Nat) : Plain (causeAt c line : Play α) := inferInstanceAs (Plain (throw _))

instance (f : Failure) : Plain (failure f : Play α) := inferInstanceAs (Plain (throw _))

instance (x : Except Failure α) : Plain (liftE x) := by cases x <;> unfold liftE <;> infer_instance

instance (x : Except Problem α) : Plain (liftP x) := by cases x <;> unfold liftP <;> infer_instance

instance (x : Except Condition α) : Plain (liftC x) := by cases x <;> unfold liftC <;> infer_instance

instance (v : Value) : Plain (tree v) := by unfold tree; infer_instance

instance (v : Value) : Plain (text v) := by unfold text; infer_instance

instance (v : Value) : Plain (number v) := by unfold number; infer_instance

instance (v : Value) : Plain (truthy v) := by
  unfold truthy
  split <;> infer_instance

instance (t : Tree) : Plain (plant t) := by unfold plant; infer_instance

instance (v : Value) : Plain (plain v) := by unfold plain; infer_instance

instance (v : Value) : Plain (normalize v) := by unfold normalize; infer_instance

instance (name : String) (v : Value) : Plain (write name v) := by unfold write; infer_instance

instance (f : Http → Except Failure α × Http) : Plain (onHttp f) := by
  unfold onHttp
  have h (http : Http) : Plain (modifyWorld fun w => { w with http := http }) :=
    .onWorld _ (.of_kept (fun _ => ⟨rfl, rfl, rfl, rfl, rfl⟩) fun _ => id)
  infer_instance

instance (topic message : String) : Plain (emit topic message) :=
  .onSession _ (.of_kept (fun _ _ => rfl) fun _ => ⟨rfl, rfl, rfl, rfl, rfl, rfl, rfl⟩) fun _ => rfl

instance (f : Condition → Condition) (c : Condition) : Plain (placed f c) := by
  unfold placed
  have h : Plain (modifyWorld fun w => { w with loader := w.loader.note (f c) }) := by
    exact .onWorld _ ⟨fun _ => .refl, fun w => Module.note_eq w.loader (f c), fun _ => rfl, fun _ => rfl, fun _ => rfl, fun _ => id⟩
  infer_instance

instance (v : Value) : Plain (storeResult v) := by unfold storeResult; infer_instance

instance (path : String) : Plain (seek path) := .onWorld _ (.of_kept (fun _ => ⟨rfl, rfl, rfl, rfl, rfl⟩) fun _ => id)

instance : Plain requestCancel := .onWorld _ (.of_kept (fun _ => ⟨rfl, rfl, rfl, rfl, rfl⟩) fun _ _ => rfl)

instance : Plain requestPause := .onWorld _ (.of_kept (fun _ => ⟨rfl, rfl, rfl, rfl, rfl⟩) fun _ => id)

/-! ## Requests -/

instance (error : Tree) : Plain (refused error) := by unfold refused; infer_instance

instance (m : Address.Methods) (method : String) (payload : Value) (r : Address.Request) (limit : Option Number) :
    Plain (callMethods m method payload r limit) := by
  unfold callMethods
  split
  · infer_instance
  · split
    case h_2 => split <;> [skip; split] <;> infer_instance
    all_goals infer_instance

instance (number : Nat) (replies : List Address.Reply) : Plain (nextReply number replies) := by
  unfold nextReply
  have h (i : Nat) : Plain (modifyWorld fun w => { w with replies := w.replies.setIfInBounds number (i + 1) }) :=
    .onWorld _ (.of_kept (fun _ => ⟨rfl, rfl, rfl, rfl, rfl⟩) fun _ => id)
  infer_instance

instance (number : Nat) (method : String) (payload : Value) (r : Address.Request) :
    Plain (record number method payload r) := .onWorld _ (.of_kept (fun _ => ⟨rfl, rfl, rfl, rfl, rfl⟩) fun _ => id)

instance (number : Nat) (method : String) (payload : Value) (r : Address.Request) (limit : Option Number) :
    Plain (askHandler number method payload r limit) := by
  unfold askHandler
  refine .andThen fun w => ?_
  split
  · infer_instance
  · split
    · infer_instance
    · refine .andThen fun _ => ?_
      split <;> infer_instance

instance (domain : String) (v : Value) : Plain (coerce.malformed domain v) := by
  unfold coerce.malformed
  infer_instance

instance (domain : String) (r : Address.Reply) : Plain (coerce domain r) := by
  unfold coerce
  split
  · infer_instance
  · split <;> infer_instance
  · infer_instance

instance (error : Tree) : Plain (errorMessage? error) := by
  unfold errorMessage?
  dsimp only
  split <;> infer_instance

instance (p : Problem) (place : Condition → Condition) : Plain (invoke.wrapped p place) := by
  unfold invoke.wrapped
  infer_instance

instance (method : String) (payload : Value) (mode : Option String) (line : Option Nat) (delimiter domain : Option String) :
    Plain (invoke method payload mode line delimiter domain) := by
  unfold invoke
  refine .reading _ (fun s => .andThen fun found => ?_) fun _ _ => rfl
  extract_lets mode place
  split
  extract_lets late
  refine .andThen fun answer => ?_
  split
  · infer_instance
  · infer_instance
  · infer_instance
  · refine .andThen fun parts => ?_
    split
    split
    · infer_instance
    · refine .andThen fun error => .andThen fun message => ?_
      split <;> infer_instance

instance (channel : Channel) (message : Tree) : Plain (ask channel message) := by
  unfold ask
  have h (sent : Value) : Plain (modifyWorld fun w => { w with channelSent := w.channelSent ++ [sent] }) :=
    .onWorld _ (.of_kept (fun _ => ⟨rfl, rfl, rfl, rfl, rfl⟩) fun _ => id)
  split <;> infer_instance

instance (channel : Channel) (name : String) (a : Arguments) : Plain (callRemote channel name a) := by
  unfold callRemote
  refine .andThen fun placed => .andThen fun named => .andThen fun message => .andThen fun reply => .andThen fun t => ?_
  split
  · split
    · infer_instance
    · extract_lets error refuse
      have hrefuse (e : Tree) : Plain (refuse e) := by unfold refuse; infer_instance
      clear_value error
      split <;> infer_instance
  · infer_instance

/-! ## Functions -/

instance (n : Number) : Plain (isWholeNumber n) := by unfold isWholeNumber; infer_instance

instance (v : Value) (what : String) : Plain (whole v what) := by
  unfold whole
  refine .andThen fun _ => .andThen fun i => ?_
  split <;> infer_instance

instance (v : Value) (function : String) : Plain (stem v function) := by
  unfold stem
  split <;> infer_instance

instance (v : Value) : Plain (chars v) := by unfold chars; infer_instance

instance (n : Int) : Plain (checkLength n) := by unfold checkLength; infer_instance

instance (g : Given) : Plain (padOf g) := by unfold padOf; infer_instance

instance (v : Value) : Plain (firstUpper v) := by unfold firstUpper; infer_instance

instance (a b : Number) : Plain (powerValue a b) := by
  unfold powerValue
  refine .andThen fun z => ?_
  split <;> infer_instance

instance (beats : Number → Number → Bool) (function : String) (vs : List Value) : Plain (best beats function vs) := by
  unfold best
  split <;> infer_instance

instance (g : Given) : Plain (trunc g) := by unfold trunc; infer_instance

instance (g : Given) : Plain (substr g) := by
  unfold substr
  refine .andThen fun s => .andThen fun start => ?_
  extract_lets piece cut
  have hcut (u : Unit) : Plain (cut u) := by
    unfold cut
    split <;> infer_instance
  clear_value cut
  infer_instance

instance (g : Given) : Plain (left g) := by unfold left; infer_instance

instance (g : Given) : Plain (right g) := by unfold right; infer_instance

instance (g : Given) : Plain (pos g) := by unfold pos; infer_instance

instance (g : Given) : Plain (word g) := by unfold word; infer_instance

instance (g : Given) : Plain (strip g) := by
  unfold strip
  refine .andThen fun s => .andThen fun given => ?_
  extract_lets set drop
  refine .andThen fun option => ?_
  split <;> infer_instance

instance (g : Given) : Plain (copies g) := by unfold copies; infer_instance

instance (g : Given) : Plain (split g) := by unfold split; infer_instance

instance (a : Address) : Plain (itemsOf a) := by unfold itemsOf; infer_instance

instance (g : Given) : Plain (arrayPush g) := by
  unfold arrayPush
  have h (a : Address) : Plain (modifyWorld fun w => { w with store := w.store.pushed a g.rest }) :=
    .onWorld _ ⟨fun w => w.store.worked_set a _, fun w => ⟨w.loader.failures, rfl⟩, fun _ => rfl, fun _ => rfl,
      fun _ => rfl, fun _ => id⟩
  infer_instance

instance (g : Given) : Plain (arrayGet g) := by unfold arrayGet; infer_instance

instance (g : Given) : Plain (arrayJoin g) := by unfold arrayJoin; infer_instance

instance (g : Given) : Plain (jsonParse g) := by
  unfold jsonParse
  refine .andThen fun outcome => ?_
  split <;> infer_instance

instance (g : Given) : Plain (yamlParse g) := by
  unfold yamlParse
  refine .andThen fun s => ?_
  split <;> infer_instance

instance (g : Given) : Plain (jsonStringify g) := by unfold jsonStringify; infer_instance

instance (g : Given) : Plain (fileRead g) := by
  unfold fileRead
  exact .andThen fun path => .reading _ (fun s => inferInstance) fun _ _ => rfl

instance (g : Given) : Simple (fileWrite g) := by
  unfold fileWrite
  have h (files : Files) : Simple (modifyWorld fun w => { w with files := files }) :=
    .onWorld _ ⟨fun _ => .refl, fun _ => rfl, fun _ => rfl, fun _ => id⟩
  refine .andThen fun path => .andThen fun data => .andThen fun w => .reading _ (fun s => ?_) fun s c => ?_
  · split
    infer_instance
  · simp only [Session.withMarks]

instance (g : Given) : Plain (httpGet g) := by
  unfold httpGet
  refine .andThen fun limit => .andThen fun mode => ?_
  extract_lets timeout config
  refine .andThen fun known => ?_
  extract_lets fetch
  have hfetch (u : Unit) : Plain (fetch u) := by
    unfold fetch
    refine .andThen fun url => .andThen fun t => ?_
    split <;> infer_instance
  clear_value fetch
  infer_instance

instance (g : Given) : Plain (argument g) := by
  unfold argument
  refine .reading _ (fun s => ?_) fun _ _ => rfl
  extract_lets args
  split <;> infer_instance

instance (name : String) : Plain (localEntry name) := by
  unfold localEntry
  exact .reading _ (fun s => inferInstance) fun _ _ => rfl

instance (g : Given) : Plain (symbol g) := by unfold symbol; infer_instance

instance (g : Given) : Plain (datatype g) := by
  unfold datatype
  extract_lets v
  split
  · infer_instance
  · refine .andThen fun s => .andThen fun kind => ?_
    split <;> infer_instance

instance (g : Given) : Plain (info g) := by
  unfold info
  refine .andThen fun name => .andThen fun e => ?_
  split <;> infer_instance

theorem builtin_plain {b : Builtin} (hb : b ≠ .fileWrite) (a : Arguments) : Plain (builtin b a) := by
  cases b <;> unfold builtin
  case address => exact .reading _ (fun s => inferInstance) fun _ _ => rfl
  case interpolation => exact .reading _ (fun s => inferInstance) fun _ _ => rfl
  case fileWrite => exact absurd rfl hb
  all_goals infer_instance

instance (b : Builtin) (a : Arguments) : Simple (builtin b a) := by
  by_cases hb : b = .fileWrite
  · subst hb
    unfold builtin
    infer_instance
  · have := builtin_plain hb a
    infer_instance

/-! ## Expressions and statements -/

instance (s : String) : Plain (interpolate s) := by
  unfold interpolate
  exact .reading _ (fun s => inferInstance) fun _ _ => rfl

instance (s : String) : Plain (segment s) := by unfold segment; infer_instance

instance (r : Syntax.Ref) : Plain (tailOf r) := by unfold tailOf; infer_instance

instance (r : Syntax.Ref) : Plain (readRef r) := by unfold readRef; infer_instance

instance (r : Syntax.Ref) (v : Value) : Plain (writeRef r v) := by unfold writeRef; infer_instance

instance (b : Syntax.BlockLiteral) : Plain (blockValue b) := by
  unfold blockValue
  refine .andThen fun s => ?_
  split
  · infer_instance
  · refine .recover _ _ inferInstance fun p => ?_
    cases p <;> infer_instance

instance (f : HostFunction) (a : Arguments) : Plain (callHost f a) := by
  unfold callHost
  split <;> infer_instance

instance : Plain cancelRuns := by unfold cancelRuns; infer_instance

instance (op : Syntax.BinaryOp) (line : Nat) (a b : Value) : Plain (binary op line a b) := by
  unfold binary
  refine .andThen fun x => .andThen fun y => ?_
  split <;> infer_instance

instance (op : Syntax.UnaryOp) (line : Nat) (a : Value) : Plain (unary op line a) := by
  unfold unary
  split
  · infer_instance
  · refine .andThen fun x => ?_
    split <;> infer_instance

instance (label : String) (line : Option Nat) : Plain (labelIndex label line) := by
  unfold labelIndex
  refine .reading _ (fun s => ?_) fun _ _ => rfl
  split <;> infer_instance

instance : Plain isDefault := by
  unfold isDefault
  exact .reading _ (fun s => inferInstance) fun _ _ => rfl

instance : Plain mode := by
  unfold mode
  exact .reading _ (fun s => inferInstance) fun _ _ => rfl

instance (r : Syntax.Ref) : Plain (isBareMethod r) := by unfold isBareMethod; infer_instance

instance (action : Syntax.InterpolationAction) (line : Nat) : Plain (setInterpolation action line) := by
  unfold setInterpolation
  have h (e : Interpolation.Engine) : Plain (modifySession fun s => { s with interpolation := e }) :=
    .onSession _ (.of_kept (fun _ _ => rfl) fun _ => ⟨rfl, rfl, rfl, rfl, rfl, rfl, rfl⟩) fun _ => rfl
  refine .reading _ (fun s => ?_) fun _ _ => rfl
  extract_lets engine outcome
  clear_value outcome
  split <;> infer_instance

instance bindArguments_simple (names : List String) (vs : List Value) : Plain (bindArguments names vs) := by
  fun_induction bindArguments names vs <;> infer_instance

instance (n : Number) (line : Nat) : Plain (countOf n line) := by unfold countOf; infer_instance

/-! ## Routines -/

instance (index : Nat) : Plain (statementsFrom index) := by
  unfold statementsFrom
  exact .reading _ (fun s => inferInstance) fun _ _ => rfl

instance : Plain registry := by
  unfold registry
  refine .andThen fun w => ?_
  split <;> infer_instance

instance (identifier : String) (base : Option String) : Plain (locate identifier base) := by
  unfold locate
  infer_instance

end Play

end Conductor
