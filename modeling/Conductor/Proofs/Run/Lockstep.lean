import Conductor.Proofs.Run.Stops
import Conductor.Run.Script

/-!
# Runs in lockstep

Two computations go in lockstep if they wait for the same, with the same world around them,
and end alike, however the world has changed where both go on or are interrupted.
What a session has counted, the statements that began and those that were withheld, is read
by nothing but the clock that gives the others their turn. So two runs of a program from
states that differ in these counts alone go in lockstep, if the clock goes alike for both; if
it does not, then but for turns in which nothing happens.
-/

set_option autoImplicit false

namespace Conductor

variable {α β : Type}

/-- The ends of the two are compared by a relation for values and one for signals. Where idle turns are allowed for,
either may have a turn in which nothing happens. -/
inductive Lockstep (idle : Prop) (D : Machine → Machine → Prop) (F : Signal → Machine → Machine → Prop) :
    Step Machine Signal α → Step Machine Signal α → Prop
  | done (a : α) {m m' : Machine} (h : D m m') : Lockstep idle D F (.done a m) (.done a m')
  | fail (e : Signal) {m m' : Machine} (h : F e m m') : Lockstep idle D F (.fail e m) (.fail e m')
  | wait (w : Wait) {m m' : Machine} {resume resume' : Option Signal → Machine → Step Machine Signal α}
      (hworld : m'.world = m.world)
      (h : ∀ raised world, (∀ e, raised = some e → e = .interruption) →
        Lockstep idle D F (resume raised { m with world := world }) (resume' raised { m' with world := world })) :
      Lockstep idle D F (.wait w m resume) (.wait w m' resume')
  | left {m : Machine} {resume : Option Signal → Machine → Step Machine Signal α} {y : Step Machine Signal α}
      (hidle : idle) (h : Lockstep idle D F (resume none m) y) : Lockstep idle D F (.wait .turn m resume) y
  | right {m : Machine} {resume : Option Signal → Machine → Step Machine Signal α} {x : Step Machine Signal α}
      (hidle : idle) (h : Lockstep idle D F x (resume none m)) : Lockstep idle D F x (.wait .turn m resume)

namespace Lockstep

variable {idle : Prop} {D D' : Machine → Machine → Prop} {F F' : Signal → Machine → Machine → Prop}
  {x y : Step Machine Signal α}

theorem refl (hD : ∀ m, D m m) (hF : ∀ e m, F e m m) (x : Step Machine Signal α) : Lockstep idle D F x x := by
  induction x with
  | done a m => exact .done a (hD m)
  | fail e m => exact .fail e (hF e m)
  | wait w m resume ih => exact .wait w rfl fun raised world _ => ih raised _

theorem mono (h : Lockstep idle D F x y) (hD : ∀ m m', D m m' → D' m m') (hF : ∀ e m m', F e m m' → F' e m m') :
    Lockstep idle D' F' x y := by
  induction h with
  | done a h => exact .done a (hD _ _ h)
  | fail e h => exact .fail e (hF _ _ _ h)
  | wait w hworld _ ih => exact .wait w hworld ih
  | left hidle _ ih => exact .left hidle ih
  | right hidle _ ih => exact .right hidle ih

theorem bind {k k' : α → Play β} (h : Lockstep idle D F x y) (hF : ∀ e m m', F e m m' → F' e m m')
    (hk : ∀ a m m', D m m' → Lockstep idle D' F' (k a m) (k' a m')) : Lockstep idle D' F' (x.bind k) (y.bind k') := by
  induction h with
  | done a h => exact hk a _ _ h
  | fail e h => exact .fail e (hF _ _ _ h)
  | wait w hworld _ ih => exact .wait w hworld ih
  | left hidle _ ih => exact .left hidle ih
  | right hidle _ ih => exact .right hidle ih

theorem recover {k k' : Signal → Play α} (h : Lockstep idle D F x y)
    (hk : ∀ e m m', F e m m' → Lockstep idle D F' (k e m) (k' e m')) :
    Lockstep idle D F' (x.recover k) (y.recover k') := by
  induction h with
  | done a h => exact .done a h
  | fail e h => exact hk e _ _ h
  | wait w hworld _ ih => exact .wait w hworld ih
  | left hidle _ ih => exact .left hidle ih
  | right hidle _ ih => exact .right hidle ih

theorem leave {f f' : Machine → Machine} (h : Lockstep idle D F x y) (hD : ∀ m m', D m m' → D' (f m) (f' m'))
    (hF : ∀ e m m', F e m m' → F' e (f m) (f' m')) : Lockstep idle D' F' (x.leave f) (y.leave f') := by
  induction h with
  | done a h => exact .done a (hD _ _ h)
  | fail e h => exact .fail e (hF _ _ _ h)
  | wait w hworld _ ih => exact .wait w hworld ih
  | left hidle _ ih => exact .left hidle ih
  | right hidle _ ih => exact .right hidle ih

/-- With nothing beside them, the two end alike, or both wait for ever. -/
theorem alone (h : Lockstep idle D F x y) :
    (∃ a m m', x.alone = .done a m ∧ y.alone = .done a m' ∧ D m m') ∨
      (∃ e m m', x.alone = .fail e m ∧ y.alone = .fail e m' ∧ F e m m') ∨
      ∃ m m', x.alone = .stuck m ∧ y.alone = .stuck m' := by
  induction h with
  | done a h => exact .inl ⟨a, _, _, rfl, rfl, h⟩
  | fail e h => exact .inr (.inl ⟨e, _, _, rfl, rfl, h⟩)
  | @wait w m m' _ _ hworld _ ih =>
    cases w with
    | turn =>
      have hih := ih none m.world (by simp)
      rw [show { m' with world := m.world } = m' by rw [← hworld]] at hih
      simpa only [Step.alone] using hih
    | load ticket => exact .inr (.inr ⟨m, m', rfl, rfl⟩)
  | left _ _ ih => simpa only [Step.alone] using ih
  | right _ _ ih => simpa only [Step.alone] using ih

end Lockstep

/-! ## States that differ in what was counted -/

def Session.withCounts (s : Session) (statements withheld : Nat) : Session :=
  { s with statements := statements, withheld := withheld }

/-- With so many statements begun the others have their turns as they do in the session. -/
def Session.InTurn (s : Session) (statements : Nat) : Prop :=
  s.yieldInterval ≠ 0 → (statements : Int) % s.yieldInterval = s.statements % s.yieldInterval

namespace Session.InTurn

variable {s : Session} {i : Nat}

theorem isDue (h : s.InTurn i) (j : Nat) : (s.withCounts i j).isDue = s.isDue := by
  by_cases hnever : s.yieldInterval = 0
  · simp [Session.isDue, Session.withCounts, hnever]
  · simp [Session.isDue, Session.withCounts, h hnever]

theorem succ (h : s.InTurn i) : { s with statements := s.statements + 1 }.InTurn (i + 1) := by
  intro hsome
  have hsame := h hsome
  dsimp only at hsame ⊢
  rw [Int.natCast_add, Int.natCast_add, Int.add_emod, hsame, ← Int.add_emod]

end Session.InTurn

/-- Two states that differ in nothing but what the sessions have counted; but for idle turns, the clock goes alike. -/
def Even (idle : Prop) (m m' : Machine) : Prop :=
  ∃ i j, (idle ∨ m.session.InTurn i) ∧ m' = { m with session := m.session.withCounts i j }

def Machine.recounted (m : Machine) (statements withheld : Nat) (line : Option Nat) : Machine :=
  { m with session := { m.session with statements := statements, withheld := withheld, line := line } }

/-- Two states that a run stopped in before it had begun a statement: it went too far, it was interrupted, or the
statement was withheld. The line of the last statement is another one in the second. -/
structure Outset (idle : Prop) (last : Option Nat) (m : Machine) (e : Signal) (m₁ m₂ : Machine) : Prop where
  cut : e = .exhausted ∨ e = .interruption ∨ ∃ l, e = .problem (.condition { cause := .cancelled, line := some l })
  line : m₁.session.line = m.session.line
  calls : m₁.session.calls = m.session.calls
  traps : m₁.session.traps = m.session.traps
  recounted : ∃ i j, (idle ∨ m₁.session.InTurn i) ∧ m₂ = m₁.recounted i j last

structure Session.Uncounted (f : Session → Session) : Prop where
  withCounts : ∀ s i j, f (s.withCounts i j) = (f s).withCounts i j
  yieldInterval : ∀ s, (f s).yieldInterval = s.yieldInterval

theorem Session.Uncounted.inTurn {f : Session → Session} (hf : Session.Uncounted f) {s : Session} {i : Nat}
    (h : s.InTurn i) : (f s).InTurn i := by
  have hstatements : (f s).statements = s.statements :=
    (congrArg Session.statements (hf.withCounts s s.statements s.withheld) :)
  intro hsome
  rw [hstatements, hf.yieldInterval]
  exact h (hf.yieldInterval s ▸ hsome)

theorem Even.onSession {idle : Prop} {m m' : Machine} (h : Even idle m m') {f : Session → Session}
    (hf : Session.Uncounted f) : Even idle { m with session := f m.session } { m' with session := f m'.session } := by
  obtain ⟨i, j, hturn, rfl⟩ := h
  exact ⟨i, j, hturn.imp_right hf.inTurn, congrArg (fun s => { m with session := s }) (hf.withCounts m.session i j)⟩

/-- A computation that goes in lockstep with itself from states that differ in their counts. -/
class InStep (x : Play α) : Prop where
  runs : ∀ {idle : Prop} m m', Even idle m m' → Lockstep idle (Even idle) (fun _ => Even idle) (x m) (x m')

section

variable {idle : Prop}

theorem Lockstep.andThen {x y : Step Machine Signal α} {k : α → Play β}
    (h : Lockstep idle (Even idle) (fun _ => Even idle) x y) (hk : ∀ a, InStep (k a)) :
    Lockstep idle (Even idle) (fun _ => Even idle) (x.bind k) (y.bind k) :=
  h.bind (fun _ _ _ => id) fun a => (hk a).runs

theorem Lockstep.orElse {x y : Step Machine Signal α} {k : Signal → Play α}
    (h : Lockstep idle (Even idle) (fun _ => Even idle) x y) (hk : ∀ e, InStep (k e)) :
    Lockstep idle (Even idle) (fun _ => Even idle) (x.recover k) (y.recover k) :=
  h.recover fun e => (hk e).runs

end

namespace InStep

instance (priority := low) (x : Play α) [hx : Simple x] : InStep x := by
  refine ⟨?_⟩
  rintro idle m _ ⟨i, j, hturn, rfl⟩
  let c : Marks := { m.session.marks with statements := i, withheld := j }
  have hmove : x { m with session := m.session.withCounts i j } = (x m).leave fun m' => m'.withMarks c :=
    hx.withMarks m c
  have heven (m' : Machine) (h : Unmoved m m') : Even idle m' (m'.withMarks c) := by
    have hc : c = { m'.session.marks with statements := i, withheld := j } := by rw [h.marks]
    have hstatements : m'.session.statements = m.session.statements := congrArg Marks.statements h.marks
    have hinterval : m'.session.yieldInterval = m.session.yieldInterval := congrArg Marks.yieldInterval h.marks
    rw [hc]
    refine ⟨i, j, hturn.imp_right fun hsame => ?_, rfl⟩
    rwa [Session.InTurn, hstatements, hinterval]
  have hcalm := hx.calm m
  rw [hmove]
  cases hend : x m with
  | done a m' =>
    rw [hend] at hcalm
    exact .done a (heven m' hcalm)
  | fail e m' =>
    rw [hend] at hcalm
    exact .fail e (heven m' hcalm.2)
  | wait w m' resume =>
    rw [hend] at hcalm
    exact hcalm.elim

theorem andThen {x : Play α} {k : α → Play β} [hx : InStep x] (hk : ∀ a, InStep (k a)) : InStep (x >>= k) :=
  ⟨fun m m' h => (hx.runs m m' h).andThen hk⟩

instance (x : Play α) (k : α → Play β) [InStep x] [hk : ∀ a, InStep (k a)] : InStep (x >>= k) := andThen hk

instance (c : Prop) [Decidable c] (x y : Play α) [InStep x] [InStep y] : InStep (if c then x else y) := by
  split <;> infer_instance

instance (e : Signal) : InStep (throw e : Play α) := ⟨fun _ _ h => .fail e h⟩

theorem recover {x : Play α} {k : Signal → Play α} (hx : InStep x) (hk : ∀ e, InStep (k e)) : InStep (tryCatch x k) :=
  ⟨fun m m' h => (hx.runs m m' h).orElse hk⟩

theorem reading {k : Session → Play α} (hk : ∀ s, InStep (k s)) (hcounts : ∀ s i j, k (s.withCounts i j) = k s) :
    InStep (Play.session >>= k) := by
  refine ⟨?_⟩
  rintro idle m _ ⟨i, j, hturn, rfl⟩
  have hread : (Play.session >>= k) { m with session := m.session.withCounts i j } =
      k m.session { m with session := m.session.withCounts i j } := by
    change k (m.session.withCounts i j) _ = _
    rw [hcounts]
  rw [hread]
  exact (hk m.session).runs m _ ⟨i, j, hturn, rfl⟩

theorem onSession (f : Session → Session) (hf : Session.Uncounted f) : InStep (Play.modifySession f) :=
  ⟨fun _ _ h => .done PUnit.unit (h.onSession hf)⟩

theorem onWorld (f : World → World) : InStep (Play.modifyWorld f) := by
  refine ⟨?_⟩
  rintro idle m _ ⟨i, j, hturn, rfl⟩
  exact .done PUnit.unit ⟨i, j, hturn, rfl⟩

theorem leaving {x : Play α} {f : Session → Session} (hx : InStep x) (hf : Session.Uncounted f) :
    InStep (x.leaving fun m => { m with session := f m.session }) :=
  ⟨fun m m' h => (hx.runs m m' h).leave (fun _ _ h => h.onSession hf) fun _ _ _ h => h.onSession hf⟩

end InStep

/-! ## Parts of a program -/

theorem Passes.inStep {k : Signal → Play α} (hk : Passes k) (e : Signal) : InStep (k e) := by
  by_cases hproblem : ∃ p, e = .problem p
  · obtain ⟨p, rfl⟩ := hproblem
    have := hk.problem p
    infer_instance
  · rw [hk.others e fun p hp => hproblem ⟨p, hp⟩]
    infer_instance

namespace Play

instance (w : Wait) : InStep (Run.await w : Play Unit) := by
  refine ⟨?_⟩
  rintro idle m _ ⟨i, j, hturn, rfl⟩
  refine .wait w rfl fun raised world _ => ?_
  cases raised with
  | none => exact .done () ⟨i, j, hturn, rfl⟩
  | some e => exact .fail e ⟨i, j, hturn, rfl⟩

instance (s : Session) (x : Play α) : InStep (within s x) := by
  refine ⟨?_⟩
  rintro idle m _ ⟨i, j, hturn, rfl⟩
  have hsame : Lockstep idle Eq (fun _ => Eq) ((do let a ← x; return (a, ← session) : Play (α × Session)) { m with session := s })
      ((do let a ← x; return (a, ← session) : Play (α × Session)) { m with session := s }) :=
    .refl (fun _ => rfl) (fun _ _ => rfl) _
  refine hsame.leave (fun m₁ m₂ h => ?_) fun _ m₁ m₂ h => ?_
  · subst h
    exact ⟨i, j, hturn, rfl⟩
  · subst h
    exact ⟨i, j, hturn, rfl⟩

theorem yieldIf_lockstep {idle : Prop} {D : Machine → Machine → Prop} {F : Signal → Machine → Machine → Prop}
    {m m' : Machine} {c : Play Bool} {due : Machine → Bool} {k k' : Unit → Machine → Step Machine Signal α}
    (hc : ∀ m, c m = .done (due m) m) (hworld : m'.world = m.world) (hdue : idle ∨ due m' = due m)
    (hraised : ∀ world, F .interruption { m with world := world } { m' with world := world })
    (hk : ∀ world, Lockstep idle D F (k ⟨⟩ { m with world := world }) (k' ⟨⟩ { m' with world := world })) :
    Lockstep idle D F ((yieldIf c m).bind k) ((yieldIf c m').bind k') := by
  have hboth : Lockstep idle D F (((Run.await .turn : Play Unit) m).bind k) (((Run.await .turn : Play Unit) m').bind k') := by
    refine .wait .turn hworld fun raised world hinterruption => ?_
    cases raised with
    | none => exact hk world
    | some e =>
      obtain rfl := hinterruption e rfl
      exact .fail _ (hraised world)
  have hgoes := hk m.world
  rw [show { m' with world := m.world } = m' by rw [← hworld]] at hgoes
  rw [yieldIf_apply (hc m), yieldIf_apply (hc m')]
  cases hm : due m <;> cases hm' : due m'
  · exact hgoes
  · exact .right (hdue.resolve_right (by simp [hm, hm'])) hgoes
  · exact .left (hdue.resolve_right (by simp [hm, hm'])) hgoes
  · exact hboth

/-- A statement begins alike in two states that differ in what was counted and in the line of the last statement. -/
theorem checkpoint_lockstep {idle : Prop} (p : Syntax.Place) {m : Machine} {i : Nat} (j : Nat) (l : Option Nat)
    (hturn : idle ∨ m.session.InTurn i) :
    Lockstep idle (Even idle) (Outset idle l m) (checkpoint p m) (checkpoint p (m.recounted i j l)) := by
  rw [checkpoint_apply, checkpoint_apply]
  refine yieldIf_lockstep isPaused_apply rfl (.inr rfl)
    (fun world => ⟨.inr (.inl rfl), rfl, rfl, rfl, i, j, hturn, rfl⟩) fun world => ?_
  dsimp only [Machine.recounted]
  split
  · exact .fail _ ⟨.inr (.inr ⟨p.line, rfl⟩), rfl, rfl, rfl, i, j + 1, hturn, rfl⟩
  · refine yieldIf_lockstep isDue_apply rfl (hturn.imp_right fun h => h.succ.isDue j)
      (fun world => ⟨.inr (.inl rfl), rfl, rfl, rfl, i + 1, j, hturn.imp_right Session.InTurn.succ, rfl⟩) fun world => ?_
    exact .done _ ⟨i + 1, j, hturn.imp_right Session.InTurn.succ, rfl⟩

instance (p : Syntax.Place) : InStep (checkpoint p) := by
  refine ⟨?_⟩
  rintro idle m _ ⟨i, j, hturn, rfl⟩
  refine (checkpoint_lockstep p j m.session.line hturn).mono (fun _ _ => id) fun e m₁ m₂ h => ?_
  obtain ⟨i', j', hturn', rfl⟩ := h.recounted
  refine ⟨i', j', hturn', ?_⟩
  rw [← h.line]
  rfl

instance (signal : Signal) (action : String) (line : Nat) : InStep (loopSignal signal action line) := by
  unfold loopSignal
  exact .reading (fun s => inferInstance) fun _ _ _ => rfl

instance (f : Frame) (x : Play Value) [InStep x] : InStep (framed f x) := by
  have hpush : InStep (modifySession fun s => { s with calls := f :: s.calls }) :=
    .onSession _ ⟨fun _ _ _ => rfl, fun _ => rfl⟩
  have hpop : InStep (modifySession fun s => { s with calls := s.calls.tail }) := .onSession _ ⟨fun _ _ _ => rfl, fun _ => rfl⟩
  unfold framed
  infer_instance

instance (body : Play Unit) [InStep body] : InStep (round body) := by
  refine .recover inferInstance fun signal => ?_
  split <;> infer_instance

instance (x : Play Unit) [hx : InStep x] : InStep (inLoop x) := by
  have henter : InStep (modifySession fun s => { s with loopDepth := s.loopDepth + 1 }) :=
    .onSession _ ⟨fun _ _ _ => rfl, fun _ => rfl⟩
  have hleave : InStep (x.leaving fun m => { m with session := { m.session with loopDepth := m.session.loopDepth - 1 } }) :=
    InStep.leaving (f := fun s => { s with loopDepth := s.loopDepth - 1 }) hx ⟨fun _ _ _ => rfl, fun _ => rfl⟩
  unfold inLoop
  infer_instance

instance (o : Outer) (body : List Syntax.Statement) [InStep (execAll o body)] : InStep (routine o body) := by
  refine .recover inferInstance fun signal => ?_
  split <;> infer_instance

theorem callLabel_inStep {o : Outer} (hexec : ∀ body, InStep (execAll o body)) (name : String) (a : Arguments) :
    InStep (callLabel o name a) := by
  have henter (args : List Value) : InStep (modifySession (entered args)) := .onSession _ ⟨fun _ _ _ => rfl, fun _ => rfl⟩
  have hleft (body : List Syntax.Statement) (s : Session) : InStep (leftRoutine o body s) :=
    .leaving inferInstance ⟨fun _ _ _ => rfl, fun _ => rfl⟩
  have hrun (body : List Syntax.Statement) (s : Session) : InStep (Run.leaving (do enterRoutine a; leftRoutine o body s)
      fun m => { m with session := { m.session with scope := s.scope } }) := by
    rw [enterRoutine_eq]
    exact InStep.leaving (f := fun after => { after with scope := s.scope }) inferInstance ⟨fun _ _ _ => rfl, fun _ => rfl⟩
  unfold callLabel
  exact .reading (fun s => inferInstance) fun _ _ _ => rfl

end Play

/-- What lies around a program goes in lockstep. -/
class Outer.InStep (o : Outer) : Prop where
  label : ∀ name a, Conductor.InStep (o.label name a)
  moduleLabel : ∀ index label a, Conductor.InStep (o.moduleLabel index label a)
  load : ∀ identifier base stack, Conductor.InStep (o.load identifier base stack)

theorem Woven.inStep {o : Outer} [ho : o.InStep] {l : Level} {x : Play α} (hx : Woven o l x) : InStep x := by
  induction hx with
  | simple x hx => infer_instance
  | bind x k _ _ _ ihk => exact .andThen ihk
  | reading k _ hmarks ihk => exact .reading ihk fun s i j => hmarks s { s.marks with statements := i, withheld := j }
  | passing x k _ hk ihx => exact .recover ihx hk.inStep
  | exhausted => infer_instance
  | onWorld f _ => exact .onWorld f
  | await w => infer_instance
  | settling x k _ hk ihx => exact .recover ihx hk.inStep
  | moduleLabel index label a => exact ho.moduleLabel index label a
  | load identifier base stack => exact ho.load identifier base stack
  | within s x _ _ _ _ => infer_instance
  | errand x _ ihx => exact ihx
  | label name a => exact ho.label name a
  | framed f x _ ihx => infer_instance
  | calling name a _ ihexec => exact Play.callLabel_inStep ihexec name a
  | expression x _ ihx => exact ihx
  | checkpoint p => infer_instance
  | onTraps f => exact .onSession _ ⟨fun _ _ _ => rfl, fun _ => rfl⟩
  | departing e _ => infer_instance
  | round body _ ih => infer_instance
  | inLoop x _ ih => infer_instance
  | loop x _ ihx => exact ihx
  | leaving action line => infer_instance
  | iterating action line => infer_instance

instance outer_inStep (n : Nat) : (Play.outer n).InStep := by
  induction n with
  | zero =>
    have hend {α : Type} : InStep (throw .exhausted : Play α) := inferInstance
    exact ⟨fun _ _ => hend, fun _ _ _ => hend, fun _ _ _ => hend⟩
  | succ n ih =>
    have hwoven (l : Level) {α : Type} (x : Play α) [hx : Woven (Play.outer n) l x] : InStep x := hx.inStep
    exact ⟨fun name a => hwoven .expression (Play.callLabel (Play.outer n) name a),
      fun index label a => hwoven .errand (Play.callModule (Play.outer n) index label a),
      fun identifier base stack => hwoven .errand (Play.load (Play.outer n) identifier base stack)⟩

/-! ## The top level -/

namespace Play

instance (o : Outer) [o.InStep] (body : List Syntax.Statement) : InStep (execAll o body) := (execAll_woven o body).inStep

instance (c : Condition) : InStep (describe c) := by
  have hcontext : InStep (modifySession fun s => { s with context := some ⟨c.line, c.function, c.domain⟩ }) :=
    .onSession _ ⟨fun _ _ _ => rfl, fun _ => rfl⟩
  rw [describe_eq]
  infer_instance

instance (trap : Syntax.Trap) (label : String) : InStep (goOnAt trap label) := by
  have hleave : InStep (modifySession fun s =>
      { s with calls := [], loopDepth := if trap == .error then 0 else s.loopDepth }) :=
    .onSession _ ⟨fun _ _ _ => rfl, fun _ => rfl⟩
  unfold goOnAt
  infer_instance

instance (c : Condition) (label : String) : InStep (takeTrap c label) := by
  refine ⟨?_⟩
  rintro idle m _ ⟨i, j, hturn, rfl⟩
  rw [takeTrap_eq, takeTrap_eq c label { m with session := m.session.withCounts i j }]
  exact InStep.runs _ _ ⟨i, j, hturn, rfl⟩

instance (e : Signal) : InStep (stopOn e) := by
  have hout : InStep (modifySession fun s => { s with calls := [] }) := .onSession _ ⟨fun _ _ _ => rfl, fun _ => rfl⟩
  unfold stopOn
  split
  · infer_instance
  · infer_instance
  · refine .reading (fun s => ?_) fun _ _ _ => rfl
    split <;> infer_instance
  · infer_instance

instance (o : Outer) [o.InStep] (body : List Syntax.Statement) : InStep (stretch o body) :=
  .recover inferInstance inferInstance

instance topLevel_inStep (o : Outer) [o.InStep] (stopAtLabel : Bool) (n index : Nat) :
    InStep (topLevel o stopAtLabel n index) := by
  induction n generalizing index with
  | zero => rw [topLevel]; infer_instance
  | succ n ih =>
    rw [topLevel]
    refine .andThen fun rest => .andThen fun stop => ?_
    cases stop <;> infer_instance

instance (o : Outer) [o.InStep] (stopAtLabel : Bool) (n : Nat) (stop : Stop) : InStep (goOn o stopAtLabel n stop) := by
  cases stop <;> (unfold goOn; infer_instance)

instance : InStep raiseHalted := by
  have hforget : InStep (modifySession fun s => { s with halting := none }) := .onSession _ ⟨fun _ _ _ => rfl, fun _ => rfl⟩
  unfold raiseHalted
  refine .reading (fun s => ?_) fun _ _ _ => rfl
  split <;> infer_instance

end Play

end Conductor
