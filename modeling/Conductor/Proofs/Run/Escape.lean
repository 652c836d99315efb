import Conductor.Proofs.Run.Programs

/-!
# What a call of a script module does not stop

A routine of a script module runs in a fresh session. Two things pass through the call
of it: a jump, and a wait for a load. This is shown of routines that begin with a
statement which does one of the two, and that are called without arguments.
-/

set_option autoImplicit false

namespace Conductor

open Syntax (Statement Place)

inductive Escape
  | jump (target : String) (line : Option Nat)
  | load (ticket : Nat)

namespace Escape

variable {α β : Type} {E : Escape}

def Leads : Escape → Step Machine Signal α → Prop
  | .jump target line, x => ∃ m, x = .fail (.jump target line) m
  | .load ticket, x => ∃ m resume, x = .wait (.load ticket) m resume

theorem Leads.bind {x : Step Machine Signal α} (h : E.Leads x) (k : α → Play β) : E.Leads (x.bind k) := by
  cases E with
  | jump target line =>
    obtain ⟨m, rfl⟩ := h
    exact ⟨m, rfl⟩
  | load ticket =>
    obtain ⟨m, resume, rfl⟩ := h
    exact ⟨m, _, rfl⟩

theorem Leads.leave {x : Step Machine Signal α} (h : E.Leads x) (f : Machine → Machine) : E.Leads (x.leave f) := by
  cases E with
  | jump target line =>
    obtain ⟨m, rfl⟩ := h
    exact ⟨f m, rfl⟩
  | load ticket =>
    obtain ⟨m, resume, rfl⟩ := h
    exact ⟨m, _, rfl⟩

theorem Leads.recover {x : Step Machine Signal α} (h : E.Leads x) {k : Signal → Play α}
    (hk : ∀ target line m, k (.jump target line) m = .fail (.jump target line) m) : E.Leads (x.recover k) := by
  cases E with
  | jump target line =>
    obtain ⟨m, rfl⟩ := h
    exact ⟨m, hk target line m⟩
  | load ticket =>
    obtain ⟨m, resume, rfl⟩ := h
    exact ⟨m, _, rfl⟩

end Escape

namespace Play

variable {E : Escape}

def Begins (sm : ScriptModule) (label : String) (s : Statement) : Prop :=
  ∃ i rest, sm.program.labels.lookup (Text.upper (Text.upper label)) = some i ∧ sm.program.drop (i + 1) = s :: rest

def routineSession (sm : ScriptModule) : Session :=
  { installed sm.program (moduleSession sm.sourceDir sm.required .script) with args := [[], []], callDepth := 1 }

theorem callLabel_leads (o : Outer) {sm : ScriptModule} {label : String} {s : Statement} (w : World)
    (hbegins : Begins sm label s) (hs : E.Leads (exec o s { session := routineSession sm, world := w })) :
    E.Leads (callLabel o (Text.upper label) {}
      { session := installed sm.program (moduleSession sm.sourceDir sm.required .script), world := w }) := by
  obtain ⟨i, rest, hname, hbody⟩ := hbegins
  have hroutine : E.Leads (routine o (s :: rest) { session := routineSession sm, world := w }) := by
    refine Escape.Leads.recover (Escape.Leads.bind ?_ _) fun _ _ _ => rfl
    rw [execAll]
    exact hs.bind _
  rw [callLabel_apply o {} hname (show 0 < callLimit by decide)]
  change E.Leads (Step.leave (leftRoutine o (sm.program.drop (i + 1)) _ { session := routineSession sm, world := w }) _)
  rw [hbody]
  exact (hroutine.leave _).leave _

/-- What the first statement of a routine does passes through a call of the routine. -/
theorem apply_leads (n : Nat) {e : Entry} {index : Nat} {label : String} (he : e.routine = .moduleLabel index label)
    {supplied : List Supplied} {piped : Option Value} {asStatement : Bool}
    (hbind : e.bind supplied piped asStatement = .ok {}) (line : Option Nat) {m : Machine} {sm : ScriptModule}
    (hsm : m.world.modules[index]? = some sm) {s : Statement} (hbegins : Begins sm label s)
    (hs : E.Leads (exec (outer n) s { session := routineSession sm, world := m.world })) :
    E.Leads (apply (outer (n + 1)) e supplied piped asStatement line m) := by
  let pushed : Machine :=
    { m with session := { m.session with calls := ⟨e.name, Arguments.all {}⟩ :: m.session.calls } }
  have hmodule : E.Leads (callModule (outer n) index label {} pushed) := by
    simp only [callModule, Run.bind_apply, world_apply, Step.bind]
    rw [show pushed.world.modules[index]? = some sm from hsm]
    simp only [Run.bind_apply, within, session_apply, modifySession_apply, Step.bind, Run.leaving_apply,
      loadProgram_apply]
    have hcall := callLabel_leads (outer n) m.world hbegins hs
    refine Escape.Leads.bind (Escape.Leads.leave (Escape.Leads.bind (Escape.Leads.recover hcall ?_) _) _) _
    intro target line m
    rfl
  have hperform : E.Leads (perform (outer (n + 1)) e {} pushed) := by
    simp only [perform, he]
    exact hmodule.bind _
  simp only [apply, hbind, Run.bind_apply, Run.pure_apply, Step.bind, modifySession_apply, Run.tryCatch_apply]
  refine Escape.Leads.bind (Escape.Leads.recover hperform ?_) _
  intro target line m
  rfl

/-! ## First statements -/

/-- A statement in a routine that has just started is executed: the run is not cancelled there, and nothing
is sent by pattern. -/
theorem atPlace_routine (p : Place) (body : Play Unit) (sm : ScriptModule) (w : World) :
    atPlace p true body { session := routineSession sm, world := w } =
      body { session := { routineSession sm with statements := 1, line := some p.line }, world := w } := rfl

theorem exec_goto_leads (o : Outer) {sm : ScriptModule} {target : String} {j : Nat} (p : Place) (w : World)
    (htarget : sm.program.labels.lookup (Text.upper target) = some j) :
    (Escape.jump target (some p.line)).Leads
      (exec o (.signal (.goto target) p) { session := routineSession sm, world := w }) := by
  rw [exec, atPlace_routine]
  simp only [signalWith, Run.bind_apply, Run.discard_apply, labelIndex_apply]
  rw [show (routineSession sm).labels.lookup (Text.upper target) = some j from htarget]
  exact ⟨_, rfl⟩

end Play

end Conductor
