import Conductor.Proofs.Run.Escape

/-!
# Calls of script modules

A call of a label that a script module exports ends with a value or with a condition at
the place of the call, with one exception: a jump that a routine below a label of a
script module makes is not stopped by the call. It reaches the top level of the calling
program, which goes on at its own label of that name. Whatever happens, the session of
the caller is as it was, but for its variables and the calls that a report lists.

The endings are those of every way in which the call can be resumed where it waits.
-/

set_option autoImplicit false

namespace Conductor

/-- What may happen elsewhere while a computation waits. -/
structure Elsewhere (m m' : Machine) : Prop where
  session : m'.session = m.session
  modules : m.world.modules.toList <+: m'.world.modules.toList

def Undisturbed (s s' : Session) : Prop := s' = { s with scope := s'.scope, calls := s'.calls }

/-- What a call of a script module's label may end in: a value, with the calls in progress as they were, a
condition, what interrupted it, or a jump that stands below a label of a script module. A call may also go too deep. -/
inductive CallEnds (m : Machine) : Step.Ending Machine Signal Value → Prop
  | value (v : Value) (m' : Machine) :
    Undisturbed m.session m'.session → m'.session.calls = m.session.calls → CallEnds m (.done v m')
  | condition (c : Condition) (m' : Machine) :
    Undisturbed m.session m'.session → CallEnds m (.fail (.problem (.condition c)) m')
  | interrupted (f : Failure) (m' : Machine) : f.interrupts = true →
    Undisturbed m.session m'.session → CallEnds m (.fail (.problem (.failure f)) m')
  | jump (target : String) (line : Option Nat) (m' : Machine) :
    Undisturbed m.session m'.session → m'.world.JumpsBelow target line → CallEnds m (.fail (.jump target line) m')
  | exhausted (m' : Machine) : CallEnds m (.fail .exhausted m')

namespace Play

def endsAs {α : Type} (R : Step.Ending Machine Signal α → Prop) (x : Step Machine Signal α) : Prop :=
  x.Meets (pause False) (fun a _ m => R (.done a m)) (fun e _ m => R (.fail e m)) ()

theorem endsAs.comes {α : Type} {R : Step.Ending Machine Signal α → Prop} {x : Step Machine Signal α}
    {ending : Step.Ending Machine Signal α} (h : endsAs R x) (hc : x.Comes Elsewhere ending) : R ending := by
  induction hc with
  | done a s => exact h
  | fail e s => exact h
  | wait hs _ ih => exact ih (h.2 _ ⟨hs.session, hs.modules, False.elim⟩)

theorem memory_ends {L : Limits} {α : Type} (act : Memory.Act α) (m : Machine) :
    Ends False (fun m' => m'.session = { m.session with scope := m'.session.scope }) L (memory act m) := by
  unfold memory
  dsimp only
  split
  · exact rfl
  · exact Or.inr ⟨rfl, trivial⟩

theorem moduleLabel_ends (n index : Nat) (label : String) (a : Arguments) (m : Machine) :
    Ends False (fun m' => m'.session = m.session) .moduleCall ((outer n).moduleLabel index label a m) := by
  cases n with
  | zero => exact Or.inl rfl
  | succ n => exact (callModule_ends (outer n) index label a m).mono (fun _ h => h.1) fun _ _ _ => id

theorem perform_ends (n : Nat) {e : Entry} {index : Nat} {label : String} (he : e.routine = .moduleLabel index label)
    (a : Arguments) (m : Machine) :
    Ends False (fun m' => m'.session = { m.session with scope := m'.session.scope }) .moduleCall
      (perform (outer n) e a m) := by
  simp only [perform, he]
  refine (moduleLabel_ends n index label a m).bind (fun m' h => ?_) fun v m' h => ?_
  · rw [h]
  · rw [← h]
    exact memory_ends _ m'

theorem apply_endsAs (n : Nat) {e : Entry} {index : Nat} {label : String} (he : e.routine = .moduleLabel index label)
    (supplied : List Supplied) (piped : Option Value) (asStatement : Bool) (line : Option Nat) (m : Machine) :
    endsAs (CallEnds m) (apply (outer n) e supplied piped asStatement line m) := by
  simp only [apply]
  cases hbind : e.bind supplied piped asStatement with
  | error c => exact .condition _ m rfl
  | ok a =>
    let pushed : Machine := { m with session := { m.session with calls := ⟨e.name, a.all⟩ :: m.session.calls } }
    refine Run.meets_bind.mpr ((Step.meets_done _ m _).mpr (Run.meets_bind.mpr ((Step.meets_done _ pushed _).mpr ?_)))
    refine Run.meets_bind.mpr (Run.meets_tryCatch.mpr
      (Step.Meets.mono (pause_monotone False) (fun v _ m' h => ?_) (fun signal _ m' h => ?_)
        (perform_ends n he a pushed)))
    · obtain ⟨s, w⟩ := m'
      change s = { pushed.session with scope := s.scope } at h
      rw [h]
      exact .value v _ rfl rfl
    · rcases h with rfl | ⟨hs, hallow⟩
      · exact .exhausted m'
      · have hsession : Undisturbed m.session m'.session := by rw [Undisturbed, hs]
        cases signal with
        | problem p =>
          cases p with
          | condition c => exact .condition _ _ hsession
          | failure f =>
            cases hf : f.interrupts with
            | true =>
              simp only [hf, if_true]
              exact .interrupted f m' hf hsession
            | false =>
              simp only [hf, Bool.false_eq_true, if_false]
              exact .condition _ m' hsession
        | jump target line => exact .jump target line m' hsession (hallow.resolve_left id)
        | exhausted => exact .exhausted m'
        | leave | iterate => exact hallow.1.elim
        | ret _ | exit _ => exact hallow.elim

/-! ## A jump that is not stopped -/

/-- The routine of a label of a script module begins with a jump to one of the module's labels. -/
def BeginsWithJump (sm : ScriptModule) (label target : String) (p : Syntax.Place) : Prop :=
  Begins sm label (.signal (.goto target) p) ∧ ∃ j, sm.program.labels.lookup (Text.upper target) = some j

/-- A jump that reaches the top level is taken there. -/
theorem stretch_jump (o : Outer) {body : List Syntax.Statement} {m m' : Machine} {target : String} {line : Option Nat}
    {k : Nat} (hexec : execAll o body m = .fail (.jump target line) m')
    (htarget : m'.session.labels.lookup (Text.upper target) = some k) :
    ∃ m'', stretch o body m = .done (.resume (k + 1)) m'' := by
  let cleared : Machine := { m' with session := { m'.session with calls := [] } }
  have hindex : labelIndex target line cleared = .done k cleared := by
    rw [labelIndex_apply, show cleared.session.labels.lookup (Text.upper target) = some k from htarget]
  refine ⟨cleared, ?_⟩
  simp only [stretch, stopOn, Run.tryCatch_apply, Run.bind_apply, hexec, Step.bind, Step.recover, modifySession_apply]
  rw [show labelIndex target line _ = _ from hindex]
  rfl

/-- A call of a label that a script module exports ends, however it is resumed, with a value or a condition
at the place of the call, or else in a jump that stands below a label of a script module. A routine that
begins with a jump to a label of its module does end in it, and the top level of a program that such a jump
reaches goes on at its own label of that name. -/
theorem module_call_ends_or_jumps {e : Entry} {index : Nat} {label : String}
    (he : e.routine = .moduleLabel index label) (supplied : List Supplied) (piped : Option Value) (asStatement : Bool)
    (line : Option Nat) (m : Machine) :
    (∀ n ending, (apply (outer n) e supplied piped asStatement line m).Comes Elsewhere ending → CallEnds m ending) ∧
    (∀ n sm target p, e.bind supplied piped asStatement = .ok {} → m.world.modules[index]? = some sm →
      BeginsWithJump sm label target p →
      ∃ m', apply (outer (n + 1)) e supplied piped asStatement line m = .fail (.jump target (some p.line)) m') ∧
    (∀ o body m₁ m₂ target line k, execAll o body m₁ = .fail (.jump target line) m₂ →
      m₂.session.labels.lookup (Text.upper target) = some k → ∃ m₃, stretch o body m₁ = .done (.resume (k + 1)) m₃) :=
  ⟨fun n _ hc => (apply_endsAs n he supplied piped asStatement line m).comes hc,
    fun n _ _ p hbind hsm h => apply_leads n he hbind line hsm h.1 (exec_goto_leads (outer n) p m.world h.2.choose_spec),
    fun o _ _ _ _ _ _ hexec htarget => stretch_jump o hexec htarget⟩

/-- A script module with a routine that jumps to another label. -/
def leaper : ScriptModule where
  program := [.label "GO" ⟨1, "GO:"⟩, .signal (.goto "OTHER") ⟨2, "SIGNAL OTHER"⟩, .label "OTHER" ⟨3, "OTHER:"⟩]
  sourceDir := "/"
  required := []

theorem leaper_beginsWithJump : BeginsWithJump leaper "GO" "OTHER" ⟨2, "SIGNAL OTHER"⟩ :=
  ⟨⟨0, [.label "OTHER" ⟨3, "OTHER:"⟩], by decide +kernel, rfl⟩, 2, by decide +kernel⟩

theorem module_call_ends_or_jumps_leaper :
    ∃ m', apply (outer 1) (exportedLabel 0 "leaper" "/leaper" "GO") [] none false none
        { world := { modules := #[leaper] } } = .fail (.jump "OTHER" (some 2)) m' ∧
      CallEnds { world := { modules := #[leaper] } } (.fail (.jump "OTHER" (some 2)) m') := by
  have h := module_call_ends_or_jumps (e := exportedLabel 0 "leaper" "/leaper" "GO") rfl [] none false none
    { world := { modules := #[leaper] } }
  obtain ⟨m', hm'⟩ := h.2.1 0 leaper "OTHER" _ rfl rfl leaper_beginsWithJump
  exact ⟨m', hm', h.1 1 _ (hm' ▸ .fail _ m')⟩

end Play

end Conductor
