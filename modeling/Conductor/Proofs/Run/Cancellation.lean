import Conductor.Proofs.Run.Boundary
import Conductor.Proofs.Run.Trap

/-!
# A cancelled run never succeeds

Once a run has been cancelled, the next statement that is about to begin is withheld, at
whatever depth of loops and calls it stands, and a cancellation travels to the top level. With
no trap for it there, the run ends with it. A trap for it makes the program go on at the label
of the trap, with the cancellation noted; nothing but another cancellation replaces the note,
so whatever the program does after that, it ends with a problem: with the noted cancellation
if it finishes on its own.

A request does not reach what has begun: a statement that gave the others their turn when it
began goes on to its end, and the routines of modules run in evaluators of their own.
-/

set_option autoImplicit false

namespace Conductor.Play

open Syntax (Statement Program)

variable {G : World → World → Prop} {stopAtLabel : Bool} {m₀ m m' : Machine} {rest : List Statement} {n : Nat}

/-! ## The note of a cancellation -/

/-- What is noted for the end of the run is a cancellation, and it is noted if a statement was withheld since the
start. -/
structure Noted (m₀ m : Machine) : Prop where
  kind : ∀ c, m.session.halting = some c → c.kind = .cancellation
  withheld : m.session.withheld = m₀.session.withheld ∨ m.session.halting ≠ none

theorem Noted.same (h : Noted m₀ m) (hhalting : m'.session.halting = m.session.halting)
    (hwithheld : m'.session.withheld = m.session.withheld) : Noted m₀ m' where
  kind := hhalting ▸ h.kind
  withheld := h.withheld.imp hwithheld.trans fun hne => hhalting ▸ hne

theorem Noted.cutShort {e : Signal} {l : Level} (h : Noted m₀ m) (hcut : CutShort G l m e m')
    (he : ¬ e.IsCancellation) : Noted m₀ m' :=
  h.same hcut.halting (hcut.withheld.resolve_right fun hc => he hc.1)

theorem Noted.tookTrap {c : Condition} {l : Level} {m₁ : Machine} (h : Noted m₀ m)
    (hcut : CutShort G l m (.problem (.condition c)) m₁) (htook : TookTrap c m₁ m') : Noted m₀ m' := by
  by_cases hc : c.kind = .cancellation
  · obtain ⟨c', hc', hkind⟩ := htook.halted hc
    refine ⟨fun c'' hc'' => ?_, .inr ?_⟩
    · rw [hc'] at hc''
      cases hc''
      exact hkind
    · rw [hc']
      exact Option.some_ne_none c'
  · exact (h.cutShort hcut hc).same (htook.halting hc) htook.withheld

theorem Noted.fetches (h : Noted m₀ m₀) (hf : Fetches (outer n) stopAtLabel G m₀ rest m) : Noted m₀ m := by
  induction hf with
  | start => exact h
  | next _ hs ih =>
    have hdone := (exec_bears n _ _).comes_done hs
    exact ih.same hdone.halting hdone.withheld
  | goOn _ hs hstop ih =>
    have hcut := (exec_bears n _ _).comes_fail hs
    cases StopsOn.of_eq hstop with
    | jump => exact (ih.cutShort hcut id).same rfl rfl
    | trapped _ _ _ _ _ _ htook => exact ih.tookTrap hcut htook

theorem Noted.closes {ending : Step.Ending Machine Signal Value} (h : Noted m₀ m₀)
    (hc : Closes (outer n) stopAtLabel G m₀ ending) :
    Noted m₀ ending.state ∨ ∃ e m', ending = .fail e m' ∧ e.IsCancellation := by
  cases hc with
  | atEnd hf => exact .inl (h.fetches hf)
  | exhausted hf => exact .inl (h.fetches hf)
  | value hf hs hstop =>
    have hcut := (exec_bears n _ _).comes_fail hs
    cases StopsOn.of_eq hstop
    exact .inl ((h.fetches hf).cutShort hcut id)
  | signal hf hs hstop =>
    have hcut := (exec_bears n _ _).comes_fail hs
    have hm := h.fetches hf
    cases StopsOn.of_eq hstop with
    | lost => exact .inl ((hm.cutShort hcut id).same rfl rfl)
    | stranded _ _ _ _ _ _ htook => exact .inl (hm.tookTrap hcut htook)
    | untrapped c =>
      by_cases hkind : c.kind = .cancellation
      · exact .inr ⟨_, _, rfl, hkind⟩
      · exact .inl (hm.cutShort hcut hkind)
    | failed | exit | leave | iterate | exhausted => exact .inl (hm.cutShort hcut id)

/-! ## The end of a run -/

/-- What a run may end with if statements were withheld: never a value, and a cancellation unless one was noted and
the run then ended with something else. -/
def EndsCancelled (m₀ : Machine) : Step.Ending Machine Signal Value → Prop
  | .done _ m => m.session.withheld = m₀.session.withheld
  | .fail e m => m.session.withheld = m₀.session.withheld ∨ e.IsCancellation ∨ m.session.halting ≠ none
  | .stuck _ => True

theorem raiseHalted_noted (hm : Noted m₀ m) :
    (m.session.withheld = m₀.session.withheld ∧ raiseHalted m = .done ⟨⟩ m) ∨
      ∃ c m', raiseHalted m = .fail (.problem (.condition c)) m' ∧ c.kind = .cancellation := by
  simp only [raiseHalted, Run.bind_apply, session_apply, Step.bind]
  cases hc : m.session.halting with
  | none => exact .inl ⟨hm.withheld.resolve_right fun hne => hne hc, rfl⟩
  | some c => exact .inr ⟨c, _, rfl, hm.kind c hc⟩

theorem wholeRun_endsCancelled {ending : Step.Ending Machine Signal Value} (h : Noted m₀ m₀)
    (hc : (wholeRun (outer n) stopAtLabel m₀).Comes (Interlude G) ending) : EndsCancelled m₀ ending := by
  have hraise {v : Value} {m : Machine} (hm : Noted m₀ m)
      (hc : ((do raiseHalted; return v : Play Value) m).Comes (Interlude G) ending) : EndsCancelled m₀ ending := by
    rw [Run.bind_apply] at hc
    rcases raiseHalted_noted hm with ⟨hsame, heq⟩ | ⟨c, m', heq, hkind⟩
    · rw [heq] at hc
      cases hc
      exact hsame
    · rw [heq] at hc
      cases hc
      exact .inr (.inl hkind)
  rw [wholeRun, Run.bind_apply] at hc
  rcases hc.of_bind with ⟨v, m, hexit, hrest⟩ | ⟨e, m, hexit, rfl⟩
  · rcases hexit.of_recover with ⟨_, _, htop, heq⟩ | ⟨e, m₁, htop, hhandled⟩
    · cases heq
      rcases h.closes (topLevel_closes .start htop) with hm | ⟨_, _, heq, _⟩
      · exact hraise hm hrest
      · cases heq
    · cases e with
      | exit v' =>
        cases hhandled
        rcases h.closes (topLevel_closes .start htop) with hm | ⟨_, _, heq, hcancel⟩
        · exact hraise hm hrest
        · cases heq
          exact hcancel.elim
      | _ => cases hhandled
  · rcases hexit.of_recover with ⟨_, _, _, heq⟩ | ⟨e', m₁, htop, hhandled⟩
    · cases heq
    · have hends : Noted m₀ m₁ ∨ e'.IsCancellation := by
        rcases h.closes (topLevel_closes .start htop) with hm | ⟨_, _, heq, hcancel⟩
        · exact .inl hm
        · cases heq
          exact .inr hcancel
      cases e' with
      | exit v' => cases hhandled
      | _ =>
        cases hhandled
        exact hends.elim (fun hm => hm.withheld.imp_right .inr) fun hcancel => .inr (.inl hcancel)

theorem atStart_noted (p : Program) (args : List Value) (cancelFirst : Bool) (m : Machine) :
    Noted (atStart p args cancelFirst m) (atStart p args cancelFirst m) :=
  ⟨fun _ hc => (nomatch hc), .inl rfl⟩

theorem runProgram_endsCancelled (p : Program) (args : List Value) (cancelFirst : Bool)
    {ending : Step.Ending Machine Signal Value}
    (hc : (runProgram (outer n) p args stopAtLabel cancelFirst m).Comes (Interlude G) ending) :
    EndsCancelled m ending := by
  rw [runProgram_eq] at hc
  have h := wholeRun_endsCancelled (atStart_noted p args cancelFirst m) hc
  cases ending <;> exact h

theorem scriptRun_withheld {source : String} {args : List Value} {cancelFirst : Bool} {v : Value}
    (hc : (scriptRun source args cancelFirst m).Comes (Interlude G) (.done v m')) :
    m'.session.withheld = m.session.withheld := by
  rw [scriptRun, Run.bind_apply] at hc
  cases hparsed : Syntax.parse source with
  | ok program =>
    rw [hparsed] at hc
    exact runProgram_endsCancelled program args cancelFirst hc
  | error e =>
    rw [hparsed] at hc
    cases hc

/-- A report of a script tells of success only if no statement was withheld. -/
theorem runScript_success {source : String} {args : List Value} {cancelFirst : Bool} {r : Report} {v : Value}
    (hc : (runScript source args cancelFirst m).Comes (Interlude G) (.done r m')) (hr : r.verdict = .success v) :
    m'.session.withheld = m.session.withheld := by
  rw [runScript_apply] at hc
  rcases hc.of_bind with ⟨w, m₁, hleft, hdone⟩ | ⟨_, _, _, heq⟩
  · cases hdone
    obtain rfl : w = .success v := hr
    obtain ⟨m₂, hverdict, rfl⟩ := hleft.of_leave
    rw [verdict, Run.tryCatch_apply] at hverdict
    rcases hverdict.of_recover with ⟨_, _, hsuccess, heq⟩ | ⟨e, m₃, _, hhandled⟩
    · cases heq
      rcases hsuccess.of_bind with ⟨v', m₃, hv, hdone⟩ | ⟨_, _, _, heq⟩
      · cases hdone
        have hsame : m₂.session.withheld = (begun m).session.withheld := scriptRun_withheld hv
        exact hsame
      · cases heq
    · -- what is made of a signal is an error
      have hfault {m₃ : Machine} (x : Play Fault) (h : ((do return .error (← x) : Play Verdict) m₃).Comes (Interlude G)
          (.done (.success v) m₂)) : False := by
        rcases h.of_bind with ⟨_, _, _, hdone⟩ | ⟨_, _, _, heq⟩
        · cases hdone
        · cases heq
      cases e with
      | problem p =>
        cases p with
        | condition c => exact (hfault _ hhandled).elim
        | failure f =>
          dsimp only at hhandled
          split at hhandled
          · cases hhandled
          · rcases hhandled.of_bind with ⟨_, _, _, hhandled⟩ | ⟨_, _, _, heq⟩
            · exact (hfault _ hhandled).elim
            · cases heq
      | _ => cases hhandled
  · cases heq

/-! ## While a request stands -/

theorem woven_stopping (hG : Patient G) {l : Level} {α : Type} {x : Play α} (hx : Woven (outer n) l x) (hm : m.Stopping)
    {ending : Step.Ending Machine Signal α} (hc : (x m).Comes (Interlude G) ending) :
    ending.state.Stopping ∧ ending.state.session.statements = m.session.statements := by
  have hbears : Bears G l x := hx.bears
  cases ending with
  | done a m' =>
    have h := (hbears m).comes_done hc
    exact ⟨h.stopping hG hm, h.statements hG hm⟩
  | fail e m' =>
    have h := (hbears m).comes_fail hc
    exact ⟨h.stopping hG hm, h.statements hG hm⟩
  | stuck m' => exact hc.not_stuck.elim

theorem exec_stopping (hG : Patient G) {s : Statement} (hm : m.Stopping) {ending : Step.Ending Machine Signal Unit}
    (hc : (exec (outer n) s m).Comes (Interlude G) ending) :
    ∃ m', m'.session = m.session ∧ m'.world.cancelled = true ∧
      ending = .fail (.problem (.condition { cause := .cancelled, line := some (placeOf s).line })) (withholding m') := by
  have hopens {ending : Step.Ending Machine Signal Unit} (h : (checkpoint (placeOf s) m).Comes (Interlude G) ending) :
      ∃ m', m'.session = m.session ∧ m'.world.cancelled = true ∧
        ending = .fail (.problem (.condition { cause := .cancelled, line := some (placeOf s).line })) (withholding m') := by
    obtain ⟨m', hpause, h⟩ := checkpoint_comes.mp h
    -- the request stands when a run that is paused goes on
    have hcancelled : m'.world.cancelled = true := by
      unfold Lapse at hpause
      split at hpause
      · exact hG _ _ hpause.2 hm.2
      · exact hpause ▸ hm.2
    have hstops : (m'.session.isMain && m'.world.cancelled) = true := by simp [hpause.session, hm.1, hcancelled]
    rw [if_pos hstops] at h
    exact ⟨m', hpause.session, hcancelled, h⟩
  obtain ⟨sendable, body, hs, -⟩ := exec_begins (outer n) s
  rw [hs, atPlace_eq, Run.bind_apply] at hc
  rcases hc.of_bind with ⟨_, m₁, hbegun, -⟩ | ⟨e, m₁, hfails, rfl⟩
  · obtain ⟨_, -, -, heq⟩ := hopens hbegun
    cases heq
  · exact hopens hfails

theorem stopOn_cancellation {e : Signal} (he : e.IsCancellation) :
    (m.session.traps.get? .halt = none → stopOn e m = .fail e m) ∧
    ∀ label i, m.session.traps.get? .halt = some label → m.session.labels.lookup (Text.upper label) = some i →
      ∃ m', stopOn e m = .done (.resume (i + 1)) m' ∧ m'.session.statements = m.session.statements ∧
        ∃ c, m'.session.halting = some c ∧ c.kind = .cancellation := by
  match e, he with
  | .problem (.condition c), (hkind : c.kind = .cancellation) =>
    have htrap : trapFor c = .halt := by simp [trapFor, hkind]
    refine ⟨fun hnone => ?_, fun label i hsome hi => ?_⟩
    · simp only [stopOn, Run.bind_apply, session_apply, Step.bind, htrap, hnone]
      rfl
    · have hstop : stopOn (.problem (.condition c)) m = takeTrap c label m := by
        simp only [stopOn, Run.bind_apply, session_apply, Step.bind, htrap, hsome]
      obtain ⟨m', hdone⟩ := takeTrap_lands c label m i hi
      refine ⟨m', hstop.trans hdone, ?_⟩
      cases StopsOn.of_eq (hstop.trans hdone) with
      | trapped _ _ _ _ _ _ htook => exact ⟨htook.statements, htook.halted hkind⟩

/-- A run in which a statement was withheld, at whatever depth, ends with a problem and never with a value, and the
report of a script then tells of an error. The statement's cancellation reaches the top level; with no trap for it the
run ends with it, and otherwise the program goes on at the label of the trap. If it finishes after that on its own, the
noted cancellation is raised. While a request stands no statement of the run begins: one that is about to begin is
withheld, and the request stands until that has happened. -/
theorem cancelled_run_never_succeeds (n : Nat) (G : World → World → Prop) (p : Program) (args : List Value)
    (stopAtLabel cancelFirst : Bool) (m : Machine) :
    (∀ ending, (runProgram (outer n) p args stopAtLabel cancelFirst m).Comes (Interlude G) ending →
      ending.state.session.withheld ≠ m.session.withheld →
      ∃ e m', ending = .fail e m' ∧ (m'.session.halting = none → e.IsCancellation)) ∧
    (∀ source r m', (runScript source args cancelFirst m).Comes (Interlude G) (.done r m') →
      m'.session.withheld ≠ m.session.withheld → ∃ f, r.verdict = .error f) ∧
    (∀ s rest m₁ e m₂, Fetches (outer n) stopAtLabel G (atStart p args cancelFirst m) (s :: rest) m₁ →
      (exec (outer n) s m₁).Comes (Interlude G) (.fail e m₂) → m₂.session.withheld ≠ m₁.session.withheld →
      e.IsCancellation ∧ (m₂.session.traps.get? .halt = none → stopOn e m₂ = .fail e m₂) ∧
        ∀ label i, m₂.session.traps.get? .halt = some label → m₂.session.labels.lookup (Text.upper label) = some i →
          ∃ m₃, stopOn e m₂ = .done (.resume (i + 1)) m₃ ∧ m₃.session.statements = m₂.session.statements ∧
            ∃ c, m₃.session.halting = some c ∧ c.kind = .cancellation) ∧
    (∀ k ending v m', (topLevel (outer n) stopAtLabel k 0 (atStart p args cancelFirst m)).Comes (Interlude G) ending →
      ending = .done v m' ∨ ending = .fail (.exit v) m' → m'.session.withheld ≠ m.session.withheld →
      ∃ c m'', raiseHalted m' = .fail (.problem (.condition c)) m'' ∧ c.kind = .cancellation) ∧
    (∀ s m₁, m₁.Stopping → m₁.world.paused = false → exec (outer n) s m₁ =
      .fail (.problem (.condition { cause := .cancelled, line := some (placeOf s).line })) (withholding m₁)) ∧
    (Patient G → ∀ s m₁ ending, m₁.Stopping → (exec (outer n) s m₁).Comes (Interlude G) ending →
      ∃ m₂, m₂.session = m₁.session ∧ m₂.world.cancelled = true ∧
        ending = .fail (.problem (.condition { cause := .cancelled, line := some (placeOf s).line })) (withholding m₂)) ∧
    (Patient G → ∀ (l : Level) (α : Type) (x : Play α) m₁ ending, Woven (outer n) l x → m₁.Stopping →
      (x m₁).Comes (Interlude G) ending →
      ending.state.Stopping ∧ ending.state.session.statements = m₁.session.statements) := by
  have hnoted := atStart_noted p args cancelFirst m
  refine ⟨?_, ?_, ?_, ?_, ?_, ?_, ?_⟩
  · intro ending hc hne
    have hends := runProgram_endsCancelled p args cancelFirst hc
    cases ending with
    | done v m' => exact absurd hends hne
    | fail e m' => exact ⟨e, m', rfl, fun hnone => (hends.resolve_left hne).resolve_right fun h => h hnone⟩
    | stuck m' => exact hc.not_stuck.elim
  · intro source r m' hc hne
    cases hr : r.verdict with
    | success v => exact absurd (runScript_success hc hr) hne
    | error f => exact ⟨f, rfl⟩
  · intro s rest m₁ e m₂ _ hs hne
    have he : e.IsCancellation := (((exec_bears n s m₁).comes_fail hs).withheld.resolve_left hne).1
    exact ⟨he, stopOn_cancellation he⟩
  · intro k ending v m' hc hend hne
    have hm : Noted (atStart p args cancelFirst m) m' := by
      rcases hnoted.closes (topLevel_closes .start hc) with h | ⟨e, m'', heq, hcancel⟩
      · rcases hend with rfl | rfl <;> exact h
      · rcases hend with rfl | rfl
        · cases heq
        · cases heq
          exact hcancel.elim
    exact (raiseHalted_noted hm).resolve_left fun h => hne h.1
  · intro s m₁ hm hpaused
    exact exec_withholding (outer n) s (by simp [hpaused]) (by simp [hm.1, hm.2])
  · intro hG s m₁ ending hm hc
    exact exec_stopping hG hm hc
  · intro hG l α x m₁ ending hx hm hc
    exact woven_stopping hG hx hm hc

/-- Arms a trap for cancellations, cancels itself, and would go on. -/
def quitting : Program :=
  [.signal (.on .halt "H") ⟨1, "SIGNAL ON HALT NAME H"⟩, .call "STOP" [] ⟨2, "CALL STOP"⟩, .nop ⟨3, "NOP"⟩,
    .label "H" ⟨4, "H:"⟩, .ret none false ⟨5, "RETURN"⟩]

/-- A machine with a function that cancels the runs in progress, of which there is one. -/
def quitter : Machine where
  session := { isMain := true, resolver := { required := [("STOP", Entry.open_ "STOP" .required .cancelRuns "host")] } }
  world := { runners := 1 }

def failedWith : Step Machine Signal Value → Option (Nat × Nat × Bool)
  | .fail _ m => some (m.session.statements, m.session.withheld, m.session.halting.isNone)
  | _ => none

/-- Two statements begin, the third is withheld, and the return that ends the run after the label does not make it
succeed. -/
theorem cancelled_run_never_succeeds_quitting : ∃ e m',
    runProgram (outer 3) quitting [] false false quitter = .fail e m' ∧ m'.session.statements = 3 ∧
      m'.session.withheld = 1 ∧ e.IsCancellation := by
  have hfailed : failedWith (runProgram (outer 3) quitting [] false false quitter) = some (3, 1, true) := by
    decide +kernel
  cases hrun : runProgram (outer 3) quitting [] false false quitter with
  | done v m' =>
    rw [hrun] at hfailed
    cases hfailed
  | wait w m' resume =>
    rw [hrun] at hfailed
    cases hfailed
  | fail e m' =>
    rw [hrun] at hfailed
    simp only [failedWith, Option.some.injEq, Prod.mk.injEq, Option.isNone_iff_eq_none] at hfailed
    obtain ⟨hbegun, hwithheld, hhalting⟩ := hfailed
    have hends := (cancelled_run_never_succeeds 3 (fun _ _ => True) quitting [] false false quitter).1 (.fail e m')
      (hrun ▸ .fail e m') (by change m'.session.withheld ≠ 0; omega)
    obtain ⟨_, _, heq, hcancel⟩ := hends
    cases heq
    exact ⟨e, m', rfl, hbegun, hwithheld, hcancel hhalting⟩

def heedless : Machine := { session := { isMain := true, yieldInterval := 1 } }

/-- A cancelled run that calls a routine of a module. -/
def overtaken : Machine where
  session := { isMain := true }
  world := {
    cancelled := true
    modules := #[⟨[.label "WORK" ⟨1, "WORK:"⟩, .ret (some (.literal (.number (.int 1)) default)) false ⟨2, "RETURN 1"⟩], "", []⟩] }

/-- A request does not keep a statement from its body that has begun and gives the others their turn, and does not reach
the routine of a module. -/
theorem begun_statements_outrun_requests :
    (¬ ∀ n s m m₁ m₂ resume, exec (outer n) s m = .wait .turn m₁ resume → m₂.session = m₁.session → m₂.Stopping →
      ∀ u m₃, resume none m₂ = .done u m₃ → m₃.session.effects = m₂.session.effects) ∧
    overtaken.Stopping ∧ ∃ m', callModule (outer 2) 0 "WORK" {} overtaken = .done (.int 1) m' := by
  refine ⟨fun hall => ?_, ⟨rfl, rfl⟩, ?_⟩
  · let begun : Machine := { counted heedless with world := { heedless.world with cancelled := true } }
    have hsame := hall 1 (.say (.literal (.text "x" false) default) ⟨1, "SAY 'x'"⟩) heedless (counted heedless) begun _ rfl rfl
      ⟨rfl, rfl⟩ ⟨⟩ _ rfl
    have hsaid : (counted heedless).session.effects.push ⟨["stdout"], "x"⟩ = (counted heedless).session.effects := hsame
    exact absurd (congrArg Array.size hsaid) (by decide)
  · exact ⟨_, rfl⟩

end Conductor.Play
