import Conductor.Proofs.Run.Lockstep
import Conductor.Proofs.Run.Verdict

/-!
# What a script leaves behind

A session runs one script after the other. The variables, the address, the patterns of
interpolation and the required functions last; where the run before stopped, in which loops
and calls, with which traps, does not. All of that is put back before a script starts but
the line of the last statement. The first statement that begins sets the line, and nothing
asks for it earlier: the condition of a statement that is withheld has a line of its own,
and so does what the parser refuses.
-/

set_option autoImplicit false

namespace Conductor

/-! ## States that last -/

def Session.lasting (s : Session) : Session where
  scope := s.scope
  resolver := { s.resolver with internal := [] }
  channel := s.channel
  dispatcher := s.dispatcher
  interpolation := s.interpolation
  sourceDir := s.sourceDir
  purpose := s.purpose
  isMain := s.isMain
  yieldInterval := s.yieldInterval

/-- A machine without what belongs to one script. -/
def Machine.lasting (m : Machine) : Machine where
  session := m.session.lasting
  world := { m.world with cancelled := false }

structure Alike (m m' : Machine) : Prop where
  lasting : m.lasting = m'.lasting
  effects : m.session.effects = m'.session.effects

theorem Even.alike {idle : Prop} {m m' : Machine} (h : Even idle m m') : Alike m m' := by
  obtain ⟨i, j, -, rfl⟩ := h
  exact ⟨rfl, rfl⟩

def Recounted (m m' : Machine) : Prop := ∃ i j l, m' = m.recounted i j l

theorem Recounted.alike {m m' : Machine} (h : Recounted m m') : Alike m m' := by
  obtain ⟨i, j, l, rfl⟩ := h
  exact ⟨rfl, rfl⟩

theorem Even.recounted {idle : Prop} {m m' : Machine} (h : Even idle m m') : Recounted m m' := by
  obtain ⟨i, j, -, rfl⟩ := h
  exact ⟨i, j, m.session.line, rfl⟩

theorem Outset.alike {idle : Prop} {l : Option Nat} {m m₁ m₂ : Machine} {e : Signal} (h : Outset idle l m e m₁ m₂) :
    Alike m₁ m₂ := by
  obtain ⟨i, j, -, rfl⟩ := h.recounted
  exact ⟨rfl, rfl⟩

def Stopped (idle : Prop) (l : Option Nat) (m : Machine) (e : Signal) (m₁ m₂ : Machine) : Prop :=
  Even idle m₁ m₂ ∨ Outset idle l m e m₁ m₂

namespace Play

open Syntax (Program Statement)

/-! ## The first statement -/

section Start

variable {o : Outer} {idle : Prop} {m : Machine} {i j : Nat} {l : Option Nat} {stopAtLabel : Bool} {s : Statement}
  {rest : List Statement}

theorem exec_recounted [o.InStep] (s : Statement) (hturn : idle ∨ m.session.InTurn i) :
    Lockstep idle (Even idle) (Stopped idle l m) (exec o s m) (exec o s (m.recounted i j l)) := by
  obtain ⟨sendable, body, hs, hbody⟩ := exec_begins o s
  have hbody := hbody.inStep
  have hsend : InStep (sendMatched (placeOf s)) := (inferInstance : Woven o .expression (sendMatched (placeOf s))).inStep
  have hrest : InStep (do
      if sendable then
        if ← sendMatched (placeOf s) then return ()
      body : Play Unit) := by
    cases sendable <;> infer_instance
  rw [hs]
  exact (checkpoint_lockstep (placeOf s) j l hturn).bind (fun _ _ _ => .inr) fun _ m₁ m₂ h =>
    (hrest.runs m₁ m₂ h).mono (fun _ _ => id) fun _ _ _ => .inl

theorem outset_stops {e : Signal} {m₁ m₂ : Machine} (h : Outset idle l m e m₁ m₂) (htraps : m.session.traps = []) :
    stopOn e m₁ = .fail e m₁ ∧ stopOn e m₂ = .fail e m₂ := by
  have htraps₁ : m₁.session.traps = [] := h.traps.trans htraps
  have htraps₂ : m₂.session.traps = [] := by
    obtain ⟨_, _, -, rfl⟩ := h.recounted
    exact htraps₁
  rcases h.cut with rfl | rfl | ⟨_, rfl⟩
  · exact ⟨rfl, rfl⟩
  · exact ⟨rfl, rfl⟩
  · constructor <;> simp only [stopOn, Run.bind_apply, session_apply, Step.bind, htraps₁, htraps₂] <;> rfl

theorem wholeRun_exhausted (hn : o.rounds = 0) : wholeRun o stopAtLabel m = .fail .exhausted m := by
  simp only [wholeRun, hn, topLevel]
  rfl

theorem wholeRun_empty (hn : o.rounds ≠ 0) (hahead : ahead stopAtLabel 0 m = []) (hhalting : m.session.halting = none) :
    wholeRun o stopAtLabel m = .done (.text "") m := by
  obtain ⟨n, hn⟩ := Nat.exists_eq_succ_of_ne_zero hn
  have htop : topLevel o stopAtLabel o.rounds 0 m = .done (.text "") m := by
    rw [hn, topLevel_succ, hahead]
    rfl
  have hraise : raiseHalted m = .done ⟨⟩ m := by
    simp only [raiseHalted, Run.bind_apply, session_apply, Step.bind, hhalting]
    rfl
  simp only [wholeRun, untilExit, Run.bind_apply, Run.tryCatch_apply, htop, Step.recover, Step.bind, hraise]
  rfl

theorem stretch_recounted [o.InStep] (hturn : idle ∨ m.session.InTurn i) (htraps : m.session.traps = []) :
    Lockstep idle (Even idle) (Stopped idle l m) (stretch o (s :: rest) m) (stretch o (s :: rest) (m.recounted i j l)) := by
  have hon {α β : Type} {x y : Step Machine Signal α} {k : α → Play β} [hk : ∀ a, InStep (k a)]
      (h : Lockstep idle (Even idle) (Stopped idle l m) x y) :
      Lockstep idle (Even idle) (Stopped idle l m) (x.bind k) (y.bind k) :=
    h.bind (fun _ _ _ => id) fun a _ _ hm => ((hk a).runs _ _ hm).mono (fun _ _ => id) fun _ _ _ => .inl
  rw [stretch, execAll]
  refine (hon (hon (exec_recounted s hturn))).recover fun e m₁ m₂ h => ?_
  rcases h with h | h
  · exact ((inferInstance : InStep (stopOn e)).runs _ _ h).mono (fun _ _ => id) fun _ _ _ => .inl
  · rw [(outset_stops h htraps).1, (outset_stops h htraps).2]
    exact .fail e (.inr h)

theorem wholeRun_begins [o.InStep] (hn : o.rounds ≠ 0) (hahead : ahead stopAtLabel 0 m = s :: rest)
    (hturn : idle ∨ m.session.InTurn i) (htraps : m.session.traps = []) :
    Lockstep idle (Even idle) (Stopped idle l m) (wholeRun o stopAtLabel m)
      (wholeRun o stopAtLabel (m.recounted i j l)) := by
  obtain ⟨n, hn⟩ := Nat.exists_eq_succ_of_ne_zero hn
  have htop : Lockstep idle (Even idle) (Stopped idle l m) (topLevel o stopAtLabel o.rounds 0 m)
      (topLevel o stopAtLabel o.rounds 0 (m.recounted i j l)) := by
    rw [hn, topLevel_succ, topLevel_succ, hahead, show ahead stopAtLabel 0 (m.recounted i j l) = _ from hahead]
    exact (stretch_recounted hturn htraps).bind (fun _ _ _ => id) fun stop _ _ h =>
      ((inferInstance : InStep (goOn o stopAtLabel n stop)).runs _ _ h).mono (fun _ _ => id) fun _ _ _ => .inl
  have hexit : Lockstep idle (Even idle) (Stopped idle l m) (untilExit (topLevel o stopAtLabel o.rounds 0) m)
      (untilExit (topLevel o stopAtLabel o.rounds 0) (m.recounted i j l)) := by
    refine htop.recover fun e m₁ m₂ h => ?_
    rcases h with h | h
    · cases e with
      | exit v => exact .done v h
      | _ => exact .fail _ (.inl h)
    · rcases h.cut with rfl | rfl | ⟨_, rfl⟩ <;> exact .fail _ (.inr h)
  exact hexit.bind (fun _ _ _ => id) fun v _ _ h =>
    ((inferInstance : InStep (do raiseHalted; return v)).runs _ _ h).mono (fun _ _ => id) fun _ _ _ => .inl

theorem wholeRun_recounted [o.InStep] (hturn : idle ∨ m.session.InTurn i) (htraps : m.session.traps = [])
    (hhalting : m.session.halting = none) :
    Lockstep idle Recounted (Stopped idle l m) (wholeRun o stopAtLabel m) (wholeRun o stopAtLabel (m.recounted i j l)) := by
  by_cases hn : o.rounds = 0
  · rw [wholeRun_exhausted hn, wholeRun_exhausted hn]
    exact .fail .exhausted (.inr ⟨.inl rfl, rfl, rfl, rfl, i, j, hturn, rfl⟩)
  · cases hahead : ahead stopAtLabel 0 m with
    | nil =>
      rw [wholeRun_empty hn hahead hhalting, wholeRun_empty (m := m.recounted i j l) hn hahead hhalting]
      exact .done _ ⟨i, j, l, rfl⟩
    | cons s rest => exact (wholeRun_begins hn hahead hturn htraps).mono (fun _ _ => Even.recounted) fun _ _ _ => id

end Start

/-! ## Reports -/

instance : InStep trace := .reading (fun _ => inferInstance) fun _ _ _ => rfl

instance (c : Condition) (source : String) : InStep (faultOf c source) := by
  have hcontext (c : Condition) :
      InStep (modifySession fun s => { s with context := some ⟨c.line, c.function, c.domain⟩ }) :=
    .onSession _ ⟨fun _ _ _ => rfl, fun _ => rfl⟩
  exact .reading (fun _ => inferInstance) fun _ _ _ => rfl

instance (source : String) (e : Signal) : InStep (verdictOn source e) := by
  unfold verdictOn
  split
  · infer_instance
  · split
    · infer_instance
    · exact .reading (fun _ => inferInstance) fun _ _ _ => rfl
  · infer_instance

def facing (c : Condition) (m : Machine) : Machine where
  session := { m.session with context := some ⟨c.line, c.function, c.domain⟩ }
  world := if c.kind == .parse then m.world else { m.world with loader := m.world.loader.note c }

def telling (c : Condition) (source : String) : Play Fault := do
  let told ← liftE c.spoken.asName
  let message := Report.explain c told source []
  emit "stderr" message
  return { message, kind := c.kind.name, line := c.line, col := c.col, function := c.function, domain := c.domain
           payload := c.payload }

theorem faultOf_outside {c : Condition} (source : String) {m : Machine} (hcalls : m.session.calls = [])
    (hplaced : c.kind = .parse ∨ c.line.isSome) : faultOf c source m = telling c source (facing c m) := by
  have htrace : trace (facing c m) = .done [] (facing c m) := by
    simp only [trace, Run.bind_apply, session_apply, world_apply, Step.bind,
      show (facing c m).session.calls = [] from hcalls]
    rfl
  have hsame (hparse : ¬ c.kind = .parse) : c.atLine m.session.line = c := by
    obtain ⟨n, hn⟩ := Option.isSome_iff_exists.mp (hplaced.resolve_left hparse)
    cases c
    simp_all [Condition.atLine, Condition.withContext]
  have hfacing : faultOf c source m = (do
      let told ← liftE c.spoken.asName
      let message := Report.explain c told source (← trace)
      emit "stderr" message
      return { message, kind := c.kind.name, line := c.line, col := c.col, function := c.function, domain := c.domain
               payload := c.payload } : Play Fault) (facing c m) := by
    by_cases hparse : c.kind = .parse
    · simp only [faultOf, facing, Run.bind_apply, session_apply, Step.bind, hparse, BEq.rfl, if_true, Run.pure_apply,
        modifySession_apply]
    · simp only [faultOf, facing, placed, hsame hparse, Run.bind_apply, session_apply, Step.bind, beq_eq_false_iff_ne.mpr hparse]
      rfl
  rw [hfacing, telling]
  cases htold : c.spoken.asName with
  | error f => rfl
  | ok told => simp only [Run.bind_apply, liftE_ok, Step.bind, htrace]

theorem facing_alike (c : Condition) {m m' : Machine} (h : Alike m m') : Alike (facing c m) (facing c m') := by
  have hlasting (m : Machine) : (facing c m).lasting = { m.lasting with
      world := if c.kind == .parse then m.lasting.world
        else { m.lasting.world with loader := m.lasting.world.loader.note c } } := by
    simp only [facing, Machine.lasting]
    split <;> rfl
  refine ⟨?_, h.effects⟩
  rw [hlasting, hlasting, h.lasting]

section

variable {idle : Prop}

theorem telling_alike (c : Condition) (source : String) {m m' : Machine} (h : Alike m m') :
    Lockstep idle Alike (fun _ => Alike) (telling c source m) (telling c source m') := by
  unfold telling
  cases c.spoken.asName with
  | error f => exact .fail _ h
  | ok told =>
    refine .done _ ⟨h.lasting, ?_⟩
    change Array.push _ _ = Array.push _ _
    rw [h.effects]

theorem faultOf_alike {c : Condition} (source : String) {m m' : Machine} (h : Alike m m')
    (hcalls : m.session.calls = []) (hcalls' : m'.session.calls = []) (hplaced : c.kind = .parse ∨ c.line.isSome) :
    Lockstep idle Alike (fun _ => Alike) (verdictOn source (.problem (.condition c)) m)
      (verdictOn source (.problem (.condition c)) m') := by
  have hfault : Lockstep idle Alike (fun _ => Alike) (faultOf c source m) (faultOf c source m') := by
    rw [faultOf_outside source hcalls hplaced, faultOf_outside source hcalls' hplaced]
    exact telling_alike c source (facing_alike c h)
  exact hfault.bind (fun _ _ _ => id) fun fault _ _ => .done (Verdict.error fault)

/-- Whatever the run before has left, the report is the same. -/
theorem verdict_alike {x : Play Value} {l : Option Nat} (source : String) {start m m' : Machine}
    (hcalls : start.session.calls = []) (h : Lockstep idle Recounted (Stopped idle l start) (x m) (x m')) :
    Lockstep idle Alike (fun _ => Alike) (verdict x source m) (verdict x source m') := by
  rw [verdict_eq]
  refine (h.bind (fun _ _ _ => id) fun v _ _ hm => .done (Verdict.success v) hm.alike).recover fun e m₁ m₂ hm => ?_
  rcases hm with hm | hm
  · exact ((inferInstance : InStep (verdictOn source e)).runs _ _ hm).mono (fun _ _ => Even.alike) fun _ _ _ => Even.alike
  · rcases hm.cut with rfl | rfl | ⟨line, rfl⟩
    · exact .fail _ hm.alike
    · exact .fail _ hm.alike
    · have hcalls₁ : m₁.session.calls = [] := hm.calls.trans hcalls
      have hcalls₂ : m₂.session.calls = [] := by
        obtain ⟨_, _, -, rfl⟩ := hm.recounted
        exact hcalls₁
      exact faultOf_alike source hm.alike hcalls₁ hcalls₂ (.inr rfl)

end

/-! ## Scripts one after the other -/

theorem atStart_begun (p : Program) (args : List Value) (cancelFirst : Bool) {m : Machine}
    (hmain : m.session.isMain = true) : atStart p args cancelFirst (begun m) =
      (atStart p args cancelFirst (begun m.lasting)).recounted m.session.statements m.session.withheld m.session.line := by
  simp only [atStart, begun, Machine.lasting, Session.lasting, Machine.recounted, installed, hmain, if_true]

theorem begun_alike {m m' : Machine} (h : m.lasting = m'.lasting) : Alike (begun m) (begun m') := by
  refine ⟨?_, rfl⟩
  have hlasting (m : Machine) : (begun m).lasting =
      { m.lasting with world := { m.lasting.world with runners := m.lasting.world.runners + 1 } } := rfl
  rw [hlasting, hlasting, h]

theorem retired_alike {m m' : Machine} (h : Alike m m') : Alike (retired m) (retired m') := by
  refine ⟨?_, h.effects⟩
  have hlasting (m : Machine) : (retired m).lasting =
      { m.lasting with world := { m.lasting.world with runners := m.lasting.world.runners - 1 } } := rfl
  rw [hlasting, hlasting, h.lasting]

section

variable {idle : Prop} {m m' : Machine}

theorem runProgram_alike (p : Program) (source : String) (args : List Value) (cancelFirst : Bool)
    (hmain : m.session.isMain = true) (h : m.lasting = m'.lasting) (hturn : idle ∨ m.session.InTurn m'.session.statements) :
    Lockstep idle Alike (fun _ => Alike) (verdict (runProgram (outer horizon) p args false cancelFirst) source (begun m))
      (verdict (runProgram (outer horizon) p args false cancelFirst) source (begun m')) := by
  have hmain' : m'.session.isMain = true := by
    rw [← hmain]
    exact (congrArg (·.session.isMain) h).symm
  let start : Machine := (atStart p args cancelFirst (begun m.lasting)).recounted m.session.statements m.session.withheld
    m.session.line
  have hcalls : start.session.calls = [] := rfl
  refine verdict_alike (l := m'.session.line) source hcalls ?_
  rw [runProgram_eq, runProgram_eq, atStart_begun p args cancelFirst hmain, atStart_begun p args cancelFirst hmain', ← h]
  exact wholeRun_recounted (m := start) hturn rfl rfl

/-- A script that the parser takes, or refuses with a condition of its own. -/
theorem runScript_alike {source : String} (args : List Value) (cancelFirst : Bool) (hmain : m.session.isMain = true)
    (h : m.lasting = m'.lasting) (hturn : idle ∨ m.session.InTurn m'.session.statements)
    (hparse : ∀ p, Syntax.parse source = .error p → ∃ c : Condition, p = .condition c ∧ c.kind = .parse) :
    Lockstep idle Alike (fun _ => Alike) (runScript source args cancelFirst m) (runScript source args cancelFirst m') := by
  have hverdict : Lockstep idle Alike (fun _ => Alike) (verdict (scriptRun source args cancelFirst) source (begun m))
      (verdict (scriptRun source args cancelFirst) source (begun m')) := by
    cases hparsed : Syntax.parse source with
    | ok program =>
      have hrun : scriptRun source args cancelFirst = runProgram (outer horizon) program args false cancelFirst := by
        rw [scriptRun, hparsed]
        rfl
      rw [hrun]
      exact runProgram_alike program source args cancelFirst hmain h hturn
    | error p =>
      obtain ⟨c, rfl, hkind⟩ := hparse p hparsed
      have hrun : scriptRun source args cancelFirst = throw (.problem (.condition c)) := by
        rw [scriptRun, hparsed]
        rfl
      rw [hrun]
      exact faultOf_alike source (begun_alike h) rfl rfl (.inl hkind)
  rw [runScript_apply, runScript_apply]
  refine (hverdict.leave (fun _ _ => retired_alike) fun _ _ _ => retired_alike).bind (fun _ _ _ => id) fun v m m' h => ?_
  rw [h.effects]
  exact .done _ h

end

/-- Two runners that agree in what lasts run a script alike, whatever their runs before have left of traps, arguments,
calls, loops, a program, its line and a noted or standing cancellation: step for step, with all that others do and
interrupt while they wait, up to the same report or the same failure; and they agree in what lasts after it. The others
have their turns at the same statements if as many statements have begun in both, up to the clock of turns; if not, the
runs go alike but for turns in which nothing happens, and so they end alike when nothing runs beside them. -/
theorem scripts_leave_no_residue (source : String) (args : List Value) (cancelFirst : Bool) (m m' : Machine)
    (hmain : m.session.isMain = true) (hlasting : m.lasting = m'.lasting)
    (hparse : ∀ p, Syntax.parse source = .error p → ∃ c : Condition, p = .condition c ∧ c.kind = .parse) :
    (∀ idle : Prop, idle ∨ m.session.InTurn m'.session.statements →
      Lockstep idle (fun m₁ m₂ => m₁.lasting = m₂.lasting) (fun _ m₁ m₂ => m₁.lasting = m₂.lasting)
        (runScript source args cancelFirst m) (runScript source args cancelFirst m')) ∧
    (attempt (runScript source args cancelFirst) m).1 = (attempt (runScript source args cancelFirst) m').1 ∧
    ∀ r, (attempt (runScript source args cancelFirst) m).1 = .ok r →
      (attempt (runScript source args cancelFirst) m).2.lasting =
        (attempt (runScript source args cancelFirst) m').2.lasting := by
  have hrun (idle : Prop) (hturn : idle ∨ m.session.InTurn m'.session.statements) :
      Lockstep idle (fun m₁ m₂ => m₁.lasting = m₂.lasting) (fun _ m₁ m₂ => m₁.lasting = m₂.lasting)
        (runScript source args cancelFirst m) (runScript source args cancelFirst m') :=
    (runScript_alike args cancelFirst hmain hlasting hturn hparse).mono (fun _ _ => Alike.lasting)
      fun _ _ _ => Alike.lasting
  refine ⟨hrun, ?_⟩
  unfold attempt
  rcases (hrun True (.inl trivial)).alone with ⟨r, m₁, m₂, hm, hm', h⟩ | ⟨e, m₁, m₂, hm, hm', h⟩ | ⟨m₁, m₂, hm, hm'⟩
  · rw [hm, hm']
    exact ⟨rfl, fun _ _ => h⟩
  · rw [hm, hm']
    cases e <;> exact ⟨rfl, fun _ _ => h⟩
  · rw [hm, hm']
    exact ⟨rfl, fun _ hr => nomatch hr⟩

/-- A runner that a cancelled run has left in a loop of a routine, with both traps armed. -/
def littered : Machine where
  session :=
    { isMain := true, program := #[.nop ⟨1, "NOP"⟩], labels := [("H", 0)], calls := [⟨"H", [.int 1]⟩]
      context := some ⟨some 4, some "H", none⟩, traps := [(.error, "H"), (.halt, "H")], args := [[.int 2], []]
      line := some 7, statements := 9, withheld := 1, loopDepth := 2, callDepth := 3
      halting := some { cause := .cancelled, line := some 7 } }
  world := { cancelled := true }

def failing : String := "DO 2\nSAY 1 / 0\nEND"

theorem failing_parsed : ∀ p, Syntax.parse failing = .error p → ∃ c : Condition, p = .condition c ∧ c.kind = .parse := by
  intro p hp
  have hparsed : (Syntax.parse failing).toOption.isSome = true := by decide +kernel
  rw [hp] at hparsed
  cases hparsed

theorem scripts_leave_no_residue_littered :
    (attempt (runScript failing [] false) { session := { isMain := true } }).1 =
      (attempt (runScript failing [] false) littered).1 :=
  (scripts_leave_no_residue failing [] false { session := { isMain := true } } littered rfl rfl failing_parsed).2.1

end Play

end Conductor
