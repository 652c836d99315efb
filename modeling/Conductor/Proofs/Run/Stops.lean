import Conductor.Proofs.Run.Woven

/-!
# What the top level does about a signal

A signal that reaches the top level of a program ends the run with a value, ends it with the
signal, or makes it go on at a label. `StopsOn` says what each signal comes to, with all that
happens to the marks of the run on the way. A trap that is taken is disarmed before anything
else, and if it was one for cancellations, the cancellation is noted for the end of the run.
-/

set_option autoImplicit false

namespace Conductor.Play

def disarmed (c : Condition) (m : Machine) : Machine where
  session := { m.session with
    traps := m.session.traps.erase (trapFor c)
    halting := if c.kind = .cancellation then some (c.atLine m.session.line) else m.session.halting }
  world := { m.world with
    loader := m.world.loader.note (c.atLine m.session.line)
    cancelled := if c.kind = .cancellation ∧ m.session.isMain = true then false else m.world.cancelled }

def goOnAt (trap : Syntax.Trap) (label : String) : Play Stop := do
  modifySession fun s => { s with calls := [], loopDepth := if trap == .error then 0 else s.loopDepth }
  return .resume ((← labelIndex label none) + 1)

theorem takeTrap_eq (c : Condition) (label : String) (m : Machine) :
    takeTrap c label m = (do describe (c.atLine m.session.line); goOnAt (trapFor c) label) (disarmed c m) := by
  have hkind : (c.atLine m.session.line).kind = c.kind := rfl
  by_cases hcancel : c.kind = .cancellation
  · cases hmain : m.session.isMain <;>
      simp [takeTrap, goOnAt, placed, disarmed, trapFor, Step.bind, hkind, hcancel, hmain]
  · simp [takeTrap, goOnAt, placed, disarmed, trapFor, Step.bind, hkind, hcancel]

def tell (c : Condition) : Play Unit := do
  let line : Value := match c.line with
    | some n => .ofNat n
    | none => .text ""
  write "RC" (.int 1)
  write "SIGL" line
  write "ERROR_KIND" (.text c.kind.name)
  write "ERROR_MESSAGE" (← plant c.spoken)
  write "ERROR_LINE" line
  write "ERROR_FUNCTION" (.text (c.function.getD ""))
  write "ERROR_DOMAIN" (.text (c.domain.getD ""))

instance (c : Condition) : Simple (tell c) := by
  unfold tell
  extract_lets line
  refine .andThen fun _ => .andThen fun _ => ?_
  infer_instance

theorem describe_eq (c : Condition) : describe c = (do
    modifySession fun s => { s with context := some ⟨c.line, c.function, c.domain⟩ }
    tell c) := rfl

/-- What taking a trap on a condition does to the marks of a run. -/
structure TookTrap (c : Condition) (m m' : Machine) : Prop where
  args : m'.session.args = m.session.args
  isMain : m'.session.isMain = m.session.isMain
  domains : m.session.dispatcher.Capitalised → m'.session.dispatcher.Capitalised
  callDepth : m'.session.callDepth = m.session.callDepth
  loopDepth : m.session.loopDepth = 0 → m'.session.loopDepth = 0
  statements : m'.session.statements = m.session.statements
  withheld : m'.session.withheld = m.session.withheld
  halting : c.kind ≠ .cancellation → m'.session.halting = m.session.halting
  halted : c.kind = .cancellation → ∃ c', m'.session.halting = some c' ∧ c'.kind = .cancellation
  cancelled : c.kind ≠ .cancellation ∨ m.session.isMain = false → m.world.cancelled = true → m'.world.cancelled = true

theorem TookTrap.disarmed (c : Condition) (m : Machine) : TookTrap c m (disarmed c m) where
  args := rfl
  isMain := rfl
  domains := id
  callDepth := rfl
  loopDepth := id
  statements := rfl
  withheld := rfl
  halting hc := by simp [Play.disarmed, hc]
  halted hc := ⟨c.atLine m.session.line, by simp [Play.disarmed, hc], hc⟩
  cancelled hkept hc := by rcases hkept with h | h <;> simp [Play.disarmed, h, hc]

theorem TookTrap.unmoved {c : Condition} {m m' m'' : Machine} (h : TookTrap c m m') (hm : Unmoved m' m'') :
    TookTrap c m m'' where
  args := hm.args.trans h.args
  isMain := hm.isMain.trans h.isMain
  domains := hm.domains ∘ h.domains
  callDepth := (congrArg Marks.callDepth hm.marks).trans h.callDepth
  loopDepth hl := (congrArg Marks.loopDepth hm.marks).trans (h.loopDepth hl)
  statements := (congrArg Marks.statements hm.marks).trans h.statements
  withheld := (congrArg Marks.withheld hm.marks).trans h.withheld
  halting hc := (congrArg Marks.halting hm.marks).trans (h.halting hc)
  halted hc := by
    obtain ⟨c', hc', hkind⟩ := h.halted hc
    exact ⟨c', (congrArg Marks.halting hm.marks).trans hc', hkind⟩
  cancelled hkept hc := hm.cancelled (h.cancelled hkept hc)

/-- What a signal comes to at the top level. -/
inductive StopsOn : Signal → Machine → Step Machine Signal Stop → Prop
  | ret (v : Value) (m : Machine) : StopsOn (.ret v) m (.done (.value v) m)
  | jump (label : String) (line : Option Nat) (m : Machine) (i : Nat) :
      m.session.labels.lookup (Text.upper label) = some i →
      StopsOn (.jump label line) m (.done (.resume (i + 1)) { m with session := { m.session with calls := [] } })
  | lost (label : String) (line : Option Nat) (m : Machine) (p : Problem) :
      StopsOn (.jump label line) m (.fail (.problem p) { m with session := { m.session with calls := [] } })
  | trapped (c : Condition) (label : String) (m m' : Machine) (i : Nat) :
      m.session.traps.get? (trapFor c) = some label → TookTrap c m m' → m'.session.calls = [] →
      m'.session.labels.lookup (Text.upper label) = some i →
      StopsOn (.problem (.condition c)) m (.done (.resume (i + 1)) m')
  | stranded (c : Condition) (label : String) (m m' : Machine) (p : Problem) :
      m.session.traps.get? (trapFor c) = some label → TookTrap c m m' →
      StopsOn (.problem (.condition c)) m (.fail (.problem p) m')
  | untrapped (c : Condition) (m : Machine) :
      m.session.traps.get? (trapFor c) = none →
      StopsOn (.problem (.condition c)) m (.fail (.problem (.condition c)) m)
  | failed (f : Failure) (m : Machine) : StopsOn (.problem (.failure f)) m (.fail (.problem (.failure f)) m)
  | exit (v : Value) (m : Machine) : StopsOn (.exit v) m (.fail (.exit v) m)
  | leave (m : Machine) : StopsOn .leave m (.fail .leave m)
  | iterate (m : Machine) : StopsOn .iterate m (.fail .iterate m)
  | exhausted (m : Machine) : StopsOn .exhausted m (.fail .exhausted m)

theorem goOnAt_cases {c : Condition} {label : String} {m m₁ : Machine} (h : TookTrap c m m₁)
    (htrap : m.session.traps.get? (trapFor c) = some label) :
    StopsOn (.problem (.condition c)) m (goOnAt (trapFor c) label m₁) := by
  let outside : Machine := { m₁ with session := { m₁.session with
    calls := [], loopDepth := if trapFor c == .error then 0 else m₁.session.loopDepth } }
  have hout : TookTrap c m outside := by
    refine { h with loopDepth := fun hl => ?_ }
    change (if trapFor c == .error then 0 else m₁.session.loopDepth) = 0
    rw [h.loopDepth hl, ite_self]
  have hgo : goOnAt (trapFor c) label m₁ =
      (labelIndex label none outside).bind fun i m => .done (.resume (i + 1)) m := rfl
  rw [hgo, labelIndex_apply]
  cases hi : outside.session.labels.lookup (Text.upper label) with
  | some i => exact .trapped c label m outside i htrap hout rfl hi
  | none => exact .stranded c label m outside _ htrap hout

theorem takeTrap_cases {c : Condition} {label : String} {m : Machine}
    (htrap : m.session.traps.get? (trapFor c) = some label) :
    StopsOn (.problem (.condition c)) m (takeTrap c label m) := by
  let c' := c.atLine m.session.line
  let described : Machine := { disarmed c m with session := { (disarmed c m).session with
    context := some ⟨c'.line, c'.function, c'.domain⟩ } }
  have hdescribed : TookTrap c m described := { TookTrap.disarmed c m with }
  have htell : takeTrap c label m = (tell c' described).bind fun _ => goOnAt (trapFor c) label := by
    rw [takeTrap_eq, describe_eq]
    simp only [Run.bind_apply, modifySession_apply, Step.bind]
    rfl
  have hcalm := (inferInstance : Simple (tell c')).calm described
  rw [htell]
  cases hend : tell c' described with
  | done a m₁ =>
    rw [hend] at hcalm
    exact goOnAt_cases (hdescribed.unmoved hcalm) htrap
  | fail e m₁ =>
    rw [hend] at hcalm
    obtain ⟨⟨p, rfl⟩, hm⟩ := hcalm
    exact .stranded c label m m₁ p htrap (hdescribed.unmoved hm)
  | wait w m₁ resume =>
    rw [hend] at hcalm
    exact hcalm.elim

theorem stopOn_cases (e : Signal) (m : Machine) : StopsOn e m (stopOn e m) := by
  match e with
  | .ret v => exact .ret v m
  | .jump label line =>
    have hstop : stopOn (.jump label line) m =
        (labelIndex label line { m with session := { m.session with calls := [] } }).bind
          fun i m => .done (.resume (i + 1)) m := rfl
    rw [hstop, labelIndex_apply]
    cases hi : m.session.labels.lookup (Text.upper label) with
    | some i => exact .jump label line m i hi
    | none => exact .lost label line m _
  | .problem (.condition c) =>
    simp only [stopOn, Run.bind_apply, session_apply, Step.bind]
    cases htrap : m.session.traps.get? (trapFor c) with
    | some label => exact takeTrap_cases htrap
    | none => exact .untrapped c m htrap
  | .problem (.failure f) => exact .failed f m
  | .exit v => exact .exit v m
  | .leave => exact .leave m
  | .iterate => exact .iterate m
  | .exhausted => exact .exhausted m

theorem StopsOn.of_eq {e : Signal} {m : Machine} {x : Step Machine Signal Stop} (h : stopOn e m = x) : StopsOn e m x :=
  h ▸ stopOn_cases e m

/-! ## The start and the end of a run -/

/-- The state in which the top level of a run starts. -/
def atStart (p : Syntax.Program) (args : List Value) (cancelFirst : Bool) (m : Machine) : Machine where
  session := { installed p m.session with
    traps := [], args := [args], calls := [], loopDepth := 0, callDepth := 0, halting := none }
  world := { m.world with cancelled := if m.session.isMain then cancelFirst else m.world.cancelled }

/-- The statements that the top level has ahead of it from a place of the program on. -/
def ahead (stopAtLabel : Bool) (index : Nat) (m : Machine) : List Syntax.Statement :=
  let rest := m.session.program.toList.drop index
  if stopAtLabel then beforeLabel rest else rest

def goOn (o : Outer) (stopAtLabel : Bool) (n : Nat) : Stop → Play Value
  | .value v => pure v
  | .resume next => topLevel o stopAtLabel n next

theorem topLevel_succ (o : Outer) (stopAtLabel : Bool) (n index : Nat) (m : Machine) :
    topLevel o stopAtLabel (n + 1) index m = (stretch o (ahead stopAtLabel index m) m).bind (goOn o stopAtLabel n) := rfl

def wholeRun (o : Outer) (stopAtLabel : Bool) : Play Value := do
  let v ← untilExit (topLevel o stopAtLabel o.rounds 0)
  raiseHalted
  return v

theorem runProgram_eq (o : Outer) (p : Syntax.Program) (args : List Value) (stopAtLabel cancelFirst : Bool) (m : Machine) :
    runProgram o p args stopAtLabel cancelFirst m = wholeRun o stopAtLabel (atStart p args cancelFirst m) := by
  have hmain : (installed p m.session).isMain = m.session.isMain := rfl
  simp only [runProgram, Run.bind_apply, loadProgram_apply, modifySession_apply, session_apply, Step.bind, atStart, hmain]
  cases m.session.isMain <;> rfl

end Conductor.Play
