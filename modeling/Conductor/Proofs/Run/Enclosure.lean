import Conductor.Proofs.Run.Blame

/-!
# Loops and what they enclose

Whether a loop is there to be left is judged by a count that is raised and lowered while the
program runs. Here the same is read off the text: a statement is executed knowing whether a loop
of its own routine encloses it, and what it does to that loop is its answer, a `Flow`, which goes
from a body to the statement around it and from a statement no further than the innermost loop.
Nothing is counted.

Wherever a routine or the top level of a program stands, executing its statements comes to the same
endings as this. So the count tells of the loops of the routine itself, whatever its calls, jumps
and failures did to it, and no signal for a loop leaves the routine.
-/

set_option autoImplicit false

namespace Conductor

open Syntax (Expr Statement Place LoopHead Program)

/-! ## Endings of composed computations -/

namespace Step

variable {σ ε α β : Type} {R : σ → σ → Prop}

theorem comes_bind_iff {x : Step σ ε α} {k : α → σ → Step σ ε β} {ending : Ending σ ε β} :
    (x.bind k).Comes R ending ↔ (∃ a s, x.Comes R (.done a s) ∧ (k a s).Comes R ending) ∨
      ∃ e s, x.Comes R (.fail e s) ∧ ending = .fail e s := by
  refine ⟨Comes.of_bind, ?_⟩
  rintro (⟨a, s, hx, hk⟩ | ⟨e, s, hx, rfl⟩)
  · exact hx.bind_done hk
  · exact hx.bind_fail

theorem comes_recover_iff {x : Step σ ε α} {k : ε → σ → Step σ ε α} {ending : Ending σ ε α} :
    (x.recover k).Comes R ending ↔ (∃ a s, x.Comes R (.done a s) ∧ ending = .done a s) ∨
      ∃ e s, x.Comes R (.fail e s) ∧ (k e s).Comes R ending := by
  refine ⟨Comes.of_recover, ?_⟩
  rintro (⟨a, s, hx, rfl⟩ | ⟨e, s, hx, hk⟩)
  · exact hx.recover_done
  · exact hx.recover_fail hk

def Ending.after (f : σ → σ) : Ending σ ε α → Ending σ ε α
  | .done a s => .done a (f s)
  | .fail e s => .fail e (f s)
  | .stuck s => .stuck (f s)

theorem comes_leave_iff {x : Step σ ε α} {f : σ → σ} {ending : Ending σ ε α} :
    (x.leave f).Comes R ending ↔ ∃ ending', x.Comes R ending' ∧ ending = ending'.after f := by
  induction x generalizing ending with
  | done a s =>
    constructor
    · rintro ⟨⟩
      exact ⟨_, .done a s, rfl⟩
    · rintro ⟨_, ⟨⟩, rfl⟩
      exact .done a (f s)
  | fail e s =>
    constructor
    · rintro ⟨⟩
      exact ⟨_, .fail e s, rfl⟩
    · rintro ⟨_, ⟨⟩, rfl⟩
      exact .fail e (f s)
  | wait w s resume ih =>
    constructor
    · rintro (_ | _ | ⟨hR, h⟩)
      obtain ⟨ending', hx, heq⟩ := (ih none _).mp h
      exact ⟨ending', .wait hR hx, heq⟩
    · rintro ⟨ending', _ | _ | ⟨hR, h⟩, heq⟩
      exact .wait hR ((ih none _).mpr ⟨ending', h, heq⟩)

end Step

namespace Run

variable {σ ε α β : Type} {R : σ → σ → Prop} {s : σ}

theorem comes_bind {x : Run σ ε α} {k : α → Run σ ε β} {ending : Step.Ending σ ε β} :
    ((x >>= k) s).Comes R ending ↔ (∃ a s', (x s).Comes R (.done a s') ∧ (k a s').Comes R ending) ∨
      ∃ e s', (x s).Comes R (.fail e s') ∧ ending = .fail e s' :=
  Step.comes_bind_iff

theorem comes_tryCatch {x : Run σ ε α} {k : ε → Run σ ε α} {ending : Step.Ending σ ε α} :
    ((tryCatch x k) s).Comes R ending ↔ (∃ a s', (x s).Comes R (.done a s') ∧ ending = .done a s') ∨
      ∃ e s', (x s).Comes R (.fail e s') ∧ (k e s').Comes R ending :=
  Step.comes_recover_iff

theorem comes_leaving {x : Run σ ε α} {f : σ → σ} {ending : Step.Ending σ ε α} :
    ((x.leaving f) s).Comes R ending ↔ ∃ ending', (x s).Comes R ending' ∧ ending = ending'.after f :=
  Step.comes_leave_iff

theorem comes_tryCatch_bind {x : Run σ ε α} {k : α → Run σ ε β} {handler : ε → Run σ ε β} {ending : Step.Ending σ ε β}
    (hx : ∀ e s', (x s).Comes R (.fail e s') → handler e s' = .fail e s') :
    ((tryCatch (x >>= k) handler) s).Comes R ending ↔
      ((x >>= fun a => tryCatch (k a) handler) s).Comes R ending := by
  simp only [comes_tryCatch, comes_bind]
  constructor
  · rintro (⟨b, s₂, ⟨a, s₁, hx', hk⟩ | ⟨_, _, -, ⟨⟩⟩, rfl⟩ | ⟨e, s₂, ⟨a, s₁, hx', hk⟩ | ⟨e, s₁, hx', ⟨⟩⟩, hh⟩)
    · exact .inl ⟨a, s₁, hx', .inl ⟨b, s₂, hk, rfl⟩⟩
    · exact .inl ⟨a, s₁, hx', .inr ⟨e, s₂, hk, hh⟩⟩
    · rw [hx e s₂ hx'] at hh
      cases hh
      exact .inr ⟨e, s₂, hx', rfl⟩
  · rintro (⟨a, s₁, hx', ⟨b, s₂, hk, rfl⟩ | ⟨e, s₂, hk, hh⟩⟩ | ⟨e, s₁, hx', rfl⟩)
    · exact .inl ⟨b, s₂, .inl ⟨a, s₁, hx', hk⟩, rfl⟩
    · exact .inr ⟨e, s₂, .inl ⟨a, s₁, hx', hk⟩, hh⟩
    · exact .inr ⟨e, s₁, .inr ⟨e, s₁, hx', rfl⟩, hx e s₁ hx' ▸ .fail e s₁⟩

end Run

def SameAt (G : World → World → Prop) (d : Nat) {α : Type} (x y : Play α) : Prop :=
  ∀ m, m.session.loopDepth = d → ∀ ending, (x m).Comes (Interlude G) ending ↔ (y m).Comes (Interlude G) ending

namespace SameAt

variable {G : World → World → Prop} {d : Nat} {α β : Type} {x y : Play α} {k k' : α → Play β}

theorem refl (x : Play α) : SameAt G d x x := fun _ _ _ => Iff.rfl

theorem of_eq (h : x = y) : SameAt G d x y := h ▸ .refl x

theorem andThen (o : Outer) [o.Bears G] [hx : Woven o .statement x] (hxy : SameAt G d x y)
    (hk : ∀ a, SameAt G d (k a) (k' a)) : SameAt G d (x >>= k) (y >>= k') := by
  intro m hm ending
  have hdone (a : α) (m' : Machine) (hc : (x m).Comes (Interlude G) (.done a m')) : m'.session.loopDepth = d :=
    ((hx.bears m).comes_done hc).loopDepth.trans hm
  simp only [Run.comes_bind]
  constructor
  · rintro (⟨a, m', hc, hrest⟩ | ⟨e, m', hc, heq⟩)
    · exact .inl ⟨a, m', (hxy m hm _).mp hc, (hk a m' (hdone a m' hc) ending).mp hrest⟩
    · exact .inr ⟨e, m', (hxy m hm _).mp hc, heq⟩
  · rintro (⟨a, m', hc, hrest⟩ | ⟨e, m', hc, heq⟩)
    · have hc' : (x m).Comes (Interlude G) (.done a m') := (hxy m hm _).mpr hc
      exact .inl ⟨a, m', hc', (hk a m' (hdone a m' hc') ending).mpr hrest⟩
    · exact .inr ⟨e, m', (hxy m hm _).mpr hc, heq⟩

theorem bind (o : Outer) [o.Bears G] [Woven o .statement x] (hk : ∀ a, SameAt G d (k a) (k' a)) :
    SameAt G d (x >>= k) (x >>= k') :=
  andThen o (.refl x) hk

theorem map (f : α → β) (hxy : SameAt G d x y) : SameAt G d (f <$> x) (f <$> y) := by
  simp only [map_eq_pure_bind]
  intro m hm ending
  simp only [Run.comes_bind, hxy m hm]

theorem recover (h : Signal → Play α) (hxy : SameAt G d x y) : SameAt G d (tryCatch x h) (tryCatch y h) := by
  intro m hm ending
  simp only [Run.comes_tryCatch, hxy m hm]

theorem ite {c : Prop} [Decidable c] {x' y' : Play α} (h : SameAt G d x y) (h' : SameAt G d x' y') :
    SameAt G d (if c then x else x') (if c then y else y') := by
  split
  · exact h
  · exact h'

end SameAt

namespace Play

variable {G : World → World → Prop} {d : Nat} {o : Outer} [ho : o.Bears G]

/-! ## A loop with another body -/

def rangeStop (o : Outer) : Option Expr → Play (Option Number)
  | some e => do return some (← number (← eval o e))
  | none => return none

def rangeStep (o : Outer) : Option Expr → Play Number
  | some e => do number (← eval o e)
  | none => return .int 1

def rangeHead (o : Outer) (start : Expr) (stop step : Option Expr) : Play (Number × Option Number × Number) := do
  return (← number (← eval o start), ← rangeStop o stop, ← rangeStep o step)

omit ho in
theorem loopRange_eq (var : Syntax.Ref) (start : Expr) (stop step : Option Expr) (line : Nat) (body : Play Unit) :
    loopRange o var start stop step line body = (do
      let tail ← tailOf var
      let (first, limit, width) ← rangeHead o start stop step
      if width.isZero then causeAt .zeroStep (some line)
      rangeFrom (var.name, tail) limit width body o.rounds first) := by
  cases stop <;> cases step <;> simp only [loopRange, rangeHead, rangeStop, rangeStep, bind_assoc, pure_bind]

instance (stop : Option Expr) : Woven o .expression (rangeStop o stop) := by
  cases stop <;> unfold rangeStop <;> infer_instance

instance (step : Option Expr) : Woven o .expression (rangeStep o step) := by
  cases step <;> unfold rangeStep <;> infer_instance

instance (start : Expr) (stop step : Option Expr) : Woven o .expression (rangeHead o start stop step) := by
  unfold rangeHead
  infer_instance

section

variable {x y : Play Unit} [hx : Woven o .statement x] (hxy : SameAt G d x y)
include ho hxy

omit ho hx in
theorem round_sameAt : SameAt G d (round x) (round y) := by
  refine .recover _ ?_
  simp only [bind_pure_comp]
  exact hxy.map fun _ => true

omit hx hxy in
theorem rounds_sameAt {s t : Play Bool} [Woven o .statement s] (hst : SameAt G d s t) (n : Nat) :
    SameAt G d (rounds s n) (rounds t n) := by
  induction n with
  | zero => exact .refl _
  | succ n ih => exact hst.andThen o fun _ => .ite ih (.refl _)

include hx

theorem times_sameAt (n : Nat) : SameAt G d (times x n) (times y n) := by
  induction n with
  | zero => exact .refl _
  | succ n ih => exact (round_sameAt hxy).andThen o fun _ => .ite ih (.refl _)

theorem eachItem_sameAt (r : String × List Tree) (vs : List Value) :
    SameAt G d (eachItem r x vs) (eachItem r y vs) := by
  induction vs with
  | nil => exact .refl _
  | cons v rest ih => exact .bind o fun _ => (round_sameAt hxy).andThen o fun _ => .ite ih (.refl _)

theorem rangeFrom_sameAt (r : String × List Tree) (stop : Option Number) (step : Number) (n : Nat) (current : Number) :
    SameAt G d (rangeFrom r stop step x n current) (rangeFrom r stop step y n current) := by
  induction n generalizing current with
  | zero => exact .refl _
  | succ n ih =>
    unfold rangeFrom
    extract_lets within
    refine .bind o fun _ => .ite ((round_sameAt hxy).andThen o fun _ => .ite ?_ (.refl _)) (.refl _)
    exact .bind o fun _ => .bind o fun _ => .bind o ih

theorem runLoop_sameAt (head : LoopHead) (line : Nat) : SameAt G d (runLoop o head line x) (runLoop o head line y) := by
  cases head with
  | block => exact (round_sameAt hxy).map _
  | forever => exact rounds_sameAt (o := o) (round_sameAt hxy) _
  | count e => exact .bind o fun _ => .bind o fun _ => .bind o fun n => times_sameAt (o := o) hxy n
  | «while» condition =>
    refine rounds_sameAt (o := o) ?_ _
    exact .bind o fun _ => .bind o fun _ => .ite (round_sameAt hxy) (.refl _)
  | «until» condition =>
    exact rounds_sameAt (o := o) ((round_sameAt hxy).andThen o fun _ => .refl _) _
  | range var start stop step =>
    have hfrom (tail : List Tree) (first : Number) (limit : Option Number) (width : Number) :
        SameAt G d (rangeFrom (var.name, tail) limit width x o.rounds first)
          (rangeFrom (var.name, tail) limit width y o.rounds first) := rangeFrom_sameAt (o := o) hxy _ _ _ _ _
    simp only [runLoop, loopRange_eq]
    exact .bind o fun tail => .bind o fun _ => .ite (.bind o fun _ => hfrom _ _ _ _) (hfrom _ _ _ _)
  | «over» var collection =>
    refine .bind o fun v => ?_
    cases v with
    | stem a => exact .bind o fun _ => .bind o fun _ => eachItem_sameAt (o := o) hxy _ _
    | _ => exact .refl _

end

/-! ## Statements that know what encloses them -/

/-- How a statement hands over: to the statement after it, or to the loop around it, which is left or goes on with its
next round. -/
inductive Flow
  | next
  | leave
  | iterate

/-- Whether the loop around a statement goes on. -/
def Flow.goesOn : Flow → Bool
  | .next | .iterate => true
  | .leave => false

def Flow.signal : Flow → Play Unit
  | .next => return ⟨⟩
  | .leave => throw .leave
  | .iterate => throw .iterate

/-- Statements whose flow goes to the loop around them, as its body or a part of it. -/
def signalled (x : Play Flow) : Play Unit := x >>= Flow.signal

def flowAt (p : Place) (body : Play Flow) : Play Flow := do
  checkpoint p
  if ← sendMatched p then return .next
  body

mutual
/-- Executes a statement that stands inside of a loop of its routine, or outside of all of them. -/
def flow (o : Outer) (enclosed : Bool) : Statement → Play Flow
  | .leave p => flowAt p (if enclosed then return .leave else causeAt (.outsideLoop "LEAVE") (some p.line))
  | .iterate p => flowAt p (if enclosed then return .iterate else causeAt (.outsideLoop "ITERATE") (some p.line))
  | .cond condition thenBody elseBody p => flowAt p do
    if ← truthy (← eval o condition) then flowAll o enclosed thenBody else flowAll o enclosed elseBody
  | .loop head body p => flowAt p do
    inLoop (runLoop o head p.line (signalled (flowAll o true body)))
    return .next
  | s => do
    exec o s
    return .next

def flowAll (o : Outer) (enclosed : Bool) : List Statement → Play Flow
  | [] => return .next
  | s :: rest => do
    match ← flow o enclosed s with
    | .next => flowAll o enclosed rest
    | f => return f
end

omit ho in
theorem signalled_flowAt (p : Place) (body : Play Flow) : signalled (flowAt p body) = atPlace p true (signalled body) := by
  simp only [signalled, flowAt, atPlace, bind_assoc, if_true]
  refine bind_congr fun _ => bind_congr fun sent => ?_
  cases sent <;> rfl

omit ho in
theorem signalled_cons (enclosed : Bool) (s : Statement) (rest : List Statement) :
    signalled (flowAll o enclosed (s :: rest)) = (do
      signalled (flow o enclosed s)
      signalled (flowAll o enclosed rest)) := by
  rw [flowAll]
  simp only [signalled, bind_assoc]
  refine bind_congr fun f => ?_
  cases f <;> rfl

omit ho in
theorem signalled_plain (x : Play Unit) : signalled (do x; return .next) = x := by
  simp only [signalled, bind_assoc, pure_bind, Flow.signal]
  exact bind_pure_unit

variable (o)

include o in
theorem atPlace_sameAt {x y : Play Unit} (p : Place) (h : SameAt G d x y) :
    SameAt G d (atPlace p true x) (atPlace p true y) :=
  .bind o fun _ => .bind o fun _ => .ite (.refl _) h

omit ho in
theorem loopSignal_sameAt {signal : Signal} {f : Flow} (hf : f.signal = throw signal) (action : String) (line : Nat) :
    SameAt G d (loopSignal signal action line)
      (signalled (if decide (0 < d) then return f else causeAt (.outsideLoop action) (some line))) := by
  intro m hm ending
  simp only [loopSignal, Run.bind_apply, session_apply, Step.bind, hm, signalled]
  cases d with
  | zero => rfl
  | succ d =>
    change _ ↔ (f.signal m).Comes (Interlude G) ending
    rw [hf]
    rfl

omit ho in
theorem inLoop_sameAt {x y : Play Unit} (h : SameAt G (d + 1) x y) : SameAt G d (inLoop x) (inLoop y) := by
  intro m hm ending
  simp only [inLoop, Run.bind_apply, modifySession_apply, Step.bind, Run.comes_leaving,
    h { m with session := { m.session with loopDepth := m.session.loopDepth + 1 } } (congrArg (· + 1) hm)]

mutual
/-- Executing a statement at a count comes to the same as executing it with the knowledge of what encloses it. -/
theorem exec_sameAt (d : Nat) (s : Statement) : SameAt G d (exec o s) (signalled (flow o (decide (0 < d)) s)) := by
  match s with
  | .leave p =>
    rw [exec, flow, signalled_flowAt]
    exact atPlace_sameAt o p (loopSignal_sameAt rfl _ _)
  | .iterate p =>
    rw [exec, flow, signalled_flowAt]
    exact atPlace_sameAt o p (loopSignal_sameAt rfl _ _)
  | .cond condition thenBody elseBody p =>
    have hthen := execAll_sameAt d thenBody
    have helse := execAll_sameAt d elseBody
    rw [exec, flow, signalled_flowAt]
    refine atPlace_sameAt o p ?_
    simp only [signalled, bind_assoc]
    refine .bind o fun _ => .bind o fun c => ?_
    cases c
    · exact helse
    · exact hthen
  | .loop head body p =>
    have hbody := execAll_sameAt (d + 1) body
    rw [exec, flow, signalled_flowAt, signalled_plain]
    exact atPlace_sameAt o p (inLoop_sameAt (runLoop_sameAt (o := o) hbody head p.line))
  | .assign .. | .say .. | .call .. | .address .. | .block .. | .signal .. | .ret .. | .label .. | .arg .. | .require ..
  | .interpolation .. | .clause .. | .nop _ => exact .of_eq (signalled_plain _).symm

theorem execAll_sameAt (d : Nat) (body : List Statement) :
    SameAt G d (execAll o body) (signalled (flowAll o (decide (0 < d)) body)) := by
  match body with
  | [] => exact .of_eq rfl
  | s :: rest =>
    have hs := exec_sameAt d s
    have hrest := execAll_sameAt d rest
    rw [execAll, signalled_cons]
    exact hs.andThen o fun _ => hrest
end

end Play

/-! ## No signal for a loop gets out -/

def Syntax.Statement.isPlain : Statement → Bool
  | .leave _ | .iterate _ | .cond .. | .loop .. => false
  | _ => true

def Signal.ForLoop : Signal → Prop
  | .leave | .iterate => True
  | .ret _ | .exit _ | .jump _ _ | .problem _ | .exhausted => False

/-- A computation ends with no signal for a loop, and as deep in loops as it began. -/
structure Secluded (G : World → World → Prop) {α : Type} (x : Play α) (m : Machine) : Prop where
  done : ∀ a m', (x m).Comes (Interlude G) (.done a m') → m'.session.loopDepth = m.session.loopDepth
  fail : ∀ e m', (x m).Comes (Interlude G) (.fail e m') → m'.session.loopDepth = m.session.loopDepth ∧ ¬ e.ForLoop

theorem Level.Lets.not_forLoop {l : Level} {m m' : Machine} {e : Signal} (h : l.Lets m m' e)
    (hl : l ≠ .statement ∨ m.session.loopDepth = 0) : ¬ e.ForLoop := by
  cases e with
  | leave | iterate => exact fun _ => hl.elim (absurd h.1) fun hzero => absurd h.2.1 (by simp [hzero])
  | _ => exact id

/-- Parts of a program are secluded: all of them outside of all loops, and everywhere what is not a statement. -/
theorem Bears.secluded {G : World → World → Prop} {l : Level} {α : Type} {x : Play α} (hx : Bears G l x) {m : Machine}
    (hl : l ≠ .statement ∨ m.session.loopDepth = 0) : Secluded G x m where
  done _ _ hc := ((hx m).comes_done hc).loopDepth
  fail e m' hc :=
    have h : CutShort G l m e m' := (hx m).comes_fail hc
    ⟨h.loopDepth, h.lets.not_forLoop hl⟩

namespace Play

variable {G : World → World → Prop}

theorem stopOn_not_forLoop {e e' : Signal} {m m' : Machine} (h : stopOn e m = .fail e' m') (he : ¬ e.ForLoop) :
    ¬ e'.ForLoop := by
  have hstops := stopOn_cases e m
  rw [h] at hstops
  cases hstops with
  | leave | iterate => exact he
  | _ => exact id

theorem Closes.not_forLoop {n : Nat} {stopAtLabel : Bool} {args : List Value} {m₀ m' : Machine} {e : Signal}
    (hm : CleanAt args m₀) (h : Closes (outer n) stopAtLabel G m₀ (.fail e m')) : ¬ e.ForLoop := by
  cases h with
  | exhausted => exact id
  | @signal s _ m₁ _ _ _ _ hf hs hstop =>
    have hsecluded : Secluded G (exec (outer n) s) m₁ := (exec_bears n s).secluded (.inr (hm.fetches hf).loopDepth)
    exact stopOn_not_forLoop hstop (hsecluded.fail _ _ hs).2

theorem wholeRun_fail {o : Outer} {stopAtLabel : Bool} {m m' : Machine} {e : Signal}
    (hc : (wholeRun o stopAtLabel m).Comes (Interlude G) (.fail e m')) :
    (∃ c, e = .problem (.condition c)) ∨ ∃ m₁, (topLevel o stopAtLabel o.rounds 0 m).Comes (Interlude G) (.fail e m₁) := by
  rw [wholeRun, Run.comes_bind] at hc
  rcases hc with ⟨v, m₁, -, hrest⟩ | ⟨e, m₁, huntil, ⟨⟩⟩
  · left
    rw [Run.comes_bind] at hrest
    rcases hrest with ⟨_, _, -, ⟨⟩⟩ | ⟨e, m₂, hraise, ⟨⟩⟩
    simp only [raiseHalted, Run.bind_apply, session_apply, Step.bind] at hraise
    cases hhalting : m₁.session.halting with
    | none =>
      rw [hhalting] at hraise
      cases hraise
    | some c =>
      rw [hhalting] at hraise
      cases hraise
      exact ⟨c, rfl⟩
  · right
    rw [untilExit, Run.comes_tryCatch] at huntil
    rcases huntil with ⟨_, _, -, ⟨⟩⟩ | ⟨e', m₂, htop, hrest⟩
    cases e' with
    | exit v => cases hrest
    | _ =>
      cases hrest
      exact ⟨_, htop⟩

/-! ## What a loop lets out -/

/-- A computation that never ends with a signal for a loop. -/
class Contained (o : Outer) (G : World → World → Prop) {α : Type} (x : Play α) : Prop where
  fail : ∀ m e m', (x m).Comes (Interlude G) (.fail e m') → ¬ e.ForLoop

namespace Contained

variable {o : Outer} [o.Bears G] {α β : Type}

instance (priority := low) (x : Play α) [hx : Woven o .loop x] : Contained o G x :=
  ⟨fun _ e m' hc => (hx.bears.secluded (.inl nofun)).fail e m' hc |>.2⟩

omit [o.Bears G] in
theorem andThen {x : Play α} {k : α → Play β} [hx : Contained o G x] (hk : ∀ a, Contained o G (k a)) :
    Contained o G (x >>= k) := by
  refine ⟨fun m e m' hc => ?_⟩
  rcases Run.comes_bind.mp hc with ⟨a, m₁, -, hrest⟩ | ⟨e, m₁, hfail, ⟨⟩⟩
  · exact (hk a).fail m₁ e m' hrest
  · exact hx.fail m e m' hfail

omit [o.Bears G] in
instance (x : Play α) (k : α → Play β) [Contained o G x] [hk : ∀ a, Contained o G (k a)] : Contained o G (x >>= k) :=
  andThen hk

omit [o.Bears G] in
instance (x : Play α) [Contained o G x] : Contained o G (discard x) :=
  inferInstanceAs (Contained o G (x >>= fun _ => pure PUnit.unit))

omit [o.Bears G] in
instance (c : Prop) [Decidable c] (x y : Play α) [Contained o G x] [Contained o G y] :
    Contained o G (if c then x else y) := by
  split <;> infer_instance

instance round (x : Play Unit) : Contained o G (round x) := by
  refine ⟨fun m e m' hc => ?_⟩
  rcases Run.comes_tryCatch.mp hc with ⟨_, _, -, ⟨⟩⟩ | ⟨e₁, m₁, -, hrest⟩
  cases e₁ with
  | leave | iterate => cases hrest
  | _ =>
    cases hrest
    exact id

theorem rounds (step : Play Bool) [Contained o G step] (n : Nat) : Contained o G (rounds step n) := by
  induction n with
  | zero => rw [Play.rounds]; infer_instance
  | succ n ih => rw [Play.rounds]; infer_instance

instance times (x : Play Unit) (n : Nat) : Contained o G (times x n) := by
  induction n with
  | zero => rw [Play.times]; infer_instance
  | succ n ih => rw [Play.times]; infer_instance

instance eachItem (r : String × List Tree) (x : Play Unit) (vs : List Value) : Contained o G (eachItem r x vs) := by
  induction vs with
  | nil => rw [Play.eachItem]; infer_instance
  | cons v rest ih => rw [Play.eachItem]; infer_instance

instance rangeFrom (r : String × List Tree) (stop : Option Number) (step : Number) (x : Play Unit) (n : Nat)
    (current : Number) : Contained o G (rangeFrom r stop step x n current) := by
  induction n generalizing current with
  | zero => unfold Play.rangeFrom; infer_instance
  | succ n ih =>
    unfold Play.rangeFrom
    extract_lets within
    clear_value within
    refine andThen fun _ => ?_
    split <;> infer_instance

instance loopOver (var : Syntax.Ref) (collection : Expr) (line : Nat) (x : Play Unit) :
    Contained o G (loopOver o var collection line x) := by
  unfold Play.loopOver
  refine andThen fun v => ?_
  split <;> infer_instance

instance loopRange (var : Syntax.Ref) (start : Expr) (stop step : Option Expr) (line : Nat) (x : Play Unit) :
    Contained o G (loopRange o var start stop step line x) := by
  rw [loopRange_eq]
  infer_instance

instance runLoop (head : LoopHead) (line : Nat) (x : Play Unit) : Contained o G (runLoop o head line x) := by
  unfold Play.runLoop
  split
  case h_2 => exact rounds _ _
  case h_4 => exact rounds _ _
  case h_5 => exact rounds _ _
  all_goals infer_instance

omit [o.Bears G] in
instance leaving (x : Play α) (f : Machine → Machine) [hx : Contained o G x] : Contained o G (x.leaving f) := by
  refine ⟨fun m e m' hc => ?_⟩
  obtain ⟨m₁, hfail, -⟩ := Step.Comes.of_leave_fail hc
  exact hx.fail m e m₁ hfail

instance inLoop (x : Play Unit) [Contained o G x] : Contained o G (inLoop x) := by
  unfold Play.inLoop
  have hdeeper : Contained o G (modifySession fun s => { s with loopDepth := s.loopDepth + 1 }) := by
    refine ⟨fun m e m' hc => ?_⟩
    rw [modifySession_apply] at hc
    cases hc
  infer_instance

instance flowAt (p : Place) (body : Play Flow) [Contained o G body] : Contained o G (flowAt p body) := by
  unfold Play.flowAt
  infer_instance

end Contained

section

variable (o : Outer)

/-- What has no parts and is no signal for a loop does no more than a loop does. -/
theorem exec_woven_loop {s : Statement} (hs : s.isPlain = true) : Woven o .loop (exec o s) := by
  have hplace (p : Place) (sendable : Bool) (body : Play Unit) [Woven o .loop body] :
      Woven o .loop (atPlace p sendable body) := by
    unfold atPlace
    infer_instance
  match s with
  | .leave _ | .iterate _ | .cond .. | .loop .. => cases hs
  | .ret value exit p =>
    have hdepart (v : Value) : Woven o .loop (throw (if exit then .exit v else .ret v) : Play Unit) :=
      .departing _ (by split <;> trivial)
    cases value <;> (rw [exec]; infer_instance)
  | .arg names p =>
    have hbody := arg_woven o names
    rw [exec]
    infer_instance
  | .assign .. | .say .. | .call .. | .address .. | .block .. | .signal .. | .label .. | .require ..
  | .interpolation .. | .clause .. | .nop _ => rw [exec]; infer_instance

theorem plain_contained [o.Bears G] {s : Statement} (hs : s.isPlain = true) :
    Contained o G (do exec o s; return Flow.next) := by
  have hexec := exec_woven_loop o hs
  infer_instance

mutual
theorem flow_contained [o.Bears G] (enclosed : Bool) (s : Statement) : Contained o G (flow o enclosed s) := by
  match s with
  | .leave p => rw [flow]; infer_instance
  | .iterate p => rw [flow]; infer_instance
  | .cond condition thenBody elseBody p =>
    have hthen := flowAll_contained enclosed thenBody
    have helse := flowAll_contained enclosed elseBody
    rw [flow]
    infer_instance
  | .loop head body p => rw [flow]; infer_instance
  | .assign .. | .say .. | .call .. | .address .. | .block .. | .signal .. | .ret .. | .label .. | .arg .. | .require ..
  | .interpolation .. | .clause .. | .nop _ => exact plain_contained o rfl

theorem flowAll_contained [o.Bears G] (enclosed : Bool) (body : List Statement) :
    Contained o G (flowAll o enclosed body) := by
  match body with
  | [] => rw [flowAll]; infer_instance
  | s :: rest =>
    have hs := flow_contained enclosed s
    have hrest := flowAll_contained enclosed rest
    rw [flowAll]
    refine .andThen fun f => ?_
    cases f <;> infer_instance
end

/-- The round of a loop takes the flow of its body: it goes on unless it is left. -/
theorem round_signalled [o.Bears G] (x : Play Flow) [hx : Contained o G x] (m : Machine)
    (ending : Step.Ending Machine Signal Bool) :
    (round (signalled x) m).Comes (Interlude G) ending ↔ ((Flow.goesOn <$> x) m).Comes (Interlude G) ending := by
  have hanswer (f : Flow) : round f.signal = pure f.goesOn := by cases f <;> rfl
  rw [round, signalled, bind_assoc, Run.comes_tryCatch_bind]
  · change ((x >>= fun f => round f.signal) m).Comes (Interlude G) ending ↔ _
    simp only [hanswer, map_eq_pure_bind]
  · intro e m' hc
    have hpass := hx.fail m e m' hc
    cases e with
    | leave | iterate => exact absurd trivial hpass
    | _ => rfl

end

/-! ## Routines and programs -/

/-- Here statements come to the endings that the text tells, outside of all loops. -/
def GoesByText (n : Nat) (G : World → World → Prop) (body : List Statement) (m : Machine) : Prop :=
  ∀ ending, (execAll (outer n) body m).Comes (Interlude G) ending ↔
    (signalled (flowAll (outer n) false body) m).Comes (Interlude G) ending

theorem goesByText_outside {n : Nat} {body : List Statement} {m : Machine} (hm : m.session.loopDepth = 0) :
    GoesByText n G body m :=
  execAll_sameAt (outer n) 0 body m hm

theorem enterRoutine_loopDepth {a : Arguments} {m m₁ : Machine} (h : enterRoutine a m = .done ⟨⟩ m₁) :
    m₁.session.loopDepth = 0 := by
  rw [enterRoutine_eq, Run.bind_apply] at h
  cases hend : copied a m with
  | done args m' =>
    rw [hend] at h
    cases h
    rfl
  | fail e m' =>
    rw [hend] at h
    cases h
  | wait w m' resume =>
    rw [hend] at h
    cases h

theorem atStart_clean (p : Program) (args : List Value) (cancelFirst : Bool) (m : Machine) :
    CleanAt args (atStart p args cancelFirst m) :=
  ⟨rfl, rfl, rfl, rfl⟩

theorem runProgram_not_forLoop (n : Nat) (p : Program) (args : List Value) (stopAtLabel cancelFirst : Bool)
    {m m' : Machine} {e : Signal}
    (hc : (runProgram (outer n) p args stopAtLabel cancelFirst m).Comes (Interlude G) (.fail e m')) : ¬ e.ForLoop := by
  rw [runProgram_eq] at hc
  obtain ⟨c, rfl⟩ | ⟨m₁, htop⟩ := wholeRun_fail hc
  · exact id
  · exact (topLevel_closes .start htop).not_forLoop (atStart_clean p args cancelFirst m)

/-- Whether LEAVE and ITERATE have a loop is what the text of their routine says, and they reach no further than the
innermost loop that the text puts around them. Where a routine has been entered, and wherever the top level of a program
fetches what is ahead, statements come to the very endings that they come to when each of them knows what encloses it and
answers with its flow; a round of a loop takes the flow of its body. No expression, no call of a label, no top level and no
program ends with a signal for a loop, and an expression or a call leaves the loops of its caller as they were. -/
theorem loop_signals_stay_inside (n : Nat) (G : World → World → Prop) :
    (∀ a m m₁ body, enterRoutine a m = .done ⟨⟩ m₁ → GoesByText n G body m₁) ∧
    (∀ p args stopAtLabel cancelFirst m rest m',
      Fetches (outer n) stopAtLabel G (atStart p args cancelFirst m) rest m' → GoesByText n G rest m') ∧
    (∀ enclosed body m ending, (round (signalled (flowAll (outer n) enclosed body)) m).Comes (Interlude G) ending ↔
      ((Flow.goesOn <$> flowAll (outer n) enclosed body) m).Comes (Interlude G) ending) ∧
    (∀ e m, Secluded G (eval (outer n) e) m) ∧
    (∀ name a m, Secluded G (callLabel (outer n) name a) m) ∧
    (∀ p args stopAtLabel cancelFirst m k e m',
      (topLevel (outer n) stopAtLabel k 0 (atStart p args cancelFirst m)).Comes (Interlude G) (.fail e m') → ¬ e.ForLoop) ∧
    (∀ p args stopAtLabel cancelFirst m e m',
      (runProgram (outer n) p args stopAtLabel cancelFirst m).Comes (Interlude G) (.fail e m') → ¬ e.ForLoop) := by
  refine ⟨?_, ?_, ?_, ?_, ?_, ?_, ?_⟩
  · intro a m m₁ body henter
    exact goesByText_outside (enterRoutine_loopDepth henter)
  · intro p args stopAtLabel cancelFirst m rest m' hf
    exact goesByText_outside ((atStart_clean p args cancelFirst m).fetches hf).loopDepth
  · intro enclosed body m ending
    have hbody : Contained (outer n) G (flowAll (outer n) enclosed body) := flowAll_contained _ _ _
    exact round_signalled (outer n) _ m ending
  · intro e m
    exact (eval_woven (outer n) e).bears.secluded (.inl nofun)
  · intro name a m
    have hwoven : Woven (outer n) .expression (callLabel (outer n) name a) := inferInstance
    exact hwoven.bears.secluded (.inl nofun)
  · intro p args stopAtLabel cancelFirst m k e m' hc
    exact (topLevel_closes .start hc).not_forLoop (atStart_clean p args cancelFirst m)
  · intro p args stopAtLabel cancelFirst m e m' hc
    exact runProgram_not_forLoop n p args stopAtLabel cancelFirst hc

/-- A routine that leaves a loop of its own in the first round, and then would go on with a round of its caller's. -/
def straying : List Statement :=
  [.loop .forever [.leave ⟨2, "LEAVE"⟩] ⟨1, "DO FOREVER"⟩, .iterate ⟨4, "ITERATE"⟩]

/-- Called from inside of a loop, the routine fails in its second statement, as its text tells. -/
theorem loop_signals_of_straying : ∃ m',
    enterRoutine ⟨[], []⟩ { session := { loopDepth := 1 } } = .done ⟨⟩ { session := entered [] { loopDepth := 1 } } ∧
      (signalled (flowAll (outer 3) false straying) { session := entered [] { loopDepth := 1 } }).Comes
        (Interlude fun _ _ => True) (.fail (.problem (.condition { cause := .outsideLoop "ITERATE", line := some 4 })) m') := by
  have henter : enterRoutine ⟨[], []⟩ { session := { loopDepth := 1 } } =
      .done ⟨⟩ { session := entered [] { loopDepth := 1 } } := rfl
  have hruns : ∃ m', execAll (outer 3) straying { session := entered [] { loopDepth := 1 } } =
      .fail (.problem (.condition { cause := .outsideLoop "ITERATE", line := some 4 })) m' := ⟨_, rfl⟩
  obtain ⟨m', hruns⟩ := hruns
  have htext := (loop_signals_stay_inside 3 fun _ _ => True).1 _ _ _ straying henter
  exact ⟨m', henter, (htext _).mp (hruns ▸ .fail _ _)⟩

end Play

end Conductor
