import Conductor.Proofs.Run.Simple
import Conductor.Run.Load

/-!
# How programs are woven

What a program does beyond single acts is of a few kinds: it marks where it is (a statement
begins, a loop is entered, a call is made, a trap is armed), it departs from where it is (a
loop is left, a routine returns, a jump is made), and it reaches out of itself (a label, a
label of a script module, the loading of a module). Levels say how much of this a
computation may do. An errand leaves the marks of the session alone; an expression makes
calls, and only through them can it come to statements; a loop does what its statements do
but is not left by them; a statement may do anything that a program does below its top level.

Every expression, statement, call and load is woven of these kinds, so what each of them
keeps is kept by a whole program, at every depth of calls and loads.
-/

set_option autoImplicit false

namespace Conductor

open Syntax (Expr Statement Program)

inductive Level
  | errand
  | expression
  | loop
  | statement

def Signal.Departs : Signal → Prop
  | .ret _ | .exit _ | .jump _ _ | .exhausted => True
  | .leave | .iterate | .problem _ => False

def Signal.IsCancellation : Signal → Prop
  | .problem (.condition c) => c.kind = .cancellation
  | _ => False

structure Passes {α : Type} (k : Signal → Play α) : Prop where
  problem : ∀ p, Simple (k (.problem p))
  others : ∀ e, (∀ p, e ≠ .problem p) → k e = throw e

/-- A handler that turns every problem into a problem, and a cancellation into a cancellation. -/
structure Rethrows {α : Type} (k : Signal → Play α) : Prop extends Passes k where
  again : ∀ p m, ∃ p' m', k (.problem p) m = .fail (.problem p') m' ∧
    ((Signal.problem p).IsCancellation → (Signal.problem p').IsCancellation)

inductive Inner (o : Outer) : Play Value → Prop
  | program (p : Program) (args : List Value) (stopAtLabel cancelFirst : Bool) :
      Inner o (Play.runProgram o p args stopAtLabel cancelFirst)
  | call (p : Program) (name : String) (a : Arguments) :
      Inner o (do Play.loadProgram p; Play.untilExit (Play.callLabel o name a))

/-- A call with its frame among the calls in progress; the frame of a call that fails stays. -/
def Play.framed (f : Frame) (x : Play Value) : Play Value := do
  modifySession fun s => { s with calls := f :: s.calls }
  let v ← x
  modifySession fun s => { s with calls := s.calls.tail }
  return v

class inductive Woven (o : Outer) : Level → {α : Type} → Play α → Prop
  | simple {l : Level} {α : Type} (x : Play α) (hx : Simple x) : Woven o l x
  | bind {l : Level} {α β : Type} (x : Play α) (k : α → Play β) (hx : Woven o l x) (hk : ∀ a, Woven o l (k a)) :
      Woven o l (x >>= k)
  | reading {l : Level} {α : Type} (k : Session → Play α) (hk : ∀ s, Woven o l (k s))
      (hmarks : ∀ s c, k (s.withMarks c) = k s) : Woven o l (Play.session >>= k)
  | passing {l : Level} {α : Type} (x : Play α) (k : Signal → Play α) (hx : Woven o l x) (hk : Rethrows k) :
      Woven o l (tryCatch x k)
  | exhausted {l : Level} {α : Type} : Woven o l (throw .exhausted : Play α)
  | onWorld {l : Level} (f : World → World) (hf : ∀ w, w.cancelled = true → (f w).cancelled = true) :
      Woven o l (Play.modifyWorld f)
  -- errands
  | await (w : Wait) : Woven o .errand (Run.await w : Play Unit)
  | settling {α : Type} (x : Play α) (k : Signal → Play α) (hx : Woven o .errand x) (hk : Passes k) :
      Woven o .errand (tryCatch x k)
  | moduleLabel (index : Nat) (label : String) (a : Arguments) : Woven o .errand (o.moduleLabel index label a)
  | load (identifier : String) (base : Option String) (stack : Module.Stack) :
      Woven o .errand (o.load identifier base stack)
  | within (s : Session) (x : Play Value) (hs : s.isMain = false) (hx : Inner o x)
      (hexec : ∀ body, Woven o .statement (Play.execAll o body)) : Woven o .errand (Play.within s x)
  -- expressions
  | errand {α : Type} (x : Play α) (hx : Woven o .errand x) : Woven o .expression x
  | label (name : String) (a : Arguments) : Woven o .expression (o.label name a)
  | framed (f : Frame) (x : Play Value) (hx : Woven o .expression x) : Woven o .expression (Play.framed f x)
  | calling (name : String) (a : Arguments) (hexec : ∀ body, Woven o .statement (Play.execAll o body)) :
      Woven o .expression (Play.callLabel o name a)
  -- loops
  | expression {α : Type} (x : Play α) (hx : Woven o .expression x) : Woven o .loop x
  | checkpoint (p : Syntax.Place) : Woven o .loop (Play.checkpoint p)
  | onTraps (f : Table Syntax.Trap String → Table Syntax.Trap String) :
      Woven o .loop (Play.modifySession fun s => { s with traps := f s.traps })
  | departing {α : Type} (e : Signal) (he : e.Departs) : Woven o .loop (throw e : Play α)
  | round (body : Play Unit) (hbody : Woven o .statement body) : Woven o .loop (Play.round body)
  | inLoop (x : Play Unit) (hx : Woven o .loop x) : Woven o .loop (Play.inLoop x)
  -- statements
  | loop {α : Type} (x : Play α) (hx : Woven o .loop x) : Woven o .statement x
  | leaving (action : String) (line : Nat) : Woven o .statement (Play.loopSignal .leave action line)
  | iterating (action : String) (line : Nat) : Woven o .statement (Play.loopSignal .iterate action line)

namespace Woven

variable {o : Outer} {l : Level} {α β : Type}

instance (priority := low) (x : Play α) [h : Simple x] : Woven o l x := .simple x h

instance (priority := low) (x : Play α) [h : Woven o .errand x] : Woven o .expression x := .errand x h

instance (priority := low) (x : Play α) [h : Woven o .expression x] : Woven o .loop x := .expression x h

instance (priority := low) (x : Play α) [h : Woven o .loop x] : Woven o .statement x := .loop x h

attribute [instance] exhausted await moduleLabel load label checkpoint onTraps leaving iterating

instance (x : Play α) (k : α → Play β) [hx : Woven o l x] [hk : ∀ a, Woven o l (k a)] : Woven o l (x >>= k) :=
  .bind x k hx hk

theorem andThen {x : Play α} {k : α → Play β} [hx : Woven o l x] (hk : ∀ a, Woven o l (k a)) : Woven o l (x >>= k) :=
  .bind x k hx hk

instance (f : α → β) (x : Play α) [Woven o l x] : Woven o l (f <$> x) :=
  inferInstanceAs (Woven o l (x >>= fun a => pure (f a)))

instance (x : Play α) [Woven o l x] : Woven o l (discard x) :=
  inferInstanceAs (Woven o l ((fun _ => PUnit.unit) <$> x))

instance awaited (x : Play α) [hturn : Woven o l (Run.await .turn : Play Unit)] [hx : Woven o l x] :
    Woven o l x.awaited :=
  .bind _ _ hturn fun _ => hx

instance (c : Prop) [Decidable c] (x y : Play α) [Woven o l x] [Woven o l y] : Woven o l (if c then x else y) := by
  split <;> infer_instance

instance mapM (f : α → Play β) [hf : ∀ a, Woven o l (f a)] (xs : List α) : Woven o l (xs.mapM f) := by
  induction xs with
  | nil => rw [List.mapM_nil]; infer_instance
  | cons a xs ih => rw [List.mapM_cons]; infer_instance

end Woven

namespace Play

variable {α : Type} (o : Outer) {l : Level}

theorem woven_inContext {x : Play α} {f : Condition → Condition} (hx : Woven o l x) (hf : ∀ c, (f c).kind = c.kind) :
    Woven o l (inContext x f) := by
  refine .passing _ _ hx ⟨⟨fun p => ?_, fun e he => ?_⟩, fun p m => ?_⟩
  · cases p <;> infer_instance
  · cases e with
    | problem p => exact absurd rfl (he p)
    | _ => rfl
  · cases p with
    | condition c => exact ⟨_, _, rfl, fun he => (hf c).trans he⟩
    | failure f => exact ⟨_, _, rfl, id⟩

/-! ## Requests -/

instance (method : String) (payload : Value) (mode : Option String) (line : Option Nat) (delimiter domain : Option String) :
    Woven o .expression (dispatch method payload mode line delimiter domain) :=
  .awaited (invoke method payload mode line delimiter domain)

instance (send : Play Value) [Woven o .expression send] : Woven o .expression (request send) := by
  unfold request
  infer_instance

instance (b : Syntax.BlockLiteral) : Woven o .expression (sendBlock b) := by unfold sendBlock; infer_instance

instance (command : String) (line : Nat) (domain : Option String) :
    Woven o .expression (sendCommand command line domain) := by
  unfold sendCommand
  infer_instance

instance (p : Syntax.Place) : Woven o .expression (sendMatched p) := by
  unfold sendMatched
  refine .reading _ (fun s => ?_) fun _ _ => rfl
  split <;> infer_instance

/-! ## Requirements and calls -/

instance (location dep : String) (base : Option String) (stack : Module.Stack) :
    Woven o .errand (requireDependency o location dep base stack) := by
  have hedge (target : String) : Woven o .errand (onLoader fun l => l.addEdge location target) :=
    .onWorld _ fun _ => id
  unfold requireDependency
  infer_instance

instance (identifier : String) : Woven o .errand (requireHere o identifier) := by
  unfold requireHere
  refine .reading _ (fun s => ?_) fun _ _ => rfl
  split
  · infer_instance
  · next location stack _ =>
    have hnote : Woven o .errand (onLoader fun l => l.addDependency location identifier) := .onWorld _ fun _ => id
    infer_instance

instance (identifier : String) (line : Option Nat) : Woven o .errand (requireModule o identifier line) := by
  have hhere : Woven o .errand (inContext (requireHere o identifier) fun c => c.atLine line) :=
    woven_inContext o inferInstance fun _ => rfl
  have hrequired (entries : List Entry) : Simple (modifySession fun s =>
      { s with resolver := { s.resolver with required := s.resolver.required.addAll entries } }) :=
    .onSession _ (.of_kept (fun _ _ => rfl) fun _ => ⟨rfl, rfl, rfl, rfl, rfl, rfl, rfl⟩)
  unfold requireModule
  infer_instance

instance (name : String) (line : Option Nat) : Woven o .errand (resolve o name line) := by
  unfold resolve
  extract_lets unknown
  have hunknown (e : Option Entry) : Simple (unknown e) := by
    unfold unknown
    split <;> infer_instance
  have hfallback (name : String) : Simple (do unknown ((← session).resolver.fallbacks? name)) :=
    .reading _ (fun s => hunknown _) fun _ _ => rfl
  refine .andThen fun found => ?_
  split
  · infer_instance
  · refine .reading _ (fun s => ?_) fun _ _ => rfl
    split
    · infer_instance
    · refine .andThen fun _ => .andThen fun found => ?_
      split <;> infer_instance

instance (e : Entry) (a : Arguments) : Woven o .expression (perform o e a) := by
  unfold perform
  extract_lets finish
  have hfinish (v : Value) : Simple (finish v) := by unfold finish; infer_instance
  clear_value finish
  split
  case h_6 =>
    refine .reading _ (fun s => ?_) fun _ _ => rfl
    split <;> infer_instance
  all_goals infer_instance

instance (e : Entry) (supplied : List Supplied) (piped : Option Value) (asStatement : Bool) (line : Option Nat) :
    Woven o .expression (apply o e supplied piped asStatement line) := by
  unfold apply
  extract_lets place call
  have hcall (a : Arguments) : Woven o .expression (call a) := by
    refine .framed ⟨e.name, a.all⟩ _ (.passing _ _ inferInstance ⟨⟨fun p => ?_, fun e he => ?_⟩, fun p m => ?_⟩)
    · cases p <;> infer_instance
    · cases e with
      | problem p => exact absurd rfl (he p)
      | _ => rfl
    · cases p with
      | condition c => exact ⟨_, _, rfl, id⟩
      | failure f =>
        refine ⟨if f.interrupts then .failure f
          else .condition { cause := .functionFailed e.name f, line := line, function := some e.name }, m, ?_, False.elim⟩
        dsimp only
        split <;> rfl
  clear_value call
  split <;> infer_instance

/-! ## Expressions -/

mutual
theorem eval_woven (o : Outer) (e : Expr) : Woven o .expression (eval o e) := by
  match e with
  | .literal (.number n) _ => rw [eval]; infer_instance
  | .literal (.text s interpolated) _ => rw [eval]; infer_instance
  | .ref r => rw [eval]; infer_instance
  | .unary op operand pos =>
    have hoperand := eval_woven o operand
    rw [eval]
    infer_instance
  | .binary op left right pos =>
    have hleft := eval_woven o left
    have hright := eval_woven o right
    by_cases hand : op = .and
    · subst hand
      rw [eval]
      infer_instance
    by_cases hor : op = .or
    · subst hor
      rw [eval]
      infer_instance
    · rw [eval]
      · infer_instance
      · exact hand
      · exact hor
  | .call name args pos =>
    have hargs := evalArgs_woven o args
    rw [eval]
    infer_instance
  | .pipe left name args callPos pos =>
    have hleft := eval_woven o left
    have hargs := evalArgs_woven o args
    rw [eval]
    infer_instance

theorem evalArgs_woven (o : Outer) (args : List (Option String × Expr)) : Woven o .expression (evalArgs o args) := by
  match args with
  | [] => rw [evalArgs]; infer_instance
  | (name, e) :: rest =>
    have he := eval_woven o e
    have hrest := evalArgs_woven o rest
    rw [evalArgs]
    infer_instance
end

attribute [instance] eval_woven evalArgs_woven

/-! ## Single statements -/

instance (name : String) (args : List Syntax.Arg) (asStatement : Bool) (line : Nat) :
    Woven o .expression (callNamed o name args asStatement line) := by
  unfold callNamed
  infer_instance

instance (c : Syntax.CommandForm) (line : Nat) : Woven o .expression (sendForm o c line) := by
  unfold sendForm requestArgs
  exact .reading _ (fun s => inferInstance) fun _ _ => rfl

instance (e : Option Expr) (raw : String) : Woven o .expression (commandText o e raw) := by
  unfold commandText
  split <;> infer_instance

instance (source : Syntax.Source) (line : Nat) : Woven o .expression (sourceValue o source line) := by
  unfold sourceValue
  split <;> infer_instance

instance (action : Syntax.AddressAction) (line : Nat) : Woven o .expression (addressTo o action line) := by
  unfold addressTo
  extract_lets switch act
  have hswitch (domain mode rule : Option String) : Simple (switch domain mode rule) := .readdress domain mode rule
  have hact : Woven o .expression act := by
    unfold act
    clear_value switch
    split
    · infer_instance
    · dsimp only
      split <;> infer_instance
    · infer_instance
  refine woven_inContext o hact fun c => ?_
  split <;> rfl

instance (action : Syntax.SignalAction) (line : Nat) : Woven o .loop (signalWith action line) := by
  have hjump (label : String) (line : Option Nat) : Woven o .loop (throw (.jump label line) : Play Unit) :=
    .departing _ trivial
  unfold signalWith
  split <;> infer_instance

instance (expr : Option Expr) (command : Option Syntax.CommandForm) (error : Option Condition) (p : Syntax.Place) :
    Woven o .expression (execClause o expr command error p) := by
  unfold execClause
  refine .andThen fun m => .andThen fun isDefault => ?_
  split
  · split
    · infer_instance
    · dsimp only
      split <;> infer_instance
  · extract_lets raw
    have hraw : Woven o .expression raw := by
      unfold raw
      infer_instance
    clear_value raw
    split <;> infer_instance

/-! ## Loops -/

section

variable (body : Play Unit) [hbody : Woven o .statement body]

instance : Woven o .loop (round body) := .round body hbody

omit hbody in
theorem rounds_woven (step : Play Bool) [Woven o .loop step] (n : Nat) : Woven o .loop (rounds step n) := by
  induction n with
  | zero => rw [rounds]; infer_instance
  | succ n ih => rw [rounds]; infer_instance

instance times_woven (n : Nat) : Woven o .loop (times body n) := by
  induction n with
  | zero => rw [times]; infer_instance
  | succ n ih => rw [times]; infer_instance

instance eachItem_woven (r : String × List Tree) (vs : List Value) : Woven o .loop (eachItem r body vs) := by
  induction vs with
  | nil => rw [eachItem]; infer_instance
  | cons v rest ih => rw [eachItem]; infer_instance

instance rangeFrom_woven (r : String × List Tree) (stop : Option Number) (step : Number) (n : Nat)
    (current : Number) : Woven o .loop (rangeFrom r stop step body n current) := by
  induction n generalizing current with
  | zero => unfold rangeFrom; infer_instance
  | succ n ih =>
    unfold rangeFrom
    extract_lets within
    clear_value within
    refine .andThen fun _ => ?_
    split
    · refine .andThen fun on => ?_
      split <;> infer_instance
    · infer_instance

instance (var : Syntax.Ref) (collection : Expr) (line : Nat) :
    Woven o .loop (loopOver o var collection line body) := by
  unfold loopOver
  refine .andThen fun v => ?_
  split <;> infer_instance

instance (var : Syntax.Ref) (start : Expr) (stop step : Option Expr) (line : Nat) :
    Woven o .loop (loopRange o var start stop step line body) := by
  unfold loopRange
  refine .andThen fun tail => .andThen fun s => .andThen fun first => ?_
  extract_lets withStop
  have hstop (limit : Option Number) : Woven o .loop (withStop limit) := by
    unfold withStop
    extract_lets withStep
    have hstep (width : Number) : Woven o .loop (withStep width) := by
      unfold withStep
      infer_instance
    clear_value withStep
    split <;> infer_instance
  clear_value withStop
  split <;> infer_instance

instance (head : Syntax.LoopHead) (line : Nat) : Woven o .loop (runLoop o head line body) := by
  unfold runLoop
  split
  case h_2 => exact rounds_woven o _ _
  case h_4 => exact rounds_woven o _ _
  case h_5 => exact rounds_woven o _ _
  all_goals infer_instance

instance (p : Syntax.Place) (sendable : Bool) : Woven o .statement (atPlace p sendable body) := by
  unfold atPlace
  infer_instance

end

instance (x : Play Unit) [hx : Woven o .loop x] : Woven o .loop (inLoop x) := .inLoop x hx

/-! ## Statements -/

theorem arg_woven (names : List String) :
    Woven o .expression (do bindArguments names (((← session).args.head?).getD [])) :=
  .reading _ (fun _ => inferInstance) fun _ _ => rfl

/-- The place of a statement in its source. -/
def placeOf : Statement → Syntax.Place
  | .assign _ _ _ p | .say _ p | .cond _ _ _ p | .loop _ _ p | .leave p | .iterate p | .call _ _ p | .address _ p
  | .block _ p | .signal _ p | .ret _ _ p | .label _ p | .arg _ p | .require _ p | .interpolation _ p
  | .clause _ _ _ p | .nop p => p

mutual
/-- Every statement first takes notice of where it is. -/
theorem exec_begins (o : Outer) (s : Statement) :
    ∃ sendable body, exec o s = atPlace (placeOf s) sendable body ∧ Woven o .statement body := by
  match s with
  | .assign target source _ p => exact ⟨_, _, by rw [exec]; rfl, inferInstance⟩
  | .say e p => exact ⟨_, _, by rw [exec]; rfl, inferInstance⟩
  | .cond condition thenBody elseBody p =>
    have hthen := execAll_woven o thenBody
    have helse := execAll_woven o elseBody
    exact ⟨_, _, by rw [exec]; rfl, inferInstance⟩
  | .loop head body p =>
    have hbody := execAll_woven o body
    exact ⟨_, _, by rw [exec]; rfl, inferInstance⟩
  | .leave p => exact ⟨_, _, by rw [exec]; rfl, inferInstance⟩
  | .iterate p => exact ⟨_, _, by rw [exec]; rfl, inferInstance⟩
  | .call name args p => exact ⟨_, _, by rw [exec]; rfl, inferInstance⟩
  | .address action p => exact ⟨_, _, by rw [exec]; rfl, inferInstance⟩
  | .block literal p => exact ⟨_, _, by rw [exec]; rfl, inferInstance⟩
  | .signal action p => exact ⟨_, _, by rw [exec]; rfl, inferInstance⟩
  | .ret value exit p =>
    have hdepart (v : Value) : Woven o .loop (throw (if exit then .exit v else .ret v) : Play Unit) :=
      .departing _ (by split <;> trivial)
    cases value <;> exact ⟨_, _, by rw [exec]; rfl, inferInstance⟩
  | .label _ p => exact ⟨_, _, by rw [exec]; rfl, inferInstance⟩
  | .arg names p =>
    have hbody := arg_woven o names
    exact ⟨_, _, by rw [exec]; rfl, inferInstance⟩
  | .require identifier p => exact ⟨_, _, by rw [exec]; rfl, inferInstance⟩
  | .interpolation action p => exact ⟨_, _, by rw [exec]; rfl, inferInstance⟩
  | .clause expr command error p => exact ⟨_, _, by rw [exec]; rfl, inferInstance⟩
  | .nop p => exact ⟨_, _, by rw [exec]; rfl, inferInstance⟩

theorem execAll_woven (o : Outer) (body : List Statement) : Woven o .statement (execAll o body) := by
  match body with
  | [] => rw [execAll]; infer_instance
  | s :: rest =>
    obtain ⟨sendable, body, hs, hbody⟩ := exec_begins o s
    have hrest := execAll_woven o rest
    rw [execAll, hs]
    infer_instance
end

theorem exec_woven (s : Statement) : Woven o .statement (exec o s) := by
  obtain ⟨sendable, body, hs, hbody⟩ := exec_begins o s
  rw [hs]
  infer_instance

attribute [instance] exec_woven execAll_woven

/-! ## Where a statement begins -/

def counted (m : Machine) : Machine := { m with session := { m.session with statements := m.session.statements + 1 } }

def reached (p : Syntax.Place) (m : Machine) : Machine := { m with session := { m.session with line := some p.line } }

def underway (p : Syntax.Place) (m : Machine) : Machine :=
  { m with session := { m.session with statements := m.session.statements + 1, line := some p.line } }

/-- A statement was not begun. -/
def withholding (m : Machine) : Machine :=
  { m with session := { m.session with withheld := m.session.withheld + 1 } }

/-- A state in which a statement begins at once: the run is neither paused nor cancelled, and no turn is due. -/
structure Poised (m : Machine) : Prop where
  unpaused : (m.session.isMain && m.world.paused) = false
  live : (m.session.isMain && m.world.cancelled) = false
  undue : (counted m).session.isDue = false

instance (m : Machine) : Decidable (Poised m) :=
  decidable_of_iff ((m.session.isMain && m.world.paused) = false ∧ (m.session.isMain && m.world.cancelled) = false ∧
    (counted m).session.isDue = false) ⟨fun ⟨h, h', h''⟩ => ⟨h, h', h''⟩, fun h => ⟨h.1, h.2, h.3⟩⟩

def Lapse (R : Machine → Machine → Prop) (due : Bool) (m m' : Machine) : Prop := if due then R m m' else m' = m

theorem isPaused_apply (m : Machine) : isPaused m = .done (m.session.isMain && m.world.paused) m := rfl

theorem isDue_apply (m : Machine) : isDue m = .done m.session.isDue m := rfl

theorem yieldIf_apply {c : Play Bool} {b : Bool} {m : Machine} (h : c m = .done b m) :
    yieldIf c m = if b then Run.await .turn m else .done ⟨⟩ m := by
  simp only [yieldIf, Run.bind_apply, h, Step.bind]
  cases b <;> rfl

theorem withhold_apply (p : Syntax.Place) (m : Machine) :
    withhold p m = if m.session.isMain && m.world.cancelled then
      .fail (.problem (.condition { cause := .cancelled, line := some p.line })) (withholding m) else .done ⟨⟩ m := by
  change (if (m.session.isMain && m.world.cancelled) = true then (do
    modifySession fun s => { s with withheld := s.withheld + 1 }
    causeAt .cancelled (some p.line)) else pure PUnit.unit : Play Unit) m = _
  split <;> rfl

theorem checkpoint_apply (p : Syntax.Place) (m : Machine) :
    checkpoint p m = (yieldIf isPaused m).bind fun _ m₁ =>
      if m₁.session.isMain && m₁.world.cancelled then
        .fail (.problem (.condition { cause := .cancelled, line := some p.line })) (withholding m₁)
      else (yieldIf isDue (counted m₁)).bind fun _ m₂ => .done ⟨⟩ (reached p m₂) := by
  simp only [checkpoint, Run.bind_apply]
  congr 1
  funext _ m₁
  rw [Run.bind_apply, withhold_apply]
  split <;> rfl

theorem checkpoint_underway (p : Syntax.Place) {m : Machine} (h : Poised m) : checkpoint p m = .done ⟨⟩ (underway p m) := by
  rw [checkpoint_apply, yieldIf_apply (isPaused_apply m), h.unpaused]
  simp only [Bool.false_eq_true, if_false, Step.bind, h.live]
  rw [yieldIf_apply (isDue_apply (counted m)), h.undue]
  rfl

theorem checkpoint_withholding (p : Syntax.Place) {m : Machine} (hpaused : (m.session.isMain && m.world.paused) = false)
    (h : (m.session.isMain && m.world.cancelled) = true) :
    checkpoint p m = .fail (.problem (.condition { cause := .cancelled, line := some p.line })) (withholding m) := by
  rw [checkpoint_apply, yieldIf_apply (isPaused_apply m), hpaused]
  simp only [Bool.false_eq_true, if_false, Step.bind, h, if_true]

theorem exec_withholding (s : Statement) {m : Machine} (hpaused : (m.session.isMain && m.world.paused) = false)
    (h : (m.session.isMain && m.world.cancelled) = true) :
    exec o s m = .fail (.problem (.condition { cause := .cancelled, line := some (placeOf s).line })) (withholding m) := by
  obtain ⟨sendable, body, hs, -⟩ := exec_begins o s
  simp only [hs, atPlace, Run.bind_apply, checkpoint_withholding _ hpaused h, Step.bind]

theorem yieldIf_bind_comes {R : Machine → Machine → Prop} {c : Play Bool} {b : Bool} {m : Machine}
    {k : Unit → Machine → Step Machine Signal Unit} {ending : Step.Ending Machine Signal Unit} (hc : c m = .done b m) :
    ((yieldIf c m).bind k).Comes R ending ↔ ∃ m', Lapse R b m m' ∧ (k ⟨⟩ m').Comes R ending := by
  rw [yieldIf_apply hc]
  cases b with
  | false => simp [Lapse, Step.bind]
  | true =>
    simp only [if_true, Run.await_apply, Step.bind, Lapse]
    refine ⟨fun h => ?_, fun ⟨m', hR, h⟩ => .wait hR h⟩
    cases h with
    | wait hR h => exact ⟨_, hR, h⟩

/-- What becomes of a statement where it begins: it is withheld, or it goes on where the turns of the others have
left it. -/
theorem checkpoint_comes {R : Machine → Machine → Prop} {p : Syntax.Place} {m : Machine}
    {ending : Step.Ending Machine Signal Unit} :
    (checkpoint p m).Comes R ending ↔ ∃ m₁, Lapse R (m.session.isMain && m.world.paused) m m₁ ∧
      if m₁.session.isMain && m₁.world.cancelled then
        ending = .fail (.problem (.condition { cause := .cancelled, line := some p.line })) (withholding m₁)
      else ∃ m₂, Lapse R (counted m₁).session.isDue (counted m₁) m₂ ∧ ending = .done ⟨⟩ (reached p m₂) := by
  rw [checkpoint_apply, yieldIf_bind_comes (isPaused_apply m)]
  refine exists_congr fun m₁ => and_congr_right fun _ => ?_
  split
  · exact ⟨fun h => by cases h; rfl, fun h => h ▸ .fail _ _⟩
  · rw [yieldIf_bind_comes (isDue_apply (counted m₁))]
    exact exists_congr fun m₂ => and_congr_right fun _ => ⟨fun h => by cases h; rfl, fun h => h ▸ .done _ _⟩

def proceed (p : Syntax.Place) (sendable : Bool) (body : Play Unit) : Play Unit := do
  if sendable then
    if ← sendMatched p then return ()
  body

theorem atPlace_eq (p : Syntax.Place) (sendable : Bool) (body : Play Unit) :
    atPlace p sendable body = checkpoint p >>= fun _ => proceed p sendable body := rfl

theorem proceed_unsent {p : Syntax.Place} {m : Machine} (hmatch : m.session.dispatcher.match? p.text = none)
    (sendable : Bool) (body : Play Unit) : proceed p sendable body m = body m := by
  have hsend : sendMatched p m = .done false m := by
    simp only [sendMatched, Run.bind_apply, session_apply, Step.bind, hmatch]
    rfl
  cases sendable with
  | false => rfl
  | true =>
    simp only [proceed, if_true, Run.bind_apply, hsend, Step.bind, Bool.false_eq_true, if_false]

/-! ## Calls and loads -/

theorem labelIndex_apply (label : String) (line : Option Nat) (m : Machine) :
    labelIndex label line m = match m.session.labels.lookup (Text.upper label) with
      | some i => .done i m
      | none => .fail (.problem (.condition { cause := .labelNotFound label, line := line })) m := by
  simp only [labelIndex, Run.bind_apply, session_apply, Step.bind]
  cases m.session.labels.lookup (Text.upper label) <;> rfl

def copied (a : Arguments) : Play (List Value) := do
  memory (Memory.seed a.named)
  a.placed.mapM fun v => memory (Memory.copy v)

instance (a : Arguments) : Simple (copied a) := by unfold copied; infer_instance

/-- A session that a routine is entered in. -/
def entered (args : List Value) (s : Session) : Session :=
  { s with args := args :: s.args, callDepth := s.callDepth + 1, loopDepth := 0 }

theorem enterRoutine_eq (a : Arguments) : enterRoutine a = (do modifySession (entered (← copied a))) := by
  simp only [copied, bind_assoc]
  rfl

theorem callLabel_apply (o : Outer) {name : String} (a : Arguments) {m : Machine} {i : Nat}
    (hname : m.session.labels.lookup (Text.upper name) = some i) (hdepth : m.session.callDepth < callLimit) :
    callLabel o name a m =
      ((do enterRoutine a; leftRoutine o (m.session.program.toList.drop (i + 1)) m.session) m).leave
        fun m' => { m' with session := { m'.session with scope := m.session.scope } } := by
  simp only [callLabel, Run.bind_apply, session_apply, Step.bind, labelIndex_apply, hname, ge_iff_le,
    Nat.not_le.mpr hdepth, if_false]
  rfl

/-- A call is refused where it stands, or the program has the label and calls are not nested too deep. -/
theorem callLabel_cases (o : Outer) (name : String) (a : Arguments) (m : Machine) :
    (∃ cause, (cause = .labelNotFound name ∨ cause = .callDepth name) ∧
      callLabel o name a m = .fail (.problem (.condition { cause, line := m.session.line })) m) ∨
    ∃ i, m.session.labels.lookup (Text.upper name) = some i ∧ m.session.callDepth < callLimit := by
  cases hname : m.session.labels.lookup (Text.upper name) with
  | none =>
    refine .inl ⟨.labelNotFound name, .inl rfl, ?_⟩
    simp only [callLabel, Run.bind_apply, session_apply, Step.bind, labelIndex_apply, hname]
  | some i =>
    by_cases hdepth : m.session.callDepth < callLimit
    · exact .inr ⟨i, rfl, hdepth⟩
    · refine .inl ⟨.callDepth name, .inr rfl, ?_⟩
      simp only [callLabel, Run.bind_apply, session_apply, Step.bind, labelIndex_apply, hname, ge_iff_le,
        Nat.not_lt.mp hdepth, if_true]
      rfl

def installed (p : Program) (s : Session) : Session :=
  { s with
    program := p.toArray
    labels := p.labels
    resolver := { s.resolver with
      internal := p.labels.map fun e => (Text.upper e.1, Entry.open_ e.1 .internal (.label e.1) "script") } }

@[simp] theorem loadProgram_apply (p : Program) (m : Machine) :
    loadProgram p m = .done ⟨⟩ { m with session := installed p m.session } := rfl

instance (name : String) (a : Arguments) : Woven o .expression (callLabel o name a) := .calling name a (execAll_woven o)

instance (index : Nat) (label : String) (a : Arguments) : Woven o .errand (callModule o index label a) := by
  unfold callModule
  refine .andThen fun w => ?_
  split
  · infer_instance
  · next m _ =>
    have hcall : Woven o .errand (within (moduleSession m.sourceDir m.required .script)
        (do loadProgram m.program; untilExit (callLabel o (Text.upper label) a))) :=
      .within _ _ rfl (.call _ _ _) (execAll_woven o)
    infer_instance

instance (location : Module.Location) : Woven o .errand (readSource location) := by
  have hnote : Woven o .errand (onLoader fun loader => { loader with fetched := loader.fetched ++ [location.text] }) :=
    .onWorld _ fun _ => id
  unfold readSource
  split
  · refine .andThen fun w => ?_
    split
    · refine .andThen fun _ => .andThen fun _ => ?_
      split <;> infer_instance
    · infer_instance
  · refine .andThen fun w => ?_
    extract_lets files
    clear_value files
    split <;> infer_instance

instance requireAll_woven (location : String) (base : Option String) (stack : Module.Stack) (deps : List String) :
    Woven o .errand (requireAll o location base stack deps) := by
  induction deps with
  | nil => rw [requireAll]; infer_instance
  | cons dep rest ih => rw [requireAll]; infer_instance

instance (m : HostModule) (identifier location : String) (base : Option String) (stack : Module.Stack) :
    Woven o .errand (loadHost o m identifier location base stack) := by
  have hcount : Woven o .errand (onLoader fun l => l.count location) := .onWorld _ fun _ => id
  have hset (deps : List String) : Woven o .errand (onLoader fun l => l.setDependencies location deps) :=
    .onWorld _ fun _ => id
  unfold loadHost
  extract_lets start
  have hstart (u : Unit) : Woven o .errand (start u) := by
    unfold start
    infer_instance
  clear_value start
  split <;> infer_instance

instance (source identifier : String) (location : Module.Location) (stack : Module.Stack) :
    Woven o .errand (loadScript o source identifier location stack) := by
  have hbegin : Woven o .errand
      (onLoader fun loader => (loader.setDependencies location.text []).count location.text) := .onWorld _ fun _ => id
  have hrun (dir : String) (program : Program) : Woven o .errand
      (within (moduleSession dir [] (.module location.text stack)) (runProgram o program [] true false)) :=
    .within _ _ rfl (.program _ _ _ _) (execAll_woven o)
  have hadd (sm : ScriptModule) : Woven o .errand (modifyWorld fun w => { w with modules := w.modules.push sm }) :=
    .onWorld _ fun _ => id
  unfold loadScript
  infer_instance

instance (identifier : String) (location : Module.Location) (base : Option String) (stack : Module.Stack) :
    Woven o .errand (loadFresh o identifier location base stack) := by
  unfold loadFresh
  split
  · infer_instance
  · infer_instance
  · refine .andThen fun source => ?_
    split <;> infer_instance

instance (x : Play (Table String Entry)) [hx : Woven o .errand x] : Woven o .errand (outcome x) := by
  refine .settling _ _ inferInstance ⟨fun p => inferInstance, fun e he => ?_⟩
  cases e with
  | problem p => exact absurd rfl (he p)
  | _ => rfl

instance (ended : Except Problem (Table String Entry)) (result : Module.Outcome) : Plain (release ended result) := by
  unfold release
  split <;> infer_instance

instance (identifier : String) (base : Option String) (stack : Module.Stack) :
    Woven o .errand (load o identifier base stack) := by
  have hset (loader : Module.Loader) : Woven o .errand (modifyWorld fun w => { w with loader := loader }) :=
    .onWorld _ fun _ => id
  have hsettle (location : String) (ticket : Nat) (result : Module.Outcome) :
      Woven o .errand (onLoader fun loader => loader.settle location ticket result) := .onWorld _ fun _ => id
  unfold load
  refine .andThen fun location => .andThen fun w => ?_
  split
  · infer_instance
  · infer_instance
  · refine .andThen fun _ => .andThen fun w => ?_
    split <;> infer_instance
  · infer_instance

end Play

end Conductor
