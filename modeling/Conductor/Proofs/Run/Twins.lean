import Conductor.Proofs.Run.Placid
import Conductor.Proofs.Run.Programs

/-!
# One program in two surroundings

A program reaches labels, labels of script modules and modules through its surroundings. The
same text in other surroundings is its twin: what it does by itself is the same, and where one
of the two calls a label or asks for a module, so does the other. What a program does by itself
is put together from placid computations, changes of the session that keep its place, and waits
for a turn; the label of a script module runs in a session of its own.
-/

set_option autoImplicit false

namespace Conductor

/-- Two computations of the same text, each in its surroundings. -/
class inductive Twin (o o' : Outer) : {α : Type} → Play α → Play α → Prop
  | placid {α : Type} (x : Play α) (hq : Quiet x) (hp : Placid x) : Twin o o' x x
  | throw {α : Type} (e : Signal) : Twin o o' (throw e : Play α) (throw e)
  | bind {α β : Type} (x x' : Play α) (k k' : α → Play β) (hx : Twin o o' x x') (hk : ∀ a, Twin o o' (k a) (k' a)) :
      Twin o o' (x >>= k) (x' >>= k')
  | recover {α : Type} (x x' : Play α) (k k' : Signal → Play α) (hx : Twin o o' x x')
      (hk : ∀ e, Twin o o' (k e) (k' e)) : Twin o o' (tryCatch x k) (tryCatch x' k')
  | leaving {α : Type} (x x' : Play α) (f : Session → Session) (hx : Twin o o' x x') (hf : ∀ s, (f s).place = s.place) :
      Twin o o' (x.leaving fun m => { m with session := f m.session })
        (x'.leaving fun m => { m with session := f m.session })
  | onSession (f : Session → Session) (hf : ∀ s, (f s).place = s.place) :
      Twin o o' (Play.modifySession f) (Play.modifySession f)
  | turn : Twin o o' (Run.await .turn : Play Unit) (Run.await .turn : Play Unit)
  | apart {α : Type} (s : Session) (x x' : Play α) (hs : s.purpose = .script) (hx : Twin o o' x x') :
      Twin o o' (Play.within s x) (Play.within s x')
  | label (name : String) (a : Arguments) : Twin o o' (o.label name a) (o'.label name a)
  | moduleLabel (index : Nat) (label : String) (a : Arguments) :
      Twin o o' (o.moduleLabel index label a) (o'.moduleLabel index label a)
  | requireHere (identifier : String) : Twin o o' (Play.requireHere o identifier) (Play.requireHere o' identifier)

instance {o : Outer} : Fact (o.rounds = o.rounds) := ⟨rfl⟩

namespace Twin

variable {o o' : Outer} {α β : Type}

instance (priority := low) (x : Play α) [hq : Quiet x] [hp : Placid x] : Twin o o' x x := .placid x hq hp

attribute [instance] throw turn label moduleLabel requireHere

instance (x x' : Play α) (k k' : α → Play β) [hx : Twin o o' x x'] [hk : ∀ a, Twin o o' (k a) (k' a)] :
    Twin o o' (x >>= k) (x' >>= k') := .bind x x' k k' hx hk

theorem andThen {x x' : Play α} {k k' : α → Play β} [hx : Twin o o' x x'] (hk : ∀ a, Twin o o' (k a) (k' a)) :
    Twin o o' (x >>= k) (x' >>= k') := .bind x x' k k' hx hk

theorem orElse {x x' : Play α} {k k' : Signal → Play α} (hx : Twin o o' x x') (hk : ∀ e, Twin o o' (k e) (k' e)) :
    Twin o o' (tryCatch x k) (tryCatch x' k') := .recover x x' k k' hx hk

instance (f : α → β) (x x' : Play α) [Twin o o' x x'] : Twin o o' (f <$> x) (f <$> x') :=
  inferInstanceAs (Twin o o' (x >>= fun a => pure (f a)) (x' >>= fun a => pure (f a)))

instance (x x' : Play α) [Twin o o' x x'] : Twin o o' (discard x) (discard x') :=
  inferInstanceAs (Twin o o' ((fun _ => PUnit.unit) <$> x) ((fun _ => PUnit.unit) <$> x'))

instance (c : Prop) [Decidable c] (x x' y y' : Play α) [Twin o o' x x'] [Twin o o' y y'] :
    Twin o o' (if c then x else y) (if c then x' else y') := by
  split <;> infer_instance

instance mapM (f f' : α → Play β) [hf : ∀ a, Twin o o' (f a) (f' a)] (l : List α) :
    Twin o o' (l.mapM f) (l.mapM f') := by
  induction l with
  | nil => rw [List.mapM_nil, List.mapM_nil]; infer_instance
  | cons a l ih => rw [List.mapM_cons, List.mapM_cons]; infer_instance

end Twin

namespace Play

open Syntax (Expr Statement Program)

variable {α : Type} (o o' : Outer)

instance (x x' : Play α) (f : Condition → Condition) [hx : Twin o o' x x'] :
    Twin o o' (inContext x f) (inContext x' f) := by
  refine .orElse hx fun e => ?_
  split <;> infer_instance

instance (x x' : Play α) [Twin o o' x x'] : Twin o o' x.awaited x'.awaited := by
  unfold awaited
  infer_instance

instance (method : String) (payload : Value) (mode : Option String) (line : Option Nat) (delimiter domain : Option String) :
    Twin o o' (dispatch method payload mode line delimiter domain) (dispatch method payload mode line delimiter domain) :=
  inferInstanceAs (Twin o o' (invoke method payload mode line delimiter domain).awaited
    (invoke method payload mode line delimiter domain).awaited)

instance (send send' : Play Value) [Twin o o' send send'] : Twin o o' (request send) (request send') := by
  unfold request
  infer_instance

instance (b : Syntax.BlockLiteral) : Twin o o' (sendBlock b) (sendBlock b) := by unfold sendBlock; infer_instance

instance (command : String) (line : Nat) (domain : Option String) :
    Twin o o' (sendCommand command line domain) (sendCommand command line domain) := by
  unfold sendCommand
  infer_instance

instance (p : Syntax.Place) : Twin o o' (sendMatched p) (sendMatched p) := by
  unfold sendMatched
  refine .andThen fun s => ?_
  split <;> infer_instance

/-! ## Requirements and calls -/

instance (identifier : String) (line : Option Nat) :
    Twin o o' (requireModule o identifier line) (requireModule o' identifier line) := by
  have hadd (entries : Table String Entry) : Twin o o' _ _ := .onSession (fun s =>
    { s with resolver := { s.resolver with required := s.resolver.required.addAll entries.values } }) fun _ => rfl
  unfold requireModule
  infer_instance

instance (name : String) (line : Option Nat) : Twin o o' (resolve o name line) (resolve o' name line) := by
  unfold resolve
  extract_lets unknown
  have hunknown (e : Option Entry) : Twin o o' (unknown e) (unknown e) := by
    unfold unknown
    split <;> infer_instance
  refine .andThen fun found => ?_
  split
  · infer_instance
  · refine .andThen fun s => ?_
    split
    · infer_instance
    · refine .andThen fun _ => .andThen fun found => ?_
      split <;> infer_instance

instance (e : Entry) (a : Arguments) : Twin o o' (perform o e a) (perform o' e a) := by
  unfold perform
  extract_lets finish
  have hfinish (v : Value) : Twin o o' (finish v) (finish v) := by unfold finish; infer_instance
  clear_value finish
  split
  case h_6 =>
    refine .andThen fun s => ?_
    split <;> infer_instance
  all_goals infer_instance

instance (e : Entry) (supplied : List Supplied) (piped : Option Value) (asStatement : Bool) (line : Option Nat) :
    Twin o o' (apply o e supplied piped asStatement line) (apply o' e supplied piped asStatement line) := by
  have henter (a : Arguments) : Twin o o' _ _ := .onSession (fun s => { s with calls := ⟨e.name, a.all⟩ :: s.calls })
    fun _ => rfl
  have hleave : Twin o o' _ _ := .onSession (fun s => { s with calls := s.calls.tail }) fun _ => rfl
  unfold apply
  extract_lets place call call'
  have hcall (a : Arguments) : Twin o o' (call a) (call' a) := by
    unfold call call'
    refine .andThen fun _ => .bind _ _ _ _ (.orElse inferInstance fun signal => ?_) fun v => inferInstance
    split <;> infer_instance
  clear_value call call'
  split <;> infer_instance

/-! ## Expressions -/

mutual
theorem eval_twin (e : Expr) : Twin o o' (eval o e) (eval o' e) := by
  match e with
  | .literal (.number n) _ => rw [eval, eval]; infer_instance
  | .literal (.text s interpolated) _ => rw [eval, eval]; infer_instance
  | .ref r => rw [eval, eval]; infer_instance
  | .unary op operand pos =>
    have hoperand := eval_twin operand
    rw [eval, eval]
    infer_instance
  | .binary op left right pos =>
    have hleft := eval_twin left
    have hright := eval_twin right
    by_cases hand : op = .and
    · subst hand
      rw [eval, eval]
      infer_instance
    by_cases hor : op = .or
    · subst hor
      rw [eval, eval]
      infer_instance
    · rw [eval, eval]
      · infer_instance
      all_goals assumption
  | .call name args pos =>
    have hargs := evalArgs_twin args
    rw [eval, eval]
    infer_instance
  | .pipe left name args callPos pos =>
    have hleft := eval_twin left
    have hargs := evalArgs_twin args
    rw [eval, eval]
    infer_instance

theorem evalArgs_twin (args : List (Option String × Expr)) : Twin o o' (evalArgs o args) (evalArgs o' args) := by
  match args with
  | [] => rw [evalArgs, evalArgs]; infer_instance
  | (name, e) :: rest =>
    have he := eval_twin e
    have hrest := evalArgs_twin rest
    rw [evalArgs, evalArgs]
    infer_instance
end

attribute [instance] eval_twin evalArgs_twin

/-! ## Single statements -/

instance (name : String) (args : List Syntax.Arg) (asStatement : Bool) (line : Nat) :
    Twin o o' (callNamed o name args asStatement line) (callNamed o' name args asStatement line) := by
  unfold callNamed
  infer_instance

instance (c : Syntax.CommandForm) (line : Nat) : Twin o o' (sendForm o c line) (sendForm o' c line) := by
  unfold sendForm requestArgs
  infer_instance

instance (e : Option Expr) (raw : String) : Twin o o' (commandText o e raw) (commandText o' e raw) := by
  unfold commandText
  split <;> infer_instance

instance (source : Syntax.Source) (line : Nat) : Twin o o' (sourceValue o source line) (sourceValue o' source line) := by
  unfold sourceValue
  split <;> infer_instance

instance (action : Syntax.AddressAction) (line : Nat) : Twin o o' (addressTo o action line) (addressTo o' action line) := by
  have hset (d : Address.Dispatcher) : Twin o o' _ _ := .onSession (fun s => { s with dispatcher := d }) fun _ => rfl
  unfold addressTo
  extract_lets switch act act'
  have hswitch (domain mode rule : Option String) : Twin o o' (switch domain mode rule) (switch domain mode rule) := by
    unfold switch
    infer_instance
  have hact : Twin o o' act act' := by
    unfold act act'
    clear_value switch
    split
    · infer_instance
    · dsimp only
      split <;> infer_instance
    · infer_instance
  clear_value act act'
  infer_instance

instance (action : Syntax.SignalAction) (line : Nat) : Twin o o' (signalWith action line) (signalWith action line) := by
  have hon (trap : Syntax.Trap) (label : String) : Twin o o' _ _ :=
    .onSession (fun s => { s with traps := s.traps.put trap label }) fun _ => rfl
  have hoff (trap : Syntax.Trap) : Twin o o' _ _ := .onSession (fun s => { s with traps := s.traps.erase trap })
    fun _ => rfl
  unfold signalWith
  split <;> infer_instance

instance (expr : Option Expr) (command : Option Syntax.CommandForm) (error : Option Condition) (p : Syntax.Place) :
    Twin o o' (execClause o expr command error p) (execClause o' expr command error p) := by
  unfold execClause
  refine .andThen fun m => .andThen fun isDefault => ?_
  split
  · split
    · infer_instance
    · dsimp only
      split <;> infer_instance
  · extract_lets raw raw'
    have hraw : Twin o o' raw raw' := by
      unfold raw raw'
      infer_instance
    clear_value raw raw'
    split <;> infer_instance

/-! ## Loops -/

section

variable (body body' : Play Unit) [hbody : Twin o o' body body']

instance : Twin o o' (round body) (round body') := by
  refine .orElse inferInstance fun signal => ?_
  split <;> infer_instance

omit hbody in
instance rounds_twin (step step' : Play Bool) [Twin o o' step step'] (n : Nat) :
    Twin o o' (rounds step n) (rounds step' n) := by
  induction n with
  | zero => rw [rounds, rounds]; infer_instance
  | succ n ih => rw [rounds, rounds]; infer_instance

instance times_twin (n : Nat) : Twin o o' (times body n) (times body' n) := by
  induction n with
  | zero => rw [times, times]; infer_instance
  | succ n ih => rw [times, times]; infer_instance

instance eachItem_twin (r : String × List Tree) (vs : List Value) :
    Twin o o' (eachItem r body vs) (eachItem r body' vs) := by
  induction vs with
  | nil => rw [eachItem, eachItem]; infer_instance
  | cons v rest ih => rw [eachItem, eachItem]; infer_instance

instance rangeFrom_twin (r : String × List Tree) (stop : Option Number) (step : Number) (n : Nat) (current : Number) :
    Twin o o' (rangeFrom r stop step body n current) (rangeFrom r stop step body' n current) := by
  induction n generalizing current with
  | zero => unfold rangeFrom; infer_instance
  | succ n ih =>
    unfold rangeFrom
    extract_lets within
    clear_value within
    refine .andThen fun _ => ?_
    split <;> infer_instance

instance (var : Syntax.Ref) (collection : Expr) (line : Nat) :
    Twin o o' (loopOver o var collection line body) (loopOver o' var collection line body') := by
  unfold loopOver
  refine .andThen fun v => ?_
  split <;> infer_instance

instance : Twin o o' (inLoop body) (inLoop body') := by
  have hdeeper : Twin o o' _ _ := .onSession (fun s => { s with loopDepth := s.loopDepth + 1 }) fun _ => rfl
  have hleaving := Twin.leaving body body' (fun s => { s with loopDepth := s.loopDepth - 1 }) hbody fun _ => rfl
  unfold inLoop
  infer_instance

omit hbody in
instance (c : Play Bool) [Twin o o' c c] : Twin o o' (yieldIf c) (yieldIf c) := by
  unfold yieldIf
  infer_instance

omit hbody in
instance (p : Syntax.Place) : Twin o o' (checkpoint p) (checkpoint p) := by
  have hcount : Twin o o' _ _ := .onSession (fun s => { s with statements := s.statements + 1 }) fun _ => rfl
  have hreach : Twin o o' _ _ := .onSession (fun s => { s with line := some p.line }) fun _ => rfl
  unfold checkpoint
  infer_instance

instance (p : Syntax.Place) (sendable : Bool) : Twin o o' (atPlace p sendable body) (atPlace p sendable body') := by
  unfold atPlace
  infer_instance

end

instance (signal : Signal) (action : String) (line : Nat) :
    Twin o o' (loopSignal signal action line) (loopSignal signal action line) := by
  unfold loopSignal
  infer_instance

instance [hrounds : Fact (o'.rounds = o.rounds)] (body body' : Play Unit) [hbody : Twin o o' body body'] (var : Syntax.Ref)
    (start : Expr) (stop step : Option Expr) (line : Nat) :
    Twin o o' (loopRange o var start stop step line body) (loopRange o' var start stop step line body') := by
  unfold loopRange
  rw [hrounds.out]
  refine .andThen fun tail => .andThen fun s => .andThen fun first => ?_
  extract_lets withStop withStop'
  have hstop (limit : Option Number) : Twin o o' (withStop limit) (withStop' limit) := by
    unfold withStop withStop'
    extract_lets withStep withStep'
    have hstep (width : Number) : Twin o o' (withStep width) (withStep' width) := by
      unfold withStep withStep'
      infer_instance
    clear_value withStep withStep'
    split <;> infer_instance
  clear_value withStop withStop'
  split <;> infer_instance

instance [hrounds : Fact (o'.rounds = o.rounds)] (body body' : Play Unit) [hbody : Twin o o' body body']
    (head : Syntax.LoopHead) (line : Nat) :
    Twin o o' (runLoop o head line body) (runLoop o' head line body') := by
  unfold runLoop
  rw [hrounds.out]
  split <;> infer_instance

/-! ## Statements -/

mutual
theorem exec_twin [hrounds : Fact (o'.rounds = o.rounds)] (s : Statement) :
    Twin o o' (exec o s) (exec o' s) := by
  match s with
  | .assign target source _ p => rw [exec, exec]; infer_instance
  | .say e p => rw [exec, exec]; infer_instance
  | .cond condition thenBody elseBody p =>
    have hthen := execAll_twin thenBody
    have helse := execAll_twin elseBody
    rw [exec, exec]
    infer_instance
  | .loop head body p =>
    have hbody := execAll_twin body
    rw [exec, exec]
    infer_instance
  | .leave p => rw [exec, exec]; infer_instance
  | .iterate p => rw [exec, exec]; infer_instance
  | .call name args p => rw [exec, exec]; infer_instance
  | .address action p => rw [exec, exec]; infer_instance
  | .block literal p => rw [exec, exec]; infer_instance
  | .signal action p => rw [exec, exec]; infer_instance
  | .ret value exit p =>
    rw [exec, exec]
    cases value <;> infer_instance
  | .label _ p => rw [exec, exec]; infer_instance
  | .arg names p => rw [exec, exec]; infer_instance
  | .require identifier p => rw [exec, exec]; infer_instance
  | .interpolation action p => rw [exec, exec]; infer_instance
  | .clause expr command error p => rw [exec, exec]; infer_instance
  | .nop p => rw [exec, exec]; infer_instance

theorem execAll_twin [hrounds : Fact (o'.rounds = o.rounds)] (body : List Statement) :
    Twin o o' (execAll o body) (execAll o' body) := by
  match body with
  | [] => rw [execAll, execAll]; infer_instance
  | s :: rest =>
    have hs := exec_twin s
    have hrest := execAll_twin rest
    rw [execAll, execAll]
    infer_instance
end

attribute [instance] execAll_twin

variable [hrounds : Fact (o'.rounds = o.rounds)]

/-! ## Programs -/

instance (name : String) (a : Arguments) : Twin o o' (callLabel o name a) (callLabel o' name a) := by
  have hroutine (body : List Statement) : Twin o o' (routine o body) (routine o' body) := by
    refine .orElse inferInstance fun signal => ?_
    split <;> infer_instance
  have hleft (s : Session) (body : List Statement) : Twin o o' (leftRoutine o body s) (leftRoutine o' body s) :=
    .leaving _ _ (leaveRoutine s) (hroutine body) fun _ => rfl
  have hpush (args : List Value) : Twin o o' _ _ := .onSession (fun s =>
    { s with args := args :: s.args, callDepth := s.callDepth + 1, loopDepth := 0 }) fun _ => rfl
  have hrun (s : Session) (x x' : Play Value) [Twin o o' x x'] : Twin o o'
      (Run.leaving (do enterRoutine a; x) fun m => { m with session := { m.session with scope := s.scope } })
      (Run.leaving (do enterRoutine a; x') fun m => { m with session := { m.session with scope := s.scope } }) := by
    refine .leaving _ _ (fun s' => { s' with scope := s.scope }) ?_ fun _ => rfl
    unfold enterRoutine
    infer_instance
  unfold callLabel
  infer_instance

instance (c : Condition) (label : String) : Twin o o' (takeTrap c label) (takeTrap c label) := by
  have hcancel : Twin o o' (modifyWorld fun w => { w with cancelled := false })
      (modifyWorld fun w => { w with cancelled := false }) :=
    .placid _ (.onWorld _ (fun _ => rfl) (fun _ => rfl) fun _ => rfl) ⟨fun m => .of_world ⟨_, rfl⟩ rfl rfl⟩
  have hdisarm (trap : Syntax.Trap) : Twin o o' _ _ := .onSession (fun s => { s with traps := s.traps.erase trap })
    fun _ => rfl
  have hhalting (c : Condition) : Twin o o' _ _ := .onSession (fun s => { s with halting := some c }) fun _ => rfl
  have hcalls (depth : Session → Nat) : Twin o o' _ _ :=
    .onSession (fun s => { s with calls := [], loopDepth := depth s }) fun _ => rfl
  unfold takeTrap
  refine .andThen fun s => ?_
  extract_lets line
  refine .andThen fun c => ?_
  extract_lets trap rest halt
  have hrest (u : Unit) : Twin o o' (rest u) (rest u) := by
    unfold rest
    exact .andThen fun _ => .bind _ _ _ _ (hcalls _) fun _ => inferInstance
  have hhalt (u : Unit) : Twin o o' (halt u) (halt u) := by
    unfold halt
    infer_instance
  clear_value rest halt
  infer_instance

instance (body : List Statement) : Twin o o' (stretch o body) (stretch o' body) := by
  have hcalls : Twin o o' _ _ := .onSession (fun s => { s with calls := [] }) fun _ => rfl
  refine .orElse inferInstance fun signal => ?_
  unfold stopOn
  split
  · infer_instance
  · infer_instance
  · refine .andThen fun s => ?_
    split <;> infer_instance
  · infer_instance

instance topLevel_twin (stopAtLabel : Bool) (n index : Nat) :
    Twin o o' (topLevel o stopAtLabel n index) (topLevel o' stopAtLabel n index) := by
  induction n generalizing index with
  | zero => rw [topLevel, topLevel]; infer_instance
  | succ n ih =>
    rw [topLevel, topLevel]
    refine .andThen fun rest => .andThen fun stop => ?_
    split <;> infer_instance

instance (x x' : Play Value) [hx : Twin o o' x x'] : Twin o o' (untilExit x) (untilExit x') := by
  refine .orElse hx fun signal => ?_
  split <;> infer_instance

instance (p : Program) : Twin o o' (loadProgram p) (loadProgram p) := .onSession _ fun _ => rfl

instance (p : Program) (args : List Value) (stopAtLabel cancelFirst : Bool) :
    Twin o o' (runProgram o p args stopAtLabel cancelFirst) (runProgram o' p args stopAtLabel cancelFirst) := by
  have hcancel : Twin o o' (modifyWorld fun w => { w with cancelled := cancelFirst })
      (modifyWorld fun w => { w with cancelled := cancelFirst }) :=
    .placid _ (.onWorld _ (fun _ => rfl) (fun _ => rfl) fun _ => rfl) ⟨fun m => .of_world ⟨_, rfl⟩ rfl rfl⟩
  have hstart : Twin o o' _ _ := .onSession (fun s =>
    { s with traps := [], args := [args], calls := [], loopDepth := 0, callDepth := 0, halting := none }) fun _ => rfl
  have hhalted : Twin o o' raiseHalted raiseHalted := by
    have hnone : Twin o o' _ _ := .onSession (fun s => { s with halting := none }) fun _ => rfl
    unfold raiseHalted
    refine .andThen fun s => ?_
    split <;> infer_instance
  unfold runProgram
  rw [hrounds.out]
  refine .andThen fun _ => .andThen fun _ => .andThen fun s => ?_
  extract_lets run run'
  have hrun (u : Unit) : Twin o o' (run u) (run' u) := by
    unfold run run'
    infer_instance
  clear_value run run'
  infer_instance

instance (index : Nat) (label : String) (a : Arguments) :
    Twin o o' (callModule o index label a) (callModule o' index label a) := by
  unfold callModule
  refine .andThen fun w => ?_
  split
  · infer_instance
  · extract_lets call call'
    have hcall : Twin o o' call call' := by
      unfold call call'
      infer_instance
    exact .bind _ _ _ _ (.apart _ _ _ rfl hcall) fun _ => inferInstance

end Play

end Conductor
