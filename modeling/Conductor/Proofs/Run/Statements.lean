import Conductor.Proofs.Run.Control

/-!
# What leaves expressions and statements

Expressions end with a value, a problem, the end of the program or a jump: a routine
that they call stops its own returns, and a routine of a script module stops the end of
its program too. Statements may also return, and leave the loop that they stand in; a
loop stops what is meant for it. The proofs follow the recursion of the evaluator.
-/

set_option autoImplicit false

namespace Conductor.Play

open Syntax (Expr Statement partsOf)

variable {lone free : Prop}

instance (priority := low) {α : Type} {ss : List Statement} (x : Play α)
    [hx : Obeys lone (Suits lone free) (.expression free) x] : Obeys lone (Apt lone free ss) (.statement free) x :=
  hx.weaken (fun _ h => h.suits) fun _ e h => by cases e <;> simp_all [Limits.allow, Limits.expression, Limits.statement]

instance (priority := low) {α : Type} {ss : List Statement} (x : Play α)
    [hx : Obeys lone (Suits lone free) (.expression free) x] : Obeys lone (Apt lone free ss) (.loop_ free) x :=
  hx.weaken (fun _ h => h.suits) fun _ e h => by cases e <;> simp_all [Limits.allow, Limits.expression, Limits.loop_]

instance {S : Machine → Prop} {L : Limits} {α : Type} [Lasting lone S] (x : Play α) (f : Condition → Condition)
    [hx : Obeys lone S L x] : Obeys lone S L (inContext x f) := by
  refine hx.recover (fun _ => rfl) fun e m _ he => ?_
  match e with
  | .problem (.condition c) =>
    have hraise : Quiet (do raise (← placed f c) : Play α) := inferInstance
    exact .of_calm (hraise.calm m)
  | .problem (.failure _) | .leave | .iterate | .ret _ | .exit _ | .jump _ _ | .exhausted =>
    exact .throw (.refl m) he

/-! ## Turns and requests -/

section

variable {S : Machine → Prop} {L : Limits} [Lasting lone S]

instance (c : Play Bool) [Quiet c] : Obeys lone S L (yieldIf c) := by
  unfold yieldIf
  infer_instance

instance (p : Syntax.Place) : Obeys lone S L (checkpoint p) := by
  have hbegun : Quiet (modifySession fun s => { s with statements := s.statements + 1 }) :=
    .onSession _ (fun _ => ⟨rfl, rfl, rfl, rfl⟩) fun _ => rfl
  have hreached : Quiet (modifySession fun s => { s with line := some p.line }) :=
    .onSession _ (fun _ => ⟨rfl, rfl, rfl, rfl⟩) fun _ => rfl
  unfold checkpoint
  infer_instance

instance (method : String) (payload : Value) (mode : Option String) (line : Option Nat) (delimiter domain : Option String) :
    Obeys lone S L (dispatch method payload mode line delimiter domain) :=
  Obeys.awaited (invoke method payload mode line delimiter domain)

instance (send : Play Value) [Obeys lone S L send] : Obeys lone S L (request send) := by
  unfold request
  infer_instance

instance (b : Syntax.BlockLiteral) : Obeys lone S L (sendBlock b) := by unfold sendBlock; infer_instance

instance (command : String) (line : Nat) (domain : Option String) : Obeys lone S L (sendCommand command line domain) := by
  unfold sendCommand
  infer_instance

instance (p : Syntax.Place) : Obeys lone S L (sendMatched p) := by
  unfold sendMatched
  refine .andThen fun s => ?_
  split <;> infer_instance

end

section

variable (o : Outer) [ho : Tame lone o]

/-! ## Requirements -/

instance {stack : Module.Stack} (location dep : String) (base : Option String) :
    Obeys lone (Covering lone stack) .load (requireDependency o location dep base stack) := by
  have hload := ho.load dep base stack
  have hedge (target : String) : Obeys lone (Covering lone stack) .load
      (onLoader fun l => l.addEdge location target) :=
    .onLoader _ fun l a t => by
      obtain ⟨edges, hl⟩ := Module.addEdge_eq l location target
      rw [hl]
      rfl
  unfold requireDependency
  infer_instance

instance (identifier : String) : Obeys lone (Requiring lone) .load (requireHere o identifier) := by
  refine ⟨fun m hm => ?_⟩
  simp only [requireHere, Run.bind_apply, session_apply, Step.bind]
  unfold Requiring at hm
  cases hp : m.session.purpose with
  | script =>
    rw [hp] at hm
    exact (ho.load identifier _ []).ends m hm
  | module location stack =>
    rw [hp] at hm
    have hnote : Obeys lone (Covering lone stack) .load (onLoader fun l => l.addDependency location identifier) :=
      .onLoader _ fun l => (Module.alike_addDependency l location identifier).loading
    have hstep : Obeys lone (Covering lone stack) .load (do
        onLoader fun l => l.addDependency location identifier
        requireDependency o location identifier m.session.sourceDir stack) := inferInstance
    exact hstep.ends m hm

instance (identifier : String) (line : Option Nat) :
    Obeys lone (Requiring lone) .load (requireModule o identifier line) := by
  have hadd (entries : List Entry) : Quiet (modifySession fun s =>
      { s with resolver := { s.resolver with required := s.resolver.required.addAll entries } }) :=
    .onSession _ (fun _ => ⟨rfl, rfl, rfl, rfl⟩) fun _ => rfl
  unfold requireModule
  infer_instance

/-! ## Calls -/

theorem allow_of_load {L : Limits} (m : Machine) (e : Signal) (h : Limits.load.allow m e) : L.allow m e := by
  cases e <;> simp_all [Limits.allow, Limits.load]

instance (name : String) (line : Option Nat) :
    Obeys lone (Suits lone free) (.expression free) (resolve o name line) := by
  unfold resolve
  extract_lets unknown
  have hunknown (e : Option Entry) : Quiet (unknown e) := by
    unfold unknown
    split <;> infer_instance
  refine .andThen fun found => ?_
  split
  · infer_instance
  · refine ⟨fun m hm => ?_⟩
    simp only [Run.bind_apply, session_apply, Step.bind]
    cases hauto : m.session.resolver.autoload.get? (Text.upper name) with
    | none => exact .of_calm ((hunknown _).calm m)
    | some identifier =>
      have hne : m.session.resolver.autoload ≠ [] := by
        rintro hnil
        simp [hnil, Table.get?] at hauto
      have hrequire := (inferInstance : Obeys lone (Requiring lone) .load (requireModule o identifier none))
      refine ((hrequire.ends m (hm.autoload hne)).mono (fun _ => id) fun m e _ => allow_of_load m e).bind
        (fun _ => id) fun _ m' h => .after h (.of_calm (@Quiet.calm _ _ ?_ m'))
      refine .andThen fun found => ?_
      split <;> infer_instance

instance (e : Entry) (a : Arguments) : Obeys lone (Suits lone free) (.expression free) (perform o e a) := by
  have hlabel (name : String) := ho.label free name a
  have hmodule (index : Nat) (label : String) :
      Obeys lone (Suits lone free) (.expression free) (o.moduleLabel index label a) :=
    (ho.moduleLabel index label a).weaken (fun _ _ => trivial) fun m s hs => by
      cases s <;> simp_all [Limits.allow, Limits.moduleCall, Limits.expression, Limits.freely]
  unfold perform
  extract_lets finish
  have hfinish (v : Value) : Quiet (finish v) := by unfold finish; infer_instance
  clear_value finish
  split
  case h_5 => infer_instance
  case h_6 =>
    refine .andThen fun s => ?_
    split <;> infer_instance
  all_goals infer_instance

instance (e : Entry) (supplied : List Supplied) (piped : Option Value) (asStatement : Bool) (line : Option Nat) :
    Obeys lone (Suits lone free) (.expression free) (apply o e supplied piped asStatement line) := by
  unfold apply
  extract_lets place call
  have hcall (a : Arguments) : Obeys lone (Suits lone free) (.expression free) (call a) := by
    have hpush : Quiet (modifySession fun s => { s with calls := ⟨e.name, a.all⟩ :: s.calls }) :=
      .onSession _ (fun _ => ⟨rfl, rfl, rfl, rfl⟩) fun _ => rfl
    have hpop : Quiet (modifySession fun s => { s with calls := s.calls.tail }) :=
      .onSession _ (fun _ => ⟨rfl, rfl, rfl, rfl⟩) fun _ => rfl
    unfold call
    refine .andThen fun _ => @Obeys.andThen _ _ _ _ _ _ _ _ ?_ fun v => inferInstance
    refine Obeys.recover (L := .expression free) inferInstance (fun _ => rfl) fun signal m _ hs => ?_
    match signal with
    | .problem (.condition c) =>
      have hraise : Quiet (do raise (← placed place c) : Play Value) := inferInstance
      exact .of_calm (hraise.calm m)
    | .problem (.failure f) =>
      have hraise : Quiet (if f.interrupts then failure f
        else raise { cause := .functionFailed e.name f, line := line, function := some e.name } : Play Value) :=
        inferInstance
      exact .of_calm (hraise.calm m)
    | .leave | .iterate | .ret _ | .exit _ | .jump _ _ | .exhausted => exact .throw (.refl m) hs
  clear_value call
  split <;> infer_instance

end

/-! ## Expressions -/

mutual
theorem eval_obeys (o : Outer) [Tame lone o] (e : Expr) : Obeys lone (Suits lone free) (.expression free) (eval o e) := by
  match e with
  | .literal (.number n) _ => rw [eval]; infer_instance
  | .literal (.text s interpolated) _ => rw [eval]; infer_instance
  | .ref r => rw [eval]; infer_instance
  | .unary op operand pos =>
    have hoperand := eval_obeys o operand
    rw [eval]
    infer_instance
  | .binary op left right pos =>
    have hleft := eval_obeys o left
    have hright := eval_obeys o right
    by_cases hand : op = .and
    · subst hand
      rw [eval]
      infer_instance
    by_cases hor : op = .or
    · subst hor
      rw [eval]
      infer_instance
    · rw [eval]
      · infer_instance
      · exact hand
      · exact hor
  | .call name args pos =>
    have hargs := evalArgs_obeys o args
    rw [eval]
    infer_instance
  | .pipe left name args callPos pos =>
    have hleft := eval_obeys o left
    have hargs := evalArgs_obeys o args
    rw [eval]
    infer_instance

theorem evalArgs_obeys (o : Outer) [Tame lone o] (args : List (Option String × Expr)) :
    Obeys lone (Suits lone free) (.expression free) (evalArgs o args) := by
  match args with
  | [] => rw [evalArgs]; infer_instance
  | (name, e) :: rest =>
    have he := eval_obeys o e
    have hrest := evalArgs_obeys o rest
    rw [evalArgs]
    infer_instance
end

attribute [instance] eval_obeys evalArgs_obeys

section

variable (o : Outer) [ho : Tame lone o]

instance (name : String) (args : List Syntax.Arg) (asStatement : Bool) (line : Nat) :
    Obeys lone (Suits lone free) (.expression free) (callNamed o name args asStatement line) := by
  unfold callNamed
  infer_instance

/-! ## Requests -/

instance (args : List Syntax.Arg) : Obeys lone (Suits lone free) (.expression free) (requestArgs o args) := by
  unfold requestArgs
  infer_instance

instance (c : Syntax.CommandForm) (line : Nat) :
    Obeys lone (Suits lone free) (.expression free) (sendForm o c line) := by
  unfold sendForm
  infer_instance

instance (e : Option Expr) (raw : String) :
    Obeys lone (Suits lone free) (.expression free) (commandText o e raw) := by
  unfold commandText
  split <;> infer_instance

instance (source : Syntax.Source) (line : Nat) :
    Obeys lone (Suits lone free) (.expression free) (sourceValue o source line) := by
  unfold sourceValue
  split <;> infer_instance

instance (action : Syntax.AddressAction) (line : Nat) :
    Obeys lone (Suits lone free) (.expression free) (addressTo o action line) := by
  unfold addressTo
  extract_lets switch act
  have hswitch (domain mode rule : Option String) : Quiet (switch domain mode rule) := by
    have h (d : Address.Dispatcher) : Quiet (modifySession fun s => { s with dispatcher := d }) :=
      .onSession _ (fun _ => ⟨rfl, rfl, rfl, rfl⟩) fun _ => rfl
    unfold switch
    infer_instance
  have hact : Obeys lone (Suits lone free) (.expression free) act := by
    unfold act
    clear_value switch
    split
    · infer_instance
    · dsimp only
      split <;> infer_instance
    · infer_instance
  clear_value act
  infer_instance

instance (expr : Option Expr) (command : Option Syntax.CommandForm) (error : Option Condition) (p : Syntax.Place) :
    Obeys lone (Suits lone free) (.expression free) (execClause o expr command error p) := by
  unfold execClause
  refine .andThen fun m => .andThen fun isDefault => ?_
  split
  · split
    · infer_instance
    · dsimp only
      split <;> infer_instance
  · extract_lets raw
    have hraw : Obeys lone (Suits lone free) (.expression free) raw := by
      unfold raw
      infer_instance
    clear_value raw
    split <;> infer_instance

/-! ## Loops -/

section

variable {ss : List Statement} (body : Play Unit) [hbody : Obeys lone (Apt lone free ss) (.statement free) body]

instance : Obeys lone (Apt lone free ss) (.loop_ free) (round body) := by
  have hrun : Obeys lone (Apt lone free ss) (.statement free) (do body; return true) := inferInstance
  refine hrun.recover (fun _ => rfl) fun signal m _ hs => ?_
  match signal with
  | .leave | .iterate => exact .of_calm (Still.refl m)
  | .problem _ | .ret _ | .exit _ | .jump _ _ | .exhausted => exact .throw (.refl m) hs

omit hbody in
theorem rounds_obeys {L : Limits} (step : Play Bool) [Obeys lone (Apt lone free ss) L step] (n : Nat) :
    Obeys lone (Apt lone free ss) L (rounds step n) := by
  induction n with
  | zero => exact .exhausted
  | succ n ih => rw [rounds]; infer_instance

instance times_obeys (n : Nat) : Obeys lone (Apt lone free ss) (.loop_ free) (times body n) := by
  induction n with
  | zero => rw [times]; infer_instance
  | succ n ih => rw [times]; infer_instance

instance eachItem_obeys (r : String × List Tree) (vs : List Value) :
    Obeys lone (Apt lone free ss) (.loop_ free) (eachItem r body vs) := by
  induction vs with
  | nil => rw [eachItem]; infer_instance
  | cons v rest ih => rw [eachItem]; infer_instance

instance rangeFrom_obeys (r : String × List Tree) (stop : Option Number) (step : Number) (n : Nat) (current : Number) :
    Obeys lone (Apt lone free ss) (.loop_ free) (rangeFrom r stop step body n current) := by
  induction n generalizing current with
  | zero => exact .exhausted
  | succ n ih =>
    unfold rangeFrom
    extract_lets within
    clear_value within
    have hnext : Obeys lone (Apt lone free ss) (.loop_ free) (do
        let reached ← number (← memory (Memory.read r.1 r.2))
        rangeFrom r stop step body n (← liftE (reached.add step))) := inferInstance
    infer_instance

instance (var : Syntax.Ref) (collection : Expr) (line : Nat) :
    Obeys lone (Apt lone free ss) (.loop_ free) (loopOver o var collection line body) := by
  unfold loopOver
  refine .andThen fun v => ?_
  split <;> infer_instance

instance (var : Syntax.Ref) (start : Expr) (stop step : Option Expr) (line : Nat) :
    Obeys lone (Apt lone free ss) (.loop_ free) (loopRange o var start stop step line body) := by
  unfold loopRange
  refine .andThen fun tail => .andThen fun s => .andThen fun first => ?_
  extract_lets withStop
  have hstop (limit : Option Number) : Obeys lone (Apt lone free ss) (.loop_ free) (withStop limit) := by
    unfold withStop
    extract_lets withStep
    have hstep (width : Number) : Obeys lone (Apt lone free ss) (.loop_ free) (withStep width) := by
      unfold withStep
      infer_instance
    clear_value withStep
    split <;> infer_instance
  clear_value withStop
  split <;> infer_instance

instance (head : Syntax.LoopHead) (line : Nat) :
    Obeys lone (Apt lone free ss) (.loop_ free) (runLoop o head line body) := by
  unfold runLoop
  split
  case h_2 => exact rounds_obeys _ _
  case h_4 condition =>
    exact rounds_obeys _ _
  case h_5 condition =>
    exact rounds_obeys _ _
  all_goals infer_instance

end

end

instance {ss : List Statement} (x : Play Unit) [hx : Obeys lone (Apt lone free ss) (.loop_ free) x] :
    Obeys lone (Apt lone free ss) (.statement free) (inLoop x) := by
  refine ⟨fun m hm => ?_⟩
  let m' : Machine := { m with session := { m.session with loopDepth := m.session.loopDepth + 1 } }
  have hcontrol : SameControl m.session m'.session := ⟨rfl, rfl, rfl, rfl⟩
  have hm' : Apt lone free ss m' := hm.mono hcontrol (.refl m.world)
  refine (hx.ends m' hm').leave (fun m'' h => ?_) fun m'' e h he => ?_
  · refine ⟨⟨h.control.program, h.control.labels, h.control.purpose, h.control.autoload⟩, ?_, h.world⟩
    have hdepth : m''.session.loopDepth = m.session.loopDepth + 1 := h.depth
    simp [hdepth]
  · cases e <;> simp_all [Limits.allow, Limits.loop_, Limits.statement]

theorem loopSignal_obeys {ss : List Statement} (signal : Signal) (hsignal : signal = .leave ∨ signal = .iterate)
    (action : String) (line : Nat) :
    Obeys lone (Apt lone free ss) (.statement free) (loopSignal signal action line) := by
  refine ⟨fun m hm => ?_⟩
  simp only [loopSignal, Run.bind_apply, session_apply, Step.bind]
  split
  · exact .of_calm (Quiet.calm m)
  · next hdepth =>
    have hpos : 0 < m.session.loopDepth := Nat.pos_of_ne_zero (by simpa using hdepth)
    refine .throw (.refl m) ?_
    rcases hsignal with rfl | rfl <;> exact ⟨trivial, hpos⟩

/-! ## Statements -/

instance {S : Machine → Prop} {L : Limits} [Lasting lone S] (p : Syntax.Place) (sendable : Bool) (body : Play Unit)
    [Obeys lone S L body] : Obeys lone S L (atPlace p sendable body) := by
  unfold atPlace
  infer_instance

theorem signalWith_obeys {ss : List Statement} (action : Syntax.SignalAction) (p : Syntax.Place)
    (hmem : Statement.signal action p ∈ ss) :
    Obeys lone (Apt lone free ss) (.statement free) (signalWith action p.line) := by
  unfold signalWith
  have hset (traps : Table Syntax.Trap String → Table Syntax.Trap String) :
      Quiet (modifySession fun s => { s with traps := traps s.traps }) :=
    .onSession _ (fun _ => ⟨rfl, rfl, rfl, rfl⟩) fun _ => rfl
  split
  · next trap label =>
    have h := hset (·.put trap label)
    infer_instance
  · next trap => exact @Obeys.instOfQuiet _ _ _ _ _ (hset (·.erase trap))
  · next label =>
    have hthrow : Obeys lone (Apt lone free ss) (.statement free) (throw (.jump label (some p.line)) : Play Unit) :=
      ⟨fun m hm => .throw (.refl m) (hm.allows.jump label p hmem)⟩
    infer_instance

mutual
theorem exec_obeys {ss : List Statement} (o : Outer) [Tame lone o] (s : Statement) (hs : s.parts ⊆ ss) :
    Obeys lone (Apt lone free ss) (.statement free) (exec o s) := by
  match s with
  | .assign target source _ p => rw [exec]; infer_instance
  | .say e p => rw [exec]; infer_instance
  | .cond condition thenBody elseBody p =>
    rw [Statement.parts] at hs
    have hbodies := List.append_subset.mp (List.cons_subset.mp hs).2
    have hthen := execAll_obeys o thenBody hbodies.1
    have helse := execAll_obeys o elseBody hbodies.2
    rw [exec]
    infer_instance
  | .loop head body p =>
    rw [Statement.parts] at hs
    have hbody := execAll_obeys o body (List.cons_subset.mp hs).2
    rw [exec]
    infer_instance
  | .leave p =>
    have hsignal : Obeys lone (Apt lone free ss) (.statement free) (loopSignal .leave "LEAVE" p.line) :=
      loopSignal_obeys .leave (.inl rfl) "LEAVE" p.line
    rw [exec]
    infer_instance
  | .iterate p =>
    have hsignal : Obeys lone (Apt lone free ss) (.statement free) (loopSignal .iterate "ITERATE" p.line) :=
      loopSignal_obeys .iterate (.inr rfl) "ITERATE" p.line
    rw [exec]
    infer_instance
  | .call name args p => rw [exec]; infer_instance
  | .address action p => rw [exec]; infer_instance
  | .block literal p => rw [exec]; infer_instance
  | .signal action p =>
    have hsignal : Obeys lone (Apt lone free ss) (.statement free) (signalWith action p.line) :=
      signalWith_obeys action p (hs (by simp [Statement.parts]))
    rw [exec]
    infer_instance
  | .ret value exit p =>
    have hthrow (v : Value) :
        Obeys lone (Apt lone free ss) (.statement free) (throw (if exit then .exit v else .ret v) : Play Unit) :=
      ⟨fun m _ => .throw (.refl m) (by cases exit <;> exact trivial)⟩
    rw [exec]
    cases value <;> infer_instance
  | .label _ p => rw [exec]; infer_instance
  | .arg names p => rw [exec]; infer_instance
  | .require identifier p =>
    have hmem : Statement.require identifier p ∈ ss := hs (by simp [Statement.parts])
    have hrequire (name : String) :
        Obeys lone (Apt lone free ss) (.statement free) (requireModule o name (some p.line)) :=
      (inferInstance : Obeys lone (Requiring lone) .load _).weaken
        (fun _ h => h.allows.require identifier p hmem) allow_of_load
    rw [exec]
    infer_instance
  | .interpolation action p => rw [exec]; infer_instance
  | .clause expr command error p => rw [exec]; infer_instance
  | .nop p => rw [exec]; infer_instance

theorem execAll_obeys {ss : List Statement} (o : Outer) [Tame lone o] (body : List Statement) (hs : partsOf body ⊆ ss) :
    Obeys lone (Apt lone free ss) (.statement free) (execAll o body) := by
  match body with
  | [] => rw [execAll]; infer_instance
  | s :: rest =>
    rw [partsOf] at hs
    have hhead := exec_obeys o s (List.append_subset.mp hs).1
    have hrest := execAll_obeys o rest (List.append_subset.mp hs).2
    rw [execAll]
    infer_instance
end

end Conductor.Play
