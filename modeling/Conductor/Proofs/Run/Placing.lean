import Conductor.Proofs.Run.Blame

/-!
# The line that a statement gives to its conditions

By the cases of the language: whatever a statement raises by itself it places on its own line,
and what it calls, loads, asks and contains is blamed for the rest. The exceptions are few. The
head of a loop and the target of an assignment may be refused by a value, which knows no line;
and a statement that is sent as a request may find no handler, or an answer that is none.
-/

set_option autoImplicit false

namespace Conductor

open Syntax (Expr Statement)

/-! ## What a statement leaves without a line -/

def Syntax.LoopHead.Counts : Syntax.LoopHead → Prop
  | .count _ | .range .. => True
  | .over var _ => var.tail ≠ []
  | .block | .forever | .while _ | .until _ => False

/-- The causes of the conditions that a statement leaves without a line: those of a request, where its text may be sent,
and those over a value that is to be a number. -/
def Syntax.Statement.Strays : Statement → Cause → Prop
  | .assign target _ _ _, cause => cause.Undelivered ∨ target.tail ≠ [] ∧ cause.Miscounted
  | .loop head _ _, cause => cause.Undelivered ∨ head.Counts ∧ cause.Miscounted
  | .address _ _, _ | .label _ _, _ => False
  | _, cause => cause.Undelivered

def Syntax.Statement.Bodies : Statement → List Statement → Prop
  | .cond _ thenBody elseBody _, b => b = thenBody ∨ b = elseBody
  | .loop _ body _, b => b = body
  | _, _ => False

def Syntax.Statement.site (s : Statement) (o : Outer) : Site where
  outer := o
  line := s.place.line
  strays := s.Strays
  bodies := s.Bodies

@[reducible] def Site.addressing (S : Site) : Site where
  outer := S.outer
  line := S.line
  strays cause := cause.kind = .addressHandler
  bodies _ := False

instance (S : Site) : S.addressing.Sends := ⟨fun _ h => h.kind⟩

theorem Blamed.addressed {G : World → World → Prop} {S : Site} {α : Type} {x : Play α} {m : Machine} {c c' : Condition}
    (h : Blamed G S.addressing x m c) (hplaced : c.kind = .addressHandler → c' = c.atLine (some S.line))
    (hother : c.kind ≠ .addressHandler → c' = c) : Blamed G S x m c' := by
  have hstays {l : Nat} (hl : c.line = some l) : c' = c := by
    by_cases hkind : c.kind = .addressHandler
    · exact (hplaced hkind).trans (Condition.atLine_of_placed hl _)
    · exact hother hkind
  cases h with
  | own hl =>
    rw [hstays hl]
    exact .own hl
  | reading hkind =>
    rw [hother (by simp [hkind])]
    exact .reading hkind
  | stray hstray =>
    rw [hplaced hstray.2]
    exact .own (Condition.withContext_line hstray.1 _ _ _)
  | call hr hf hl hc =>
    rw [hstays (hc.line _ hl)]
    exact .call hr hf hl hc
  | load hr hf =>
    rcases c.placed_or_unplaced with ⟨l, hl⟩ | hnone
    · rw [hstays hl]
      exact .load hr hf
    · by_cases hkind : c.kind = .addressHandler
      · rw [hplaced hkind]
        exact .own (Condition.withContext_line hnone _ _ _)
      · rw [hother hkind]
        exact .load hr hf
  | handler hr hf hl hc =>
    rw [hstays (hc.line _ hl)]
    exact .handler hr hf hl hc
  | body hb => exact hb.elim

namespace Play

variable {G : World → World → Prop} {S : Site} {α β : Type}

/-! ## Requests -/

/-- A dispatcher refuses a request or an address without a line. -/
theorem handlerFor_raises (d : Address.Dispatcher) (domain : String) :
    Raises (fun c => c.Unplaced ∧ c.cause.Undelivered) (d.handlerFor domain) := by
  unfold Address.Dispatcher.handlerFor
  split
  · infer_instance
  · exact .error ⟨rfl, trivial⟩

theorem switch_raises (d : Address.Dispatcher) (domain mode rule : Option String) :
    Raises (fun c => c.Unplaced ∧ c.kind = .addressHandler) (d.switch domain mode rule) := by
  have hhandler (name : String) : Raises (fun c => c.Unplaced ∧ c.kind = .addressHandler) (d.handlerFor name) :=
    (handlerFor_raises d name).mono fun c h => ⟨h.1, h.2.kind⟩
  have hcompile (rule domain : String) :
      Raises (fun c => c.Unplaced ∧ c.kind = .addressHandler) (Address.Info.compile rule domain) := by
    unfold Address.Info.compile
    split
    · infer_instance
    · exact .error ⟨rfl, rfl⟩
  unfold Address.Dispatcher.switch
  extract_lets native word
  split
  · infer_instance
  · split
    · infer_instance
    · refine .andThen fun found => ?_
      split
      extract_lets rule
      clear_value rule
      split
      · exact .error ⟨rfl, rfl⟩
      · split
        · exact .error ⟨rfl, rfl⟩
        · exact .error ⟨rfl, rfl⟩
        · infer_instance
      · infer_instance

instance (error : Tree) : Accounts G S (refused error) := by unfold refused; infer_instance

instance (number : Nat) (method : String) (payload : Value) (r : Address.Request) (limit : Option Number) :
    Accounts G S (askHandler number method payload r limit) := by
  have hmethods (m : Address.Methods) : Accounts G S (callMethods m method payload r limit) := by
    unfold callMethods
    split
    · infer_instance
    · split
      · infer_instance
      · next p _ =>
        by_cases hp : p.interrupts = true
        · rw [if_pos hp]
          infer_instance
        · rw [if_neg hp]
          split <;> infer_instance
      all_goals infer_instance
  have hnext (replies : List Address.Reply) : Accounts G S (nextReply number replies) := by
    unfold nextReply
    infer_instance
  unfold askHandler record
  refine .andThen fun w => ?_
  split
  · infer_instance
  · split
    · infer_instance
    · refine .andThen fun _ => ?_
      split <;> infer_instance

theorem asked_accounts {number : Nat} {method : String} {payload : Value} {r : Address.Request} {limit : Option Number}
    {k : Answer → Play α} (hk : ∀ a, (∀ c, a ≠ .raised (.condition c)) → Accounts G S (k a))
    (hraised : ∀ c m c', Refuses G (k (.raised (.condition c))) m c' →
      c'.line = some S.line ∨ ∃ l, c.line = some l ∧ c'.Follows c) :
    Accounts G S (askHandler number method payload r limit >>= k) := by
  have hask : Accounts G S (askHandler number method payload r limit) := inferInstance
  refine ⟨fun m c ⟨m', h⟩ => ?_⟩
  rcases Step.Comes.of_bind h with ⟨a, m₁, hdone, hrest⟩ | ⟨e, m₁, hfail, heq⟩
  · by_cases ha : ∃ c, a = .raised (.condition c)
    · obtain ⟨c₁, rfl⟩ := ha
      rcases hraised c₁ m₁ c ⟨m', hrest⟩ with hline | ⟨l, hl, hc⟩
      · exact .own hline
      · exact .handler (.first .here) hdone hl hc
    · exact ((hk a fun c hc => ha ⟨c, hc⟩).blamed m₁ c ⟨m', hrest⟩).lift (.next hdone .here)
  · cases heq
    exact (hask.blamed m c ⟨m', hfail⟩).lift (.first .here)

section

variable [hsends : S.Sends]

instance (domain : String) (r : Address.Reply) : Accounts G S (coerce domain r) := by
  have hmalformed (v : Value) : Accounts G S (coerce.malformed domain v) := by
    unfold coerce.malformed
    refine .andThen fun t => .andThen fun shown => ⟨fun m c ⟨m', h⟩ => ?_⟩
    cases h
    exact .stray ⟨rfl, hsends.strays _ trivial⟩
  unfold coerce
  split
  · infer_instance
  · split <;> infer_instance
  · infer_instance

instance (error : Tree) : Accounts G S (errorMessage? error) := by
  unfold errorMessage?
  dsimp only
  split <;> infer_instance

instance (method : String) (payload : Value) (mode : Option String) (delimiter domain : Option String) :
    Accounts G S (invoke method payload mode (some S.line) delimiter domain) := by
  have hhandler (d : Address.Dispatcher) (domain : String) : Raises S.Lets (d.handlerFor domain) :=
    (handlerFor_raises d domain).mono fun c h => ⟨h.1, hsends.strays _ h.2⟩
  unfold invoke
  refine .andThen fun s => .andThen fun found => ?_
  extract_lets mode place
  have hwrapped (p : Problem) : Accounts G S (invoke.wrapped p place) := by
    unfold invoke.wrapped
    exact .andThen fun message => raise_accounts rfl
  split
  extract_lets late
  have hlate : Accounts G S late := .andThen fun seconds => raise_accounts rfl
  refine asked_accounts (fun a ha => ?_) fun c m c' h => ?_
  · split
    · exact hlate
    · exact absurd rfl (ha _)
    · next p _ =>
      have hpass : Accounts G S (liftP (.error p) : Play Value) :=
        .throw fun c hc => ha c (congrArg Answer.raised (Signal.problem.inj hc))
      infer_instance
    · refine .andThen fun parts => ?_
      split
      split
      · infer_instance
      · refine .andThen fun error => .andThen fun message => ?_
        split
        · exact raise_accounts rfl
        · exact raise_accounts rfl
  · obtain ⟨m', h⟩ := h
    dsimp only at h
    split at h
    · cases h
      rcases c.placed_or_unplaced with ⟨l, hl⟩ | hnone
      · exact .inr ⟨l, hl, c.withContext_follows _ _ _⟩
      · exact .inl (Condition.withContext_line hnone _ _ _)
    · rw [invoke.wrapped, Run.bind_apply] at h
      cases hshown : (Problem.condition c).shown with
      | error f =>
        rw [hshown] at h
        cases h
      | ok message =>
        rw [hshown] at h
        cases h
        exact .inl rfl

instance (method : String) (payload : Value) (mode : Option String) (delimiter domain : Option String) :
    Accounts G S (dispatch method payload mode (some S.line) delimiter domain) :=
  inferInstanceAs (Accounts G S (invoke method payload mode (some S.line) delimiter domain).awaited)

end

/-! ## Expressions -/

instance (s : String) : Accounts G S (interpolate s) := by unfold interpolate; infer_instance

instance (s : String) : Accounts G S (segment s) := by unfold segment; infer_instance

instance (r : Syntax.Ref) : Accounts G S (tailOf r) := by unfold tailOf; infer_instance

instance (r : Syntax.Ref) : Accounts G S (readRef r) := by unfold readRef; infer_instance

theorem tailOf_simple {r : Syntax.Ref} (h : r.tail = []) : tailOf r = pure [] := by
  rw [tailOf, h]
  rfl

theorem writeRef_accounts {r : Syntax.Ref} (hr : r.tail = [] ∨ S.Counts) (v : Value) : Accounts G S (writeRef r v) := by
  unfold writeRef
  rcases hr with hr | hr
  · rw [tailOf_simple hr, pure_bind]
    infer_instance
  · infer_instance

instance (b : Syntax.BlockLiteral) : Accounts G S (blockValue b) := by
  unfold blockValue
  refine .andThen fun s => ?_
  split
  · infer_instance
  · refine .passing (fun c => rfl) fun e he => ?_
    split
    · split
      · infer_instance
      · exact .throw he
    · exact .throw he

instance (op : Syntax.BinaryOp) (a b : Value) : Accounts G S (binary op S.line a b) := by
  unfold binary
  refine .andThen fun x => .andThen fun y => ?_
  have hoperator : Raises Condition.Unplaced (Operator.binary op x y) := inferInstance
  split
  · infer_instance
  · next c hc => exact raise_accounts (Condition.withContext_line (hoperator.holds _ hc c rfl) _ _ _)
  · split
    · infer_instance
    · exact .throw (by simp)

instance (op : Syntax.UnaryOp) (a : Value) : Accounts G S (unary op S.line a) := by
  unfold unary
  split
  · infer_instance
  · refine .andThen fun x => ?_
    have hoperator : Raises Condition.Unplaced (Operator.unary op x) := inferInstance
    split
    · infer_instance
    · next c hc => exact raise_accounts (Condition.withContext_line (hoperator.holds _ hc c rfl) _ _ _)
    · exact .throw (by simp)

mutual
theorem eval_accounts (S : Site) (e : Expr) (h : e.On S.line) : Accounts G S (eval S.outer e) := by
  match e with
  | .literal (.number n) _ => rw [eval]; infer_instance
  | .literal (.text s interpolated) _ => rw [eval]; infer_instance
  | .ref r => rw [eval]; infer_instance
  | .unary op operand pos =>
    rw [Expr.On] at h
    have hoperand := eval_accounts S operand h.2
    rw [eval, h.1]
    infer_instance
  | .binary op left right pos =>
    rw [Expr.On] at h
    have hleft := eval_accounts S left h.2.1
    have hright := eval_accounts S right h.2.2
    by_cases hand : op = .and
    · subst hand
      rw [eval]
      infer_instance
    by_cases hor : op = .or
    · subst hor
      rw [eval]
      infer_instance
    · rw [eval, h.1]
      · infer_instance
      · exact hand
      · exact hor
  | .call name args pos =>
    rw [Expr.On] at h
    have hargs := evalArgs_accounts S args h.2
    rw [eval, h.1]
    infer_instance
  | .pipe left name args callPos pos =>
    rw [Expr.On] at h
    have hleft := eval_accounts S left h.2.1
    have hargs := evalArgs_accounts S args h.2.2
    rw [eval, h.1]
    infer_instance

theorem evalArgs_accounts (S : Site) (args : List (Option String × Expr)) (h : Syntax.argumentsOn S.line args) :
    Accounts G S (evalArgs S.outer args) := by
  match args with
  | [] => rw [evalArgs]; infer_instance
  | (name, e) :: rest =>
    rw [Syntax.argumentsOn] at h
    have he := eval_accounts S e h.1
    have hrest := evalArgs_accounts S rest h.2
    rw [evalArgs]
    infer_instance
end

/-! ## Single statements -/

theorem callNamed_accounts (name : String) {args : List Syntax.Arg} (h : Syntax.argumentsOn S.line args)
    (asStatement : Bool) : Accounts G S (callNamed S.outer name args asStatement S.line) := by
  have hargs := evalArgs_accounts (G := G) S args h
  unfold callNamed
  infer_instance

instance (label : String) : Accounts G S (labelIndex label (some S.line)) := by
  unfold labelIndex
  refine .andThen fun s => ?_
  split <;> infer_instance

instance : Accounts G S isPaused := by unfold isPaused; infer_instance

instance : Accounts G S isCancelled := by unfold isCancelled; infer_instance

instance : Accounts G S isDue := by unfold isDue; infer_instance

instance (c : Play Bool) [Accounts G S c] : Accounts G S (yieldIf c) := by unfold yieldIf; infer_instance

theorem withhold_accounts {p : Syntax.Place} (hp : p.line = S.line) : Accounts G S (withhold p) := by
  unfold withhold
  rw [hp]
  infer_instance

theorem checkpoint_accounts {p : Syntax.Place} (hp : p.line = S.line) : Accounts G S (checkpoint p) := by
  have hwithhold := withhold_accounts (G := G) hp
  unfold checkpoint
  infer_instance

instance : Accounts G S isDefault := by unfold isDefault; infer_instance

instance : Accounts G S mode := by unfold mode; infer_instance

instance (send : Play Value) [Accounts G S send] : Accounts G S (request send) := by unfold request; infer_instance

instance (r : Syntax.Ref) : Accounts G S (isBareMethod r) := by unfold isBareMethod; infer_instance

theorem commandText_accounts {e : Option Expr} (h : ∀ x ∈ e, x.On S.line) (raw : String) :
    Accounts G S (commandText S.outer e raw) := by
  unfold commandText
  split
  · have he := eval_accounts (G := G) S _ (h _ rfl)
    infer_instance
  · have he := eval_accounts (G := G) S _ (h _ rfl)
    infer_instance
  · infer_instance

section

variable [S.Sends]

theorem sendBlock_accounts {b : Syntax.BlockLiteral} (hb : b.line = S.line) : Accounts G S (sendBlock b) := by
  unfold sendBlock
  rw [hb]
  infer_instance

theorem sendForm_accounts {c : Syntax.CommandForm} (h : Syntax.argumentsOn S.line c.args) :
    Accounts G S (sendForm S.outer c S.line) := by
  have hargs : Accounts G S (requestArgs S.outer c.args) := by
    have hvalues : Accounts G S (c.args.mapM fun a => do
        let v ← eval S.outer a.2
        return (a.1, ← plain v)) := by
      refine .mapM_of_mem fun a ha => ?_
      have harg := eval_accounts (G := G) S a.2 (Syntax.argumentsOn_iff.mp h a ha)
      infer_instance
    unfold requestArgs
    infer_instance
  unfold sendForm
  infer_instance

instance (command : String) (domain : Option String) : Accounts G S (sendCommand command S.line domain) := by
  unfold sendCommand
  infer_instance

theorem sendMatched_accounts {p : Syntax.Place} (hp : p.line = S.line) : Accounts G S (sendMatched p) := by
  unfold sendMatched
  rw [hp]
  refine .andThen fun s => ?_
  split <;> infer_instance

theorem sourceValue_accounts {source : Syntax.Source} (h : source.On S.line) :
    Accounts G S (sourceValue S.outer source S.line) := by
  unfold sourceValue
  split
  · have hblock := sendBlock_accounts (G := G) h
    infer_instance
  · next c =>
    have hcall := callNamed_accounts (G := G) c.method h false
    have hform := sendForm_accounts (G := G) h
    infer_instance
  · next r =>
    have hform : Accounts G S (sendForm S.outer { method := r.name, args := [], pos := r.pos } S.line) :=
      sendForm_accounts trivial
    infer_instance
  · exact eval_accounts S _ h

end

theorem addressTo_accounts {action : Syntax.AddressAction} (h : action.On S.line) :
    Accounts G S (addressTo S.outer action S.line) := by
  unfold addressTo
  extract_lets switch act
  have hswitch (domain mode rule : Option String) : Accounts G S.addressing (switch domain mode rule) := by
    have hraises (d : Address.Dispatcher) : Raises S.addressing.Lets (d.switch domain mode rule) :=
      switch_raises d domain mode rule
    unfold switch
    infer_instance
  have hact : Accounts G S.addressing act := by
    unfold act
    clear_value switch
    split
    · infer_instance
    · dsimp only
      split
      · have he := eval_accounts (G := G) S.addressing _ (h _ rfl)
        infer_instance
      · infer_instance
    · next command =>
      have he := eval_accounts (G := G) S.addressing command h
      infer_instance
  refine ⟨fun m c hc => ?_⟩
  obtain ⟨c₁, hfail, rfl⟩ := refuses_of_inContext hc
  have hfollows (c : Condition) : (if c.kind == .addressHandler then c.atLine (some S.line) else c).Follows c := by
    split
    · exact c.withContext_follows _ _ _
    · exact .refl c
  refine ((hact.blamed m c₁ hfail).addressed (fun hkind => ?_) fun hkind => ?_).lift (.inContext hfollows .here)
  · simp [hkind]
  · simp [hkind]

theorem signalWith_accounts (action : Syntax.SignalAction) : Accounts G S (signalWith action S.line) := by
  unfold signalWith
  split
  · infer_instance
  · infer_instance
  · exact .andThen fun _ => .throw (by simp)

theorem setInterpolation_accounts (action : Syntax.InterpolationAction) :
    Accounts G S (setInterpolation action S.line) := by
  unfold setInterpolation
  refine .andThen fun s => ?_
  extract_lets engine outcome
  clear_value outcome
  split <;> infer_instance

instance bindArguments_accounts (names : List String) (vs : List Value) : Accounts G S (bindArguments names vs) := by
  fun_induction bindArguments names vs <;> infer_instance

theorem execClause_accounts [S.Sends] {expr : Option Expr} {command : Option Syntax.CommandForm}
    {error : Option Condition} {p : Syntax.Place} (hp : p.line = S.line) (hexpr : ∀ e ∈ expr, e.On S.line)
    (hcommand : ∀ c ∈ command, Syntax.argumentsOn S.line c.args) (herror : ∀ c ∈ error, c.kind = .parse) :
    Accounts G S (execClause S.outer expr command error p) := by
  unfold execClause
  rw [hp]
  refine .andThen fun m => .andThen fun isDefault => ?_
  split
  · split
    · next c =>
      refine ⟨fun m c' h => ?_⟩
      obtain ⟨m', h⟩ := h
      cases h
      exact .reading (herror c rfl)
    · dsimp only
      split
      · next c =>
        have hcall := callNamed_accounts (G := G) c.method (hcommand c rfl) true
        infer_instance
      · next name args pos =>
        have hcall := hexpr _ rfl
        rw [Expr.On] at hcall
        have hnamed := callNamed_accounts (G := G) name hcall.2 true
        infer_instance
      · next e _ =>
        have hvalue := eval_accounts (G := G) S e (hexpr e rfl)
        infer_instance
      · infer_instance
  · extract_lets raw
    have hraw : Accounts G S raw := by
      have htext := commandText_accounts (G := G) hexpr p.text
      unfold raw
      infer_instance
    clear_value raw
    split
    · next c _ =>
      have hform := sendForm_accounts (G := G) (hcommand c rfl)
      infer_instance
    · have hnative := eval_accounts (G := G) S _ (hexpr _ rfl)
      infer_instance
    · have hvalue := eval_accounts (G := G) S _ (hexpr _ rfl)
      infer_instance
    · exact hraw

/-! ## Loops -/

section

variable (body : Play Unit) [hbody : Accounts G S body]

instance : Accounts G S (round body) := by
  refine .passing (fun c => rfl) fun e he => ?_
  split
  · infer_instance
  · infer_instance
  · exact .throw he

omit hbody in
theorem rounds_accounts (step : Play Bool) [Accounts G S step] (k : Nat) : Accounts G S (rounds step k) := by
  induction k with
  | zero => exact .throw (by simp)
  | succ k ih => rw [rounds]; infer_instance

instance times_accounts (k : Nat) : Accounts G S (times body k) := by
  induction k with
  | zero => rw [times]; infer_instance
  | succ k ih => rw [times]; infer_instance

theorem eachItem_accounts {r : String × List Tree} (hr : r.2 = [] ∨ S.Counts) (vs : List Value) :
    Accounts G S (eachItem r body vs) := by
  have hwrite (v : Value) : Accounts G S (memory (Memory.write r.1 v r.2)) := by
    rcases hr with hr | hr
    · rw [hr]
      infer_instance
    · infer_instance
  induction vs with
  | nil => rw [eachItem]; infer_instance
  | cons v rest ih => rw [eachItem]; infer_instance

instance rangeFrom_accounts [S.Counts] (r : String × List Tree) (stop : Option Number) (step : Number) (k : Nat)
    (current : Number) : Accounts G S (rangeFrom r stop step body k current) := by
  induction k generalizing current with
  | zero => exact .throw (by simp)
  | succ k ih =>
    unfold rangeFrom
    extract_lets within
    clear_value within
    infer_instance

instance (k : Number) : Accounts G S (countOf k S.line) := by unfold countOf; infer_instance

theorem loopOver_accounts {var : Syntax.Ref} (hvar : var.tail = [] ∨ S.Counts) {collection : Expr}
    (h : collection.On S.line) : Accounts G S (loopOver S.outer var collection S.line body) := by
  have hcollection := eval_accounts (G := G) S collection h
  unfold loopOver
  refine .andThen fun v => ?_
  split
  · refine .andThen fun w => ?_
    extract_lets s items
    clear_value items
    rcases hvar with hvar | hvar
    · have hitems := eachItem_accounts (G := G) (S := S) body (r := (var.name, [])) (.inl rfl) items
      rw [tailOf_simple hvar, pure_bind]
      exact hitems
    · have hitems (tail : List Tree) :=
        eachItem_accounts (G := G) (S := S) body (r := (var.name, tail)) (.inr hvar) items
      infer_instance
  · infer_instance

theorem loopRange_accounts [S.Counts] (var : Syntax.Ref) {start : Expr} {stop step : Option Expr}
    (hstart : start.On S.line) (hstop : ∀ e ∈ stop, e.On S.line) (hstep : ∀ e ∈ step, e.On S.line) :
    Accounts G S (loopRange S.outer var start stop step S.line body) := by
  have hfirst := eval_accounts (G := G) S start hstart
  unfold loopRange
  refine .andThen fun tail => .andThen fun s => .andThen fun first => ?_
  extract_lets withStop
  have hlimit (limit : Option Number) : Accounts G S (withStop limit) := by
    unfold withStop
    extract_lets withStep
    have hwidth (width : Number) : Accounts G S (withStep width) := by
      unfold withStep
      infer_instance
    clear_value withStep
    split
    · have hnumber := eval_accounts (G := G) S _ (hstep _ rfl)
      infer_instance
    · infer_instance
  clear_value withStop
  split
  · have hnumber := eval_accounts (G := G) S _ (hstop _ rfl)
    infer_instance
  · infer_instance

end

theorem loopSignal_accounts {signal : Signal} (h : ∀ c, signal ≠ .problem (.condition c)) (action : String) :
    Accounts G S (loopSignal signal action S.line) := by
  have hsignal : Accounts G S (throw signal : Play Unit) := .throw h
  unfold loopSignal
  infer_instance

/-! ## Statements -/

theorem atPlace_accounts [S.Sends] {p : Syntax.Place} (hp : p.line = S.line) {sendable : Bool} {body : Play Unit}
    (hbody : Accounts G S body) : Accounts G S (atPlace p sendable body) := by
  have hcheckpoint := checkpoint_accounts (G := G) hp
  have hmatched := sendMatched_accounts (G := G) hp
  unfold atPlace
  infer_instance

theorem atPlace_kept_accounts {p : Syntax.Place} (hp : p.line = S.line) {body : Play Unit}
    (hbody : Accounts G S body) : Accounts G S (atPlace p false body) := by
  have hcheckpoint := checkpoint_accounts (G := G) hp
  exact inferInstanceAs (Accounts G S (checkpoint p >>= fun _ => body))

theorem body_accounts {b : List Statement} (hb : S.bodies b) : Accounts G S (execAll S.outer b) :=
  ⟨fun _ _ h => .body hb .here h⟩

theorem runLoop_accounts {head : Syntax.LoopHead} (h : head.On S.line) (hcounts : head.Counts → S.Counts)
    (body : Play Unit) [Accounts G S body] : Accounts G S (runLoop S.outer head S.line body) := by
  unfold runLoop
  split
  · infer_instance
  · exact rounds_accounts _ _
  · next e =>
    have hcounts : S.Counts := hcounts trivial
    have he := eval_accounts (G := G) S e h
    infer_instance
  · next condition =>
    have he := eval_accounts (G := G) S condition h
    exact rounds_accounts _ _
  · next condition =>
    have he := eval_accounts (G := G) S condition h
    exact rounds_accounts _ _
  · have hcounts : S.Counts := hcounts trivial
    exact loopRange_accounts body _ h.1 h.2.1 h.2.2
  · exact loopOver_accounts body (or_iff_not_imp_left.mpr hcounts) h

/-- The conditions that a statement ends with are its own, or come from what it called, loaded, asked or contains. -/
theorem exec_accounts (S : Site) {s : Statement} (hs : s.Placed) (hline : s.place.line = S.line)
    (hstrays : ∀ cause, s.Strays cause → S.strays cause) (hbodies : ∀ b, s.Bodies b → S.bodies b) :
    Accounts G S (exec S.outer s) := by
  cases s with
  | assign target source text p =>
    have hsends : S.Sends := ⟨fun cause h => hstrays cause (.inl h)⟩
    have hplaced : source.On S.line := hline ▸ hs
    have hsource := sourceValue_accounts (G := G) hplaced
    have htarget := writeRef_accounts (G := G) (S := S) (r := target)
      (or_iff_not_imp_left.mpr fun ht => ⟨fun cause h => hstrays cause (.inr ⟨ht, h⟩)⟩)
    rw [exec, show p.line = S.line from hline]
    exact atPlace_accounts hline inferInstance
  | say e p =>
    have hsends : S.Sends := ⟨hstrays⟩
    have he := eval_accounts (G := G) S e (hline ▸ hs)
    rw [exec]
    exact atPlace_accounts hline inferInstance
  | cond condition thenBody elseBody p =>
    have hsends : S.Sends := ⟨hstrays⟩
    have hcondition := eval_accounts (G := G) S condition (hline ▸ hs.1)
    have hthen := body_accounts (G := G) (hbodies thenBody (.inl rfl))
    have helse := body_accounts (G := G) (hbodies elseBody (.inr rfl))
    rw [exec]
    exact atPlace_accounts hline inferInstance
  | loop head body p =>
    have hsends : S.Sends := ⟨fun cause h => hstrays cause (.inl h)⟩
    have hbody := body_accounts (G := G) (hbodies body rfl)
    have hhead : head.On S.line := hline ▸ hs.1
    have hloop := runLoop_accounts (G := G) hhead
      (fun hcounts => ⟨fun cause h => hstrays cause (.inr ⟨hcounts, h⟩)⟩) (execAll S.outer body)
    rw [exec, show p.line = S.line from hline]
    refine atPlace_accounts hline ?_
    unfold inLoop
    infer_instance
  | leave p =>
    have hsends : S.Sends := ⟨hstrays⟩
    have hleave : ∀ c, Signal.leave ≠ .problem (.condition c) := by simp
    rw [exec, show p.line = S.line from hline]
    exact atPlace_accounts hline (loopSignal_accounts hleave _)
  | iterate p =>
    have hsends : S.Sends := ⟨hstrays⟩
    have hiterate : ∀ c, Signal.iterate ≠ .problem (.condition c) := by simp
    rw [exec, show p.line = S.line from hline]
    exact atPlace_accounts hline (loopSignal_accounts hiterate _)
  | call name args p =>
    have hsends : S.Sends := ⟨hstrays⟩
    have hargs : Syntax.argumentsOn S.line args := hline ▸ hs
    have hcall := callNamed_accounts (G := G) name hargs true
    rw [exec, show p.line = S.line from hline]
    exact atPlace_accounts hline inferInstance
  | address action p =>
    rw [exec, show p.line = S.line from hline]
    exact atPlace_kept_accounts hline (addressTo_accounts (hline ▸ hs))
  | block literal p =>
    have hsends : S.Sends := ⟨hstrays⟩
    have hblock := sendBlock_accounts (G := G) (S := S) (b := literal) (hs.trans hline)
    rw [exec]
    exact atPlace_accounts hline inferInstance
  | signal action p =>
    have hsends : S.Sends := ⟨hstrays⟩
    rw [exec, show p.line = S.line from hline]
    exact atPlace_accounts hline (signalWith_accounts action)
  | ret value exit p =>
    have hsends : S.Sends := ⟨hstrays⟩
    have hret (v : Value) : Accounts G S (throw (if exit then .exit v else .ret v) : Play Unit) := by
      split <;> exact .throw (by simp)
    rw [exec]
    refine atPlace_accounts hline ?_
    cases value with
    | none => infer_instance
    | some e =>
      have he := eval_accounts (G := G) S e (hline ▸ hs e rfl)
      infer_instance
  | label name p =>
    rw [exec]
    exact atPlace_kept_accounts hline inferInstance
  | arg names p =>
    have hsends : S.Sends := ⟨hstrays⟩
    rw [exec]
    exact atPlace_accounts hline inferInstance
  | require identifier p =>
    have hsends : S.Sends := ⟨hstrays⟩
    have hidentifier := eval_accounts (G := G) S identifier (hline ▸ hs)
    have hrequire (name : String) := requireModule_accounts (G := G) (S := S) name (.inr rfl)
    rw [exec, show p.line = S.line from hline]
    exact atPlace_accounts hline inferInstance
  | interpolation action p =>
    have hsends : S.Sends := ⟨hstrays⟩
    rw [exec, show p.line = S.line from hline]
    exact atPlace_accounts hline (setInterpolation_accounts action)
  | clause expr command error p =>
    have hsends : S.Sends := ⟨hstrays⟩
    rw [exec]
    exact atPlace_accounts hline (execClause_accounts hline (fun e he => hline ▸ hs.1 e he)
      (fun c hc => hline ▸ hs.2.1 c hc) hs.2.2)
  | nop p =>
    have hsends : S.Sends := ⟨hstrays⟩
    rw [exec]
    exact atPlace_accounts hline inferInstance

end Play

end Conductor
