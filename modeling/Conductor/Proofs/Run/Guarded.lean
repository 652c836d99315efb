import Conductor.Proofs.Run.Heed
import Conductor.Proofs.Run.Programs

/-!
# Programs heed a guard

Expressions, statements, routines, programs and loads heed a guard. What they can call
lies outside them and is bounded in depth, so the facts about one depth are proved from
those about the depth below. A routine is the one place where a value that is not clear
may come in: its arguments are copied, so it is enough that they can be.
-/

set_option autoImplicit false

namespace Conductor

/-- What is known of the program around an expression. -/
class Mindful (G : Guard) (o : Outer) : Prop where
  label : ∀ name (a : Arguments), Clear G a → Heeds G (o.label name a)
  moduleLabel : ∀ index label (a : Arguments), Clear G a → Heeds G (o.moduleLabel index label a)
  load : ∀ identifier base stack, Heeds G (o.load identifier base stack)

namespace Play

open Syntax (Expr Statement Program)

variable {G : Guard}

section

variable (o : Outer) [ho : Mindful G o]

/-! ## Requirements -/

instance (location dep : String) (base : Option String) (stack : Module.Stack) :
    Heeds G (requireDependency o location dep base stack) := by
  have hload := ho.load dep base stack
  have hedge (target : String) : Heeds G (onLoader fun l => l.addEdge location target) :=
    heeds_onLoader _ fun l hl => by
      obtain ⟨edges, heq⟩ := Module.addEdge_eq l location target
      exact ⟨heq ▸ hl.out⟩
  unfold requireDependency
  infer_instance

theorem clear_update {l : Module.Loader} (hl : Clear G l) (location : String) {f : Module.Node → Module.Node}
    (hf : ∀ n, Clear G n → Clear G (f n)) : Clear G (l.update location f) := by
  unfold Module.Loader.update
  have hfound : Clear G (l.nodes.get? location) := inferInstance
  split
  · next n hn =>
    rw [hn] at hfound
    have := hf n hfound.of_some
    exact ⟨hl.out.1, hl.out.2.1, inferInstance, hl.out.2.2.2⟩
  · exact hl

instance (identifier : String) : Heeds G (requireHere o identifier) := by
  have hload (base : Option String) (stack : Module.Stack) := ho.load identifier base stack
  have hnote (location : String) : Heeds G (onLoader fun l => l.addDependency location identifier) :=
    heeds_onLoader _ fun l hl => clear_update hl location fun n hn => ⟨hn.out⟩
  unfold requireHere
  refine .andThen fun s _ => ?_
  split <;> infer_instance

instance (identifier : String) (line : Option Nat) : Heeds G (requireModule o identifier line) := by
  have hadd (entries : List Entry) (h : Clear G entries) : Heeds G (modifySession fun s =>
      { s with resolver := { s.resolver with required := s.resolver.required.addAll entries } }) := by
    refine .onSession _ fun s hs => { hs with resolver := ?_ }
    have hr := hs.resolver
    exact ⟨hr.out.1, hr.out.2.1, inferInstance, hr.out.2.2.2⟩
  have hhere := heeds_inContext (inferInstance : Heeds G (requireHere o identifier)) fun c => c.atLine line
  unfold requireModule
  exact .andThen fun entries h => hadd _ inferInstance

/-! ## Calls -/

instance (name : String) (line : Option Nat) : Heeds G (resolve o name line) := by
  unfold resolve
  extract_lets unknown
  have hunknown (e : Option Entry) (he : Clear G e) : Heeds G (unknown e) := by
    unfold unknown
    split
    · have := he.of_some
      infer_instance
    · infer_instance
  have hfound (e : Option Entry) (he : Clear G e) (x : Play Entry) (hx : Heeds G x) :
      Heeds G (match e with
        | some e => pure e
        | none => x) := by
    cases e with
    | none => exact hx
    | some e =>
      have := he.of_some
      exact inferInstanceAs (Heeds G (pure e))
  have hfallback : Heeds G (session >>= fun s => unknown (s.resolver.fallbacks? name)) :=
    .andThen fun s hs => hunknown _ inferInstance
  clear_value unknown
  refine .andThen fun found hf => hfound found hf _ (.andThen fun s hs => ?_)
  split
  · exact hfallback
  · exact .andThen fun _ _ => .andThen fun found hf => hfound found hf _ hfallback

instance (e : Entry) (a : Arguments) [he : Clear G e] [ha : Clear G a] : Heeds G (perform o e a) := by
  have hroutine : Clear G e.routine := inferInstance
  unfold perform
  extract_lets finish
  have hfinish (v : Clean G Value) : Heeds G (finish v.1) := by
    unfold finish
    infer_instance
  clear_value finish
  split
  case h_1 => infer_instance
  case h_2 name _ =>
    have := ho.label name a ha
    infer_instance
  case h_3 f hf =>
    rw [hf] at hroutine
    have : Clear G f := hroutine.out
    infer_instance
  case h_4 index label _ =>
    have := ho.moduleLabel index label a ha
    infer_instance
  case h_5 domain method params _ =>
    refine .andThen fun w hw => ?_
    have := clear_payload (show Clear G w.store from inferInstance) params a
    infer_instance
  case h_6 =>
    refine .andThen fun s _ => ?_
    split <;> infer_instance
  case h_7 => infer_instance

instance (e : Entry) (supplied : List Supplied) (piped : Option Value) (asStatement : Bool) (line : Option Nat)
    [Clear G e] [Clear G supplied] [Clear G piped] : Heeds G (apply o e supplied piped asStatement line) := by
  have hbind : Clear G (e.bind supplied piped asStatement) := inferInstance
  unfold apply
  extract_lets place call
  have hcall (a : Arguments) (ha : Clear G a) : Heeds G (call a) := by
    have hpush : Heeds G (modifySession fun s => { s with calls := ⟨e.name, a.all⟩ :: s.calls }) :=
      .onSession _ fun _ hs => { hs with }
    have hpop : Heeds G (modifySession fun s => { s with calls := s.calls.tail }) := .onSession _ fun _ hs => { hs with }
    have hperform : Heeds G (tryCatch (perform o e a) fun signal => match signal with
        | .problem (.condition c) => do raise (← placed place c)
        | .problem (.failure f) =>
          if f.interrupts then failure f
          else raise { cause := .functionFailed e.name f, line := line, function := some e.name }
        | signal => throw signal) := by
      refine .recover inferInstance fun signal hsignal => ?_
      split <;> infer_instance
    unfold call
    exact .andThen fun _ _ => .andThen fun v hv => inferInstance
  clear_value call
  split
  · next a ha =>
    rw [ha] at hbind
    exact hcall a hbind.of_ok
  · next c _ => exact .andThen fun a ha => hcall a ha

end

/-! ## Expressions -/

mutual
theorem eval_heeds (o : Outer) [Mindful G o] (e : Expr) : Heeds G (eval o e) := by
  match e with
  | .literal (.number n) _ => rw [eval]; infer_instance
  | .literal (.text s interpolated) _ => rw [eval]; infer_instance
  | .ref r => rw [eval]; infer_instance
  | .unary op operand pos =>
    have hoperand := eval_heeds o operand
    rw [eval]
    infer_instance
  | .binary op left right pos =>
    have hleft := eval_heeds o left
    have hright := eval_heeds o right
    by_cases hand : op = .and
    · subst hand
      rw [eval]
      infer_instance
    by_cases hor : op = .or
    · subst hor
      rw [eval]
      infer_instance
    · rw [eval]
      · infer_instance
      · exact hand
      · exact hor
  | .call name args pos =>
    have hargs := evalArgs_heeds o args
    rw [eval]
    infer_instance
  | .pipe left name args callPos pos =>
    have hleft := eval_heeds o left
    have hargs := evalArgs_heeds o args
    rw [eval]
    infer_instance

theorem evalArgs_heeds (o : Outer) [Mindful G o] (args : List (Option String × Expr)) : Heeds G (evalArgs o args) := by
  match args with
  | [] => rw [evalArgs]; infer_instance
  | (name, e) :: rest =>
    have he := eval_heeds o e
    have hrest := evalArgs_heeds o rest
    rw [evalArgs]
    infer_instance
end

attribute [instance] eval_heeds evalArgs_heeds

section

variable (o : Outer) [ho : Mindful G o]

instance (name : String) (args : List Syntax.Arg) (asStatement : Bool) (line : Nat) :
    Heeds G (callNamed o name args asStatement line) := by
  unfold callNamed
  infer_instance

/-! ## Requests -/

instance (args : List Syntax.Arg) : Heeds G (requestArgs o args) := by
  unfold requestArgs
  infer_instance

instance (params : List String) (named : Table String Value) (placed : List Value) [Clear G named] [Clear G placed] :
    Clear G (requestPayload params named placed) := by
  unfold requestPayload
  infer_instance

instance (c : Syntax.CommandForm) (line : Nat) : Heeds G (sendForm o c line) := by
  unfold sendForm
  infer_instance

instance (e : Option Expr) (raw : String) : Heeds G (commandText o e raw) := by
  unfold commandText
  split <;> infer_instance

instance (source : Syntax.Source) (line : Nat) : Heeds G (sourceValue o source line) := by
  unfold sourceValue
  split <;> infer_instance

instance (action : Syntax.AddressAction) (line : Nat) : Heeds G (addressTo o action line) := by
  unfold addressTo
  extract_lets switch act
  have hswitch (domain mode rule : Option String) : Heeds G (switch domain mode rule) := by
    have h (d : Address.Dispatcher) : Heeds G (modifySession fun s => { s with dispatcher := d }) :=
      .onSession _ fun _ hs => { hs with }
    unfold switch
    infer_instance
  have hact : Heeds G act := by
    unfold act
    clear_value switch
    split
    · infer_instance
    · dsimp only
      split <;> infer_instance
    · infer_instance
  exact heeds_inContext hact _

instance (expr : Option Expr) (command : Option Syntax.CommandForm) (error : Option Condition) (p : Syntax.Place) :
    Heeds G (execClause o expr command error p) := by
  unfold execClause
  refine .andThen fun m _ => .andThen fun isDefault _ => ?_
  split
  · split
    · infer_instance
    · dsimp only
      split <;> infer_instance
  · extract_lets raw
    have hraw : Heeds G raw := by
      unfold raw
      infer_instance
    clear_value raw
    split <;> infer_instance

/-! ## Loops -/

section

variable (body : Play Unit) [hbody : Heeds G body]

instance : Heeds G (round body) := by
  refine .recover inferInstance fun signal hsignal => ?_
  split <;> infer_instance

omit hbody in
theorem rounds_heeds (step : Play Bool) [Heeds G step] (n : Nat) : Heeds G (rounds step n) := by
  induction n with
  | zero => exact inferInstanceAs (Heeds G (throw Signal.exhausted))
  | succ n ih => rw [rounds]; infer_instance

instance times_heeds (n : Nat) : Heeds G (times body n) := by
  induction n with
  | zero => rw [times]; infer_instance
  | succ n ih => rw [times]; infer_instance

theorem eachItem_heeds (r : String × List Tree) (vs : List Value) (hv : Clear G vs) :
    Heeds G (eachItem r body vs) := by
  induction vs with
  | nil => rw [eachItem]; infer_instance
  | cons v rest ih =>
    obtain ⟨hv, hr⟩ := clear_cons.mp hv
    have := ih hr
    rw [eachItem]
    infer_instance

instance rangeFrom_heeds (r : String × List Tree) (stop : Option Number) (step : Number) (n : Nat) (current : Number) :
    Heeds G (rangeFrom r stop step body n current) := by
  induction n generalizing current with
  | zero => exact inferInstanceAs (Heeds G (throw Signal.exhausted))
  | succ n ih =>
    unfold rangeFrom
    extract_lets within
    clear_value within
    have hnext : Heeds G (do
        let reached ← number (← memory (Memory.read r.1 r.2))
        rangeFrom r stop step body n (← liftE (reached.add step))) := inferInstance
    infer_instance

instance (var : Syntax.Ref) (collection : Expr) (line : Nat) : Heeds G (loopOver o var collection line body) := by
  unfold loopOver
  refine .andThen fun v hv => ?_
  split
  · next a =>
    refine .andThen fun w hw => ?_
    have := Clear.get (show Clear G w.store from inferInstance) hv.free
    exact .andThen fun tail _ => eachItem_heeds body _ _ inferInstance
  · infer_instance

instance (var : Syntax.Ref) (start : Expr) (stop step : Option Expr) (line : Nat) :
    Heeds G (loopRange o var start stop step line body) := by
  unfold loopRange
  refine .andThen fun tail _ => .andThen fun s _ => .andThen fun first _ => ?_
  extract_lets withStop
  have hstop (limit : Option Number) : Heeds G (withStop limit) := by
    unfold withStop
    extract_lets withStep
    have hstep (width : Number) : Heeds G (withStep width) := by
      unfold withStep
      infer_instance
    clear_value withStep
    split <;> infer_instance
  clear_value withStop
  split <;> infer_instance

instance (head : Syntax.LoopHead) (line : Nat) : Heeds G (runLoop o head line body) := by
  unfold runLoop
  split
  case h_2 => exact rounds_heeds _ _
  case h_4 => exact rounds_heeds _ _
  case h_5 => exact rounds_heeds _ _
  all_goals infer_instance

end

end

instance (x : Play Unit) [hx : Heeds G x] : Heeds G (inLoop x) := by
  have henter : Heeds G (modifySession fun s => { s with loopDepth := s.loopDepth + 1 }) :=
    .onSession _ fun _ hs => { hs with }
  have hleave := hx.leaving (f := fun m =>
      { m with session := { m.session with loopDepth := m.session.loopDepth - 1 } })
    fun m hm => ⟨⟨{ hm.out.1.sound with }⟩, hm.out.2⟩
  exact .andThen fun _ _ => hleave

theorem loopSignal_heeds (signal : Signal) (h : Clear G signal) (action : String) (line : Nat) :
    Heeds G (loopSignal signal action line) := by
  unfold loopSignal
  infer_instance

/-! ## Statements -/

instance (p : Syntax.Place) (sendable : Bool) (body : Play Unit) [Heeds G body] : Heeds G (atPlace p sendable body) := by
  unfold atPlace
  infer_instance

instance (action : Syntax.SignalAction) (line : Nat) : Heeds G (signalWith action line) := by
  unfold signalWith
  split
  · next trap label =>
    refine ⟨fun m hm => ?_⟩
    simp only [Run.bind_apply, Run.discard_apply, labelIndex_apply]
    cases hi : m.session.labels.lookup (Text.upper label) with
    | none => exact ⟨inferInstance, hm⟩
    | some i =>
      have hs := hm.out.1.sound
      refine ⟨inferInstance, ⟨⟨{ hs with traps := fun ht t l h => ?_ }⟩, hm.out.2⟩⟩
      by_cases htrap : t = trap
      · subst htrap
        rw [Table.get?_put_self] at h
        cases h
        exact ⟨i, hi⟩
      · rw [Table.get?_put_of_ne htrap] at h
        exact hs.traps ht t l h
  · next trap => exact .onSession _ fun s hs => hs.disarmed trap
  · next label =>
    have : Clear G (Signal.jump label (some line)) := ⟨trivial⟩
    infer_instance

mutual
theorem exec_heeds (o : Outer) [Mindful G o] (s : Statement) : Heeds G (exec o s) := by
  match s with
  | .assign target source _ p => rw [exec]; infer_instance
  | .say e p => rw [exec]; infer_instance
  | .cond condition thenBody elseBody p =>
    have hthen := execAll_heeds o thenBody
    have helse := execAll_heeds o elseBody
    rw [exec]
    infer_instance
  | .loop head body p =>
    have hbody := execAll_heeds o body
    rw [exec]
    infer_instance
  | .leave p =>
    have := loopSignal_heeds (G := G) .leave ⟨trivial⟩ "LEAVE" p.line
    rw [exec]
    infer_instance
  | .iterate p =>
    have := loopSignal_heeds (G := G) .iterate ⟨trivial⟩ "ITERATE" p.line
    rw [exec]
    infer_instance
  | .call name args p => rw [exec]; infer_instance
  | .address action p => rw [exec]; infer_instance
  | .block literal p => rw [exec]; infer_instance
  | .signal action p => rw [exec]; infer_instance
  | .ret value exit p =>
    rw [exec]
    cases value <;> infer_instance
  | .label _ p => rw [exec]; infer_instance
  | .arg names p => rw [exec]; infer_instance
  | .require identifier p => rw [exec]; infer_instance
  | .interpolation action p => rw [exec]; infer_instance
  | .clause expr command error p => rw [exec]; infer_instance
  | .nop p => rw [exec]; infer_instance

theorem execAll_heeds (o : Outer) [Mindful G o] (body : List Statement) : Heeds G (execAll o body) := by
  match body with
  | [] => rw [execAll]; infer_instance
  | s :: rest =>
    have hhead := exec_heeds o s
    have hrest := execAll_heeds o rest
    rw [execAll]
    infer_instance
end

attribute [instance] exec_heeds execAll_heeds

/-! ## Routines -/

instance (index : Nat) : Heeds G (statementsFrom index) := by unfold statementsFrom; infer_instance

instance (o : Outer) [Mindful G o] (body : List Statement) : Heeds G (routine o body) := by
  refine .recover inferInstance fun signal hsignal => ?_
  split
  · next v =>
    have : Clear G v := hsignal.out
    infer_instance
  · infer_instance

structure Copyable (G : Guard) (a : Arguments) : Prop where
  placed : ∀ v ∈ a.placed, Store.Copyable G v
  named : ∀ e ∈ a.named, Store.Copyable G e.2

theorem Copyable.of_clear {a : Arguments} (h : Clear G a) : Copyable G a where
  placed _ hv := .of_clear (h.out.1.of_mem hv)
  named _ he := .of_clear (clear_entry.mp (h.out.2.of_mem he))

structure Outside (G : Guard) (m : Machine) : Prop where
  settled : m.session.Settled G
  world : Clear G m.world

/-- The arguments by place are copied while the variables are those of the routine already. -/
theorem copies_reach {vs : List Value} (hvs : ∀ v ∈ vs, Store.Copyable G v) (m : Machine) (hm : Outside G m)
    (hscope : Clear G m.session.scope) :
    Reaches G (fun ws m' => Clear G ws ∧ Clear G m'.session.scope ∧ Outside G m') (Outside G)
      (vs.mapM (fun v => memory (Memory.copy v)) m) := by
  induction vs generalizing m with
  | nil =>
    rw [List.mapM_nil]
    exact ⟨inferInstance, hscope, hm⟩
  | cons v rest ih =>
    obtain ⟨hv, hr⟩ := List.forall_mem_cons.mp hvs
    have houtside (m' : Machine) (h : (∃ scope, m'.session = { m.session with scope := scope } ∧ Clear G scope) ∧
        Clear G m'.world) : Clear G m'.session.scope ∧ Outside G m' := by
      obtain ⟨⟨scope, heq, hscope⟩, hw⟩ := h
      exact ⟨heq ▸ hscope, heq ▸ { hm.settled with }, hw⟩
    have hcopy := (memory_reaches (Memory.heeds_copy hv).gives m hscope hm.world).mono
      (fun _ m' h => (⟨h.1, houtside m' h.2⟩ : Clear G _ ∧ _)) fun m' h => (houtside m' h).2
    rw [List.mapM_cons]
    refine hcopy.bind fun w m₁ h₁ => (ih hr m₁ h₁.2.2 h₁.2.1).bind fun ws m₂ h₂ => ?_
    have := h₁.1
    have := h₂.1
    exact ⟨inferInstance, h₂.2⟩

theorem enterRoutine_reaches {a : Arguments} (ha : Copyable G a) (m : Machine) (hm : Outside G m) :
    Reaches G (fun _ m' => Clear G m') (Outside G) (enterRoutine a m) := by
  have hseed : Reaches G (fun _ m' => Clear G m'.session.scope ∧ Outside G m') (Outside G)
      (memory (Memory.seed a.named) m) := by
    have h := Memory.seed_clear ha.named ⟨m.session.scope, m.world.store⟩ (show Clear G m.world.store from hm.world.worldSound.store)
    have hw := hm.world.worldSound
    unfold memory
    dsimp only
    split
    · next hr =>
      rw [hr] at h
      exact ⟨h.out.1, { hm.settled with }, ⟨{ hw with store := h.out.2 }⟩⟩
    · next hr =>
      rw [hr] at h
      exact ⟨inferInstance, { hm.settled with }, ⟨{ hw with store := h.out.2 }⟩⟩
  refine hseed.bind fun _ m₁ h₁ => (copies_reach ha.placed m₁ h₁.2 h₁.1).bind fun args m₂ h₂ => ?_
  exact ⟨⟨{ h₂.2.2.settled with scope := h₂.2.1, args := ⟨fun _ h => Option.mem_some.mp h ▸ h₂.1.out⟩ }⟩, h₂.2.2.world⟩

/-- A call of a label takes any arguments that can be copied, from any variables, and leaves the variables and
arguments of its caller as they were. -/
theorem callLabel_reaches (o : Outer) [Mindful G o] [Outer.Bears (fun _ _ => True) o] (name : String) {a : Arguments}
    (ha : Copyable G a) (m : Machine) (hm : Outside G m) :
    Reaches G
      (fun v m' => Clear G v ∧ Outside G m' ∧ m'.session.scope = m.session.scope ∧ m'.session.args = m.session.args)
      (fun m' => Outside G m' ∧ m'.session.scope = m.session.scope ∧ m'.session.args = m.session.args)
      (callLabel o name a m) := by
  have hargs : (callLabel o name a m).Meets (amid fun _ _ => True) (fun _ _ m' => m'.session.args = m.session.args)
      (fun _ _ m' => m'.session.args = m.session.args) () :=
    (callLabel_bears (fun body => (execAll_woven o body).bears) name a m).mono (amid_monotone _)
      (fun _ _ _ h => h.args) fun _ _ _ h => h.args
  have hrest : Reaches G (fun v m' => Clear G v ∧ Outside G m' ∧ m'.session.scope = m.session.scope)
      (fun m' => Outside G m' ∧ m'.session.scope = m.session.scope) (callLabel o name a m) := by
    obtain ⟨cause, hcause, hrefused⟩ | ⟨i, hi, hdepth⟩ := callLabel_cases o name a m
    · rw [hrefused]
      obtain rfl | rfl := hcause <;> exact ⟨inferInstance, hm, rfl⟩
    · rw [callLabel_apply o a hi hdepth]
      have hrun : Reaches G (fun v m' => Clear G v ∧ Outside G m') (Outside G)
          ((do enterRoutine a; leftRoutine o (m.session.program.toList.drop (i + 1)) m.session) m) := by
        have hleft (m' : Machine) (h : Clear G m') :
            Outside G { m' with session := leaveRoutine m.session m'.session } :=
          ⟨{ h.out.1.sound with }, h.out.2⟩
        refine (enterRoutine_reaches ha m hm).bind fun _ m' hm' => ?_
        exact ((inferInstance : Heeds G (routine o _)).reaches m' hm').leave
          (fun _ m' h => ⟨h.1, hleft m' h.2⟩) hleft
      have hback (m' : Machine) (h : Outside G m') :
          Outside G { m' with session := { m'.session with scope := m.session.scope } } :=
        ⟨{ h.settled with }, h.world⟩
      exact hrun.leave (fun _ m' h => ⟨h.1, hback m' h.2, rfl⟩) fun m' h => ⟨hback m' h, rfl⟩
  exact (hrest.besides hargs).mono (fun _ _ h => ⟨h.1.1, h.1.2.1, h.1.2.2, h.2⟩) fun _ h => ⟨h.1.1, h.1.2, h.2⟩

instance (o : Outer) [Mindful G o] [Outer.Bears (fun _ _ => True) o] (name : String) (a : Arguments) [ha : Clear G a] :
    Heeds G (callLabel o name a) := by
  refine ⟨fun m hm => ?_⟩
  have hs := hm.out.1.sound
  have hback (m' : Machine)
      (h : Outside G m' ∧ m'.session.scope = m.session.scope ∧ m'.session.args = m.session.args) : Clear G m' :=
    ⟨⟨{ h.1.settled with scope := h.2.1 ▸ hs.scope, args := h.2.2 ▸ hs.args }⟩, h.1.world⟩
  exact (callLabel_reaches o name (.of_clear ha) m ⟨{ hs with }, hm.out.2⟩).mono
    (fun _ m' h => ⟨h.1, hback m' h.2⟩) hback

/-! ## The top level -/

instance : Carrier Stop where
  clear G
    | .value v => Clear G v
    | .resume _ => True

instance (v : Value) [h : Clear G v] : Clear G (Stop.value v) := ⟨h⟩

instance (n : Nat) : Clear G (Stop.resume n) := ⟨trivial⟩

instance (c : Condition) : Heeds G (describe c) := by
  unfold describe
  have h : Heeds G (modifySession fun s => { s with context := some ⟨c.line, c.function, c.domain⟩ }) :=
    .onSession _ fun _ hs => { hs with }
  extract_lets line
  have hline : Clear G line := by
    unfold line
    split <;> infer_instance
  clear_value line
  refine .andThen fun _ _ => .andThen fun _ _ => .andThen fun _ _ => ?_
  infer_instance

instance (c : Condition) (label : String) : Heeds G (takeTrap c label) := by
  have hdisarm (trap : Syntax.Trap) : Heeds G (modifySession fun s => { s with traps := s.traps.erase trap }) :=
    .onSession _ fun _ hs => hs.disarmed trap
  have hcancel : Heeds G (modifyWorld fun w => { w with cancelled := false }) := .onWorld _ fun _ hw => { hw with }
  have hclear (b : Bool) :
      Heeds G (modifySession fun s => { s with calls := [], loopDepth := if b then 0 else s.loopDepth }) :=
    .onSession _ fun _ hs => { hs with }
  unfold takeTrap
  refine .andThen fun s _ => .andThen fun c _ => ?_
  extract_lets trap resume
  have hresume (u : Unit) : Heeds G (resume u) := by
    have := hclear (trap == .error)
    unfold resume
    infer_instance
  refine .andThen fun _ _ => ?_
  clear_value resume
  split
  · next htrap =>
    have hkind : c.kind = .cancellation := by
      simp only [trap, trapFor] at htrap
      split at htrap
      · next h => exact eq_of_beq h
      · cases htrap
    have hhalt : Heeds G (modifySession fun s => { s with halting := some c }) :=
      .onSession _ fun _ hs => { hs with halting := fun _ _ h => Option.some.inj h ▸ hkind }
    infer_instance
  · infer_instance

instance (o : Outer) [Mindful G o] (body : List Statement) : Heeds G (stretch o body) := by
  have hclear : Heeds G (modifySession fun s => { s with calls := [] }) := .onSession _ fun _ hs => { hs with }
  refine .recover inferInstance fun signal hsignal => ?_
  unfold stopOn
  split
  · next v =>
    have : Clear G v := hsignal.out
    infer_instance
  · infer_instance
  · next c =>
    refine .andThen fun s _ => ?_
    split <;> infer_instance
  · infer_instance

instance topLevel_heeds (o : Outer) [Mindful G o] (stopAtLabel : Bool) (n index : Nat) :
    Heeds G (topLevel o stopAtLabel n index) := by
  induction n generalizing index with
  | zero => exact inferInstanceAs (Heeds G (throw Signal.exhausted))
  | succ n ih =>
    rw [topLevel]
    refine .andThen fun rest _ => .andThen fun stop hstop => ?_
    cases stop with
    | value v =>
      have : Clear G v := hstop.out
      infer_instance
    | resume next => exact ih next

instance (x : Play Value) [Heeds G x] : Heeds G (untilExit x) := by
  refine .recover inferInstance fun signal hsignal => ?_
  split
  · next v =>
    have : Clear G v := hsignal.out
    infer_instance
  · infer_instance

instance : Heeds G raiseHalted := by
  have hhalt : Heeds G (modifySession fun s => { s with halting := none }) :=
    .onSession _ fun _ hs => { hs with halting := fun _ _ h => nomatch h }
  unfold raiseHalted
  refine .andThen fun s _ => ?_
  split <;> infer_instance

theorem clear_installed (p : Program) {s : Session} (hs : Clear G s.resolver) : Clear G (installed p s).resolver := by
  refine ⟨hs.out.1, .of_forall fun e he => ?_, hs.out.2.2⟩
  obtain ⟨l, -, rfl⟩ := List.mem_map.mp he
  exact ⟨trivial, ⟨trivial⟩⟩

instance (o : Outer) [Mindful G o] (p : Program) (args : List Value) (stopAtLabel cancelFirst : Bool) [ha : Clear G args] :
    Heeds G (runProgram o p args stopAtLabel cancelFirst) := by
  have hcancel : Heeds G (modifyWorld fun w => { w with cancelled := cancelFirst }) := .onWorld _ fun _ hw => { hw with }
  have hrest : Heeds G (do
      if (← session).isMain then modifyWorld fun w => { w with cancelled := cancelFirst }
      let v ← untilExit (topLevel o stopAtLabel o.rounds 0)
      raiseHalted
      return v) := inferInstance
  refine ⟨fun m hm => ?_⟩
  let begun : Session :=
    { installed p m.session with
      traps := [], args := [args], calls := [], loopDepth := 0, callDepth := 0, halting := none }
  have hbegun : begun.Sound G :=
    { scope := hm.out.1.sound.scope
      resolver := clear_installed p hm.out.1.sound.resolver
      traps := fun _ _ _ h => nomatch h
      args := ⟨fun _ h => Option.mem_some.mp h ▸ ha.out⟩
      halting := fun _ _ h => nomatch h }
  exact hrest.reaches { m with session := begun } ⟨⟨hbegun⟩, hm.out.2⟩

/-! ## Sessions of their own -/

theorem within_heeds {α : Type} [Carrier α] {s : Session} (hs : Clear G s) {x : Play α} (hx : Heeds G x) :
    Heeds G (within s x) := by
  have hrun : Heeds G (do let a ← x; return (a, ← session) : Play (α × Session)) := inferInstance
  refine ⟨fun m hm => (hrun.reaches { m with session := s } ⟨hs, hm.out.2⟩).leave ?_ ?_⟩
  · exact fun _ m' h => ⟨h.1, hm.out.1, h.2.out.2⟩
  · exact fun m' h => ⟨hm.out.1, h.out.2⟩

theorem clear_builtins : Clear G Registry.builtins := by
  refine .of_forall fun e he => ?_
  obtain ⟨b, -, rfl⟩ := List.mem_map.mp he
  exact ⟨trivial, ⟨trivial⟩⟩

theorem moduleSession_sound (sourceDir : String) {required : List Entry} (purpose : Purpose) (h : Clear G required) :
    (moduleSession sourceDir required purpose).Sound G where
  resolver := ⟨clear_builtins, inferInstanceAs (Clear G ([] : Registry)),
    inferInstanceAs (Clear G (Registry.addAll [] required)), inferInstanceAs (Clear G ([] : List Registry))⟩
  traps _ _ _ h := nomatch h
  halting _ _ h := nomatch h
  scope := inferInstanceAs (Clear G ([] : Scope))
  args := inferInstanceAs (Clear G (some ([] : List Value)))

instance (o : Outer) [Mindful G o] [Outer.Bears (fun _ _ => True) o] (index : Nat) (label : String) (a : Arguments)
    [Clear G a] :
    Heeds G (callModule o index label a) := by
  unfold callModule
  refine .andThen fun w hw => ?_
  have hfound : Clear G w.modules[index]? := inferInstance
  split
  · infer_instance
  · next sm hsm =>
    rw [hsm] at hfound
    have hfresh := moduleSession_sound sm.sourceDir .script hfound.of_some.out
    have hsession : (installed sm.program (moduleSession sm.sourceDir sm.required .script)).Sound G :=
      { hfresh with
        resolver := clear_installed sm.program hfresh.resolver
        traps := fun _ _ _ h => nomatch h }
    have hcall : Heeds G (within (installed sm.program (moduleSession sm.sourceDir sm.required .script))
        (untilExit (callLabel o (Text.upper label) a))) := within_heeds ⟨hsession⟩ inferInstance
    exact inferInstanceAs (Heeds G (within (installed sm.program (moduleSession sm.sourceDir sm.required .script))
        (untilExit (callLabel o (Text.upper label) a)) >>= fun p => pure p.1))

/-! ## Loads -/

instance (m : HostModule) [Clear G m] : Clear G m.exports := by
  unfold HostModule.exports
  split
  · refine Clear.traverse inferInstance fun e _ => ?_
    have : Clear G (m.expression e.2) := by
      unfold HostModule.expression
      split
      · next f hf =>
        obtain ⟨before, after, hk, -⟩ := List.lookup_eq_some_iff.mp hf
        have hmem : (e.2, f) ∈ m.functions := by simp [hk]
        have hfunctions : Clear G m.functions := inferInstance
        have := clear_entry.mp (hfunctions.of_mem hmem)
        infer_instance
      · split
        · infer_instance
        · exact ⟨trivial⟩
    exact inferInstanceAs (Clear G (m.expression e.2 >>= fun f => .ok (e.1, f)))
  · infer_instance

theorem clear_ofHost (name : String) (tier : Tier) {f : HostFunction} (hf : Clear G f) (metadata : Option Metadata)
    (source : Option String) : Clear G (Entry.ofHost name tier f metadata source) := ⟨⟨hf⟩⟩

instance (m : HostModule) (exports : List Module.Export) (identifier location : String) [h : Clear G exports] :
    Clear G (m.entries exports identifier location) := by
  unfold HostModule.entries
  refine (Clear.traverse h fun e he => ?_).andThen fun es hes => ?_
  · unfold HostModule.entry
    have hf : Clear G e.2 := inferInstance
    split
    · exact ⟨trivial⟩
    · next f hf' =>
      rw [hf'] at hf
      refine Clear.andThen inferInstance fun metadata _ => ?_
      have := clear_ofHost (G := G) e.1 .required hf.of_some (some metadata) (some location)
      exact inferInstanceAs (Clear G (Except.ok _ : Except Problem Entry))
  · exact inferInstanceAs (Clear G (Except.ok (Table.ofEntries (es.map fun e => (e.name, e))) : Except Problem _))

instance (l : Module.Loader) (stack : Module.Stack) (identifier location : String) [hl : Clear G l] :
    Clear G (l.enter stack identifier location) := by
  unfold Module.Loader.enter
  split
  · exact ⟨trivial⟩
  · extract_lets ticket node fresh
    have hnode : Clear G node := ⟨inferInstanceAs (Clear G ([] : Table String Entry))⟩
    have hfresh : Clear G fresh :=
      ⟨⟨hl.out.1, hl.out.2.1, inferInstanceAs (Clear G (l.nodes.put location node)), hl.out.2.2.2⟩⟩
    clear_value fresh
    have hfound : Clear G (l.nodes.get? location) := inferInstance
    split
    · next node hnode =>
      rw [hnode] at hfound
      split
      · exact ⟨hfound.of_some.out⟩
      · split
        · split <;> exact ⟨trivial⟩
        · exact hfresh
      · exact hfresh
    · exact hfresh

theorem clear_note {l : Module.Loader} (hl : Clear G l) (c : Condition) : Clear G (l.note c) := by
  unfold Module.Loader.note
  split
  · exact ⟨hl.out⟩
  · exact hl

theorem clear_settle {l : Module.Loader} (hl : Clear G l) (location : String) (ticket : Nat) {result : Module.Outcome}
    (hresult : Clear G result) : Clear G (l.settle location ticket result) := by
  unfold Module.Loader.settle
  have hnoted : Clear G { l with outcomes := l.outcomes.put ticket result, pending := l.pending.erase location } :=
    ⟨hl.out.1, hl.out.2.1, hl.out.2.2.1, inferInstance⟩
  cases result with
  | ok functions => exact clear_update hnoted location fun n hn => ⟨hresult.of_ok⟩
  | error c => exact clear_note (clear_update hnoted location fun n hn => ⟨inferInstanceAs (Clear G ([] : Table String Entry))⟩) c

section

variable (o : Outer) [ho : Mindful G o]

instance (l : Module.Location) : Heeds G (readSource l) := by
  have hnote : Heeds G (onLoader fun loader => { loader with fetched := loader.fetched ++ [l.text] }) :=
    heeds_onLoader _ fun _ hl => ⟨hl.out⟩
  have htext (s : String) : Clear G (Module.Source.text s) := ⟨trivial⟩
  unfold readSource
  split
  · refine .andThen fun w hw => ?_
    have hsources : Clear G w.loader.sources := inferInstance
    split
    · next table htable =>
      rw [htable] at hsources
      have := hsources.of_some
      have hfound : Clear G (table.get? l.text) := inferInstance
      refine .andThen fun _ _ => .andThen fun _ _ => ?_
      split
      · next source hsource =>
        rw [hsource] at hfound
        have := hfound.of_some
        infer_instance
      · infer_instance
    · infer_instance
  · refine .andThen fun w hw => ?_
    extract_lets files
    have hfound : Clear G (files.content? l.text) := inferInstanceAs (Clear G (w.files.entries.get? _))
    clear_value files
    split
    · next m hm =>
      rw [hm] at hfound
      have : Clear G (Module.Source.module m) := ⟨hfound.of_some.out⟩
      infer_instance
    · infer_instance

instance requireAll_heeds (location : String) (base : Option String) (stack : Module.Stack) (deps : List String) :
    Heeds G (requireAll o location base stack deps) := by
  induction deps with
  | nil => rw [requireAll]; infer_instance
  | cons dep rest ih => rw [requireAll]; infer_instance

theorem clear_setDependencies {l : Module.Loader} (hl : Clear G l) (location : String) (deps : List String) :
    Clear G (l.setDependencies location deps) := clear_update hl location fun _ hn => ⟨hn.out⟩

instance (m : HostModule) (identifier location : String) (base : Option String) (stack : Module.Stack) [Clear G m] :
    Heeds G (loadHost o m identifier location base stack) := by
  have hcount : Heeds G (onLoader fun l => l.count location) := heeds_onLoader _ fun _ hl => ⟨hl.out⟩
  have hset (deps : List String) : Heeds G (onLoader fun l => l.setDependencies location deps) :=
    heeds_onLoader _ fun _ hl => clear_setDependencies hl location deps
  unfold loadHost
  extract_lets start
  have hstart (u : Unit) : Heeds G (start u) := by
    unfold start
    infer_instance
  clear_value start
  split <;> infer_instance

instance (source identifier : String) (l : Module.Location) (stack : Module.Stack) :
    Heeds G (loadScript o source identifier l stack) := by
  have hbegin : Heeds G (onLoader fun loader => (loader.setDependencies l.text []).count l.text) :=
    heeds_onLoader _ fun _ hl => ⟨(clear_setDependencies hl l.text []).out⟩
  have hrun (dir : String) (program : Program) :
      Heeds G (within (moduleSession dir [] (.module l.text stack)) (runProgram o program [] true false)) :=
    within_heeds ⟨moduleSession_sound dir _ inferInstance⟩ inferInstance
  have hadd (program : Program) (dir : String) (required : List Entry) (h : Clear G required) :
      Heeds G (modifyWorld fun w => { w with modules := w.modules.push { program, sourceDir := dir, required } }) := by
    refine .onWorld _ fun w hw => { hw with modules := ?_ }
    have := hw.modules
    have : Clear G ({ program, sourceDir := dir, required } : ScriptModule) := ⟨h⟩
    infer_instance
  have hexport (program : Program) (index : Nat) : Clear G
      (program.labels.map fun e => (e.1, exportedLabel index identifier l.text e.1)) := by
    refine .of_forall fun e he => ?_
    obtain ⟨label, -, rfl⟩ := List.mem_map.mp he
    exact ⟨trivial, ⟨trivial⟩⟩
  unfold loadScript
  refine .andThen fun program _ => .andThen fun w _ => ?_
  extract_lets dir
  refine .andThen fun _ _ => .andThen fun p hp => ?_
  obtain ⟨v, final⟩ := p
  have hfinal : Clear G final := (clear_pair.mp hp).2
  refine .andThen fun w' _ => ?_
  have := hadd program dir final.resolver.required.values inferInstance
  have := hexport program w'.modules.size
  infer_instance

instance (identifier : String) (l : Module.Location) (base : Option String) (stack : Module.Stack) :
    Heeds G (loadFresh o identifier l base stack) := by
  unfold loadFresh
  split
  · refine .andThen fun w hw => ?_
    have : Clear G (w.loader.hostModule (Text.dropChars 3 l.text)) := by
      unfold Module.Loader.hostModule
      have hfound : Clear G (w.loader.hostModules.get? (Text.dropChars 3 l.text)) := inferInstance
      split
      · exact ⟨trivial⟩
      · split
        · next m hm =>
          rw [hm] at hfound
          have := hfound.of_some
          infer_instance
        · exact ⟨trivial⟩
    infer_instance
  · refine .andThen fun source hsource => ?_
    have : Clear G source.hostModule := by
      cases source with
      | text _ => exact ⟨inferInstanceAs (Clear G ([] : List (String × HostFunction)))⟩
      | module m => exact hsource.out
    infer_instance
  · refine .andThen fun source _ => ?_
    split <;> infer_instance

instance (x : Play (Table String Entry)) [Heeds G x] : Heeds G (outcome x) := by
  have herror (p : Problem) : Clear G (Except.error p : Except Problem (Table String Entry)) := ⟨trivial⟩
  have hok (t : Clean G (Table String Entry)) : Clear G (Except.ok t.1 : Except Problem (Table String Entry)) :=
    ⟨t.2.out⟩
  refine .recover inferInstance fun signal _ => ?_
  split <;> infer_instance

instance (identifier : String) (ticket : Nat) (ended : Except Problem (Table String Entry)) [Clear G ended] :
    Clear G (settlement identifier ticket ended) := by
  unfold settlement
  infer_instance

omit ho in
instance (ended : Except Problem (Table String Entry)) (result : Module.Outcome) [Clear G result] :
    Heeds G (release ended result) := by
  unfold release
  split
  · split <;> infer_instance
  · infer_instance

instance (identifier : String) (base : Option String) (stack : Module.Stack) : Heeds G (load o identifier base stack) := by
  unfold load
  refine .andThen fun l _ => .andThen fun w hw => ?_
  have henter : Clear G (w.loader.enter stack identifier l.text) := inferInstance
  split
  · next functions hf =>
    rw [hf] at henter
    have : Clear G functions := henter.out
    infer_instance
  · infer_instance
  · next ticket _ =>
    refine .andThen fun _ _ => .andThen fun w hw => ?_
    have hfound : Clear G (w.loader.outcomes.get? ticket) := inferInstance
    split
    · next result hresult =>
      rw [hresult] at hfound
      have := hfound.of_some
      infer_instance
    · infer_instance
  · next ticket loader hf =>
    rw [hf] at henter
    have hbegin : Heeds G (modifyWorld fun w => { w with loader := loader }) :=
      .onWorld _ fun _ hw => { hw with loader := henter.out }
    have hsettle (result : Module.Outcome) (h : Clear G result) :
        Heeds G (onLoader fun loader => loader.settle l.text ticket result) :=
      heeds_onLoader _ fun _ hl => clear_settle hl l.text ticket h
    refine .andThen fun _ _ => .andThen fun ended hended => ?_
    have := hsettle (settlement identifier ticket ended) inferInstance
    infer_instance

end

instance outer_mindful (n : Nat) : Mindful G (outer n) := by
  induction n with
  | zero =>
    exact ⟨fun _ _ _ => inferInstanceAs (Heeds G (throw Signal.exhausted)),
      fun _ _ _ _ => inferInstanceAs (Heeds G (throw Signal.exhausted)),
      fun _ _ _ => inferInstanceAs (Heeds G (throw Signal.exhausted))⟩
  | succ n ih =>
    exact ⟨fun name a _ => inferInstanceAs (Heeds G (callLabel (outer n) name a)),
      fun index label a _ => inferInstanceAs (Heeds G (callModule (outer n) index label a)),
      fun identifier base stack => inferInstanceAs (Heeds G (load (outer n) identifier base stack))⟩

end Play

end Conductor
