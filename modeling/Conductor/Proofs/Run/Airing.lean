import Conductor.Proofs.Document.Unread
import Conductor.Proofs.Module.Request
import Conductor.Proofs.Run.Meets
import Conductor.Run.Load

/-!
# Failures that leave a statement

A failure from below the language becomes a condition where the language meets it: the
failure of a function where it is called, that of a module where it is asked for, that of
a handler in its reply. What is left are the failures over values, because a statement may
convert a value anywhere, and one failure of a block whose document is well formed. No other
failure leaves a statement or a program, whatever the functions, modules and handlers do, and
whatever others do while it waits, but for those that interrupt: they pass through all that makes
a condition of a failure.
-/

set_option autoImplicit false

namespace Conductor

/-- The failures that leave a statement: those over values, that of a word that a document gives for a truth value, and
those that interrupt. -/
def Failure.Leaves (f : Failure) : Prop :=
  f.isOverValue = true ∨ (∃ word, f = .lookupFailed word) ∨ f.interrupts = true

class Failure.Admits (P : Failure → Prop) : Prop where
  interruption : ∀ f : Failure, f.interrupts = true → P f

instance : Failure.Admits Failure.Leaves := ⟨fun _ h => .inr (.inr h)⟩

instance : Failure.Admits fun f => f.interrupts = true := ⟨fun _ => id⟩

def whatever : Pause Signal Unit Machine := fun _ _ _ K => ∀ m, K none () m ∧ K (some .interruption) () m

theorem whatever_monotone : whatever.Monotone := fun _ _ _ _ _ h hp m => ⟨h _ () m (hp m).1, h _ () m (hp m).2⟩

/-- A signal that is no failure from below the language but those with a property. -/
def Signal.Airs (P : Failure → Prop) (e : Signal) : Prop := ∀ f, e = .problem (.failure f) → P f

/-- A computation that ends with no failure from below the language but those with a property. -/
class Airs (P : Failure → Prop) {α : Type} (x : Play α) : Prop where
  meets : ∀ m, (x m).Meets whatever (fun _ _ _ => True) (fun e _ _ => e.Airs P) ()

namespace Airs

open Failure (Admits)

variable {P Q : Failure → Prop} {α β : Type}

instance (a : α) : Airs P (pure a : Play α) := ⟨fun _ => trivial⟩

theorem throw {e : Signal} (h : e.Airs P) : Airs P (throw e : Play α) := ⟨fun _ => h⟩

instance (x : Play α) (k : α → Play β) [hx : Airs P x] [hk : ∀ a, Airs P (k a)] : Airs P (x >>= k) :=
  ⟨fun m => Run.meets_bind.mpr
    (Step.Meets.mono whatever_monotone (fun a _ m' _ => (hk a).meets m') (fun _ _ _ h => h) (hx.meets m))⟩

theorem andThen {x : Play α} {k : α → Play β} [Airs P x] (hk : ∀ a, Airs P (k a)) : Airs P (x >>= k) := inferInstance

instance (f : α → β) (x : Play α) [Airs P x] : Airs P (f <$> x) :=
  inferInstanceAs (Airs P (x >>= fun a => pure (f a)))

instance (x : Play α) [Airs P x] : Airs P (discard x) := inferInstanceAs (Airs P ((fun _ => PUnit.unit) <$> x))

instance (c : Prop) [Decidable c] (x y : Play α) [Airs P x] [Airs P y] : Airs P (if c then x else y) := by
  split <;> infer_instance

theorem mono {x : Play α} (hx : Airs P x) (h : ∀ f, P f → Q f) : Airs Q x :=
  ⟨fun m => Step.Meets.mono whatever_monotone (fun _ _ _ h => h) (fun _ _ _ he f hf => h f (he f hf)) (hx.meets m)⟩

theorem any (x : Play α) : Airs (fun _ => True) x := by
  refine ⟨fun m => ?_⟩
  generalize x m = s
  induction s with
  | done a m => exact trivial
  | fail e m => exact fun _ _ => trivial
  | wait w m resume ih => exact fun m' => ⟨ih none m', ih _ m'⟩

theorem besides {x : Play α} (hx : Airs P x) {R : Pause Signal Unit Machine} (hR : R.Serene) {d : α → Unit → Machine → Prop}
    {f : Signal → Unit → Machine → Prop} {m : Machine} (h : (x m).Meets R d f ()) :
    (x m).Meets R d (fun e g m' => f e g m' ∧ e.Airs P) () := by
  have hends := hx.meets m
  generalize x m = s at h hends
  induction s with
  | done a m => exact h
  | fail e m => exact ⟨h, hends⟩
  | wait w m resume ih => exact hR w () m _ _ (fun _ m' h' => ih none m' h' (hends m').1) h

theorem recover {x : Play α} {k : Signal → Play α} (hx : Airs Q x) (hk : ∀ e, e.Airs Q → Airs P (k e)) :
    Airs P (tryCatch x k) :=
  ⟨fun m => Run.meets_tryCatch.mpr
    (Step.Meets.mono whatever_monotone (fun _ _ _ _ => trivial) (fun e _ m' he => (hk e he).meets m') (hx.meets m))⟩

instance (x : Play α) (f : Machine → Machine) [hx : Airs P x] : Airs P (x.leaving f) :=
  ⟨fun m => (Step.meets_leave _ _ _).mpr (hx.meets m)⟩

instance : Airs P (get : Play Machine) := ⟨fun _ => trivial⟩

instance [hP : Admits P] (w : Wait) : Airs P (Run.await w : Play Unit) :=
  ⟨fun _ _ => ⟨trivial, fun f h => hP.interruption f (by cases h; rfl)⟩⟩

instance [Admits P] (x : Play α) [Airs P x] : Airs P x.awaited :=
  inferInstanceAs (Airs P (Run.await .turn >>= fun _ => x))

instance (f : Session → Session) : Airs P (Play.modifySession f) := ⟨fun _ => trivial⟩

instance (f : World → World) : Airs P (Play.modifyWorld f) := ⟨fun _ => trivial⟩

instance mapM (f : α → Play β) (l : List α) [hf : ∀ a, Airs P (f a)] : Airs P (l.mapM f) := by
  induction l with
  | nil => rw [List.mapM_nil]; infer_instance
  | cons a l ih => rw [List.mapM_cons]; infer_instance

end Airs

namespace Play

open Failure (Admits Leaves)
open Syntax (Expr Statement Program)

variable {P : Failure → Prop} {α : Type}

/-! ## The state -/

instance (c : Condition) : Airs P (raise c : Play α) := .throw fun _ h => nomatch h

instance (c : Cause) : Airs P (cause c : Play α) := inferInstanceAs (Airs P (raise _))

instance (c : Cause) (line : Option Nat) : Airs P (causeAt c line : Play α) := inferInstanceAs (Airs P (raise _))

theorem airs_failure [hP : Admits P] {f : Failure} (h : f.interrupts = true) : Airs P (failure f : Play α) :=
  .throw fun f' hf => by
    cases hf
    exact hP.interruption f h

instance (x : Except Condition α) : Airs P (liftC x) := by
  cases x with
  | ok a => exact inferInstanceAs (Airs P (pure a))
  | error c => exact inferInstanceAs (Airs P (raise c))

theorem airs_liftE (x : Except Failure α) [hx : Only P x] : Airs P (liftE x) := by
  cases x with
  | ok a => exact inferInstanceAs (Airs P (pure a))
  | error f => exact .throw fun f' h => hx.holds f rfl f' (by cases h; rfl)

theorem airs_liftP (x : Except Problem α) [hx : Only P x] : Airs P (liftP x) := by
  cases x with
  | ok a => exact inferInstanceAs (Airs P (pure a))
  | error p => exact .throw fun f h => hx.holds p rfl f (by cases h; rfl)

instance (x : Except Failure α) [Converts x] : Airs Leaves (liftE x) := (airs_liftE x).mono fun _ => .inl

instance (x : Except Problem α) [Converts x] : Airs Leaves (liftP x) := (airs_liftP x).mono fun _ => .inl

instance : Airs P session := by unfold session; infer_instance

instance : Airs P world := by unfold world; infer_instance

instance (act : Memory.Act α) [h : Memory.Converts act] : Airs Leaves (memory act) := by
  refine ⟨fun m => ?_⟩
  unfold memory
  dsimp only
  split
  · exact trivial
  · next p mem hp => exact fun f hf => .inl (h.holds _ f mem (by cases hf; exact hp))

instance (v : Value) : Airs Leaves (tree v) := by unfold tree; infer_instance

instance (v : Value) : Airs Leaves (text v) := by unfold text; infer_instance

instance (v : Value) : Airs Leaves (number v) := by unfold number; infer_instance

instance (v : Value) : Airs Leaves (truthy v) := by
  unfold truthy
  split <;> infer_instance

instance (t : Tree) : Airs Leaves (plant t) := by unfold plant; infer_instance

instance (v : Value) : Airs Leaves (plain v) := by unfold plain; infer_instance

instance (v : Value) : Airs Leaves (normalize v) := by unfold normalize; infer_instance

instance (name : String) (v : Value) : Airs Leaves (write name v) := by unfold write; infer_instance

instance (topic message : String) : Airs P (emit topic message) := by unfold emit; infer_instance

instance (f : Condition → Condition) (c : Condition) : Airs P (placed f c) := by unfold placed; infer_instance

theorem airs_inContext {x : Play α} (hx : Airs P x) (f : Condition → Condition) : Airs P (inContext x f) := by
  refine .recover hx fun e he => ?_
  split
  · infer_instance
  · exact .throw he

instance (v : Value) : Airs Leaves (storeResult v) := by unfold storeResult; infer_instance

instance : Airs P requestCancel := by unfold requestCancel; infer_instance

instance : Airs P requestPause := by unfold requestPause; infer_instance

instance (f : Module.Loader → Module.Loader) : Airs P (onLoader f) := by unfold onLoader; infer_instance

/-! ## Functions and modules: every failure becomes a condition, unless it interrupts -/

instance [Admits P] (o : Outer) (e : Entry) (supplied : List Supplied) (piped : Option Value) (asStatement : Bool)
    (line : Option Nat) : Airs P (apply o e supplied piped asStatement line) := by
  unfold apply
  extract_lets place call
  have hcall (a : Arguments) : Airs P (call a) := by
    have hperform : Airs P (tryCatch (perform o e a) fun signal => match signal with
        | .problem (.condition c) => do raise (← placed place c)
        | .problem (.failure f) =>
          if f.interrupts then failure f
          else raise { cause := .functionFailed e.name f, line := line, function := some e.name }
        | signal => throw signal) := by
      refine .recover (.any _) fun signal _ => ?_
      match signal with
      | .problem (.condition c) => infer_instance
      | .problem (.failure f) =>
        dsimp only
        split
        · exact airs_failure ‹_›
        · infer_instance
      | .leave | .iterate | .ret _ | .exit _ | .jump _ _ | .exhausted => exact .throw fun _ h => nomatch h
    unfold call
    infer_instance
  clear_value call
  split <;> infer_instance

instance (identifier : String) (base : Option String) : Airs P (locate identifier base) := by
  refine ⟨fun m => ?_⟩
  obtain ⟨sought, hlocate⟩ := Module.locate_apply m (identifier, base)
  rw [hlocate]
  split
  · exact trivial
  · exact fun _ h => nomatch h

instance (x : Play (Table String Entry)) : Airs P (outcome x) := by
  refine .recover (.any _) fun signal _ => ?_
  match signal with
  | .problem p => infer_instance
  | .leave | .iterate | .ret _ | .exit _ | .jump _ _ | .exhausted => exact .throw fun _ h => nomatch h

instance [Admits P] (ended : Except Problem (Table String Entry)) (result : Module.Outcome) :
    Airs P (release ended result) := by
  unfold release
  split
  · split
    · exact airs_failure ‹_›
    · infer_instance
  · infer_instance

instance [Admits P] (o : Outer) (identifier : String) (base : Option String) (stack : Module.Stack) :
    Airs P (load o identifier base stack) := by
  unfold load
  refine .andThen fun l => .andThen fun w => ?_
  split
  · infer_instance
  · infer_instance
  · refine .andThen fun _ => .andThen fun w => ?_
    split
    · infer_instance
    · exact .throw fun _ h => nomatch h
  · infer_instance

instance [Admits P] (n : Nat) (identifier : String) (base : Option String) (stack : Module.Stack) :
    Airs P ((outer n).load identifier base stack) := by
  cases n with
  | zero => exact .throw fun _ h => nomatch h
  | succ n => exact inferInstanceAs (Airs P (load (outer n) identifier base stack))

instance [Admits P] (n : Nat) (identifier : String) (line : Option Nat) : Airs P (requireModule (outer n) identifier line) := by
  have hhere : Airs P (requireHere (outer n) identifier) := by
    unfold requireHere requireDependency
    refine .andThen fun s => ?_
    split <;> infer_instance
  have hplaced := airs_inContext hhere fun c => c.atLine line
  unfold requireModule
  infer_instance

/-! ## Requests -/

instance (error : Tree) : Airs Leaves (refused error) := by unfold refused; infer_instance

instance (number : Nat) (method : String) (payload : Value) (r : Address.Request) (limit : Option Number) :
    Airs Leaves (askHandler number method payload r limit) := by
  have hmethods (m : Address.Methods) : Airs Leaves (callMethods m method payload r limit) := by
    unfold callMethods
    split
    · infer_instance
    · split
      case h_2 =>
        split
        · infer_instance
        · split <;> infer_instance
      all_goals infer_instance
  have hnext (replies : List Address.Reply) : Airs Leaves (nextReply number replies) := by
    unfold nextReply
    infer_instance
  unfold askHandler record
  refine .andThen fun w => ?_
  split
  · infer_instance
  · split
    · infer_instance
    · refine .andThen fun _ => ?_
      split <;> infer_instance

instance (domain : String) (r : Address.Reply) : Airs Leaves (coerce domain r) := by
  have hmalformed (v : Value) : Airs Leaves (coerce.malformed domain v) := by
    unfold coerce.malformed
    infer_instance
  unfold coerce
  split
  · infer_instance
  · split <;> infer_instance
  · infer_instance

instance (error : Tree) : Airs Leaves (errorMessage? error) := by
  unfold errorMessage?
  dsimp only
  split <;> infer_instance

instance (limit : Option Number) : Converts (limitText limit) := by
  unfold limitText
  split <;> infer_instance

instance (d : Address.Dispatcher) (domain : String) : Converts (d.handlerFor domain) := by
  unfold Address.Dispatcher.handlerFor
  split <;> infer_instance

instance (d : Address.Dispatcher) (domain mode rule : Option String) : Converts (d.switch domain mode rule) := by
  have hcompile (rule domain : String) : Converts (Address.Info.compile rule domain) := by
    unfold Address.Info.compile
    split <;> infer_instance
  unfold Address.Dispatcher.switch
  extract_lets native word
  split
  · infer_instance
  · split
    · infer_instance
    · refine .andThen fun found => ?_
      split
      extract_lets rule
      clear_value rule
      split
      · infer_instance
      · split <;> infer_instance
      · infer_instance

instance (p : Problem) : Converts p.shown := by
  unfold Problem.shown
  split
  · split
    · exact .error rfl
    · infer_instance
  · infer_instance

instance (p : Problem) (place : Condition → Condition) : Airs Leaves (invoke.wrapped p place) := by
  unfold invoke.wrapped
  infer_instance

instance (method : String) (payload : Value) (mode : Option String) (line : Option Nat) (delimiter domain : Option String) :
    Airs Leaves (invoke method payload mode line delimiter domain) := by
  unfold invoke
  refine .andThen fun s => .andThen fun found => ?_
  extract_lets mode place
  split
  extract_lets late
  have hlate : Airs Leaves late := by
    unfold late
    infer_instance
  refine .andThen fun answer => ?_
  split
  · infer_instance
  · infer_instance
  · next p _ =>
    split
    · next hinterrupts =>
      cases p with
      | condition c => cases hinterrupts
      | failure f => exact airs_failure hinterrupts
    · infer_instance
  · refine .andThen fun parts => ?_
    split
    split
    · infer_instance
    · refine .andThen fun error => .andThen fun message => ?_
      split <;> infer_instance

instance (method : String) (payload : Value) (mode : Option String) (line : Option Nat) (delimiter domain : Option String) :
    Airs Leaves (dispatch method payload mode line delimiter domain) := by
  unfold dispatch
  infer_instance

/-! ## Expressions -/

instance (s : String) : Airs Leaves (interpolate s) := by unfold interpolate; infer_instance

instance (s : String) : Airs Leaves (segment s) := by unfold segment; infer_instance

instance (r : Syntax.Ref) : Airs Leaves (tailOf r) := by unfold tailOf; infer_instance

instance (r : Syntax.Ref) : Airs Leaves (readRef r) := by unfold readRef; infer_instance

instance (r : Syntax.Ref) (v : Value) : Airs Leaves (writeRef r v) := by unfold writeRef; infer_instance

instance (b : Syntax.BlockLiteral) : Airs Leaves (blockValue b) := by
  unfold blockValue
  refine .andThen fun s => ?_
  split
  · infer_instance
  · next format _ =>
    let Q (f : Failure) : Prop := Leaves f ∨ f.isUnread = true
    have hread : Airs Q (liftE (Structured.parse s format)) := (airs_liftE _).mono fun _ => .inr
    have hplant (t : Tree) : Airs Q (do normalize (← plant t)) :=
      Airs.mono (inferInstance : Airs Leaves _) fun _ => .inl
    refine .recover (Airs.andThen hplant) fun signal hsignal => ?_
    split
    · next f =>
      split
      · infer_instance
      · next hmalformed =>
        refine .throw fun f' h => ?_
        cases h
        rcases hsignal f rfl with hleaves | hunread
        · exact hleaves
        · exact .inr (.inl (Failure.lookupFailed_of_isUnread hunread (by simpa using hmalformed)))
    · next hother => exact .throw fun f h => absurd h (hother f)

instance (name : String) : Airs P (localEntry name) := by unfold localEntry; infer_instance

instance [Admits P] (n : Nat) (name : String) (line : Option Nat) : Airs P (resolve (outer n) name line) := by
  unfold resolve
  extract_lets unknown
  have hunknown (e : Option Entry) : Airs P (unknown e) := by
    unfold unknown
    split <;> infer_instance
  clear_value unknown
  refine .andThen fun found => ?_
  split
  · infer_instance
  · refine .andThen fun s => ?_
    split
    · infer_instance
    · refine .andThen fun _ => .andThen fun found => ?_
      split <;> infer_instance

instance (op : Syntax.BinaryOp) (line : Nat) (a b : Value) : Airs Leaves (binary op line a b) := by
  unfold binary
  refine .andThen fun x => .andThen fun y => ?_
  have hoperator : Computes (Operator.binary op x y) := inferInstance
  split
  · infer_instance
  · infer_instance
  · next f hf =>
    split
    · infer_instance
    · next harithmetic =>
      have hover := (hoperator.holds _ hf f rfl).resolve_right harithmetic
      exact .throw fun f' h => .inl (by cases h; exact hover)

instance (op : Syntax.UnaryOp) (line : Nat) (a : Value) : Airs Leaves (unary op line a) := by
  unfold unary
  split
  · infer_instance
  refine .andThen fun x => ?_
  have hoperator (op : Syntax.UnaryOp) : Converts (Operator.unary op x) := inferInstance
  split
  · infer_instance
  · infer_instance
  · next f hf => exact .throw fun f' h => .inl ((hoperator _).holds _ hf f' (by cases h; rfl))

mutual
theorem eval_airs (n : Nat) (e : Expr) : Airs Leaves (eval (outer n) e) := by
  match e with
  | .literal (.number n) _ => rw [eval]; infer_instance
  | .literal (.text s interpolated) _ => rw [eval]; infer_instance
  | .ref r => rw [eval]; infer_instance
  | .unary op operand pos =>
    have hoperand := eval_airs n operand
    rw [eval]
    infer_instance
  | .binary op left right pos =>
    have hleft := eval_airs n left
    have hright := eval_airs n right
    by_cases hand : op = .and
    · subst hand
      rw [eval]
      infer_instance
    by_cases hor : op = .or
    · subst hor
      rw [eval]
      infer_instance
    · rw [eval]
      · infer_instance
      · exact hand
      · exact hor
  | .call name args pos =>
    have hargs := evalArgs_airs n args
    rw [eval]
    infer_instance
  | .pipe left name args callPos pos =>
    have hleft := eval_airs n left
    have hargs := evalArgs_airs n args
    rw [eval]
    infer_instance

theorem evalArgs_airs (n : Nat) (args : List (Option String × Expr)) : Airs Leaves (evalArgs (outer n) args) := by
  match args with
  | [] => rw [evalArgs]; infer_instance
  | (name, e) :: rest =>
    have he := eval_airs n e
    have hrest := evalArgs_airs n rest
    rw [evalArgs]
    infer_instance
end

attribute [instance] eval_airs evalArgs_airs

/-! ## Single statements -/

section

variable (n : Nat)

instance (name : String) (args : List Syntax.Arg) (asStatement : Bool) (line : Nat) :
    Airs Leaves (callNamed (outer n) name args asStatement line) := by
  unfold callNamed
  infer_instance

instance (label : String) (line : Option Nat) : Airs P (labelIndex label line) := by
  unfold labelIndex
  refine .andThen fun s => ?_
  split <;> infer_instance

instance : Airs P isPaused := by unfold isPaused; infer_instance

instance : Airs P isCancelled := by unfold isCancelled; infer_instance

instance : Airs P isDue := by unfold isDue; infer_instance

instance [Admits P] (c : Play Bool) [Airs P c] : Airs P (yieldIf c) := by unfold yieldIf; infer_instance

instance (p : Syntax.Place) : Airs P (withhold p) := by unfold withhold; infer_instance

instance [Admits P] (p : Syntax.Place) : Airs P (checkpoint p) := by unfold checkpoint; infer_instance

instance : Airs P isDefault := by unfold isDefault; infer_instance

instance : Airs P mode := by unfold mode; infer_instance

instance (send : Play Value) [Airs Leaves send] : Airs Leaves (request send) := by unfold request; infer_instance

instance (b : Syntax.BlockLiteral) : Airs Leaves (sendBlock b) := by unfold sendBlock; infer_instance

instance (c : Syntax.CommandForm) (line : Nat) : Airs Leaves (sendForm (outer n) c line) := by
  unfold sendForm requestArgs
  infer_instance

instance (e : Option Expr) (raw : String) : Airs Leaves (commandText (outer n) e raw) := by
  unfold commandText
  split <;> infer_instance

instance (command : String) (line : Nat) (domain : Option String) : Airs Leaves (sendCommand command line domain) := by
  unfold sendCommand
  infer_instance

instance (p : Syntax.Place) : Airs Leaves (sendMatched p) := by
  unfold sendMatched
  refine .andThen fun s => ?_
  split <;> infer_instance

instance (r : Syntax.Ref) : Airs Leaves (isBareMethod r) := by unfold isBareMethod; infer_instance

instance (source : Syntax.Source) (line : Nat) : Airs Leaves (sourceValue (outer n) source line) := by
  unfold sourceValue
  split <;> infer_instance

instance (action : Syntax.AddressAction) (line : Nat) : Airs Leaves (addressTo (outer n) action line) := by
  unfold addressTo
  extract_lets switch act
  have hswitch (domain mode rule : Option String) : Airs Leaves (switch domain mode rule) := by
    unfold switch
    infer_instance
  have hact : Airs Leaves act := by
    unfold act
    clear_value switch
    split
    · infer_instance
    · dsimp only
      split <;> infer_instance
    · infer_instance
  exact airs_inContext hact _

instance (action : Syntax.SignalAction) (line : Nat) : Airs P (signalWith action line) := by
  unfold signalWith
  split
  · infer_instance
  · infer_instance
  · exact .andThen fun _ => .throw fun _ h => nomatch h

instance (action : Syntax.InterpolationAction) (line : Nat) : Airs P (setInterpolation action line) := by
  unfold setInterpolation
  refine .andThen fun s => ?_
  extract_lets engine outcome
  clear_value outcome
  split <;> infer_instance

instance bindArguments_airs (names : List String) (vs : List Value) : Airs Leaves (bindArguments names vs) := by
  fun_induction bindArguments names vs <;> infer_instance

instance (expr : Option Expr) (command : Option Syntax.CommandForm) (error : Option Condition) (p : Syntax.Place) :
    Airs Leaves (execClause (outer n) expr command error p) := by
  unfold execClause
  refine .andThen fun m => .andThen fun isDefault => ?_
  split
  · split
    · infer_instance
    · dsimp only
      split <;> infer_instance
  · extract_lets raw
    have hraw : Airs Leaves raw := by
      unfold raw
      infer_instance
    clear_value raw
    split <;> infer_instance

/-! ## Loops -/

section

variable (body : Play Unit) [hbody : Airs Leaves body]

instance : Airs Leaves (round body) := by
  refine .recover (inferInstance : Airs Leaves _) fun signal hsignal => ?_
  split
  · infer_instance
  · infer_instance
  · exact .throw hsignal

omit hbody in
theorem rounds_airs (step : Play Bool) [Airs Leaves step] (k : Nat) : Airs Leaves (rounds step k) := by
  induction k with
  | zero => exact .throw fun _ h => nomatch h
  | succ k ih => rw [rounds]; infer_instance

instance times_airs (k : Nat) : Airs Leaves (times body k) := by
  induction k with
  | zero => rw [times]; infer_instance
  | succ k ih => rw [times]; infer_instance

instance eachItem_airs (r : String × List Tree) (vs : List Value) : Airs Leaves (eachItem r body vs) := by
  induction vs with
  | nil => rw [eachItem]; infer_instance
  | cons v rest ih => rw [eachItem]; infer_instance

instance rangeFrom_airs (r : String × List Tree) (stop : Option Number) (step : Number) (k : Nat) (current : Number) :
    Airs Leaves (rangeFrom r stop step body k current) := by
  induction k generalizing current with
  | zero => exact .throw fun _ h => nomatch h
  | succ k ih =>
    unfold rangeFrom
    extract_lets within
    clear_value within
    infer_instance

instance (k : Number) (line : Nat) : Airs Leaves (countOf k line) := by unfold countOf; infer_instance

instance (var : Syntax.Ref) (collection : Expr) (line : Nat) : Airs Leaves (loopOver (outer n) var collection line body) := by
  unfold loopOver
  refine .andThen fun v => ?_
  split <;> infer_instance

instance (var : Syntax.Ref) (start : Expr) (stop step : Option Expr) (line : Nat) :
    Airs Leaves (loopRange (outer n) var start stop step line body) := by
  unfold loopRange
  refine .andThen fun tail => .andThen fun s => .andThen fun first => ?_
  extract_lets withStop
  have hstop (limit : Option Number) : Airs Leaves (withStop limit) := by
    unfold withStop
    extract_lets withStep
    have hstep (width : Number) : Airs Leaves (withStep width) := by
      unfold withStep
      infer_instance
    clear_value withStep
    split <;> infer_instance
  clear_value withStop
  split <;> infer_instance

instance (head : Syntax.LoopHead) (line : Nat) : Airs Leaves (runLoop (outer n) head line body) := by
  unfold runLoop
  split
  case h_2 => exact rounds_airs _ _
  case h_4 => exact rounds_airs _ _
  case h_5 => exact rounds_airs _ _
  all_goals infer_instance

instance : Airs Leaves (inLoop body) := by unfold inLoop; infer_instance

end

theorem loopSignal_airs {signal : Signal} (h : signal.Airs P) (action : String) (line : Nat) :
    Airs P (loopSignal signal action line) := by
  have hsignal : Airs P (throw signal : Play Unit) := .throw h
  unfold loopSignal
  infer_instance

end

/-! ## Statements -/

instance (p : Syntax.Place) (sendable : Bool) (body : Play Unit) [Airs Leaves body] : Airs Leaves (atPlace p sendable body) := by
  unfold atPlace
  infer_instance

mutual
theorem exec_airs (n : Nat) (s : Statement) : Airs Leaves (exec (outer n) s) := by
  match s with
  | .assign target source _ p => rw [exec]; infer_instance
  | .say e p => rw [exec]; infer_instance
  | .cond condition thenBody elseBody p =>
    have hthen := execAll_airs n thenBody
    have helse := execAll_airs n elseBody
    rw [exec]
    infer_instance
  | .loop head body p =>
    have hbody := execAll_airs n body
    rw [exec]
    infer_instance
  | .leave p =>
    have hleave : Signal.leave.Airs Leaves := fun _ h => nomatch h
    have := loopSignal_airs hleave "LEAVE" p.line
    rw [exec]
    infer_instance
  | .iterate p =>
    have hiterate : Signal.iterate.Airs Leaves := fun _ h => nomatch h
    have := loopSignal_airs hiterate "ITERATE" p.line
    rw [exec]
    infer_instance
  | .call name args p => rw [exec]; infer_instance
  | .address action p => rw [exec]; infer_instance
  | .block literal p => rw [exec]; infer_instance
  | .signal action p => rw [exec]; infer_instance
  | .ret value exit p =>
    have hret (v : Value) : Airs Leaves (throw (if exit then .exit v else .ret v) : Play Unit) := by
      split <;> exact .throw fun _ h => nomatch h
    rw [exec]
    cases value <;> infer_instance
  | .label _ p => rw [exec]; infer_instance
  | .arg names p => rw [exec]; infer_instance
  | .require identifier p => rw [exec]; infer_instance
  | .interpolation action p => rw [exec]; infer_instance
  | .clause expr command error p => rw [exec]; infer_instance
  | .nop p => rw [exec]; infer_instance

theorem execAll_airs (n : Nat) (body : List Statement) : Airs Leaves (execAll (outer n) body) := by
  match body with
  | [] => rw [execAll]; infer_instance
  | s :: rest =>
    have hs := exec_airs n s
    have hrest := execAll_airs n rest
    rw [execAll]
    infer_instance
end

attribute [instance] execAll_airs

/-! ## Programs -/

instance (c : Condition) : Airs Leaves (describe c) := by
  unfold describe
  extract_lets line
  refine .andThen fun _ => .andThen fun _ => .andThen fun _ => .andThen fun _ => ?_
  infer_instance

instance (c : Condition) (label : String) : Airs Leaves (takeTrap c label) := by
  unfold takeTrap
  refine .andThen fun s => ?_
  extract_lets line
  refine .andThen fun c => ?_
  extract_lets trap rest halt
  have hrest (u : Unit) : Airs Leaves (rest u) := by
    unfold rest
    infer_instance
  have hhalt (u : Unit) : Airs Leaves (halt u) := by
    unfold halt
    infer_instance
  clear_value rest halt
  infer_instance

instance (n : Nat) (body : List Statement) : Airs Leaves (stretch (outer n) body) := by
  refine .recover (inferInstance : Airs Leaves _) fun signal hsignal => ?_
  unfold stopOn
  split
  · infer_instance
  · infer_instance
  · refine .andThen fun s => ?_
    split
    · infer_instance
    · exact .throw hsignal
  · exact .throw hsignal

instance topLevel_airs (n : Nat) (stopAtLabel : Bool) (k index : Nat) :
    Airs Leaves (topLevel (outer n) stopAtLabel k index) := by
  induction k generalizing index with
  | zero => exact .throw fun _ h => nomatch h
  | succ k ih =>
    unfold topLevel statementsFrom
    refine .andThen fun rest => .andThen fun stop => ?_
    split <;> infer_instance

instance : Airs P raiseHalted := by
  unfold raiseHalted
  refine .andThen fun s => ?_
  split <;> infer_instance

instance (n : Nat) (p : Program) (args : List Value) (stopAtLabel cancelFirst : Bool) :
    Airs Leaves (runProgram (outer n) p args stopAtLabel cancelFirst) := by
  have hexit (x : Play Value) [hx : Airs Leaves x] : Airs Leaves (untilExit x) := by
    refine .recover hx fun signal hsignal => ?_
    split
    · infer_instance
    · exact .throw hsignal
  unfold runProgram loadProgram
  refine .andThen fun _ => .andThen fun _ => .andThen fun s => ?_
  extract_lets run
  have hrun (u : Unit) : Airs Leaves (run u) := by
    unfold run
    infer_instance
  clear_value run
  infer_instance

end Play

end Conductor
