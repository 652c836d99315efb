import Conductor.Proofs.Run.Retained

/-!
# Which variables a computation spares

An expression has a value and may do much on its way there: it calls functions and routines,
loads modules, asks handlers. None of this writes a variable of the session that it is
evaluated in, because a routine has a scope of its own and a module a session of its own, and
what they leave is the scope that was there before them. So the variables are the same before
and after, however the evaluation ends and whatever others do while it waits. An assignment
spares all variables but one.

This is found by the shape of a computation, for all variables or for what some view shows of
them. Only what reaches out of the session, which is left with the scope that was there before,
is looked at as a whole.
-/

set_option autoImplicit false

namespace Conductor

/-! ## Work on a memory -/

namespace Memory

/-- Work that leaves as it is what is seen of the variables. -/
class Spares {γ : Type} (view : Scope → γ) {α : Type} (act : Act α) : Prop where
  keeps : ∀ mem, match act mem with
    | .ok _ mem' => view mem'.scope = view mem.scope
    | .error _ mem' => view mem'.scope = view mem.scope

namespace Spares

variable {α β γ : Type} {view : Scope → γ}

instance (a : α) : Spares view (pure a : Act α) := ⟨fun _ => rfl⟩

instance (p : Problem) : Spares view (throw p : Act α) := ⟨fun _ => rfl⟩

instance : Spares view (get : Act Memory) := ⟨fun _ => rfl⟩

theorem onStore (f : Memory → Store) : Spares view (modify fun m : Memory => { m with store := f m }) := ⟨fun _ => rfl⟩

instance (x : Act α) (k : α → Act β) [hx : Spares view x] [hk : ∀ a, Spares view (k a)] : Spares view (x >>= k) := by
  refine ⟨fun mem => ?_⟩
  have hmem := hx.keeps mem
  change match EStateM.bind x k mem with
    | .ok _ mem' => view mem'.scope = view mem.scope
    | .error _ mem' => view mem'.scope = view mem.scope
  unfold EStateM.bind
  cases hr : x mem with
  | error p mem' =>
    rw [hr] at hmem
    exact hmem
  | ok a mem' =>
    rw [hr] at hmem
    have hrest := (hk a).keeps mem'
    dsimp only
    cases hb : k a mem' with
    | ok b mem'' =>
      rw [hb] at hrest
      exact hrest.trans hmem
    | error p mem'' =>
      rw [hb] at hrest
      exact hrest.trans hmem

theorem andThen {x : Act α} {k : α → Act β} [Spares view x] (hk : ∀ a, Spares view (k a)) : Spares view (x >>= k) :=
  inferInstance

instance (f : α → β) (x : Act α) [Spares view x] :
    Spares view (f <$> x) := inferInstanceAs (Spares view (x >>= fun a => pure (f a)))

instance (c : Prop) [Decidable c] (x y : Act α) [Spares view x] [Spares view y] : Spares view (if c then x else y) := by
  split <;> infer_instance

instance mapM (f : α → Act β) [hf : ∀ a, Spares view (f a)] (l : List α) : Spares view (l.mapM f) := by
  induction l with
  | nil => rw [List.mapM_nil]; infer_instance
  | cons a l ih => rw [List.mapM_cons]; infer_instance

end Spares

variable {α γ : Type} {view : Scope → γ}

instance (f : Failure) : Spares view (fail f : Act α) := inferInstanceAs (Spares view (throw _))

instance (x : Except Failure α) : Spares view (liftE x) := by cases x <;> unfold liftE <;> infer_instance

instance (x : Except Problem α) : Spares view (liftP x) := by cases x <;> unfold liftP <;> infer_instance

instance (f : Store → Except Failure (α × Store)) : Spares view (withStore f) := by
  unfold withStore
  refine .andThen fun mem => ?_
  split
  · next store _ =>
    have hset : Spares view (modify fun m : Memory => { m with store := store }) := .onStore _
    infer_instance
  · infer_instance

instance (v : Value) : Spares view (tree v) := by unfold tree; infer_instance

instance (s : Stem Value) : Spares view (alloc s) := by unfold alloc; infer_instance

instance (t : Tree) : Spares view (plant t) := by unfold plant; infer_instance

instance (v : Value) : Spares view (copy v) := by unfold copy; infer_instance

instance (v : Value) : Spares view (normalize v) := by unfold normalize; infer_instance

instance (a : Address) : Spares view (stem a) := by unfold stem; infer_instance

instance (key : Tree) : Spares view (keyed key) := by unfold keyed; infer_instance

instance (a : Address) (key : Key) : Spares view (stemGet a key) := by unfold stemGet; infer_instance

instance (a : Address) (key : Key) (v : Value) : Spares view (stemSet a key v) := by
  unfold stemSet
  have hset (s : Stem Value) : Spares view (modify fun m : Memory => { m with store := m.store.set a s }) := .onStore _
  infer_instance

instance descend_spares (v : Value) (tail : List Tree) : Spares view (descend v tail) := by
  induction tail generalizing v with
  | nil => rw [descend]; infer_instance
  | cons key rest ih => cases v <;> simp only [descend] <;> infer_instance

instance (name : String) (tail : List Tree) : Spares view (read name tail) := by unfold read; infer_instance

instance (name : String) : Spares view (has name) := by unfold has; infer_instance

instance (reference : String) : Spares view (readPath reference) := by
  unfold readPath
  split <;> infer_instance

instance (a : Address) (key : Tree) : Spares view (childStem a key) := by
  unfold childStem
  refine .andThen fun k => .andThen fun v => ?_
  split
  · infer_instance
  · refine .andThen fun v => ?_
    split <;> infer_instance

instance writeBelow_spares (v : Value) (a : Address) (tail : List Tree) : Spares view (writeBelow v a tail) := by
  induction tail generalizing a with
  | nil => rw [writeBelow]; infer_instance
  | cons key rest ih => cases rest <;> simp only [writeBelow] <;> infer_instance

instance (p : Interpolation.Pattern) (part : Interpolation.Part) : Spares view (part.filled p readPath) := by
  unfold Interpolation.Part.filled
  split
  · infer_instance
  · split <;> infer_instance

instance (p : Interpolation.Pattern) (s : String) : Spares view (Interpolation.apply p s) := by
  unfold Interpolation.apply Interpolation.fill
  infer_instance

theorem bind_spares {key other : String} (h : other ≠ key) (v : Value) :
    Spares (fun scope => scope.get? other) (bind key v) := ⟨fun mem => Table.get?_put_of_ne h v mem.scope⟩

theorem write_spares {name other : String} (h : binding name ≠ .ok other) (v : Value) (tail : List Tree) :
    Spares (fun scope => scope.get? other) (write name v tail) := by
  cases hname : binding name with
  | error f =>
    have hwrite : write name v tail = fail f := by simp only [write, hname]; rfl
    rw [hwrite]
    infer_instance
  | ok key =>
    have hbind (w : Value) : Spares (fun scope => scope.get? other) (bind key w) :=
      bind_spares (fun heq => h (hname.trans (congrArg _ heq.symm))) w
    simp only [write, hname, liftE, pure_bind]
    split
    · infer_instance
    · refine .andThen fun mem => ?_
      split
      · infer_instance
      · refine .andThen fun w => ?_
        split <;> infer_instance

end Memory

/-! ## Computations -/

/-- A computation that leaves as it is what is seen of the variables of its session. -/
class Spares {γ : Type} (view : Scope → γ) {α : Type} (x : Play α) : Prop where
  keeps : ∀ m, (x m).Meets (amid fun _ _ => True) (fun _ _ m' => view m'.session.scope = view m.session.scope)
    (fun _ _ m' => view m'.session.scope = view m.session.scope) ()

namespace Spares

variable {α β γ : Type} {view : Scope → γ}

instance (priority := low) of_retains (x : Play α) [hx : Retains (fun s => view s.scope) x] : Spares view x := ⟨hx.keeps⟩

instance (a : α) : Spares view (pure a) := of_retains _

instance (e : Signal) : Spares view (throw e : Play α) := of_retains _

theorem andThen {x : Play α} {k : α → Play β} [hx : Spares view x] (hk : ∀ a, Spares view (k a)) :
    Spares view (x >>= k) := by
  refine ⟨fun m => Run.meets_bind.mpr ((hx.keeps m).mono (amid_monotone _) (fun a _ m' h => ?_) fun _ _ _ => id)⟩
  exact ((hk a).keeps m').mono (amid_monotone _) (fun _ _ _ h' => h'.trans h) fun _ _ _ h' => h'.trans h

instance (x : Play α) (k : α → Play β) [Spares view x] [hk : ∀ a, Spares view (k a)] :
    Spares view (x >>= k) := andThen hk

theorem recover {x : Play α} {k : Signal → Play α} (hx : Spares view x) (hk : ∀ e, Spares view (k e)) :
    Spares view (tryCatch x k) := by
  refine ⟨fun m => Run.meets_tryCatch.mpr ((hx.keeps m).mono (amid_monotone _) (fun _ _ _ => id) fun e _ m' h => ?_)⟩
  exact ((hk e).keeps m').mono (amid_monotone _) (fun _ _ _ h' => h'.trans h) fun _ _ _ h' => h'.trans h

instance (f : α → β) (x : Play α) [Spares view x] :
    Spares view (f <$> x) := inferInstanceAs (Spares view (x >>= fun a => pure (f a)))

instance (x : Play α) [Spares view x] :
    Spares view (discard x) := inferInstanceAs (Spares view ((fun _ => PUnit.unit) <$> x))

instance (c : Prop) [Decidable c] (x y : Play α) [Spares view x] [Spares view y] :
    Spares view (if c then x else y) := by
  split <;> infer_instance

instance mapM (f : α → Play β) [hf : ∀ a, Spares view (f a)] (l : List α) : Spares view (l.mapM f) := by
  induction l with
  | nil => rw [List.mapM_nil]; infer_instance
  | cons a l ih => rw [List.mapM_cons]; infer_instance

instance foldlM (f : β → α → Play β) [hf : ∀ b a, Spares view (f b a)] (l : List α) (b : β) :
    Spares view (l.foldlM f b) := by
  induction l generalizing b with
  | nil => rw [List.foldlM_nil]; infer_instance
  | cons a l ih => rw [List.foldlM_cons]; infer_instance

theorem onSession (f : Session → Session) (hf : ∀ s, view (f s).scope = view s.scope) :
    Spares view (Play.modifySession f) :=
  ⟨fun m => hf m.session⟩

instance (act : Memory.Act α) [ha : Memory.Spares view act] : Spares view (Play.memory act) := by
  refine ⟨fun m => ?_⟩
  have hmem := ha.keeps { scope := m.session.scope, store := m.world.store }
  simp only [Play.memory]
  split
  · next h =>
    rw [h] at hmem
    exact hmem
  · next h =>
    rw [h] at hmem
    exact hmem

end Spares

namespace Play

variable {α γ : Type} {view : Scope → γ}

/-! ### The state -/

instance (f : Failure) : Spares view (failure f : Play α) := .of_retains _

instance (v : Value) : Spares view (tree v) := by unfold tree; infer_instance

instance (v : Value) : Spares view (text v) := by unfold text; infer_instance

instance (v : Value) : Spares view (number v) := by unfold number; infer_instance

instance (v : Value) : Spares view (truthy v) := by
  unfold truthy
  split <;> infer_instance

instance (t : Tree) : Spares view (plant t) := by unfold plant; infer_instance

instance (v : Value) : Spares view (normalize v) := by unfold normalize; infer_instance

instance (topic message : String) : Spares view (emit topic message) := .onSession _ fun _ => rfl

instance (x : Play α) (f : Condition → Condition) [hx : Spares view x] : Spares view (inContext x f) := by
  refine .recover hx fun e => ?_
  split <;> infer_instance

instance (x : Play α) [Spares view x] : Spares view x.awaited := by
  unfold awaited
  infer_instance

/-! ### Requests -/

instance (error : Tree) : Spares view (refused error) := by unfold refused; infer_instance

instance (m : Address.Methods) (method : String) (payload : Value) (r : Address.Request) (limit : Option Number) :
    Spares view (callMethods m method payload r limit) := by
  unfold callMethods
  split
  · infer_instance
  · split
    · infer_instance
    · next p _ =>
      by_cases hp : p.interrupts = true
      · rw [if_pos hp]
        infer_instance
      · rw [if_neg hp]
        split <;> infer_instance
    all_goals infer_instance

instance (number : Nat) (replies : List Address.Reply) : Spares view (nextReply number replies) := by
  unfold nextReply
  infer_instance

instance (number : Nat) (method : String) (payload : Value) (r : Address.Request) :
    Spares view (record number method payload r) := by
  unfold record
  infer_instance

instance (number : Nat) (method : String) (payload : Value) (r : Address.Request) (limit : Option Number) :
    Spares view (askHandler number method payload r limit) := by
  unfold askHandler
  refine .andThen fun w => ?_
  split
  · infer_instance
  · split
    · infer_instance
    · refine .andThen fun _ => ?_
      split <;> infer_instance

instance (domain : String) (v : Value) : Spares view (coerce.malformed domain v) := by
  unfold coerce.malformed
  infer_instance

instance (domain : String) (r : Address.Reply) : Spares view (coerce domain r) := by
  unfold coerce
  split
  · infer_instance
  · split <;> infer_instance
  · infer_instance

instance (error : Tree) : Spares view (errorMessage? error) := by
  unfold errorMessage?
  dsimp only
  split <;> infer_instance

instance (p : Problem) (place : Condition → Condition) : Spares view (invoke.wrapped p place) := by
  unfold invoke.wrapped
  infer_instance

instance (method : String) (payload : Value) (mode : Option String) (line : Option Nat) (delimiter domain : Option String) :
    Spares view (invoke method payload mode line delimiter domain) := by
  unfold invoke
  refine .andThen fun s => .andThen fun found => ?_
  extract_lets mode place
  split
  extract_lets late
  refine .andThen fun answer => ?_
  split
  · infer_instance
  · infer_instance
  · infer_instance
  · refine .andThen fun parts => ?_
    split
    split
    · infer_instance
    · refine .andThen fun error => .andThen fun message => ?_
      split <;> infer_instance

instance (method : String) (payload : Value) (mode : Option String) (line : Option Nat) (delimiter domain : Option String) :
    Spares view (dispatch method payload mode line delimiter domain) :=
  inferInstanceAs (Spares view (invoke method payload mode line delimiter domain).awaited)

instance (channel : Channel) (message : Tree) : Spares view (ask channel message) := by
  unfold ask
  split <;> infer_instance

instance (channel : Channel) (name : String) (a : Arguments) : Spares view (callRemote channel name a) := by
  unfold callRemote
  refine .andThen fun placed => .andThen fun named => .andThen fun message => .andThen fun reply => .andThen fun t => ?_
  split
  · split
    · infer_instance
    · extract_lets error refuse
      have hrefuse (e : Tree) : Spares view (refuse e) := by unfold refuse; infer_instance
      clear_value error
      split <;> infer_instance
  · infer_instance

/-! ### Functions -/

instance (n : Number) : Spares view (isWholeNumber n) := by unfold isWholeNumber; infer_instance

instance (v : Value) (what : String) : Spares view (whole v what) := by
  unfold whole
  refine .andThen fun _ => .andThen fun i => ?_
  split <;> infer_instance

instance (v : Value) (function : String) : Spares view (stem v function) := by
  unfold stem
  split <;> infer_instance

instance (v : Value) : Spares view (chars v) := by unfold chars; infer_instance

instance (n : Int) : Spares view (checkLength n) := by unfold checkLength; infer_instance

instance (g : Given) : Spares view (padOf g) := by unfold padOf; infer_instance

instance (v : Value) : Spares view (firstUpper v) := by unfold firstUpper; infer_instance

instance (a b : Number) : Spares view (powerValue a b) := by
  unfold powerValue
  refine .andThen fun z => ?_
  split <;> infer_instance

instance (beats : Number → Number → Bool) (function : String) (vs : List Value) :
    Spares view (best beats function vs) := by
  unfold best
  split <;> infer_instance

instance (g : Given) : Spares view (trunc g) := by unfold trunc; infer_instance

instance (g : Given) : Spares view (substr g) := by
  unfold substr
  refine .andThen fun s => .andThen fun start => ?_
  extract_lets piece cut
  have hcut (u : Unit) : Spares view (cut u) := by
    unfold cut
    split <;> infer_instance
  clear_value cut
  infer_instance

instance (g : Given) : Spares view (left g) := by unfold left; infer_instance

instance (g : Given) : Spares view (right g) := by unfold right; infer_instance

instance (g : Given) : Spares view (pos g) := by unfold pos; infer_instance

instance (g : Given) : Spares view (word g) := by unfold word; infer_instance

instance (g : Given) : Spares view (strip g) := by
  unfold strip
  refine .andThen fun s => .andThen fun given => ?_
  extract_lets set drop
  refine .andThen fun option => ?_
  split <;> infer_instance

instance (g : Given) : Spares view (copies g) := by unfold copies; infer_instance

instance (g : Given) : Spares view (split g) := by unfold split; infer_instance

instance (a : Address) : Spares view (itemsOf a) := by unfold itemsOf; infer_instance

instance (g : Given) : Spares view (arrayPush g) := by unfold arrayPush; infer_instance

instance (g : Given) : Spares view (arrayGet g) := by unfold arrayGet; infer_instance

instance (g : Given) : Spares view (arrayJoin g) := by unfold arrayJoin; infer_instance

instance (g : Given) : Spares view (jsonParse g) := by
  unfold jsonParse
  refine .andThen fun outcome => ?_
  split <;> infer_instance

instance (g : Given) : Spares view (yamlParse g) := by
  unfold yamlParse
  refine .andThen fun s => ?_
  split <;> infer_instance

instance (g : Given) : Spares view (jsonStringify g) := by unfold jsonStringify; infer_instance

instance (g : Given) : Spares view (fileRead g) := by unfold fileRead; infer_instance

instance (g : Given) : Spares view (fileWrite g) := by
  unfold fileWrite
  refine .andThen fun path => .andThen fun data => .andThen fun w => .andThen fun s => ?_
  split
  infer_instance

instance (g : Given) : Spares view (httpGet g) := by
  unfold httpGet
  refine .andThen fun limit => .andThen fun mode => ?_
  extract_lets timeout config
  refine .andThen fun known => ?_
  extract_lets fetch
  have hfetch (u : Unit) : Spares view (fetch u) := by
    unfold fetch
    refine .andThen fun url => .andThen fun t => ?_
    split <;> infer_instance
  clear_value fetch
  infer_instance

instance (g : Given) : Spares view (argument g) := by
  unfold argument
  refine .andThen fun s => ?_
  extract_lets args
  split <;> infer_instance

instance (name : String) : Spares view (localEntry name) := by unfold localEntry; infer_instance

instance (g : Given) : Spares view (symbol g) := by unfold symbol; infer_instance

instance (g : Given) : Spares view (datatype g) := by
  unfold datatype
  extract_lets v
  split
  · infer_instance
  · refine .andThen fun s => .andThen fun kind => ?_
    split <;> infer_instance

instance (g : Given) : Spares view (info g) := by
  unfold info
  refine .andThen fun name => .andThen fun e => ?_
  split <;> infer_instance

instance (b : Builtin) (a : Arguments) : Spares view (builtin b a) := by cases b <;> unfold builtin <;> infer_instance

/-! ## What lies around a program -/

end Play

theorem Spares.comes {α γ : Type} {view : Scope → γ} {G : World → World → Prop} {x : Play α} {m : Machine}
    {ending : Step.Ending Machine Signal α} (hx : Spares view x) (hc : (x m).Comes (Interlude G) ending) :
    view ending.state.session.scope = view m.session.scope := by
  have hends := (hx.keeps m).amid (G := G)
  cases ending with
  | done a m' => exact hends.comes_done hc
  | fail e m' => exact hends.comes_fail hc
  | stuck m' => exact hc.not_stuck.elim

class Outer.Spares {γ : Type} (view : Scope → γ) (o : Outer) : Prop where
  label : ∀ name a, Conductor.Spares view (o.label name a)
  moduleLabel : ∀ index label a, Conductor.Spares view (o.moduleLabel index label a)
  load : ∀ identifier base stack, Conductor.Spares view (o.load identifier base stack)

attribute [instance] Outer.Spares.label Outer.Spares.moduleLabel Outer.Spares.load

namespace Play

open Syntax (Expr)

variable {γ : Type} {view : Scope → γ} (o : Outer)

instance (f : HostFunction) (a : Arguments) : Spares view (callHost f a) := by
  unfold callHost
  split <;> infer_instance

instance : Spares view cancelRuns := by unfold cancelRuns; infer_instance

instance (op : Syntax.BinaryOp) (line : Nat) (a b : Value) : Spares view (binary op line a b) := by
  unfold binary
  refine .andThen fun x => .andThen fun y => ?_
  split <;> infer_instance

instance (op : Syntax.UnaryOp) (line : Nat) (a : Value) : Spares view (unary op line a) := by
  unfold unary
  split
  · infer_instance
  · refine .andThen fun x => ?_
    split <;> infer_instance

instance (s : String) : Spares view (interpolate s) := by unfold interpolate; infer_instance

instance (s : String) : Spares view (segment s) := by unfold segment; infer_instance

instance (r : Syntax.Ref) : Spares view (tailOf r) := by unfold tailOf; infer_instance

instance (r : Syntax.Ref) : Spares view (readRef r) := by unfold readRef; infer_instance

theorem writeRef_spares {r : Syntax.Ref} {other : String} (h : Memory.binding r.name ≠ .ok other) (v : Value) :
    Spares (fun scope => scope.get? other) (writeRef r v) := by
  have hwrite (tail : List Tree) := Memory.write_spares h v tail
  unfold writeRef
  infer_instance

instance (b : Syntax.BlockLiteral) : Spares view (sendBlock b) := by unfold sendBlock mode; infer_instance

instance (command : String) (line : Nat) (domain : Option String) : Spares view (sendCommand command line domain) := by
  unfold sendCommand
  infer_instance

section

variable [o.Spares view]

instance (location dep : String) (base : Option String) (stack : Module.Stack) :
    Spares view (requireDependency o location dep base stack) := by
  unfold requireDependency
  infer_instance

instance (identifier : String) : Spares view (requireHere o identifier) := by
  unfold requireHere
  refine .andThen fun s => ?_
  split <;> infer_instance

instance (identifier : String) (line : Option Nat) : Spares view (requireModule o identifier line) := by
  have hrequired (entries : List Entry) : Spares view (modifySession fun s =>
      { s with resolver := { s.resolver with required := s.resolver.required.addAll entries } }) :=
    .onSession _ fun _ => rfl
  unfold requireModule
  infer_instance

instance (name : String) (line : Option Nat) : Spares view (resolve o name line) := by
  unfold resolve
  extract_lets unknown
  have hunknown (e : Option Entry) : Spares view (unknown e) := by
    unfold unknown
    split <;> infer_instance
  refine .andThen fun found => ?_
  split
  · infer_instance
  · refine .andThen fun s => ?_
    split
    · infer_instance
    · refine .andThen fun _ => .andThen fun found => ?_
      split <;> infer_instance

instance (e : Entry) (a : Arguments) : Spares view (perform o e a) := by
  unfold perform
  extract_lets finish
  have hfinish (v : Value) : Spares view (finish v) := by unfold finish; infer_instance
  clear_value finish
  split
  case h_6 =>
    refine .andThen fun s => ?_
    split <;> infer_instance
  all_goals infer_instance

instance (e : Entry) (supplied : List Supplied) (piped : Option Value) (asStatement : Bool) (line : Option Nat) :
    Spares view (apply o e supplied piped asStatement line) := by
  unfold apply
  extract_lets place call
  have hcall (a : Arguments) : Spares view (call a) := by
    have hperform : Spares view (tryCatch (perform o e a) fun signal => match signal with
        | .problem (.condition c) => do raise (← placed place c)
        | .problem (.failure f) =>
          if f.interrupts then failure f
          else raise { cause := .functionFailed e.name f, line := line, function := some e.name }
        | signal => throw signal) := by
      refine .recover inferInstance fun signal => ?_
      split <;> infer_instance
    have hpush : Spares view (modifySession fun s => { s with calls := ⟨e.name, a.all⟩ :: s.calls }) := .onSession _ fun _ => rfl
    have hpop : Spares view (modifySession fun s => { s with calls := s.calls.tail }) := .onSession _ fun _ => rfl
    unfold call
    infer_instance
  clear_value call
  split <;> infer_instance

mutual
theorem eval_spares {γ : Type} (view : Scope → γ) (o : Outer) [o.Spares view] (e : Expr) : Spares view (eval o e) := by
  match e with
  | .literal (.number n) _ => rw [eval]; infer_instance
  | .literal (.text s interpolated) _ => rw [eval]; infer_instance
  | .ref r => rw [eval]; infer_instance
  | .unary op operand pos =>
    have hoperand := eval_spares view o operand
    rw [eval]
    infer_instance
  | .binary op left right pos =>
    have hleft := eval_spares view o left
    have hright := eval_spares view o right
    by_cases hand : op = .and
    · subst hand
      rw [eval]
      infer_instance
    by_cases hor : op = .or
    · subst hor
      rw [eval]
      infer_instance
    · rw [eval]
      · infer_instance
      · exact hand
      · exact hor
  | .call name args pos =>
    have hargs := evalArgs_spares view o args
    rw [eval]
    infer_instance
  | .pipe left name args callPos pos =>
    have hleft := eval_spares view o left
    have hargs := evalArgs_spares view o args
    rw [eval]
    infer_instance

theorem evalArgs_spares {γ : Type} (view : Scope → γ) (o : Outer) [o.Spares view] (args : List (Option String × Expr)) :
    Spares view (evalArgs o args) := by
  match args with
  | [] => rw [evalArgs]; infer_instance
  | (name, e) :: rest =>
    have he := eval_spares view o e
    have hrest := evalArgs_spares view o rest
    rw [evalArgs]
    infer_instance
end

attribute [instance] eval_spares evalArgs_spares

instance (name : String) (args : List Syntax.Arg) (asStatement : Bool) (line : Nat) :
    Spares view (callNamed o name args asStatement line) := by
  unfold callNamed
  infer_instance

instance (c : Syntax.CommandForm) (line : Nat) : Spares view (sendForm o c line) := by
  unfold sendForm requestArgs
  infer_instance

instance (e : Option Expr) (raw : String) : Spares view (commandText o e raw) := by
  unfold commandText
  split <;> infer_instance

/-! ### Calls and loads -/

end

instance (index : Nat) (label : String) (a : Arguments) : Spares view (callModule o index label a) := by
  unfold callModule
  refine .andThen fun w => ?_
  split <;> infer_instance

instance (name : String) (a : Arguments) : Spares view (callLabel o name a) := by
  refine ⟨fun m => ?_⟩
  obtain ⟨_, -, hrefused⟩ | ⟨i, hi, hdepth⟩ := callLabel_cases o name a m
  · rw [hrefused]
    exact rfl
  · rw [callLabel_apply o a hi hdepth]
    apply leave_meets (T := fun m' => view m'.session.scope = view m.session.scope)
    exact fun _ => rfl

end Play

instance outer_spares {γ : Type} {view : Scope → γ} (n : Nat) : (Play.outer n).Spares view := by
  induction n with
  | zero => exact ⟨fun _ _ => inferInstanceAs (Spares view (throw _)), fun _ _ _ => inferInstanceAs (Spares view (throw _)),
      fun _ _ _ => inferInstanceAs (Spares view (throw _))⟩
  | succ n ih =>
    exact ⟨fun name a => inferInstanceAs (Spares view (Play.callLabel (Play.outer n) name a)),
      fun index label a => inferInstanceAs (Spares view (Play.callModule (Play.outer n) index label a)),
      fun _ _ _ => inferInstance⟩

end Conductor
