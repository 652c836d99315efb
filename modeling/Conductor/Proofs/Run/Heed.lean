import Conductor.Proofs.Run.Bearings
import Conductor.Proofs.Run.Holdings

/-!
# Computations that heed a guard

A computation heeds a guard if, from a state in which everything is clear, it ends in
such a state, with a clear result or a clear signal, whatever others do in the meantime
that heed it too. So it neither changes a guarded stem nor gets hold of one.

As with quiet computations, heeding a guard is found by the shape of a computation. This
module says it of requests, built-in functions and all else that needs no program around it.
-/

set_option autoImplicit false

namespace Conductor

/-- What others do while a computation waits: its session is as it was, and the guard was heeded. -/
def meanwhile (G : Guard) : Pause Signal Unit Machine := fun _ _ m K =>
  ∀ m', m'.session = m.session → Clear G m'.world → K none () m'

theorem meanwhile_serene (G : Guard) : (meanwhile G).Serene :=
  fun _ _ _ _ _ h hp m' hs hw => h () m' (hp m' hs hw)

theorem meanwhile_monotone (G : Guard) : (meanwhile G).Monotone := (meanwhile_serene G).monotone

/-- A computation that ends with a result and a state that go together, or else with a clear signal and in a state
with a property. -/
def Reaches (G : Guard) {α : Type} (Q : α → Machine → Prop) (R : Machine → Prop) (x : Step Machine Signal α) : Prop :=
  x.Meets (meanwhile G) (fun a _ m => Q a m) (fun e _ m => Clear G e ∧ R m) ()

namespace Reaches

variable {G : Guard} {α β : Type} {Q Q' : α → Machine → Prop} {R R' : Machine → Prop}

theorem mono {x : Step Machine Signal α} (h : Reaches G Q R x) (hQ : ∀ a m, Q a m → Q' a m) (hR : ∀ m, R m → R' m) :
    Reaches G Q' R' x :=
  Step.Meets.mono (meanwhile_monotone G) (fun a _ m => hQ a m) (fun _ _ m h => ⟨h.1, hR m h.2⟩) h

theorem of_done {x : Step Machine Signal α} {a : α} {m : Machine} (h : Reaches G Q R x) (hx : x = .done a m) : Q a m := by
  subst hx
  exact h

theorem bind {P : β → Machine → Prop} {x : Step Machine Signal α} {k : α → Play β} (hx : Reaches G Q R x)
    (hk : ∀ a m, Q a m → Reaches G P R (k a m)) : Reaches G P R (x.bind k) :=
  (Step.meets_bind _ _ _ _).mpr
    (Step.Meets.mono (meanwhile_monotone G) (fun a _ m h => hk a m h) (fun _ _ _ h => h) hx)

theorem recover {x : Step Machine Signal α} {k : Signal → Play α} (hx : Reaches G Q R x)
    (hk : ∀ e m, Clear G e → R m → Reaches G Q R' (k e m)) : Reaches G Q R' (x.recover k) :=
  (Step.meets_recover _ _ _).mpr
    (Step.Meets.mono (meanwhile_monotone G) (fun _ _ _ h => h) (fun e _ m h => hk e m h.1 h.2) hx)

theorem leave {x : Step Machine Signal α} {f : Machine → Machine} (hx : Reaches G Q R x)
    (hQ : ∀ a m, Q a m → Q' a (f m)) (hR : ∀ m, R m → R' (f m)) : Reaches G Q' R' (x.leave f) :=
  (Step.meets_leave _ _ _).mpr
    (Step.Meets.mono (meanwhile_monotone G) (fun a _ m h => hQ a m h) (fun _ _ m h => ⟨h.1, hR m h.2⟩) hx)

theorem besides {T : Machine → Prop} {x : Step Machine Signal α} (hx : Reaches G Q R x)
    (hT : x.Meets (amid fun _ _ => True) (fun _ _ m => T m) (fun _ _ m => T m) ()) :
    Reaches G (fun a m => Q a m ∧ T m) (fun m => R m ∧ T m) x := by
  induction x with
  | done a m => exact ⟨hx, hT⟩
  | fail e m => exact ⟨hx.1, hx.2, hT⟩
  | wait w m resume ih => exact fun m' hs hw => ih none m' (hx m' hs hw) (hT m' hs trivial)

end Reaches

class Heeds (G : Guard) {α : Type} [Carrier α] (x : Play α) : Prop where
  reaches : ∀ m, Clear G m → Reaches G (fun a m' => Clear G a ∧ Clear G m') (Clear G) (x m)

namespace Heeds

variable {G : Guard} {α β : Type} [Carrier α] [Carrier β]

instance (a : α) [h : Clear G a] : Heeds G (pure a) := ⟨fun _ hm => ⟨h, hm⟩⟩

instance (e : Signal) [h : Clear G e] : Heeds G (throw e : Play α) := ⟨fun _ hm => ⟨h, hm⟩⟩

theorem andThen {x : Play α} {k : α → Play β} [hx : Heeds G x] (hk : ∀ a, Clear G a → Heeds G (k a)) :
    Heeds G (x >>= k) :=
  ⟨fun m hm => (hx.reaches m hm).bind fun a m' h => (hk a h.1).reaches m' h.2⟩

instance (x : Play α) (k : α → Play β) [Heeds G x] [hk : ∀ a : Clean G α, Heeds G (k a.1)] : Heeds G (x >>= k) :=
  andThen fun a ha => hk ⟨a, ha⟩

instance (f : α → β) (x : Play α) [Heeds G x] [hf : ∀ a : Clean G α, Clear G (f a.1)] : Heeds G (f <$> x) :=
  inferInstanceAs (Heeds G (x >>= fun a => pure (f a)))

instance (x : Play α) [Heeds G x] : Heeds G (discard x) :=
  inferInstanceAs (Heeds G ((fun _ => PUnit.unit) <$> x))

instance (c : Prop) [Decidable c] (x y : Play α) [Heeds G x] [Heeds G y] : Heeds G (if c then x else y) := by
  split <;> infer_instance

theorem recover {x : Play α} {k : Signal → Play α} (hx : Heeds G x) (hk : ∀ e, Clear G e → Heeds G (k e)) :
    Heeds G (tryCatch x k) :=
  ⟨fun m hm => (hx.reaches m hm).recover fun e m' he hm' => (hk e he).reaches m' hm'⟩

theorem leaving {x : Play α} {f : Machine → Machine} (hx : Heeds G x) (hf : ∀ m, Clear G m → Clear G (f m)) :
    Heeds G (x.leaving f) :=
  ⟨fun m hm => (hx.reaches m hm).leave (fun _ m' h => ⟨h.1, hf m' h.2⟩) hf⟩

instance : Heeds G (get : Play Machine) := ⟨fun _ hm => ⟨hm, hm⟩⟩

instance (w : Wait) : Heeds G (Run.await w : Play Unit) :=
  ⟨fun _ hm _ hs hw => ⟨inferInstance, ⟨hs ▸ hm.out.1, hw⟩⟩⟩

theorem onSession (f : Session → Session) (hf : ∀ s, s.Sound G → (f s).Sound G) : Heeds G (Play.modifySession f) :=
  ⟨fun m hm => ⟨inferInstance, ⟨⟨hf m.session hm.out.1.sound⟩, hm.out.2⟩⟩⟩

theorem onWorld (f : World → World) (hf : ∀ w, w.Sound G → (f w).Sound G) : Heeds G (Play.modifyWorld f) :=
  ⟨fun m hm => ⟨inferInstance, ⟨hm.out.1, ⟨hf m.world hm.out.2.worldSound⟩⟩⟩⟩

omit [Carrier α] in
theorem mapM_of_mem {f : α → Play β} {l : List α} (hf : ∀ a ∈ l, Heeds G (f a)) : Heeds G (l.mapM f) := by
  induction l with
  | nil => rw [List.mapM_nil]; infer_instance
  | cons a l ih =>
    obtain ⟨ha, hl⟩ := List.forall_mem_cons.mp hf
    have := ih hl
    rw [List.mapM_cons]
    infer_instance

instance mapM (f : α → Play β) (l : List α) [hl : Clear G l] [hf : ∀ a : Clean G α, Heeds G (f a.1)] :
    Heeds G (l.mapM f) :=
  mapM_of_mem fun a ha => hf ⟨a, hl.of_mem ha⟩

instance forM (f : α → Play PUnit) (l : List α) [hf : ∀ a, Heeds G (f a)] : Heeds G (l.forM f) := by
  induction l with
  | nil => exact inferInstanceAs (Heeds G (pure PUnit.unit))
  | cons a l ih => exact inferInstanceAs (Heeds G (f a >>= fun _ => l.forM f))

end Heeds

namespace Play

variable {G : Guard} {α : Type} [Carrier α]

/-! ## The state -/

instance (c : Condition) : Heeds G (raise c : Play α) := inferInstanceAs (Heeds G (throw (Signal.problem _)))

instance (c : Cause) : Heeds G (cause c : Play α) := inferInstanceAs (Heeds G (throw (Signal.problem _)))

instance (c : Cause) (line : Option Nat) : Heeds G (causeAt c line : Play α) :=
  inferInstanceAs (Heeds G (throw (Signal.problem _)))

instance (f : Failure) : Heeds G (failure f : Play α) := inferInstanceAs (Heeds G (throw (Signal.problem _)))

instance (x : Except Failure α) [h : Clear G x] : Heeds G (liftE x) := by
  cases x with
  | ok a =>
    have := h.of_ok
    exact inferInstanceAs (Heeds G (pure a))
  | error f => exact inferInstanceAs (Heeds G (failure f))

instance (x : Except Problem α) [h : Clear G x] : Heeds G (liftP x) := by
  cases x with
  | ok a =>
    have := h.of_ok
    exact inferInstanceAs (Heeds G (pure a))
  | error p => exact inferInstanceAs (Heeds G (throw (Signal.problem p)))

instance (x : Except Condition α) [h : Clear G x] : Heeds G (liftC x) := by
  cases x with
  | ok a =>
    have := h.of_ok
    exact inferInstanceAs (Heeds G (pure a))
  | error c => exact inferInstanceAs (Heeds G (raise c))

instance : Heeds G session := by unfold session; infer_instance

instance : Heeds G world := by unfold world; infer_instance

theorem memory_reaches {α : Type} {Q : α → Prop} {act : Memory.Act α} (h : Memory.Gives G Q act) (m : Machine)
    (hs : Clear G m.session.scope) (hw : Clear G m.world) :
    Reaches G (fun a m' => Q a ∧ (∃ scope, m'.session = { m.session with scope := scope } ∧ Clear G scope) ∧ Clear G m'.world)
      (fun m' => (∃ scope, m'.session = { m.session with scope := scope } ∧ Clear G scope) ∧ Clear G m'.world)
      (memory act m) := by
  have h := h ⟨m.session.scope, m.world.store⟩ inferInstance
  have hsound := hw.worldSound
  unfold memory
  dsimp only
  split
  · next a mem hr =>
    rw [hr] at h
    exact ⟨h.1, ⟨_, rfl, h.2.out.1⟩, ⟨{ hsound with store := h.2.out.2 }⟩⟩
  · next p mem hr =>
    rw [hr] at h
    exact ⟨inferInstance, ⟨_, rfl, h.out.1⟩, ⟨{ hsound with store := h.out.2 }⟩⟩

instance (act : Memory.Act α) [h : Memory.Heeds G act] : Heeds G (memory act) := by
  refine ⟨fun m hm => ?_⟩
  have hsession (m' : Machine)
      (h : (∃ scope, m'.session = { m.session with scope := scope } ∧ Clear G scope) ∧ Clear G m'.world) :
      Clear G m' := by
    obtain ⟨⟨scope, heq, hscope⟩, hw⟩ := h
    have hs : Clear G m'.session := ⟨heq ▸ { hm.out.1.sound with scope := hscope }⟩
    exact ⟨⟨hs, hw⟩⟩
  exact (memory_reaches h.gives m inferInstance inferInstance).mono (fun _ m' h => ⟨h.1, hsession m' h.2⟩) hsession

instance (v : Value) : Heeds G (tree v) := by unfold tree; infer_instance

instance (v : Value) : Heeds G (text v) := by unfold text; infer_instance

instance (v : Value) : Heeds G (number v) := by unfold number; infer_instance

instance (v : Value) : Heeds G (truthy v) := by
  unfold truthy
  split <;> infer_instance

instance (t : Tree) : Heeds G (plant t) := by unfold plant; infer_instance

instance (v : Value) [Clear G v] : Heeds G (plain v) := by
  unfold plain
  refine .andThen fun w hw => ?_
  have := Store.clear_plain (show Clear G w.store from inferInstance) v
  infer_instance

instance (v : Value) [Clear G v] : Heeds G (normalize v) := by unfold normalize; infer_instance

instance (name : String) (v : Value) [Clear G v] : Heeds G (write name v) := by unfold write; infer_instance

instance [Inert α] (f : Http → Except Failure α × Http) : Heeds G (onHttp f) := by
  unfold onHttp
  have h (http : Http) : Heeds G (modifyWorld fun w => { w with http := http }) := .onWorld _ fun _ hw => { hw with }
  infer_instance

instance (topic message : String) : Heeds G (emit topic message) := .onSession _ fun _ hs => { hs with }

theorem heeds_onLoader (f : Module.Loader → Module.Loader) (hf : ∀ l, Clear G l → Clear G (f l)) :
    Heeds G (onLoader f) := .onWorld _ fun w hw => { hw with loader := hf w.loader hw.loader }

instance (f : Condition → Condition) (c : Condition) : Heeds G (placed f c) := by
  unfold placed
  have h : Heeds G (onLoader fun l => l.note (f c)) := by
    refine heeds_onLoader _ fun l hl => ?_
    unfold Module.Loader.note
    split
    · exact ⟨hl.out⟩
    · exact hl
  exact inferInstanceAs (Heeds G (onLoader (fun l => l.note (f c)) >>= fun _ => pure (f c)))

theorem heeds_inContext {x : Play α} (hx : Heeds G x) (f : Condition → Condition) : Heeds G (inContext x f) := by
  refine .recover hx fun e he => ?_
  split <;> infer_instance

instance (v : Value) [Clear G v] : Heeds G (storeResult v) := by unfold storeResult; infer_instance

instance (path : String) : Heeds G (seek path) := .onWorld _ fun _ hw => { hw with }

instance : Heeds G requestCancel := .onWorld _ fun _ hw => { hw with }

instance : Heeds G requestPause := .onWorld _ fun _ hw => { hw with }

instance (x : Play α) [Heeds G x] : Heeds G x.awaited := .andThen fun _ _ => inferInstance

/-! ## Requests -/

theorem clear_beforehand {s : Address.Service} {limit : Option Number} {a : Answer} (h : beforehand s limit = some a) :
    Clear G a := by
  unfold beforehand at h
  split at h
  · split at h
    · cases h
    · split at h
      · cases h
        exact ⟨trivial⟩
      · split at h
        · cases h
        · cases h
          exact ⟨trivial⟩
  · cases h

instance (error : Tree) : Heeds G (refused error) := by unfold refused; infer_instance

instance (m : Address.Methods) (method : String) (payload : Value) (r : Address.Request) (limit : Option Number)
    [Clear G m] [Clear G payload] : Heeds G (callMethods m method payload r limit) := by
  unfold callMethods
  have htarget : Clear G (m.target method payload r) := inferInstance
  split
  · infer_instance
  · next f args hf =>
    rw [hf] at htarget
    obtain ⟨hfun, hargs⟩ := clear_pair.mp htarget.of_some
    have houtcome : Clear G (f.call args) := inferInstance
    split
    · next v hv =>
      rw [hv] at houtcome
      have hv : Clear G v := houtcome.out
      infer_instance
    · next p _ =>
      have (p : Problem) : Clear G (Answer.raised p) := ⟨trivial⟩
      by_cases hp : p.interrupts = true
      · rw [if_pos hp]
        infer_instance
      · rw [if_neg hp]
        split <;> infer_instance
    · infer_instance
    · infer_instance
    · next seconds =>
      have : Clear G Answer.late := ⟨trivial⟩
      infer_instance

instance (number : Nat) (replies : List Address.Reply) [Clear G replies] : Heeds G (nextReply number replies) := by
  unfold nextReply
  have h (i : Nat) : Heeds G (modifyWorld fun w => { w with replies := w.replies.setIfInBounds number (i + 1) }) :=
    .onWorld _ fun _ hw => { hw with }
  infer_instance

instance (number : Nat) (method : String) (payload : Value) (r : Address.Request) :
    Heeds G (record number method payload r) := .onWorld _ fun _ hw => { hw with }

instance (number : Nat) (method : String) (payload : Value) (r : Address.Request) (limit : Option Number)
    [Clear G payload] : Heeds G (askHandler number method payload r limit) := by
  unfold askHandler
  refine .andThen fun w hw => ?_
  have hfound : Clear G w.handlers[number]? := inferInstance
  split
  · infer_instance
  · next h hh =>
    rw [hh] at hfound
    have hservice : Clear G h.service := hfound.of_some.out
    have (p : Problem) : Clear G (Answer.raised p) := ⟨trivial⟩
    split
    · next answer hanswer =>
      have : Clear G answer := clear_beforehand hanswer
      infer_instance
    · refine .andThen fun _ _ => ?_
      split
      · next m hm =>
        rw [hm] at hservice
        have : Clear G m := hservice.out
        infer_instance
      · infer_instance
      · next replies hr =>
        rw [hr] at hservice
        have : Clear G replies := hservice.out
        infer_instance
      · infer_instance

instance (domain : String) (v : Value) : Heeds G (coerce.malformed domain v) := by
  unfold coerce.malformed
  infer_instance

instance (domain : String) (r : Address.Reply) [hr : Clear G r] : Heeds G (coerce domain r) := by
  unfold coerce
  split
  · next success result error =>
    have : Clear G result := hr.out.1
    have : Clear G error := hr.out.2
    infer_instance
  · next entries =>
    have hd : Clear G (Value.dict entries) := hr.out
    have hes : Clear G entries := ⟨clear_dict.mp hd.out⟩
    have (k : String) := clear_valueAt? k entries hes
    split <;> infer_instance
  · infer_instance

instance (error : Tree) : Heeds G (errorMessage? error) := by
  unfold errorMessage?
  dsimp only
  split <;> infer_instance

instance (p : Problem) (place : Condition → Condition) : Heeds G (invoke.wrapped p place) := by
  unfold invoke.wrapped
  infer_instance

instance (method : String) (payload : Value) (mode : Option String) (line : Option Nat) (delimiter domain : Option String)
    [Clear G payload] : Heeds G (invoke method payload mode line delimiter domain) := by
  unfold invoke
  refine .andThen fun s _ => .andThen fun found _ => ?_
  extract_lets mode place
  split
  extract_lets late
  refine .andThen fun answer hanswer => ?_
  split
  · infer_instance
  · infer_instance
  · infer_instance
  · next r =>
    have : Clear G r := hanswer.out
    refine .andThen fun parts hparts => ?_
    obtain ⟨success, result, error⟩ := parts
    have : Clear G result := (clear_pair.mp (clear_pair.mp hparts).2).1
    dsimp only
    split
    · infer_instance
    · refine .andThen fun error _ => .andThen fun message _ => ?_
      split <;> infer_instance

instance (method : String) (payload : Value) (mode : Option String) (line : Option Nat) (delimiter domain : Option String)
    [Clear G payload] : Heeds G (dispatch method payload mode line delimiter domain) :=
  inferInstanceAs (Heeds G (invoke method payload mode line delimiter domain).awaited)

theorem heeds_askTree (channel : Channel) (message : Tree) {k : Tree → Play α} (hk : ∀ t, Heeds G (k t)) :
    Heeds G (do k (← tree (← ask channel message))) := by
  unfold ask
  have h (sent : Value) : Heeds G (modifyWorld fun w => { w with channelSent := w.channelSent ++ [sent] }) :=
    .onWorld _ fun _ hw => { hw with }
  split
  · infer_instance
  · simp only [bind_assoc, pure_bind]
    infer_instance

instance (channel : Channel) (name : String) (a : Arguments) [Clear G a] : Heeds G (callRemote channel name a) := by
  unfold callRemote
  refine .andThen fun placed _ => .andThen fun named _ => .andThen fun message _ => heeds_askTree channel message fun t => ?_
  split
  · split
    · infer_instance
    · extract_lets error refuse
      have hrefuse (e : Tree) : Heeds G (refuse e) := by unfold refuse; infer_instance
      clear_value error
      split <;> infer_instance
  · infer_instance

/-! ## Functions -/

instance (n : Number) : Heeds G (isWholeNumber n) := by unfold isWholeNumber; infer_instance

instance (v : Value) (what : String) : Heeds G (whole v what) := by
  unfold whole
  refine .andThen fun _ _ => .andThen fun i _ => ?_
  split <;> infer_instance

theorem heeds_onStem {v : Value} (hv : Clear G v) {function : String} {k : Address → Play α}
    (hk : ∀ a, ¬ G.guarded a → Heeds G (k a)) : Heeds G (stem v function >>= k) := by
  match v with
  | .stem a => exact hk a hv.free
  | .scalar _ | .list _ | .dict _ =>
    unfold stem
    rw [bind_assoc]
    exact .andThen fun s _ => inferInstanceAs (Heeds G (cause (.notAStem function (Text.quoted s)) : Play α))

instance (v : Value) : Heeds G (chars v) := by unfold chars; infer_instance

instance (n : Int) : Heeds G (checkLength n) := by unfold checkLength; infer_instance

instance (g : Given) : Heeds G (padOf g) := by unfold padOf; infer_instance

instance (v : Value) : Heeds G (firstUpper v) := by unfold firstUpper; infer_instance

instance (cs : List Char) : Clear G (ofChars cs) := by unfold ofChars; infer_instance

instance (a b : Number) : Heeds G (powerValue a b) := by
  unfold powerValue
  refine .andThen fun z _ => ?_
  split <;> infer_instance

instance (beats : Number → Number → Bool) (function : String) (vs : List Value) : Heeds G (best beats function vs) := by
  unfold best
  split
  · infer_instance
  · next v rest =>
    have (n : Number) : Heeds G (rest.foldlM (fun acc v => do
        let n ← number v
        return if beats n acc then n else acc) n) := by
      induction rest generalizing n with
      | nil => rw [List.foldlM_nil]; infer_instance
      | cons a l ih => rw [List.foldlM_cons]; infer_instance
    infer_instance

instance (g : Given) : Heeds G (trunc g) := by unfold trunc; infer_instance

instance (g : Given) : Heeds G (substr g) := by
  unfold substr
  refine .andThen fun s _ => .andThen fun start _ => ?_
  extract_lets piece cut
  have hcut (u : Unit) : Heeds G (cut u) := by
    unfold cut
    split <;> infer_instance
  clear_value cut
  infer_instance

instance (g : Given) : Heeds G (left g) := by unfold left; infer_instance

instance (g : Given) : Heeds G (right g) := by unfold right; infer_instance

instance (g : Given) : Heeds G (pos g) := by unfold pos; infer_instance

instance (g : Given) : Heeds G (word g) := by unfold word; infer_instance

instance (g : Given) : Heeds G (strip g) := by
  unfold strip
  refine .andThen fun s _ => .andThen fun given _ => ?_
  extract_lets set drop
  refine .andThen fun option _ => ?_
  split <;> infer_instance

instance (g : Given) : Heeds G (copies g) := by unfold copies; infer_instance

instance (g : Given) : Heeds G (split g) := by
  unfold split
  have (pieces : List String) : Clear G (pieces.map Value.text) :=
    .of_forall fun _ hv => by
      obtain ⟨s, -, rfl⟩ := List.mem_map.mp hv
      infer_instance
  infer_instance

theorem heeds_itemsOf {a : Address} (ha : ¬ G.guarded a) : Heeds G (itemsOf a) := by
  unfold itemsOf
  refine .andThen fun w hw => ?_
  have := Clear.get (show Clear G w.store from inferInstance) ha
  infer_instance

instance (g : Given) [Clear G g] : Heeds G (arrayPush g) := by
  unfold arrayPush
  refine heeds_onStem inferInstance fun a ha => ?_
  have hpush : Heeds G (modifyWorld fun w => { w with store := w.store.pushed a g.rest }) := by
    refine .onWorld _ fun w hw => ?_
    have := Clear.foldl (f := fun s v => Stem.append v s) (show Clear G g.rest from inferInstance) (hw.store.get ha)
      fun _ _ _ _ => inferInstance
    exact { hw with store := Store.clear_set hw.store ha _ }
  have : Clear G (Value.stem a) := ⟨clear_stem.mpr ha⟩
  infer_instance

instance (g : Given) [Clear G g] : Heeds G (arrayGet g) := by
  unfold arrayGet
  refine heeds_onStem inferInstance fun a ha => ?_
  have (key : Key) := Memory.heeds_stemGet ha key
  infer_instance

instance (g : Given) [Clear G g] : Heeds G (arrayJoin g) := by
  unfold arrayJoin
  refine .andThen fun sep _ => heeds_onStem inferInstance fun a ha => ?_
  have := heeds_itemsOf ha
  infer_instance

instance (g : Given) : Heeds G (jsonParse g) := by
  unfold jsonParse
  refine .andThen fun outcome _ => ?_
  split <;> infer_instance

instance (g : Given) : Heeds G (yamlParse g) := by
  unfold yamlParse
  refine .andThen fun s _ => ?_
  split <;> infer_instance

instance (g : Given) : Heeds G (jsonStringify g) := by unfold jsonStringify; infer_instance

instance (g : Given) : Heeds G (fileRead g) := by unfold fileRead; infer_instance

instance (g : Given) : Heeds G (fileWrite g) := by
  unfold fileWrite
  refine .andThen fun path _ => .andThen fun data _ => .andThen fun w hw => .andThen fun s _ => ?_
  have := clear_filesWrite (G := G) w.files s.sourceDir path data
  split
  next result files hwrite =>
    rw [hwrite] at this
    have h : Heeds G (modifyWorld fun w => { w with files := files }) := .onWorld _ fun _ hw => { hw with files := this }
    infer_instance

instance (g : Given) : Heeds G (httpGet g) := by
  unfold httpGet
  refine .andThen fun limit _ => .andThen fun mode _ => ?_
  extract_lets timeout config
  refine .andThen fun known _ => ?_
  extract_lets fetch
  have hfetch (u : Unit) : Heeds G (fetch u) := by
    unfold fetch
    refine .andThen fun url _ => .andThen fun t _ => ?_
    split <;> infer_instance
  clear_value fetch
  infer_instance

instance (m : Moment) (format : String) : Clear G (timeValue m format) := by
  unfold timeValue
  extract_lets clock
  split <;> infer_instance

instance (g : Given) : Heeds G (argument g) := by
  unfold argument
  refine .andThen fun s hs => ?_
  extract_lets args
  have : Clear G args := inferInstanceAs (Clear G (s.args.head?.getD []))
  split <;> infer_instance

instance (name : String) : Heeds G (localEntry name) := by unfold localEntry; infer_instance

instance (g : Given) : Heeds G (symbol g) := by unfold symbol; infer_instance

instance (g : Given) : Heeds G (datatype g) := by
  unfold datatype
  extract_lets v
  split
  · infer_instance
  · refine .andThen fun s _ => .andThen fun kind _ => ?_
    split <;> infer_instance

instance (g : Given) : Heeds G (info g) := by
  unfold info
  refine .andThen fun name _ => .andThen fun e _ => ?_
  split <;> infer_instance

instance (b : Builtin) (a : Arguments) [Clear G a] : Heeds G (builtin b a) := by
  have hlength : Heeds G (do
      return .ofNat (← itemsOf (← stem ((Given.ofArguments b a).value "array") "ARRAY_LENGTH")).length : Play Value) :=
    heeds_onStem inferInstance fun a ha => by
      have := heeds_itemsOf ha
      infer_instance
  cases b <;> first
    | exact hlength
    | (unfold builtin; infer_instance)

/-! ## Expressions and statements -/

instance (s : String) : Heeds G (interpolate s) := by unfold interpolate; infer_instance

instance (s : String) : Heeds G (segment s) := by unfold segment; infer_instance

instance (r : Syntax.Ref) : Heeds G (tailOf r) := by unfold tailOf; infer_instance

instance (r : Syntax.Ref) : Heeds G (readRef r) := by unfold readRef; infer_instance

instance (r : Syntax.Ref) (v : Value) [Clear G v] : Heeds G (writeRef r v) := by unfold writeRef; infer_instance

instance (b : Syntax.BlockLiteral) : Heeds G (blockValue b) := by
  unfold blockValue
  refine .andThen fun s _ => ?_
  split
  · infer_instance
  · refine .recover inferInstance fun e he => ?_
    split
    · infer_instance
    · infer_instance

instance (f : HostFunction) (a : Arguments) [Clear G f] [Clear G a] : Heeds G (callHost f a) := by
  unfold callHost
  have houtcome : Clear G (f.call a) := inferInstance
  split
  · next v hv =>
    rw [hv] at houtcome
    have : Clear G v := houtcome.out
    infer_instance
  · infer_instance
  · infer_instance
  · infer_instance
  · infer_instance

instance : Heeds G cancelRuns := by unfold cancelRuns; infer_instance

instance (op : Syntax.BinaryOp) (line : Nat) (a b : Value) : Heeds G (binary op line a b) := by
  unfold binary
  refine .andThen fun x _ => .andThen fun y _ => ?_
  split <;> infer_instance

instance (op : Syntax.UnaryOp) (line : Nat) (a : Value) : Heeds G (unary op line a) := by
  unfold unary
  split
  · infer_instance
  · refine .andThen fun x _ => ?_
    split <;> infer_instance

instance (label : String) (line : Option Nat) : Heeds G (labelIndex label line) := by
  unfold labelIndex
  refine .andThen fun s _ => ?_
  split <;> infer_instance

instance : Heeds G isPaused := by unfold isPaused; infer_instance

instance : Heeds G isCancelled := by unfold isCancelled; infer_instance

instance : Heeds G isDue := by unfold isDue; infer_instance

instance (c : Play Bool) [Heeds G c] : Heeds G (yieldIf c) := by unfold yieldIf; infer_instance

instance (p : Syntax.Place) : Heeds G (withhold p) := by
  have hwithheld : Heeds G (modifySession fun s => { s with withheld := s.withheld + 1 }) :=
    .onSession _ fun _ hs => { hs with }
  unfold withhold
  infer_instance

instance (p : Syntax.Place) : Heeds G (checkpoint p) := by
  have hcount : Heeds G (modifySession fun s => { s with statements := s.statements + 1 }) :=
    .onSession _ fun _ hs => { hs with }
  have hreach : Heeds G (modifySession fun s => { s with line := some p.line }) := .onSession _ fun _ hs => { hs with }
  unfold checkpoint
  infer_instance

instance : Heeds G isDefault := by unfold isDefault; infer_instance

instance : Heeds G mode := by unfold mode; infer_instance

theorem heeds_request {send : Play Value} (h : Heeds G send) : Heeds G (request send) := by
  unfold request
  infer_instance

instance (send : Play Value) [h : Heeds G send] : Heeds G (request send) := heeds_request h

instance (b : Syntax.BlockLiteral) : Heeds G (sendBlock b) := by unfold sendBlock; infer_instance

instance (command : String) (line : Nat) (domain : Option String) : Heeds G (sendCommand command line domain) := by
  unfold sendCommand
  infer_instance

instance (p : Syntax.Place) : Heeds G (sendMatched p) := by
  unfold sendMatched
  refine .andThen fun s _ => ?_
  split
  · infer_instance
  · extract_lets part payload
    have hpart (o : Option String) : Clear G (part o) := by
      unfold part
      split <;> infer_instance
    have : Clear G payload := by
      unfold payload
      clear_value part
      infer_instance
    infer_instance

instance (r : Syntax.Ref) : Heeds G (isBareMethod r) := by unfold isBareMethod; infer_instance

instance (action : Syntax.InterpolationAction) (line : Nat) : Heeds G (setInterpolation action line) := by
  unfold setInterpolation
  have h (e : Interpolation.Engine) : Heeds G (modifySession fun s => { s with interpolation := e }) :=
    .onSession _ fun _ hs => { hs with }
  refine .andThen fun s _ => ?_
  extract_lets engine outcome
  clear_value outcome
  split <;> infer_instance

theorem heeds_bindArguments (names : List String) (vs : List Value) (hv : Clear G vs) :
    Heeds G (bindArguments names vs) := by
  fun_induction bindArguments names vs with
  | case1 => infer_instance
  | case2 name names v rest ih =>
    obtain ⟨hv, hr⟩ := clear_cons.mp hv
    exact .andThen fun _ _ => ih hr
  | case3 name names ih =>
    have := ih hv
    infer_instance

instance (names : List String) (vs : List Value) [hv : Clear G vs] : Heeds G (bindArguments names vs) :=
  heeds_bindArguments names vs hv

instance (n : Number) (line : Nat) : Heeds G (countOf n line) := by unfold countOf; infer_instance

instance : Heeds G registry := by
  unfold registry
  refine .andThen fun w _ => ?_
  split <;> infer_instance

instance (identifier : String) (base : Option String) : Heeds G (locate identifier base) := by
  unfold locate
  infer_instance

end Play

end Conductor
