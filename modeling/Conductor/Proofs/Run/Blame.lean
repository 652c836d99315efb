import Conductor.Proofs.Memory.Refusal
import Conductor.Proofs.Run.Boundary
import Conductor.Proofs.Syntax.Placement

/-!
# What a condition is blamed on

A condition that leaves a statement has been raised by the statement itself, or by something that
ran inside it: a function that it called, the load of a module, a handler, a statement of one of
its bodies. `Runs` says that one computation runs inside another, from which state on. Whatever
runs inside and fails with a condition makes the whole fail with a condition of the same cause,
and a line that the condition has is kept on the way.

What a statement raises by itself it places on its own line, with few exceptions: a count that
is no number is refused by the value, which knows no line, and a request for a domain without a
handler by the dispatcher. A call places what its function raises.
-/

set_option autoImplicit false

namespace Conductor

open Syntax (Expr Statement)

def Cause.Miscounted : Cause → Prop
  | .notANumber _ | .negativeCount _ => True
  | _ => False

def Cause.Undelivered : Cause → Prop
  | .noHandler _ | .malformedReply _ _ => True
  | _ => False

theorem Cause.Undelivered.kind {cause : Cause} (h : cause.Undelivered) : cause.kind = .addressHandler := by
  cases cause with
  | noHandler | malformedReply => rfl
  | _ => exact h.elim

theorem Condition.OverValue.miscounted {c : Condition} (h : c.OverValue) : c.cause.Miscounted := by
  cases h <;> trivial

/-! ## What runs inside a computation -/

/-- A condition that was placed further: its cause stays, and so does a line that it has. -/
structure Condition.Follows (c' c : Condition) : Prop where
  cause : c'.cause = c.cause
  line : ∀ l, c.line = some l → c'.line = some l

namespace Condition

theorem Follows.refl (c : Condition) : c.Follows c := ⟨rfl, fun _ h => h⟩

theorem Follows.trans {c c' c'' : Condition} (h : c'.Follows c) (h' : c''.Follows c') : c''.Follows c :=
  ⟨h'.cause.trans h.cause, fun l hl => h'.line l (h.line l hl)⟩

theorem withContext_follows (c : Condition) (line : Option Nat) (function domain : Option String) :
    (c.withContext line function domain).Follows c :=
  ⟨rfl, fun l hl => by simp [withContext, hl]⟩

theorem placed_or_unplaced (c : Condition) : (∃ l, c.line = some l) ∨ c.Unplaced := by
  unfold Unplaced
  cases c.line with
  | none => exact .inr rfl
  | some l => exact .inl ⟨l, rfl⟩

theorem withContext_line {c : Condition} (h : c.Unplaced) (line : Option Nat) (function domain : Option String) :
    (c.withContext line function domain).line = line := by
  obtain ⟨cause, line', col, function', domain', payload, load, said⟩ := c
  cases h
  rfl

theorem atLine_of_placed {c : Condition} {l : Nat} (h : c.line = some l) (line : Option Nat) : c.atLine line = c := by
  obtain ⟨cause, line', col, function, domain, payload, load, said⟩ := c
  cases h
  cases function <;> cases domain <;> rfl

theorem atLine_none (c : Condition) : c.atLine none = c := by
  obtain ⟨cause, line, col, function, domain, payload, load, said⟩ := c
  cases line <;> cases function <;> cases domain <;> rfl

end Condition

/-- A handler that makes a condition of every condition, of the same cause and with the line that it has. -/
def Keeping {α : Type} (k : Signal → Play α) : Prop :=
  ∀ c m, ∃ c' m', k (.problem (.condition c)) m = .fail (.problem (.condition c')) m' ∧ c'.Follows c

/-- What runs from a state on inside a computation that starts in another one. -/
inductive Runs (G : World → World → Prop) {β : Type} (y : Play β) (m' : Machine) : {α : Type} → Play α → Machine → Prop
  | here : Runs G y m' y m'
  | first {α γ : Type} {x : Play α} {k : α → Play γ} {m : Machine} : Runs G y m' x m → Runs G y m' (x >>= k) m
  | next {α γ : Type} {x : Play α} {k : α → Play γ} {m m₁ : Machine} {a : α} :
      (x m).Comes (Interlude G) (.done a m₁) → Runs G y m' (k a) m₁ → Runs G y m' (x >>= k) m
  | guarded {α : Type} {x : Play α} {k : Signal → Play α} {m : Machine} :
      Keeping k → Runs G y m' x m → Runs G y m' (tryCatch x k) m
  | handling {α : Type} {x : Play α} {k : Signal → Play α} {m m₁ : Machine} {e : Signal} :
      (x m).Comes (Interlude G) (.fail e m₁) → Runs G y m' (k e) m₁ → Runs G y m' (tryCatch x k) m
  | left {α : Type} {x : Play α} {f : Machine → Machine} {m : Machine} :
      Runs G y m' x m → Runs G y m' (x.leaving f) m
  | same {α : Type} {x z : Play α} {m : Machine} : x m = z m → Runs G y m' x m → Runs G y m' z m

variable {G : World → World → Prop}

def Refuses (G : World → World → Prop) {α : Type} (x : Play α) (m : Machine) (c : Condition) : Prop :=
  ∃ m', (x m).Comes (Interlude G) (.fail (.problem (.condition c)) m')

namespace Runs

variable {α β γ : Type} {y : Play β} {x : Play α} {m m' : Machine}

theorem trans {z : Play γ} {n : Machine} (h : Runs G y m' x m) (h' : Runs G x m z n) : Runs G y m' z n := by
  induction h' with
  | here => exact h
  | first _ ih => exact .first ih
  | next hx _ ih => exact .next hx ih
  | guarded hk _ ih => exact .guarded hk ih
  | handling hx _ ih => exact .handling hx ih
  | left _ ih => exact .left ih
  | same heq _ ih => exact .same heq ih

/-- Whatever fails inside makes the whole fail, and a line is kept on the way. -/
theorem refuses (h : Runs G y m' x m) {c : Condition} (hy : Refuses G y m' c) :
    ∃ c', Refuses G x m c' ∧ c'.Follows c := by
  induction h with
  | here => exact ⟨c, hy, .refl c⟩
  | first _ ih =>
    obtain ⟨c', ⟨m₁, hx⟩, hc⟩ := ih
    exact ⟨c', ⟨m₁, hx.bind_fail⟩, hc⟩
  | next hx _ ih =>
    obtain ⟨c', ⟨m₁, hk⟩, hc⟩ := ih
    exact ⟨c', ⟨m₁, .bind_done hx hk⟩, hc⟩
  | guarded hk _ ih =>
    obtain ⟨c', ⟨m₁, hx⟩, hc⟩ := ih
    obtain ⟨c'', m₂, heq, hc'⟩ := hk c' m₁
    exact ⟨c'', ⟨m₂, .recover_fail hx (heq ▸ .fail _ _)⟩, hc.trans hc'⟩
  | handling hx _ ih =>
    obtain ⟨c', ⟨m₁, hk⟩, hc⟩ := ih
    exact ⟨c', ⟨m₁, .recover_fail hx hk⟩, hc⟩
  | left _ ih =>
    obtain ⟨c', ⟨m₁, hx⟩, hc⟩ := ih
    exact ⟨c', ⟨_, hx.leave_fail⟩, hc⟩
  | same heq _ ih =>
    obtain ⟨c', ⟨m₁, hx⟩, hc⟩ := ih
    exact ⟨c', ⟨m₁, heq ▸ hx⟩, hc⟩

theorem inContext {f : Condition → Condition} (hf : ∀ c, (f c).Follows c) (h : Runs G y m' x m) :
    Runs G y m' (Play.inContext x f) m :=
  .guarded (fun c _ => ⟨f c, _, rfl, hf c⟩) h

end Runs

/-! ## Where a computation stands -/

/-- Where a computation stands in a program: what is around it, the line of its statement, the causes of the
conditions that the statement leaves without a line, and the bodies of the statement. -/
structure Site where
  outer : Outer
  line : Nat
  strays : Cause → Prop
  bodies : List Statement → Prop

def Site.Lets (S : Site) (c : Condition) : Prop := c.Unplaced ∧ S.strays c.cause

class Site.Counts (S : Site) : Prop where
  strays : ∀ cause : Cause, cause.Miscounted → S.strays cause

class Site.Sends (S : Site) : Prop where
  strays : ∀ cause : Cause, cause.Undelivered → S.strays cause

open Play in
/-- How a computation comes to end with a condition. The condition has the line of the statement, or else: it is a fault
of reading that was kept; it is left without a line; it had a line when it came from a function, a load or a handler; it
comes from a load without a line; or it has left a body as it is. -/
inductive Blamed (G : World → World → Prop) (S : Site) {α : Type} (x : Play α) (m : Machine) (c : Condition) : Prop
  | own : c.line = some S.line → Blamed G S x m c
  | reading : c.kind = .parse → Blamed G S x m c
  | stray : S.Lets c → Blamed G S x m c
  | call {e : Entry} {a : Arguments} {m₁ : Machine} {c₁ : Condition} {l : Nat} :
      Runs G (perform S.outer e a) m₁ x m → Refuses G (perform S.outer e a) m₁ c₁ → c₁.line = some l →
      c.Follows c₁ → Blamed G S x m c
  | load {identifier : String} {m₁ : Machine} :
      Runs G (requireHere S.outer identifier) m₁ x m → Refuses G (requireHere S.outer identifier) m₁ c →
      Blamed G S x m c
  | handler {number : Nat} {method : String} {payload : Value} {r : Address.Request} {limit : Option Number}
      {m₁ m₂ : Machine} {c₁ : Condition} {l : Nat} :
      Runs G (askHandler number method payload r limit) m₁ x m →
      (askHandler number method payload r limit m₁).Comes (Interlude G) (.done (.raised (.condition c₁)) m₂) →
      c₁.line = some l → c.Follows c₁ → Blamed G S x m c
  | body {b : List Statement} {m₁ : Machine} :
      S.bodies b → Runs G (execAll S.outer b) m₁ x m → Refuses G (execAll S.outer b) m₁ c → Blamed G S x m c

theorem Blamed.lift {S : Site} {α β : Type} {x : Play α} {y : Play β} {m n : Machine} {c : Condition}
    (h : Blamed G S x m c) (hrun : Runs G x m y n) : Blamed G S y n c := by
  cases h with
  | own h => exact .own h
  | reading h => exact .reading h
  | stray h => exact .stray h
  | call hr hf hl hc => exact .call (hr.trans hrun) hf hl hc
  | load hr hf => exact .load (hr.trans hrun) hf
  | handler hr hf hl hc => exact .handler (hr.trans hrun) hf hl hc
  | body hb hr hf => exact .body hb (hr.trans hrun) hf

/-- A computation of whose conditions it is known how they came. -/
class Accounts (G : World → World → Prop) (S : Site) {α : Type} (x : Play α) : Prop where
  blamed : ∀ m c, Refuses G x m c → Blamed G S x m c

namespace Accounts

variable {S : Site} {α β : Type}

theorem of_done {x : Play α} (h : ∀ m, ∃ a m', x m = .done a m') : Accounts G S x := by
  refine ⟨fun m c ⟨m', hc⟩ => ?_⟩
  obtain ⟨a, m₁, heq⟩ := h m
  rw [heq] at hc
  cases hc

instance (a : α) : Accounts G S (pure a : Play α) := of_done fun m => ⟨a, m, rfl⟩

theorem throw {e : Signal} (he : ∀ c, e ≠ .problem (.condition c)) : Accounts G S (throw e : Play α) := by
  refine ⟨fun m c ⟨m', h⟩ => ?_⟩
  cases h
  exact absurd rfl (he c)

instance (x : Play α) (k : α → Play β) [hx : Accounts G S x] [hk : ∀ a, Accounts G S (k a)] :
    Accounts G S (x >>= k) := by
  refine ⟨fun m c ⟨m', h⟩ => ?_⟩
  rcases Step.Comes.of_bind h with ⟨a, m₁, hdone, hrest⟩ | ⟨e, m₁, hfail, heq⟩
  · exact ((hk a).blamed m₁ c ⟨m', hrest⟩).lift (.next hdone .here)
  · cases heq
    exact (hx.blamed m c ⟨m', hfail⟩).lift (.first .here)

theorem andThen {x : Play α} {k : α → Play β} [Accounts G S x] (hk : ∀ a, Accounts G S (k a)) :
    Accounts G S (x >>= k) :=
  inferInstance

instance (f : α → β) (x : Play α) [Accounts G S x] : Accounts G S (f <$> x) :=
  inferInstanceAs (Accounts G S (x >>= fun a => pure (f a)))

instance (x : Play α) [Accounts G S x] : Accounts G S (discard x) :=
  inferInstanceAs (Accounts G S ((fun _ => PUnit.unit) <$> x))

instance (c : Prop) [Decidable c] (x y : Play α) [Accounts G S x] [Accounts G S y] :
    Accounts G S (if c then x else y) := by
  split <;> infer_instance

theorem passing {x : Play α} {k : Signal → Play α} [hx : Accounts G S x]
    (hpass : ∀ c, k (.problem (.condition c)) = MonadExcept.throw (Signal.problem (.condition c)))
    (hothers : ∀ e, (∀ c, e ≠ .problem (.condition c)) → Accounts G S (k e)) : Accounts G S (tryCatch x k) := by
  refine ⟨fun m c ⟨m', h⟩ => ?_⟩
  rcases Step.Comes.of_recover h with ⟨a, m₁, -, heq⟩ | ⟨e, m₁, hfail, hrest⟩
  · cases heq
  · by_cases he : ∃ c, e = .problem (.condition c)
    · obtain ⟨c₁, rfl⟩ := he
      rw [hpass] at hrest
      cases hrest
      exact (hx.blamed m c ⟨_, hfail⟩).lift (.guarded (fun c m => ⟨c, m, by rw [hpass]; rfl, .refl c⟩) .here)
    · exact ((hothers e fun c hc => he ⟨c, hc⟩).blamed m₁ c ⟨m', hrest⟩).lift (.handling hfail .here)

instance (x : Play α) (f : Machine → Machine) [hx : Accounts G S x] : Accounts G S (x.leaving f) := by
  refine ⟨fun m c ⟨m', h⟩ => ?_⟩
  obtain ⟨m₁, hfail, -⟩ := Step.Comes.of_leave_fail h
  exact (hx.blamed m c ⟨m₁, hfail⟩).lift (.left .here)

instance : Accounts G S (get : Play Machine) := of_done fun m => ⟨m, m, rfl⟩

instance (f : Session → Session) : Accounts G S (Play.modifySession f) := of_done fun _ => ⟨_, _, rfl⟩

instance (f : World → World) : Accounts G S (Play.modifyWorld f) := of_done fun _ => ⟨_, _, rfl⟩

theorem mapM_of_mem {f : α → Play β} {l : List α} (hf : ∀ a ∈ l, Accounts G S (f a)) : Accounts G S (l.mapM f) := by
  induction l with
  | nil => rw [List.mapM_nil]; infer_instance
  | cons a l ih =>
    obtain ⟨ha, hl⟩ := List.forall_mem_cons.mp hf
    have hrest := ih hl
    rw [List.mapM_cons]
    infer_instance

instance (f : α → Play β) (l : List α) [hf : ∀ a, Accounts G S (f a)] : Accounts G S (l.mapM f) :=
  mapM_of_mem fun a _ => hf a

end Accounts

namespace Play

variable {S : Site} {α : Type}

/-! ## The state -/

theorem raise_accounts {c : Condition} (h : c.line = some S.line) : Accounts G S (raise c : Play α) := by
  refine ⟨fun m c' ⟨m', hc⟩ => ?_⟩
  cases hc
  exact .own h

instance (c : Cause) : Accounts G S (causeAt c (some S.line) : Play α) := raise_accounts rfl

instance (f : Failure) : Accounts G S (failure f : Play α) := .throw fun _ h => nomatch h

instance (x : Except Failure α) : Accounts G S (liftE x) := by
  cases x with
  | ok a => exact inferInstanceAs (Accounts G S (pure a))
  | error f => exact inferInstanceAs (Accounts G S (failure f))

instance (x : Except Problem α) [hx : Raises S.Lets x] : Accounts G S (liftP x) := by
  cases x with
  | ok a => exact inferInstanceAs (Accounts G S (pure a))
  | error p =>
    refine ⟨fun m c ⟨m', h⟩ => ?_⟩
    cases h
    exact .stray (hx.holds _ rfl c rfl)

instance : Accounts G S session := by unfold session; infer_instance

instance : Accounts G S world := by unfold world; infer_instance

instance (act : Memory.Act α) [hact : Memory.Raises S.Lets act] : Accounts G S (memory act) := by
  refine ⟨fun m c ⟨m', h⟩ => ?_⟩
  unfold memory at h
  dsimp only at h
  split at h
  · cases h
  · next p mem hp =>
    cases h
    exact .stray (hact.holds _ c mem hp)

instance (v : Value) : Accounts G S (tree v) := by unfold tree; infer_instance

instance (v : Value) : Accounts G S (text v) := by unfold text; infer_instance

instance (v : Value) : Accounts G S (truthy v) := by
  unfold truthy
  split <;> infer_instance

instance (t : Tree) : Accounts G S (plant t) := by unfold plant; infer_instance

instance (v : Value) : Accounts G S (plain v) := by unfold plain; infer_instance

instance (v : Value) : Accounts G S (normalize v) := by unfold normalize; infer_instance

instance (name : String) (v : Value) : Accounts G S (write name v) := by unfold write; infer_instance

instance (topic message : String) : Accounts G S (emit topic message) := by unfold emit; infer_instance

instance (v : Value) : Accounts G S (storeResult v) := by unfold storeResult; infer_instance

instance : Accounts G S requestCancel := by unfold requestCancel; infer_instance

instance : Accounts G S requestPause := by unfold requestPause; infer_instance

instance (w : Wait) : Accounts G S (Run.await w : Play Unit) := by
  refine ⟨fun m c ⟨m', h⟩ => ?_⟩
  cases h with
  | wait _ h => cases h

instance (x : Play α) [Accounts G S x] : Accounts G S x.awaited := by unfold awaited; infer_instance

instance (name : String) : Accounts G S (localEntry name) := by unfold localEntry; infer_instance

instance (v : Value) [hS : S.Counts] : Accounts G S (number v) := by
  have hnumber (t : Tree) : Raises S.Lets t.number :=
    t.number_raises.mono fun c h => ⟨h.unplaced, hS.strays _ h.miscounted⟩
  unfold number
  infer_instance

instance (name : String) (v : Value) (tail : List Tree) [hS : S.Counts] :
    Accounts G S (memory (Memory.write name v tail)) := by
  have hwrite : Memory.Raises S.Lets (Memory.write name v tail) :=
    (Memory.write_raises name v tail).mono fun c h => ⟨h.unplaced, hS.strays _ h.miscounted⟩
  infer_instance

/-! ## What is called and what is loaded -/

theorem refuses_of_inContext {x : Play α} {f : Condition → Condition} {m : Machine} {c : Condition}
    (h : Refuses G (inContext x f) m c) : ∃ c₁, Refuses G x m c₁ ∧ c = f c₁ := by
  obtain ⟨m', h⟩ := h
  rcases Step.Comes.of_recover h with ⟨a, m₁, -, heq⟩ | ⟨e, m₁, hfail, hrest⟩
  · cases heq
  · cases e with
    | problem p =>
      cases p with
      | condition c₁ =>
        cases hrest
        exact ⟨c₁, ⟨m₁, hfail⟩, rfl⟩
      | failure f => cases hrest
    | _ => cases hrest

theorem requireModule_accounts (identifier : String) {line : Option Nat} (hline : line = none ∨ line = some S.line) :
    Accounts G S (requireModule S.outer identifier line) := by
  have hhere : Accounts G S (inContext (requireHere S.outer identifier) fun c => c.atLine line) := by
    refine ⟨fun m c h => ?_⟩
    obtain ⟨c₁, hfail, rfl⟩ := refuses_of_inContext h
    have hruns : Runs G (requireHere S.outer identifier) m
        (inContext (requireHere S.outer identifier) fun c => c.atLine line) m :=
      .inContext (fun c => c.withContext_follows _ _ _) .here
    rcases hline with rfl | rfl
    · rw [Condition.atLine_none]
      exact .load hruns hfail
    · rcases c₁.placed_or_unplaced with ⟨l, hl⟩ | hnone
      · rw [Condition.atLine_of_placed hl]
        exact .load hruns hfail
      · exact .own (Condition.withContext_line hnone _ _ _)
  unfold requireModule
  infer_instance

instance (name : String) : Accounts G S (resolve S.outer name (some S.line)) := by
  have hload (identifier : String) := requireModule_accounts (G := G) (S := S) identifier (.inl rfl)
  unfold resolve
  extract_lets unknown
  have hunknown (e : Option Entry) : Accounts G S (unknown e) := by
    unfold unknown
    split
    · infer_instance
    · exact raise_accounts rfl
  clear_value unknown
  refine .andThen fun found => ?_
  split
  · infer_instance
  · refine .andThen fun s => ?_
    split
    · infer_instance
    · refine .andThen fun _ => .andThen fun found => ?_
      split <;> infer_instance

theorem framed_accounts (f : Frame) {x : Play Value} (hx : Accounts G S x) : Accounts G S (framed f x) := by
  unfold framed
  infer_instance

/-- A handler that places the conditions of a function on the line of its call. -/
theorem perform_accounts {e : Entry} {a : Arguments} {k : Signal → Play Value}
    (hcondition : ∀ c m, ∃ m', k (.problem (.condition c)) m =
      .fail (.problem (.condition (c.withContext (some S.line) (some e.name) none))) m')
    (hfailure : ∀ f, Accounts G S (k (.problem (.failure f))))
    (hothers : ∀ signal, (∀ p, signal ≠ .problem p) → k signal = throw signal) :
    Accounts G S (tryCatch (perform S.outer e a) k) := by
  have hkeep : Keeping k := fun c m =>
    have ⟨m', heq⟩ := hcondition c m
    ⟨_, m', heq, c.withContext_follows _ _ _⟩
  refine ⟨fun m c ⟨m', h⟩ => ?_⟩
  rcases Step.Comes.of_recover h with ⟨v, m₁, -, heq⟩ | ⟨signal, m₁, hfail, hrest⟩
  · cases heq
  · by_cases hsignal : ∃ p, signal = .problem p
    · obtain ⟨p, rfl⟩ := hsignal
      cases p with
      | condition c₁ =>
        obtain ⟨m₂, heq⟩ := hcondition c₁ m₁
        rw [heq] at hrest
        cases hrest
        rcases c₁.placed_or_unplaced with ⟨l, hl⟩ | hnone
        · exact .call (.guarded hkeep .here) ⟨m₁, hfail⟩ hl (c₁.withContext_follows _ _ _)
        · exact .own (Condition.withContext_line hnone _ _ _)
      | failure f => exact ((hfailure f).blamed m₁ c ⟨m', hrest⟩).lift (.handling hfail .here)
    · rw [hothers signal fun p hp => hsignal ⟨p, hp⟩] at hrest
      cases hrest
      exact absurd ⟨_, rfl⟩ hsignal

instance (e : Entry) (supplied : List Supplied) (piped : Option Value) (asStatement : Bool) :
    Accounts G S (apply S.outer e supplied piped asStatement (some S.line)) := by
  have hbind : Raises Condition.Unplaced (e.bind supplied piped asStatement) := inferInstance
  unfold apply
  extract_lets place call
  have hcall (a : Arguments) : Accounts G S (call a) := by
    refine framed_accounts ⟨e.name, a.all⟩ (perform_accounts (fun c m => ⟨_, rfl⟩) (fun f => ?_) ?_)
    · have hraise : Accounts G S (raise { cause := .functionFailed e.name f, line := some S.line, function := some e.name } :
          Play Value) := raise_accounts rfl
      dsimp only
      infer_instance
    · intro signal hsignal
      cases signal with
      | problem p => exact absurd rfl (hsignal p)
      | _ => rfl
  clear_value call
  split
  · infer_instance
  · next c hc =>
    have hraise : Accounts G S (raise (place c) : Play Arguments) :=
      raise_accounts (Condition.withContext_line (hbind.holds _ hc c rfl) _ _ _)
    infer_instance

end Play

end Conductor
