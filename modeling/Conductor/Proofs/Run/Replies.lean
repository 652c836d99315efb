import Conductor.Proofs.Memory.Oversized
import Conductor.Proofs.Memory.View
import Conductor.Proofs.Run.Builtins

/-!
# What comes of a request

A handler always answers: it replies, raises a problem or is late. Unless it interrupts, an answer
comes to one of two things. A reply that reports success gives the normal form of its result;
everything else is a condition of the handler's domain, and a reply that reports failure hands over
its error with it. Messages are written for malformed replies, for errors without a message of their
own, for problems that were raised and for handlers that are late, so a third thing is left for what
has no text: the failure to write it out.
-/

set_option autoImplicit false

namespace Conductor

/-! ## Values that can be written out -/

def Store.Utterable (store : Store) (v : Value) : Prop := ∃ t, store.tree v = .ok t ∧ ¬ t.Oversized

namespace Store

variable {store : Store}

theorem utterable_absent : store.Utterable .absent := ⟨_, rfl, id⟩

theorem Utterable.valueAt? {es : List (Value × Value)} {key : String} {v : Value} (h : store.Utterable (.dict es))
    (hv : Play.valueAt? key es = some v) : store.Utterable v := by
  obtain ⟨t, ht, hsize⟩ := h
  obtain ⟨ts, hts, heq⟩ := bind_eq_ok_iff.mp ht
  cases heq
  change ¬ Tree.entriesOversized ts at hsize
  rw [entriesWith_eq, traverse_eq_ok_iff] at hts
  clear ht
  induction hts with
  | nil => cases hv
  | @cons e e' es ts he _ ih =>
    obtain ⟨k, w⟩ := e
    rw [Tree.entriesOversized, not_or, not_or] at hsize
    have hrest (h : Play.valueAt? key es = some v) : store.Utterable v := ih h hsize.2.2
    unfold Play.valueAt? at hv
    split at hv
    · cases hv
    · next heq =>
      cases heq
      split at hv
      · cases hv
        exact ⟨e'.2, (entryWith_ok.mp he).2, hsize.2.1⟩
      · exact hrest hv
    · next heq =>
      cases heq
      exact hrest hv

end Store

namespace Play

open Address (Handler Request Reply Methods)

variable {α β : Type} {m : Machine} {store : Store}

/-! ## Work beside the run -/

theorem after_done {x : Play α} {k : α → Play β} {a : α} {m₁ : Machine} (h : x m = .done a m₁) : (x >>= k) m = k a m₁ := by
  rw [Run.bind_apply, h]
  rfl

theorem after_fail {x : Play α} {k : α → Play β} {e : Signal} {m₁ : Machine} (h : x m = .fail e m₁) :
    (x >>= k) m = .fail e m₁ := by
  rw [Run.bind_apply, h]
  rfl

theorem tree_eq (v : Value) (m : Machine) : tree v m = liftE (m.world.store.tree v) m := by
  simp only [tree, memory, Memory.tree, bind, EStateM.bind, Memory.get_apply]
  cases m.world.store.tree v <;> rfl

theorem normalize_eq (v : Value) (m : Machine) :
    normalize v m = match Store.normalize v m.world.store with
      | .ok (w, store) => .done w (m.withStore store)
      | .error f => .fail (.problem (.failure f)) m := by
  simp only [normalize, memory, Memory.normalize, Memory.withStore, bind, EStateM.bind, Memory.get_apply]
  cases Store.normalize v m.world.store <;> rfl

/-- What a request does not touch: the session, with the dispatcher in it, and the handlers. -/
def Untouched (m m' : Machine) : Prop := m'.session = m.session ∧ m'.world.handlers = m.world.handlers

theorem Untouched.refl (m : Machine) : Untouched m m := ⟨rfl, rfl⟩

theorem Untouched.trans {m m₁ m₂ : Machine} (h : Untouched m m₁) (h' : Untouched m₁ m₂) : Untouched m m₂ :=
  ⟨h'.1.trans h.1, h'.2.trans h.2⟩

theorem normalize_ends (v : Value) (m : Machine) :
    (∃ w m', normalize v m = .done w m' ∧ Untouched m m') ∨ ∃ f, normalize v m = .fail (.problem (.failure f)) m := by
  rw [normalize_eq]
  cases Store.normalize v m.world.store with
  | ok r => exact .inl ⟨_, _, rfl, rfl, rfl⟩
  | error f => exact .inr ⟨f, rfl⟩

def Delivers (x : Play α) : Prop := ∀ m, ∃ a m', x m = .done a m' ∧ Untouched m m'

namespace Delivers

theorem pure (a : α) : Delivers (pure a) := fun m => ⟨a, m, rfl, .refl m⟩

theorem bind {x : Play α} {k : α → Play β} (hx : Delivers x) (hk : ∀ a, Delivers (k a)) : Delivers (x >>= k) := by
  intro m
  obtain ⟨a, m₁, hdone, hm₁⟩ := hx m
  obtain ⟨b, m₂, hrest, hm₂⟩ := hk a m₁
  exact ⟨b, m₂, by rw [Run.bind_apply, hdone]; exact hrest, hm₁.trans hm₂⟩

theorem world : Delivers world := fun m => ⟨m.world, m, rfl, .refl m⟩

theorem modifyWorld {f : World → World} (hf : ∀ w, (f w).handlers = w.handlers) : Delivers (modifyWorld f) :=
  fun m => ⟨_, _, rfl, rfl, hf m.world⟩

theorem plant (t : Tree) : Delivers (plant t) := fun _ => ⟨_, _, rfl, rfl, rfl⟩

end Delivers

/-! ## Handlers answer -/

theorem refused_delivers (error : Tree) : Delivers (refused error) := .bind (.plant error) fun _ => .pure _

theorem callMethods_delivers (ms : Methods) (method : String) (payload : Value) (r : Request) (limit : Option Number) :
    Delivers (callMethods ms method payload r limit) := by
  unfold callMethods
  split
  · exact refused_delivers _
  · split
    · exact .pure _
    · next p _ =>
      by_cases hp : p.interrupts = true
      · rw [if_pos hp]
        exact .pure _
      · rw [if_neg hp]
        split
        · exact refused_delivers _
        · exact .pure _
    · exact .bind (.modifyWorld fun _ => rfl) fun _ => .pure _
    · exact .bind (.modifyWorld fun _ => rfl) fun _ => .pure _
    · exact .pure _

theorem nextReply_delivers (number : Nat) (replies : List Reply) : Delivers (nextReply number replies) :=
  .bind .world fun _ => .bind (.modifyWorld fun _ => rfl) fun _ => .pure _

/-- Whatever a handler is, a request to it is answered. -/
theorem askHandler_delivers (number : Nat) (method : String) (payload : Value) (r : Request) (limit : Option Number) :
    Delivers (askHandler number method payload r limit) := by
  refine .bind .world fun w => ?_
  split
  · exact .pure _
  · split
    · exact .pure _
    · refine .bind (.modifyWorld fun _ => rfl) fun _ => ?_
      split
      · exact callMethods_delivers _ _ _ _ _
      · exact .pure _
      · exact .bind (nextReply_delivers _ _) fun _ => .pure _
      · exact .pure _

/-! ## Replies -/

/-- A well-formed reply says whether the request was served, and has a result and an error: its parts are known,
or it is a dictionary that says so. -/
inductive Says (store : Store) : Reply → Bool → Value → Value → Prop
  | settled (success : Bool) (result error : Value) : Says store (.settled success result error) success result error
  | data {es : List (Value × Value)} {v : Value} {t : Tree} : valueAt? "success" es = some v → store.tree v = .ok t →
      Says store (.data (.dict es)) t.holds ((valueAt? "result" es).getD .absent) ((valueAt? "error" es).getD .absent)

theorem Says.unique {r : Reply} {success success' : Bool} {result result' error error' : Value}
    (h : Says store r success result error) (h' : Says store r success' result' error') :
    success = success' ∧ result = result' ∧ error = error' := by
  cases h with
  | settled =>
    cases h'
    exact ⟨rfl, rfl, rfl⟩
  | data hv ht =>
    cases h' with
    | data hv' ht' =>
      cases hv.symm.trans hv'
      cases ht.symm.trans ht'
      exact ⟨rfl, rfl, rfl⟩

def Presentable (store : Store) : Reply → Prop
  | .settled _ _ error => store.Utterable error
  | .data v => store.Utterable v

theorem Presentable.error {r : Reply} {success : Bool} {result error : Value} (h : Presentable store r)
    (hsaid : Says store r success result error) : store.Utterable error := by
  cases hsaid with
  | settled => exact h
  | @data es _ _ =>
    have hdict : store.Utterable (.dict es) := h
    cases herror : valueAt? "error" es with
    | none => exact Store.utterable_absent
    | some v => exact hdict.valueAt? herror

/-- What becomes of a reply when its parts are looked for. -/
inductive Parted (domain : String) (m : Machine) (r : Reply) : Step Machine Signal (Bool × Value × Value) → Prop
  | known {success : Bool} {result error : Value} : Says m.world.store r success result error →
      Parted domain m r (.done (success, result, error) m)
  | malformed {v : Value} {t : Tree} {shown : String} : (∀ success result error, ¬ Says m.world.store r success result error) →
      Parted domain m r (.fail (.problem (.condition
        { cause := .malformedReply domain shown, domain := some domain, payload := some t })) m)
  | textless {f : Failure} : (∀ success result error, ¬ Says m.world.store r success result error) →
      ¬ Presentable m.world.store r → Parted domain m r (.fail (.problem (.failure f)) m)

theorem malformed_parted {domain : String} {v : Value}
    (h : ∀ success result error, ¬ Says m.world.store (.data v) success result error) :
    Parted domain m (.data v) (coerce.malformed domain v m) := by
  simp only [coerce.malformed, Run.bind_apply, tree_eq]
  cases ht : m.world.store.tree v with
  | error f => exact .textless h fun ⟨t, ht', _⟩ => nomatch ht.symm.trans ht'
  | ok t =>
    cases hq : t.quoted with
    | error f =>
      simp only [liftE_ok, Step.bind, Run.bind_apply, hq, liftE_error]
      refine .textless h fun ⟨t', ht', hsize⟩ => hsize ?_
      cases ht.symm.trans ht'
      exact t.quoted_fails.mp ⟨f, hq⟩
    | ok shown =>
      simp only [liftE_ok, Step.bind, Run.bind_apply, hq, raise_apply]
      exact .malformed (v := v) h

theorem coerce_parted (domain : String) (r : Reply) (m : Machine) : Parted domain m r (coerce domain r m) := by
  unfold coerce
  split
  · exact .known (.settled ..)
  · next es =>
    cases hv : valueAt? "success" es with
    | some v =>
      simp only [Run.bind_apply, tree_eq]
      cases ht : m.world.store.tree v with
      | ok t => exact .known (.data hv ht)
      | error f =>
        refine .textless (fun _ _ _ hsaid => ?_) fun (hdict : m.world.store.Utterable (.dict es)) => ?_
        · cases hsaid with
          | data hv' ht' =>
            cases hv.symm.trans hv'
            cases ht.symm.trans ht'
        · obtain ⟨t, ht', -⟩ := hdict.valueAt? hv
          cases ht.symm.trans ht'
    | none =>
      refine malformed_parted fun _ _ _ hsaid => ?_
      cases hsaid with
      | data hv' => cases hv.symm.trans hv'
  · next v hv =>
    refine malformed_parted fun _ _ _ hsaid => ?_
    cases hsaid with
    | data => exact hv _ rfl

theorem errorMessage?_ends (error : Tree) (m : Machine) :
    (∃ message, errorMessage? error m = .done message m) ∨
      ∃ f, errorMessage? error m = .fail (.problem (.failure f)) m ∧ error.Oversized := by
  unfold errorMessage?
  dsimp only
  split
  · exact .inl ⟨_, rfl⟩
  · split
    · simp only [Run.bind_apply]
      cases hname : error.asName with
      | ok name => exact .inl ⟨_, rfl⟩
      | error f => exact .inr ⟨f, rfl, error.asName_fails.mp ⟨f, hname⟩⟩
    · exact .inl ⟨_, rfl⟩

/-! ## Requests -/

def domainOf (d : Address.Dispatcher) (domain : Option String) : String :=
  Text.upper (match domain with
    | some "" | none => d.context.domain
    | some name => name)

def requestOf (d : Address.Dispatcher) (way : Option String) (line : Option Nat) (delimiter domain : Option String) : Request where
  domain := domainOf d domain
  mode := match way with
    | some "" | none => d.context.mode.name
    | some name => name
  line := line
  delimiter := delimiter

/-- An answer of which everything that goes into a message can be written out, given the time for it. -/
structure Answer.Presentable (store : Store) (limit : Option Number) (answer : Answer) : Prop where
  time : ∃ seconds, limitText limit = .ok seconds
  reply : ∀ r, answer = .reply r → Play.Presentable store r
  problem : ∀ p, answer = .raised p → ∃ message, p.shown = .ok message

/-- An answer that stops what the run is doing. -/
def Answer.Interrupts (answer : Answer) (p : Problem) : Prop := answer = .raised p ∧ p.interrupts = true

/-- The two things that come of an answer. -/
inductive Classified (answer : Answer) (m : Machine) : Step Machine Signal Value → Prop
  /-- A reply that reports success gives the normal form of its result. -/
  | served {r : Reply} {result error : Value} : answer = .reply r → Says m.world.store r true result error →
      Classified answer m (normalize result m)
  /-- All else is a condition of a domain; a well-formed reply is then one that reports failure, and hands over its error. -/
  | refused {c : Condition} {domain : String} : c.kind = .addressHandler → c.domain = some domain →
      (∀ r success result error, answer = .reply r → Says m.world.store r success result error →
        success = false ∧ ∃ t, m.world.store.tree error = .ok t ∧ c.payload = some t) →
      Classified answer m (.fail (.problem (.condition c)) m)

/-- What comes of an answer in any case: no message can be written of what has no text, and what interrupts passes. -/
inductive Settles (limit : Option Number) (answer : Answer) (m : Machine) : Step Machine Signal Value → Prop
  | classified {s : Step Machine Signal Value} : Classified answer m s → Settles limit answer m s
  | textless {f : Failure} : ¬ answer.Presentable m.world.store limit →
      (∀ r result error, answer = .reply r → ¬ Says m.world.store r true result error) →
      Settles limit answer m (.fail (.problem (.failure f)) m)
  | interrupted {p : Problem} : answer.Interrupts p → Settles limit answer m (.fail (.problem p) m)

theorem Settles.of_presentable {limit : Option Number} {answer : Answer} {s : Step Machine Signal Value}
    (h : Settles limit answer m s) (hpresentable : answer.Presentable m.world.store limit)
    (hpatient : ∀ p, ¬ answer.Interrupts p) : Classified answer m s := by
  cases h with
  | classified h => exact h
  | textless hnot => exact (hnot hpresentable).elim
  | interrupted hp => exact (hpatient _ hp).elim

theorem Settles.done {limit : Option Number} {answer : Answer} {s : Step Machine Signal Value} {v : Value} {m' : Machine}
    (h : Settles limit answer m s) (hs : s = .done v m') : ∃ r result error, answer = .reply r ∧
      Says m.world.store r true result error ∧ normalize result m = .done v m' := by
  cases h with
  | classified h =>
    cases h with
    | served hr hsaid => exact ⟨_, _, _, hr, hsaid, hs⟩
    | refused => cases hs
  | textless | interrupted => cases hs

/-- However an answer is settled, the session and the handlers are as they were. -/
theorem Settles.untouched {limit : Option Number} {answer : Answer} {s : Step Machine Signal Value}
    (h : Settles limit answer m s) :
    (∃ v m', s = .done v m' ∧ Untouched m m') ∨ ∃ p m', s = .fail (.problem p) m' ∧ Untouched m m' := by
  cases h with
  | classified h =>
    cases h with
    | @served _ result _ _ _ =>
      rcases normalize_ends result m with ⟨v, m', hdone, hm'⟩ | ⟨f, hfail⟩
      · exact .inl ⟨v, m', hdone, hm'⟩
      · exact .inr ⟨_, m, hfail, .refl m⟩
    | refused => exact .inr ⟨_, m, rfl, .refl m⟩
  | textless | interrupted => exact .inr ⟨_, m, rfl, .refl m⟩

theorem place_domain (c : Condition) (line : Option Nat) (function : Option String) (domain : String) :
    ∃ d, (c.withContext line function (some domain)).domain = some d := by
  cases hd : c.domain with
  | none => exact ⟨domain, by simp [Condition.withContext, hd]⟩
  | some d => exact ⟨d, by simp [Condition.withContext, hd]⟩

/-- A condition of the handler's domain settles an answer that is no well-formed reply. -/
theorem Settles.condition {limit : Option Number} {answer : Answer} {c : Condition} (line : Option Nat)
    (function : Option String) (domain : String) (hkind : c.kind = .addressHandler)
    (hreply : ∀ r success result error, answer = .reply r → ¬ Says m.world.store r success result error) :
    Settles limit answer m (.fail (.problem (.condition (c.withContext line function (some domain)))) m) := by
  obtain ⟨d, hd⟩ := place_domain c line function domain
  exact .classified (.refused hkind hd fun r success result error hr hsaid => (hreply r success result error hr hsaid).elim)

theorem wrapped_settles {limit : Option Number} (p : Problem) (line : Option Nat) (domain : String) :
    Settles limit (.raised p) m (invoke.wrapped p (fun c => c.withContext line none (some domain)) m) := by
  have hreply (r : Reply) : Answer.raised p ≠ .reply r := Answer.noConfusion
  rw [invoke.wrapped, Run.bind_apply]
  cases hshown : p.shown with
  | error f =>
    refine .textless (fun h => ?_) fun r _ _ hr => (hreply r hr).elim
    obtain ⟨message, hmessage⟩ := h.problem p rfl
    cases hshown.symm.trans hmessage
  | ok message =>
    exact .condition (c := { cause := .reported _, payload := some (problemData p) }) line none domain rfl
      fun r _ _ _ hr => (hreply r hr).elim

theorem late_settles {limit : Option Number} {answer : Answer} (cause : String → Cause) (payload : String → Tree)
    (line : Option Nat) (domain : String) (hkind : ∀ seconds, (cause seconds).kind = .addressHandler)
    (hreply : ∀ r, answer ≠ .reply r) :
    Settles limit answer m ((do
      let seconds ← liftE (limitText limit)
      raise { cause := cause seconds, line := line, domain := some domain, payload := some (payload seconds) }) m) := by
  cases hl : limitText limit with
  | ok seconds =>
    exact .classified <| .refused (hkind seconds) rfl fun r success result error hr hsaid => (hreply r hr).elim
  | error f =>
    refine .textless (fun h => ?_) fun r result error hr => (hreply r hr).elim
    obtain ⟨seconds, hseconds⟩ := h.time
    cases hl.symm.trans hseconds

theorem refusal_settles {limit : Option Number} {r : Reply} {result error : Value} (name : String) (line : Option Nat)
    (domain : String) (hsaid : Says m.world.store r false result error) : Settles limit (.reply r) m ((do
      let error ← tree error
      match ← errorMessage? error with
      | some message => raise (Condition.withContext
          { cause := .reported message.toldText, payload := some error, said := message.untold } line none (some domain))
      | none => raise (Condition.withContext { cause := .handlerFailed name, payload := some error } line none
          (some domain))) m) := by
  have hfalse (r' : Reply) (result' error' : Value) (hr : Answer.reply r = .reply r') :
      ¬ Says m.world.store r' true result' error' := by
    cases hr
    exact fun hsaid' => Bool.false_ne_true (hsaid.unique hsaid').1
  cases ht : m.world.store.tree error with
  | error f =>
    rw [after_fail (e := .problem (.failure f)) (by rw [tree_eq, ht, liftE_error])]
    refine .textless (fun h => ?_) hfalse
    obtain ⟨t, ht', -⟩ := (h.reply r rfl).error hsaid
    cases ht.symm.trans ht'
  | ok t =>
    have hrefused (c : Condition) (hkind : c.kind = .addressHandler) (hpayload : c.payload = some t) :
        Settles limit (.reply r) m (.fail (.problem (.condition (c.withContext line none (some domain)))) m) := by
      obtain ⟨d, hd⟩ := place_domain c line none domain
      refine .classified (.refused hkind hd fun r' success' result' error' hr hsaid' => ?_)
      cases hr
      obtain ⟨hsuccess, -, rfl⟩ := hsaid.unique hsaid'
      exact ⟨hsuccess.symm, t, ht, hpayload⟩
    rw [after_done (a := t) (by rw [tree_eq, ht, liftE_ok])]
    rcases errorMessage?_ends t m with ⟨message, hmessage⟩ | ⟨f, hmessage, hsize⟩
    · rw [after_done hmessage]
      cases message with
      | some message => exact hrefused _ rfl rfl
      | none => exact hrefused _ rfl rfl
    · rw [after_fail hmessage]
      refine .textless (fun h => ?_) hfalse
      obtain ⟨t', ht', hsize'⟩ := (h.reply r rfl).error hsaid
      cases ht.symm.trans ht'
      exact hsize' hsize

theorem reply_settles {limit : Option Number} (r : Reply) (name : String) (line : Option Nat) (domain : String) :
    Settles limit (.reply r) m ((do
      let (success, result, error) ← coerce domain r
      if success then normalize result
      else
        let error ← tree error
        match ← errorMessage? error with
        | some message => raise (Condition.withContext
            { cause := .reported message.toldText, payload := some error, said := message.untold } line none (some domain))
        | none => raise (Condition.withContext { cause := .handlerFailed name, payload := some error } line none
            (some domain))) m) := by
  have hparted := coerce_parted domain r m
  cases hcoerce : coerce domain r m with
  | wait w m' resume =>
    rw [hcoerce] at hparted
    cases hparted
  | fail e m' =>
    rw [after_fail hcoerce]
    rw [hcoerce] at hparted
    cases hparted with
    | malformed hnot =>
      refine .classified (.refused rfl rfl fun _ _ _ _ hr hsaid => ?_)
      cases hr
      exact (hnot _ _ _ hsaid).elim
    | textless hnot hpresentable =>
      refine .textless (fun h => hpresentable (h.reply r rfl)) fun _ _ _ hr hsaid => ?_
      cases hr
      exact hnot _ _ _ hsaid
  | done parts m' =>
    rw [after_done hcoerce]
    rw [hcoerce] at hparted
    cases hparted with
    | @known success result error hsaid =>
      cases success with
      | true => exact .classified (.served rfl hsaid)
      | false => exact refusal_settles name line domain hsaid

/-- A request is settled by the answer to it. -/
theorem invoke_settles (method : String) (payload : Value) (way : Option String) (line : Option Nat)
    (delimiter domain : Option String) {number : Nat} {info : Address.Info} {answer : Answer} {m₁ : Machine}
    (hfound : m.session.dispatcher.handlerFor (domainOf m.session.dispatcher domain) = .ok (number, info))
    (hask : askHandler number method payload (requestOf m.session.dispatcher way line delimiter domain)
      m.session.dispatcher.timeout m = .done answer m₁) :
    Settles m.session.dispatcher.timeout answer m₁ (invoke method payload way line delimiter domain m) := by
  have hnumber : liftP (m.session.dispatcher.handlerFor (domainOf m.session.dispatcher domain)) m =
      .done (number, info) m := by
    rw [hfound, liftP_ok]
  unfold invoke
  rw [after_done (session_apply m)]
  extract_lets mode place
  change Settles _ _ _ ((liftP (m.session.dispatcher.handlerFor (domainOf m.session.dispatcher domain)) >>= _) m)
  rw [after_done hnumber]
  change Settles _ _ _ ((askHandler number method payload (requestOf m.session.dispatcher way line delimiter domain)
    m.session.dispatcher.timeout >>= _) m)
  rw [after_done hask]
  cases answer with
  | late => exact late_settles _ _ line _ (fun _ => rfl) nofun
  | raised p =>
    cases p with
    | condition c =>
      dsimp only
      split
      · next hkind => exact .condition line none _ (eq_of_beq hkind) nofun
      · exact wrapped_settles _ line _
    | failure f =>
      dsimp only
      split
      · next hinterrupts => exact .interrupted ⟨rfl, hinterrupts⟩
      · split
        · exact late_settles _ _ line _ (fun _ => rfl) nofun
        · exact wrapped_settles _ line _
  | reply r => exact reply_settles r info.name line _

/-- Whatever a handler does with a request, it answers, and an answer that does not interrupt is classified: the normal
form of the result of a reply that reports success comes of it, and of nothing else, or a condition of a domain, which
holds the error of a well-formed reply that reports failure. What a message cannot be written of is all that can stand
in the way. However the request ends, the session, with the context and the handlers of its dispatcher, is as it was. -/
theorem handler_outcomes_classified (method : String) (payload : Value) (way : Option String) (line : Option Nat)
    (delimiter domain : Option String) {m : Machine} {number : Nat} {info : Address.Info}
    (hfound : m.session.dispatcher.handlerFor (domainOf m.session.dispatcher domain) = .ok (number, info)) :
    ∃ answer m₁,
      askHandler number method payload (requestOf m.session.dispatcher way line delimiter domain)
        m.session.dispatcher.timeout m = .done answer m₁ ∧
      (answer.Presentable m₁.world.store m.session.dispatcher.timeout → (∀ p, ¬ answer.Interrupts p) →
        Classified answer m₁ (invoke method payload way line delimiter domain m)) ∧
      Settles m.session.dispatcher.timeout answer m₁ (invoke method payload way line delimiter domain m) ∧
      (∀ v m', invoke method payload way line delimiter domain m = .done v m' → ∃ r result error, answer = .reply r ∧
        Says m₁.world.store r true result error ∧ normalize result m₁ = .done v m') ∧
      ((∃ v m', invoke method payload way line delimiter domain m = .done v m' ∧ Untouched m m') ∨
        ∃ p m', invoke method payload way line delimiter domain m = .fail (.problem p) m' ∧ Untouched m m') := by
  obtain ⟨answer, m₁, hask, hm₁⟩ := askHandler_delivers number method payload
    (requestOf m.session.dispatcher way line delimiter domain) m.session.dispatcher.timeout m
  have hsettles := invoke_settles method payload way line delimiter domain hfound hask
  refine ⟨answer, m₁, hask, hsettles.of_presentable, hsettles, fun v m' => hsettles.done, ?_⟩
  rcases hsettles.untouched with ⟨v, m', hdone, hm'⟩ | ⟨p, m', hfail, hm'⟩
  · exact .inl ⟨v, m', hdone, hm₁.trans hm'⟩
  · exact .inr ⟨p, m', hfail, hm₁.trans hm'⟩

def declined : List (Value × Value) := [(.text "success", .bool false), (.text "error", .text "no")]

/-- A state with a handler whose reply declines. -/
def declining : Machine where
  session := { dispatcher := { handlers := [("D", 0, { name := "h", domains := ["D"] })], context := { domain := "D" } } }
  world := { handlers := #[{ report := .other "", service := .canned [.data (.dict declined)] none }], calls := #[[]], replies := #[0] }

/-- The error of the reply comes with the condition. -/
theorem handler_outcome_of_declining :
    declining.session.dispatcher.handlerFor (domainOf declining.session.dispatcher none) =
      .ok (0, { name := "h", domains := ["D"] }) ∧
    ∃ c d m', invoke "ask" .absent none none none none declining = .fail (.problem (.condition c)) m' ∧
      c.kind = .addressHandler ∧ c.domain = some d ∧ c.payload = some (.text "no") := by
  have hdomain : Text.upper (domainOf declining.session.dispatcher none) = "D" := by
    change Text.upper (Text.upper "D") = "D"
    decide +kernel
  have hfound : declining.session.dispatcher.handlerFor (domainOf declining.session.dispatcher none) =
      .ok (0, { name := "h", domains := ["D"] }) := by
    rw [Address.Dispatcher.handlerFor, hdomain]
    rfl
  refine ⟨hfound, ?_⟩
  obtain ⟨answer, m₁, hask, hclassified, -⟩ :=
    handler_outcomes_classified "ask" .absent none none none none hfound
  obtain rfl : answer = .reply (.data (.dict declined)) := by
    cases hask
    rfl
  have hsaid (store : Store) : Says store (.data (.dict declined)) false .absent (.text "no") := by
    have hparts : Says store (.data (.dict declined)) (Tree.bool false).holds ((valueAt? "result" declined).getD .absent)
        ((valueAt? "error" declined).getD .absent) := .data rfl rfl
    exact hparts
  have hreplies (p : Problem) : Answer.reply (.data (.dict declined)) ≠ .raised p := Answer.noConfusion
  have hclass := hclassified ⟨⟨"None", rfl⟩, fun r hr => ?_, fun p hp => (hreplies p hp).elim⟩
    fun p hp => hreplies p hp.1
  · generalize invoke "ask" .absent none none none none declining = s at hclass ⊢
    cases hclass with
    | served hr hserved =>
      cases hr
      exact (Bool.false_ne_true ((hsaid _).unique hserved).1).elim
    | @refused c d hkind hdomain hreply =>
      obtain ⟨-, t, ht, hpayload⟩ := hreply _ _ _ _ rfl (hsaid _)
      cases ht
      exact ⟨c, d, _, rfl, hkind, hdomain, hpayload⟩
  · cases hr
    exact ⟨_, rfl, by simp [Tree.Oversized, Tree.entriesOversized, Scalar.Oversized]⟩

end Play

end Conductor
