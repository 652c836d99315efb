import Conductor.Proofs.Run.Builtins
import Conductor.Proofs.Run.Spared
import Conductor.Proofs.Run.Trap

/-!
# What an answer leaves in the variables

Statements of many shapes reach a handler. Each of them comes down to the same three steps:
something is asked, the answer is noted in variables, and it may be assigned to a symbol. The
shapes differ in what they note. Those that send a request themselves note the value and that
the request succeeded; a call and a pipe reach a handler only because their name resolves to
one of its methods, and as clauses they note the value alone, on the right of an assignment
nothing.

What is asked writes no variable, so an answer that does not come leaves every variable as it
was, and one that comes changes only what is noted and the variable of the target.
-/

set_option autoImplicit false

namespace Conductor

open Syntax (Expr Ref CommandForm BlockLiteral Statement Place)

/-- What is noted of an answer: its value and the success, its value, or nothing. -/
inductive Noting
  | full
  | value
  | nothing
  deriving DecidableEq

def Noting.noted (v : Value) : Noting → Scope → Scope
  | .full, scope => (scope.put "RESULT" v).put "RC" (.int 0)
  | .value, scope => scope.put "RESULT" v
  | .nothing, scope => scope

/-- Whether the variables tell of the answer and of its success. -/
def Scope.Tells (scope : Scope) (v : Value) : Prop := scope.get? "RESULT" = some v ∧ scope.get? "RC" = some (.int 0)

/-- What has to hold before a statement for the variables to tell of its answer afterwards. -/
def Noting.Enough (v : Value) : Noting → Scope → Prop
  | .full, _ => True
  | .value, scope => scope.get? "RC" = some (.int 0)
  | .nothing, scope => scope.Tells v

theorem Noting.noted_tells_iff (noting : Noting) (v : Value) (scope : Scope) :
    (noting.noted v scope).Tells v ↔ noting.Enough v scope := by
  have hne : "RESULT" ≠ "RC" := by decide
  cases noting with
  | full =>
    refine iff_of_true ⟨?_, Table.get?_put_self _ _ _⟩ trivial
    exact (Table.get?_put_of_ne hne _ _).trans (Table.get?_put_self _ _ _)
  | value =>
    have hrc : (scope.put "RESULT" v).get? "RC" = scope.get? "RC" := Table.get?_put_of_ne hne.symm _ _
    exact ⟨fun h => hrc.symm.trans h.2, fun h => ⟨Table.get?_put_self _ _ _, hrc.trans h⟩⟩
  | nothing => exact Iff.rfl

/-- How a statement asks a handler. -/
structure Dispatch where
  send : Play Value
  noting : Noting
  target : Option Ref := none

namespace Dispatch

def note (d : Dispatch) (v : Value) : Play Unit :=
  Play.modifySession fun s => { s with scope := d.noting.noted v s.scope }

def assign (d : Dispatch) (v : Value) : Play Unit :=
  match d.target with
  | some r => Play.writeRef r v
  | none => return ()

def play (d : Dispatch) : Play Unit := do
  let v ← d.send
  d.note v
  d.assign v

/-- Whether a name is the name of the target's variable. -/
def Names (d : Dispatch) (key : String) : Prop := ∃ r, d.target = some r ∧ Memory.binding r.name = .ok key

end Dispatch

namespace Play

/-! ## The shapes -/

/-- A session that is addressed to a handler in a mode. -/
structure Addressed (s : Session) (mode : Syntax.Mode) : Prop where
  away : s.dispatcher.isDefault = false
  mode : s.dispatcher.context.mode = mode

def isCall : Option Expr → Bool
  | some (.call _ _ _) | some (.pipe _ _ _ _ _) => true
  | _ => false

def matchedPayload (p : Place) (found : Pattern.Match) : Value :=
  let part (s : Option String) : Value := match s with
    | some t => .text t
    | none => .absent
  .dict [(.text "line", .text p.text), (.text "groups", .list (found.groups.map part)),
    (.text "named", .dict (found.named.map fun e => (.text e.1, part e.2)))]

def sendText (o : Outer) (expr : Option Expr) (p : Place) : Play Value := do
  let command ← commandText o expr p.text
  sendCommand command p.line none

def sendOnce (o : Outer) (domain : String) (command : Expr) (p : Place) : Play Value :=
  inContext (do
    let command ← text (← eval o command)
    sendCommand command p.line (some domain)) fun c => if c.kind == .addressHandler then c.atLine (some p.line) else c

def isSendable : Statement → Bool
  | .address _ _ | .label _ _ => false
  | _ => true

/-- The statements that reach a handler in a session, and how. -/
inductive Dispatches (o : Outer) (s : Session) : Statement → Dispatch → Prop
  | matched {stmt : Statement} {found : Pattern.Match} : isSendable stmt = true →
      s.dispatcher.match? (placeOf stmt).text = some found →
      Dispatches o s stmt ⟨dispatch (placeOf stmt).text (matchedPayload (placeOf stmt) found) (some "pattern")
        (some (placeOf stmt).line) none none, .full, none⟩
  | once {domain : String} {command : Expr} {p : Place} :
      Dispatches o s (.address (.send domain command) p) ⟨sendOnce o domain command p, .full, none⟩
  | commandForm {expr : Option Expr} {c : CommandForm} {error : Option Condition} {p : Place} :
      Addressed s .function → Dispatches o s (.clause expr (some c) error p) ⟨sendForm o c p.line, .full, none⟩
  | textOfMode {mode : Syntax.Mode} {expr : Option Expr} {command : Option CommandForm} {error : Option Condition}
      {p : Place} : Addressed s mode → mode ≠ .function → mode ≠ .pattern →
      Dispatches o s (.clause expr command error p) ⟨sendText o expr p, .full, none⟩
  | textOfFunction {expr : Option Expr} {error : Option Condition} {p : Place} : Addressed s .function →
      isCall expr = false → Dispatches o s (.clause expr none error p) ⟨sendText o expr p, .full, none⟩
  | block {b : BlockLiteral} {p : Place} : s.dispatcher.isDefault = false → s.dispatcher.match? p.text = none →
      Dispatches o s (.block b p) ⟨sendBlock b, .full, none⟩
  | assignBlock {r : Ref} {b : BlockLiteral} {t : String} {p : Place} : s.dispatcher.isDefault = false →
      s.dispatcher.match? p.text = none → Dispatches o s (.assign r (.block b) t p) ⟨sendBlock b, .full, some r⟩
  | assignForm {r : Ref} {c : CommandForm} {t : String} {p : Place} : s.dispatcher.isDefault = false →
      s.dispatcher.match? p.text = none →
      Dispatches o s (.assign r (.command c) t p) ⟨sendForm o c p.line, .full, some r⟩
  | assignMethod {r q : Ref} {key t : String} {p : Place} : Addressed s .function → q.tail = [] →
      Memory.binding q.name = .ok key → s.scope.get? key = none →
      Dispatches o s (.assign r (.expr (.ref q)) t p)
        ⟨sendForm o { method := q.name, args := [], pos := q.pos } p.line, .full, some r⟩
  | call {name : String} {args : List Syntax.Arg} {pos : Syntax.Pos} {error : Option Condition} {p : Place} :
      Addressed s .function →
      Dispatches o s (.clause (some (.call name args pos)) none error p) ⟨eval o (.call name args pos), .value, none⟩
  | pipe {left : Expr} {name : String} {args : List Syntax.Arg} {callPos pos : Syntax.Pos} {error : Option Condition}
      {p : Place} : Addressed s .function →
      Dispatches o s (.clause (some (.pipe left name args callPos pos)) none error p)
        ⟨eval o (.pipe left name args callPos pos), .value, none⟩
  | nativeForm {expr : Option Expr} {c : CommandForm} {p : Place} : Addressed s .pattern →
      s.dispatcher.match? p.text = none →
      Dispatches o s (.clause expr (some c) none p) ⟨callNamed o c.method c.args true p.line, .value, none⟩
  | nativeCall {name : String} {args : List Syntax.Arg} {pos : Syntax.Pos} {p : Place} : Addressed s .pattern →
      s.dispatcher.match? p.text = none →
      Dispatches o s (.clause (some (.call name args pos)) none none p) ⟨callNamed o name args true p.line, .value, none⟩
  | nativePipe {left : Expr} {name : String} {args : List Syntax.Arg} {callPos pos : Syntax.Pos} {p : Place} :
      Addressed s .pattern → s.dispatcher.match? p.text = none →
      Dispatches o s (.clause (some (.pipe left name args callPos pos)) none none p)
        ⟨eval o (.pipe left name args callPos pos), .value, none⟩
  | callStatement {name : String} {args : List Syntax.Arg} {p : Place} : s.dispatcher.match? p.text = none →
      Dispatches o s (.call name args p) ⟨callNamed o name args true p.line, .value, none⟩
  | assignCall {r : Ref} {name : String} {args : List Syntax.Arg} {pos : Syntax.Pos} {t : String} {p : Place} :
      s.dispatcher.match? p.text = none →
      Dispatches o s (.assign r (.expr (.call name args pos)) t p) ⟨eval o (.call name args pos), .nothing, some r⟩
  | assignPipe {r : Ref} {left : Expr} {name : String} {args : List Syntax.Arg} {callPos pos : Syntax.Pos}
      {t : String} {p : Place} : s.dispatcher.match? p.text = none →
      Dispatches o s (.assign r (.expr (.pipe left name args callPos pos)) t p)
        ⟨eval o (.pipe left name args callPos pos), .nothing, some r⟩

/-! ## Every shape comes down to its dispatch -/

variable {o : Outer} {m : Machine}

theorem write_result (v : Value) :
    write "RESULT" v = modifySession fun s => { s with scope := Noting.noted v .value s.scope } := rfl

@[simp] theorem isDefault_apply (m : Machine) : isDefault m = .done m.session.dispatcher.isDefault m := rfl

@[simp] theorem mode_apply (m : Machine) : mode m = .done m.session.dispatcher.context.mode m := rfl

theorem has_apply {name key : String} (h : Memory.binding name = .ok key) (m : Machine) :
    memory (Memory.has name) m = .done (m.session.scope.contains key) m := by
  simp only [memory, Memory.has, h]
  rfl

theorem unless_default {α : Type} (h : m.session.dispatcher.isDefault = false) (x y : Play α) :
    (do if ← isDefault then x else y) m = y m := by
  simp only [Run.bind_apply, isDefault_apply, Step.bind, h]
  rfl

theorem Addressed.match? {s : Session} {mode : Syntax.Mode} (h : Addressed s mode) (hmode : mode ≠ .pattern)
    (t : String) : s.dispatcher.match? t = none := by
  unfold Address.Dispatcher.match?
  rw [h.mode]
  cases mode <;> simp_all

theorem exec_atPlace (o : Outer) (s : Statement) :
    ∃ body, exec o s = atPlace (placeOf s) (isSendable s) body := by
  cases s <;> exact ⟨_, by rw [exec]; rfl⟩

theorem discard_request (send : Play Value) : discard (request send) = Dispatch.play ⟨send, .full, none⟩ := by
  funext m
  exact Step.bind_assoc (send m) _ _

theorem request_assign (send : Play Value) (r : Ref) :
    (do writeRef r (← request send)) = Dispatch.play ⟨send, .full, some r⟩ := by
  simp only [request, bind_assoc, pure_bind]
  rfl

theorem note_value (send : Play Value) : (do write "RESULT" (← send)) = Dispatch.play ⟨send, .value, none⟩ := by
  simp only [write_result, Dispatch.play, Dispatch.note, Dispatch.assign]
  exact congrArg (send >>= ·) (funext fun v => bind_pure_unit.symm)

theorem assign_only (send : Play Value) (r : Ref) :
    (do writeRef r (← send)) = Dispatch.play ⟨send, .nothing, some r⟩ := rfl

theorem inContext_play (send : Play Value) (noting : Noting) (f : Condition → Condition) :
    inContext (Dispatch.play ⟨send, noting, none⟩) f = Dispatch.play ⟨inContext send f, noting, none⟩ := by
  funext m
  simp only [inContext, Dispatch.play, Run.tryCatch_apply, Run.bind_apply]
  induction send m with
  | done v m => rfl
  | fail e m =>
    cases e with
    | problem p => cases p <;> rfl
    | _ => rfl
  | wait w m resume ih => exact congrArg (Step.wait w m) (funext fun raised => funext (ih raised))

theorem sendMatched_apply {p : Place} {found : Pattern.Match} (h : m.session.dispatcher.match? p.text = some found) :
    sendMatched p m = (do
      discard (request (dispatch p.text (matchedPayload p found) (some "pattern") (some p.line) none none))
      return true : Play Bool) m := by
  simp only [sendMatched, Run.bind_apply, session_apply, Step.bind, h]
  rfl

theorem execClause_away {way : Syntax.Mode} (h : Addressed m.session way) (hway : way ≠ .pattern)
    (expr : Option Expr) (command : Option CommandForm) (error : Option Condition) (p : Place) :
    execClause o expr command error p m = (match way, command, expr with
      | .function, some c, _ => discard (request (sendForm o c p.line))
      | .function, none, some (.call name args pos) => do write "RESULT" (← eval o (.call name args pos))
      | .function, none, some (.pipe left name args callPos pos) => do
        write "RESULT" (← eval o (.pipe left name args callPos pos))
      | _, _, _ => discard (request (sendText o expr p))) m := by
  have hsent : (m.session.dispatcher.isDefault || way == .pattern) = false := by simp [h.away, hway]
  have hraw : (do
      let command ← commandText o expr p.text
      discard (request (sendCommand command p.line none)) : Play Unit) = discard (request (sendText o expr p)) := by
    simp only [discard_request, sendText, Dispatch.play, bind_assoc]
    rfl
  simp only [execClause, Run.bind_apply, mode_apply, isDefault_apply, Step.bind, h.mode, hsent, hraw]
  rfl

def nativeValue (o : Outer) (expr : Option Expr) (command : Option CommandForm) (p : Place) : Play Value :=
  match command, expr with
  | some c, _ => callNamed o c.method c.args true p.line
  | none, some (.call name args _) => callNamed o name args true p.line
  | none, some e => eval o e
  | none, none => pure (.text "")

theorem execClause_native (h : Addressed m.session .pattern) (expr : Option Expr) (command : Option CommandForm)
    (p : Place) :
    execClause o expr command none p m = (do write "RESULT" (← nativeValue o expr command p) : Play Unit) m := by
  have hnative : (m.session.dispatcher.isDefault || Syntax.Mode.pattern == .pattern) = true := by simp
  simp only [execClause, Run.bind_apply, mode_apply, isDefault_apply, Step.bind, h.mode, hnative, if_true]
  cases command with
  | some c => rfl
  | none =>
    cases expr with
    | none => rfl
    | some e => cases e <;> rfl

theorem goes_on {P : Machine → Prop} {s : Statement} {sendable : Bool} {body x : Play Unit}
    (hs : exec o s = atPlace (placeOf s) sendable body)
    (hunsent : ∀ m₀, P m₀ → m₀.session.dispatcher.match? (placeOf s).text = none) (hbody : ∀ m₀, P m₀ → body m₀ = x m₀) :
    ∃ k, exec o s = checkpoint (placeOf s) >>= (fun _ => k) ∧ ∀ m₀, P m₀ → k m₀ = x m₀ :=
  ⟨_, hs, fun m₀ hm₀ => (proceed_unsent (hunsent m₀ hm₀) _ _).trans (hbody m₀ hm₀)⟩

/-- A statement that reaches a handler asks once it has begun, notes the answer and assigns it, and nothing else. -/
theorem exec_dispatch {s : Statement} {d : Dispatch} (h : Dispatches o m.session s d) :
    ∃ k, exec o s = checkpoint (placeOf s) >>= (fun _ => k) ∧
      ∀ m₀, m₀.session = (underway (placeOf s) m).session → k m₀ = d.play m₀ := by
  have haddressed {way : Syntax.Mode} (h : Addressed m.session way) (m₀ : Machine)
      (hm₀ : m₀.session = (underway (placeOf s) m).session) : Addressed m₀.session way := by
    rw [hm₀]
    exact ⟨h.away, h.mode⟩
  have hunsent {t : String} (h : m.session.dispatcher.match? t = none) (m₀ : Machine)
      (hm₀ : m₀.session = (underway (placeOf s) m).session) : m₀.session.dispatcher.match? t = none := by
    rw [hm₀]
    exact h
  have haway (h : m.session.dispatcher.isDefault = false) (m₀ : Machine)
      (hm₀ : m₀.session = (underway (placeOf s) m).session) : m₀.session.dispatcher.isDefault = false := by
    rw [hm₀]
    exact h
  cases h with
  | @matched _ found hsendable hfound =>
    obtain ⟨body, hs⟩ := exec_atPlace o s
    refine ⟨_, hs, fun m₀ hm₀ => ?_⟩
    have hfound' : m₀.session.dispatcher.match? (placeOf s).text = some found := by
      rw [hm₀]
      exact hfound
    have hsend := sendMatched_apply hfound'
    simp only [hsendable, if_true, Run.bind_apply, hsend, discard_request]
    change ((Dispatch.play _ m₀).bind fun _ m => .done true m).bind _ = _
    exact (Step.bind_assoc _ _ _).trans (Step.bind_done _)
  | @once domain command p =>
    have hact : (do
        let command ← text (← eval o command)
        discard (request (sendCommand command p.line (some domain))) : Play Unit) =
        Dispatch.play ⟨do sendCommand (← text (← eval o command)) p.line (some domain), .full, none⟩ := by
      simp only [discard_request, Dispatch.play, bind_assoc]
      rfl
    have hto : addressTo o (.send domain command) p.line = Dispatch.play ⟨sendOnce o domain command p, .full, none⟩ := by
      rw [addressTo, hact, inContext_play]
      rfl
    exact ⟨_, by rw [exec]; rfl, fun m₀ _ => congrFun hto m₀⟩
  | commandForm h =>
    refine goes_on (by rw [exec]; rfl) (hunsent (h.match? (by decide) _)) fun m₀ hm₀ => ?_
    rw [execClause_away (haddressed h m₀ hm₀) (by decide)]
    exact congrFun (discard_request _) _
  | @textOfMode way expr command error p h hfunction hpattern =>
    refine goes_on (by rw [exec]; rfl) (hunsent (h.match? hpattern _)) fun m₀ hm₀ => ?_
    rw [execClause_away (haddressed h m₀ hm₀) hpattern]
    cases way with
    | function | pattern => contradiction
    | command | heredoc => exact congrFun (discard_request _) _
  | @textOfFunction expr error p h hexpr =>
    refine goes_on (by rw [exec]; rfl) (hunsent (h.match? (by decide) _)) fun m₀ hm₀ => ?_
    rw [execClause_away (haddressed h m₀ hm₀) (by decide)]
    cases expr with
    | none => exact congrFun (discard_request _) _
    | some e =>
      cases e with
      | call | pipe => cases hexpr
      | literal | ref | unary | binary => exact congrFun (discard_request _) _
  | @block b p hdefault hmatch =>
    refine goes_on (by rw [exec]; rfl) (hunsent hmatch) fun m₀ hm₀ => ?_
    rw [unless_default (haway hdefault m₀ hm₀)]
    exact congrFun (discard_request _) _
  | @assignBlock r b t p hdefault hmatch =>
    refine goes_on (by rw [exec]; rfl) (hunsent hmatch) fun m₀ hm₀ => ?_
    rw [sourceValue, Run.bind_apply, unless_default (haway hdefault m₀ hm₀)]
    exact congrFun (request_assign _ _) _
  | @assignForm r c t p hdefault hmatch =>
    refine goes_on (by rw [exec]; rfl) (hunsent hmatch) fun m₀ hm₀ => ?_
    rw [sourceValue, Run.bind_apply, unless_default (haway hdefault m₀ hm₀)]
    exact congrFun (request_assign _ _) _
  | @assignMethod r q key t p h htail hkey hunbound =>
    refine goes_on (by rw [exec]; rfl) (hunsent (h.match? (by decide) _)) fun m₀ hm₀ => ?_
    have hbare : isBareMethod q m₀ = .done true m₀ := by
      have hnew : m₀.session.scope.contains key = false := by simp [Table.contains, hm₀, underway, hunbound]
      have ⟨haway, hway⟩ := haddressed h m₀ hm₀
      simp [isBareMethod, htail, has_apply hkey, hnew, haway, hway, Step.bind]
    have hsource : sourceValue o (.expr (.ref q)) p.line m₀ =
        request (sendForm o { method := q.name, args := [], pos := q.pos } p.line) m₀ := by
      simp only [sourceValue, Run.bind_apply, hbare, Step.bind]
      rfl
    rw [Run.bind_apply, hsource]
    exact congrFun (request_assign _ _) _
  | call h =>
    refine goes_on (by rw [exec]; rfl) (hunsent (h.match? (by decide) _)) fun m₀ hm₀ => ?_
    rw [execClause_away (haddressed h m₀ hm₀) (by decide)]
    exact congrFun (note_value _) _
  | pipe h =>
    refine goes_on (by rw [exec]; rfl) (hunsent (h.match? (by decide) _)) fun m₀ hm₀ => ?_
    rw [execClause_away (haddressed h m₀ hm₀) (by decide)]
    exact congrFun (note_value _) _
  | nativeForm h hmatch =>
    refine goes_on (by rw [exec]; rfl) (hunsent hmatch) fun m₀ hm₀ => ?_
    rw [execClause_native (haddressed h m₀ hm₀)]
    exact congrFun (note_value _) _
  | nativeCall h hmatch =>
    refine goes_on (by rw [exec]; rfl) (hunsent hmatch) fun m₀ hm₀ => ?_
    rw [execClause_native (haddressed h m₀ hm₀)]
    exact congrFun (note_value _) _
  | nativePipe h hmatch =>
    refine goes_on (by rw [exec]; rfl) (hunsent hmatch) fun m₀ hm₀ => ?_
    rw [execClause_native (haddressed h m₀ hm₀)]
    exact congrFun (note_value _) _
  | callStatement hmatch => exact goes_on (by rw [exec]; rfl) (hunsent hmatch) fun _ _ => congrFun (note_value _) _
  | assignCall hmatch => exact goes_on (by rw [exec]; rfl) (hunsent hmatch) fun _ _ => congrFun (assign_only _ _) _
  | assignPipe hmatch => exact goes_on (by rw [exec]; rfl) (hunsent hmatch) fun _ _ => congrFun (assign_only _ _) _

/-! ## Calls that reach a handler -/

def Settled : Value → Prop
  | .scalar s => s.normalize = s
  | .stem _ => True
  | .list _ | .dict _ => False

def Yields {α : Type} (Q : α → Prop) (x : Play α) : Prop := ∀ m a m', x m = .done a m' → Q a

theorem Yields.bind {α β : Type} {Q : β → Prop} {x : Play α} {k : α → Play β} (hk : ∀ a, Yields Q (k a)) :
    Yields Q (x >>= k) := by
  intro m b m' h
  rw [Run.bind_apply] at h
  cases hx : x m with
  | done a m₁ =>
    rw [hx] at h
    exact hk a m₁ b m' h
  | fail e m₁ =>
    rw [hx] at h
    cases h
  | wait w m₁ resume =>
    rw [hx] at h
    cases h

theorem Yields.throw {α : Type} {Q : α → Prop} (e : Signal) : Yields Q (throw e) := by
  intro m a m' h
  cases h

theorem settled_normalize {v w : Value} {store store' : Store} (h : Store.normalize v store = .ok (w, store')) :
    Settled w := by
  cases v with
  | scalar s =>
    cases h
    cases s <;> exact rfl
  | stem a =>
    cases h
    trivial
  | list items =>
    obtain ⟨r, -, halloc⟩ := bind_eq_ok_iff.mp h
    cases halloc
    trivial
  | dict entries =>
    obtain ⟨r, -, halloc⟩ := bind_eq_ok_iff.mp h
    cases halloc
    trivial

theorem normalize_yields (v : Value) : Yields Settled (normalize v) := by
  intro m w m' h
  simp only [normalize, memory, Memory.normalize, Memory.withStore, bind, EStateM.bind, Memory.get_apply] at h
  cases hn : Store.normalize v m.world.store with
  | error f =>
    rw [hn] at h
    cases h
  | ok r =>
    rw [hn] at h
    cases h
    exact settled_normalize hn

theorem normalize_settled {v : Value} (h : Settled v) (m : Machine) : normalize v m = .done v m := by
  cases v with
  | scalar s =>
    change Step.done (Value.scalar s.normalize) m = .done (Value.scalar s) m
    rw [show s.normalize = s from h]
  | stem a => rfl
  | list _ | dict _ => exact h.elim

theorem invoke_yields (method : String) (payload : Value) (way : Option String) (line : Option Nat)
    (delimiter domain : Option String) : Yields Settled (invoke method payload way line delimiter domain) := by
  unfold invoke
  refine .bind fun s => .bind fun found => ?_
  extract_lets sent place
  split
  extract_lets late
  have hlate : Yields Settled late := .bind fun seconds => .throw _
  have hwrapped (p : Problem) : Yields Settled (invoke.wrapped p place) := .bind fun message => .throw _
  refine .bind fun answer => ?_
  split
  · exact hlate
  · split
    · exact .throw _
    · exact hwrapped _
  · split
    · exact .throw _
    · split
      · exact hlate
      · exact hwrapped _
  · refine .bind fun parts => ?_
    split
    split
    · exact normalize_yields _
    · refine .bind fun error => .bind fun message => ?_
      split <;> exact .throw _

theorem dispatch_comes {G : World → World → Prop} {method : String} {payload : Value} {way : Option String}
    {line : Option Nat} {delimiter domain : Option String} {v : Value} {m₁ : Machine}
    (h : (dispatch method payload way line delimiter domain m).Comes (Interlude G) (.done v m₁)) :
    ∃ m', Interlude G m m' ∧ invoke method payload way line delimiter domain m' = .done v m₁ := by
  cases h with
  | wait hR h =>
    have hsimple : Simple (invoke method payload way line delimiter domain) := inferInstance
    exact ⟨_, hR, (hsimple.calm _).eq_of_comes h⟩

/-- The value of a call whose name resolves to a method of a handler is the answer of the handler. -/
theorem apply_method (o : Outer) {G : World → World → Prop} {e : Entry} {domain method : String} {params : List String}
    {supplied : List Supplied} {piped : Option Value} {asStatement : Bool} {a : Arguments} {payload : List (String × Value)}
    {m m₁ : Machine} {v : Value} (he : e.routine = .method domain method params)
    (hbind : e.bind supplied piped asStatement = .ok a) (hpayload : a.payload m.world.store params = .ok payload)
    (hdispatch : (dispatch method (.dict (payload.map fun p => (.text p.1, p.2))) (some "function") none none (some domain)
      (m.inCall ⟨e.name, a.all⟩)).Comes (Interlude G) (.done v m₁)) (line : Option Nat) :
    (apply o e supplied piped asStatement line m).Comes (Interlude G) (.done v m₁.outOfCall) := by
  obtain ⟨m', -, hinvoke⟩ := dispatch_comes hdispatch
  have hperform : (perform o e a (m.inCall ⟨e.name, a.all⟩)).Comes (Interlude G) (.done v m₁) := by
    have hworld : (m.inCall ⟨e.name, a.all⟩).world.store = m.world.store := rfl
    simp only [perform, he, Run.bind_apply, world_apply, Step.bind, hworld, hpayload, liftE_ok]
    refine hdispatch.bind_done ?_
    rw [normalize_settled (invoke_yields _ _ _ _ _ _ _ _ _ hinvoke) m₁]
    exact .done _ _
  unfold apply
  rw [hbind]
  exact hperform.recover_done.bind_done (.done _ _)

/-! ## What is left afterwards -/

theorem Dispatches.spares {γ : Type} {view : Scope → γ} [o.Spares view] {s : Session} {stmt : Statement} {d : Dispatch}
    (h : Dispatches o s stmt d) : Spares view d.send := by
  cases h with
  | once => unfold sendOnce; infer_instance
  | textOfMode | textOfFunction => unfold sendText; infer_instance
  | _ => infer_instance

theorem assign_spares {d : Dispatch} {key : String} (hkey : ¬ d.Names key) (v : Value) :
    Spares (fun scope => scope.get? key) (d.assign v) := by
  unfold Dispatch.assign
  split
  · next r hr => exact writeRef_spares (fun hbinding => hkey ⟨r, hr, hbinding⟩) v
  · infer_instance

/-- A statement that asks either has its answer noted and assigned, or ends as its request does. -/
theorem play_comes {G : World → World → Prop} {d : Dispatch} (hd : Spares id d.send)
    {ending : Step.Ending Machine Signal Unit} (hc : (d.play m).Comes (Interlude G) ending) :
    (∃ v m₁, (d.send m).Comes (Interlude G) (.done v m₁) ∧
      (d.assign v { m₁ with session := { m₁.session with scope := d.noting.noted v m.session.scope } }).Comes
        (Interlude G) ending) ∨
    ∃ e m₁, (d.send m).Comes (Interlude G) (.fail e m₁) ∧ ending = .fail e m₁ ∧
      m₁.session.scope = m.session.scope := by
  rw [Dispatch.play, Run.bind_apply] at hc
  rcases hc.of_bind with ⟨v, m₁, hsend, hrest⟩ | ⟨e, m₁, hsend, rfl⟩
  · refine .inl ⟨v, m₁, hsend, ?_⟩
    have hscope : m₁.session.scope = m.session.scope := hd.comes hsend
    rw [← hscope]
    exact hrest
  · exact .inr ⟨e, m₁, hsend, rfl, hd.comes hsend⟩

/-- A statement that reaches a handler asks once, when it has begun. If the answer comes, it is assigned to the target, and
all variables but the target's are as they were except for what is noted: the value in RESULT and 0 in RC by every
statement that sends a request itself, RESULT alone by a clause that is a call or a pipe, nothing by an assignment of a
call or a pipe. So a statement whose target is neither tells of its answer in RESULT and RC exactly if it notes both, or
the rest was there before it. If no answer comes, or the statement does not begin, every variable is as it was. The value
of a call or a pipe into a method is the answer of the handler. -/
theorem answers_noted_by_shape (n : Nat) (G : World → World → Prop) (m : Machine) :
    (∀ s d ending, Dispatches (outer n) m.session s d → (exec (outer n) s m).Comes (Interlude G) ending →
      (∃ m₀, Opens G (placeOf s) m m₀ ∧
        ((∃ v m₁, (d.send m₀).Comes (Interlude G) (.done v m₁) ∧
          (d.assign v { m₁ with session := { m₁.session with scope := d.noting.noted v m.session.scope } }).Comes
            (Interlude G) ending ∧
          (∀ key, ¬ d.Names key → ending.state.session.scope.get? key = (d.noting.noted v m.session.scope).get? key) ∧
          (¬ d.Names "RESULT" → ¬ d.Names "RC" →
            (ending.state.session.scope.Tells v ↔ d.noting.Enough v m.session.scope))) ∨
        ∃ e m₁, (d.send m₀).Comes (Interlude G) (.fail e m₁) ∧ ending = .fail e m₁ ∧
          m₁.session.scope = m.session.scope)) ∨
      ∃ e m₁, (checkpoint (placeOf s) m).Comes (Interlude G) (.fail e m₁) ∧ ending = .fail e m₁ ∧
        m₁.session.scope = m.session.scope) ∧
    ∀ (e : Entry) (domain method : String) (params : List String) (supplied : List Supplied) (piped : Option Value)
      (asStatement : Bool) (line : Option Nat) (a : Arguments) (payload : List (String × Value)) (v : Value) (m₁ : Machine),
      e.routine = .method domain method params → e.bind supplied piped asStatement = .ok a →
      a.payload m.world.store params = .ok payload →
      (dispatch method (.dict (payload.map fun p => (.text p.1, p.2))) (some "function") none none (some domain)
        (m.inCall ⟨e.name, a.all⟩)).Comes (Interlude G) (.done v m₁) →
      (apply (outer n) e supplied piped asStatement line m).Comes (Interlude G) (.done v m₁.outOfCall) := by
  refine ⟨?_, fun e domain method params supplied piped asStatement line a payload v m₁ he hbind hpayload hdispatch =>
    apply_method (outer n) he hbind hpayload hdispatch line⟩
  intro s d ending hs hend
  obtain ⟨k, hexec, hk⟩ := exec_dispatch hs
  rw [hexec, Run.bind_apply] at hend
  rcases hend.of_bind with ⟨_, m₀, hopens, hrest⟩ | ⟨e, m₁, hfails, rfl⟩
  swap
  · have hscope : m₁.session.scope = (withholding m).session.scope := congrArg Session.scope (checkpoint_fails hfails)
    exact .inr ⟨e, m₁, hfails, rfl, hscope⟩
  have hsession : m₀.session = (underway (placeOf s) m).session := Opens.session hopens
  have hscope : m₀.session.scope = (underway (placeOf s) m).session.scope := congrArg Session.scope hsession
  rw [hk m₀ hsession] at hrest
  refine .inl ⟨m₀, hopens, ?_⟩
  rcases play_comes hs.spares hrest with ⟨v, m₁, hsend, hassign⟩ | ⟨e, m₁, hsend, heq, hsame⟩
  · rw [hscope] at hassign
    have hothers (key : String) (hkey : ¬ d.Names key) :
        ending.state.session.scope.get? key = (d.noting.noted v m.session.scope).get? key :=
      (assign_spares hkey v).comes hassign
    refine .inl ⟨v, m₁, hsend, hassign, hothers, fun hresult hrc => ?_⟩
    rw [← d.noting.noted_tells_iff, Scope.Tells, Scope.Tells, hothers _ hresult, hothers _ hrc]
  · exact .inr ⟨e, m₁, hsend, heq, hsame.trans hscope⟩

def fiveTable : Address.Methods where
  name := "svc"
  methods := [("m", { name := "m", signature := { params := [("a", none)] }, behaviour := .constant (.int 5) })]

/-- Addressed to the table, with a code of an earlier statement in RC. -/
def serving : Machine where
  session :=
    { scope := [("RC", .int 7)]
      dispatcher :=
        { handlers := [("SVC", (0, { name := "svc", domains := ["SVC"], methods := some [("m", ["a"])] }))]
          context := { domain := "SVC" } } }
  world :=
    { handlers := #[⟨fiveTable.report (.text "svc") (.text "SVC") (.scalar .absent), .methods fiveTable⟩], calls := #[[]] }

def called : Expr := .call "m" [(none, .literal (.number (.int 1)) ⟨3, 3⟩)] ⟨3, 1⟩

def resultAfter (ending : Step.Ending Machine Signal Unit) : Option Int :=
  match ending with
  | .done _ m =>
    match m.session.scope.get? "RESULT" with
    | some (.scalar (.int n)) => some n
    | _ => none
  | _ => none

/-- A clause that calls the method notes the answer and leaves the old code in RC. -/
theorem answers_noted_by_shape_stale : ∃ m',
    (exec (outer 1) (.clause (some called) none none ⟨3, "m(1)"⟩) serving).Comes (Interlude fun _ _ => True) (.done ⟨⟩ m') ∧
      m'.session.scope.get? "RESULT" = some (.int 5) ∧ m'.session.scope.get? "RC" = some (.int 7) ∧
      ¬ m'.session.scope.Tells (.int 5) := by
  have hresult : resultAfter (exec (outer 1) (.clause (some called) none none ⟨3, "m(1)"⟩) serving).alone = some 5 := by
    decide +kernel
  have hs : Dispatches (outer 1) serving.session (.clause (some called) none none ⟨3, "m(1)"⟩)
      ⟨eval (outer 1) called, .value, none⟩ := .call ⟨rfl, rfl⟩
  generalize hending : (exec (outer 1) (.clause (some called) none none ⟨3, "m(1)"⟩) serving).alone = ending at hresult
  cases ending with
  | fail e m' => exact absurd hresult (by simp [resultAfter])
  | stuck m' => exact absurd hresult (by simp [resultAfter])
  | done u m' =>
    have hcomes : (exec (outer 1) (.clause (some called) none none ⟨3, "m(1)"⟩) serving).Comes (Interlude fun _ _ => True)
        (.done u m') := .of_alone (fun _ => ⟨rfl, trivial⟩) hending
    rcases (answers_noted_by_shape 1 _ serving).1 _ _ _ hs hcomes with
      ⟨m₀, -, ⟨v, m₁, -, -, hothers, -⟩ | ⟨_, _, _, hfail, _⟩⟩ | ⟨_, _, _, hfail, _⟩
    · have hnames (key : String) : ¬ Dispatch.Names ⟨eval (outer 1) called, .value, none⟩ key := nofun
      have hrc : m'.session.scope.get? "RC" = some (.int 7) := hothers _ (hnames _)
      have hfive : m'.session.scope.get? "RESULT" = some (.int 5) := by
        simp only [resultAfter] at hresult
        split at hresult
        · next n hn =>
          cases hresult
          exact hn
        · cases hresult
      refine ⟨m', hcomes, hfive, hrc, fun htells => ?_⟩
      have hcode : some (Value.int 7) = some (Value.int 0) := hrc.symm.trans htells.2
      cases hcode
    · cases hfail
    · cases hfail

end Play

end Conductor
