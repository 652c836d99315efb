import Conductor.Proofs.Run.Blame
import Conductor.Proofs.Run.Recorded
import Conductor.Proofs.Run.Seating

/-!
# Two forms of a request

A method of a handler is called as a function, with parentheses, or written as a command with its
arguments behind it. Both forms evaluate the arguments one after the other, seat them and ask the
handler in function mode. The call asks for the method as it was declared and the command for the
method as it is written, and the data that they send is the same exactly if every name is written
as its parameter and no argument has changed while the later ones were evaluated.
-/

set_option autoImplicit false

namespace Conductor

open Syntax (Expr CommandForm)

namespace Play

variable {G : World → World → Prop} {o : Outer} {m m' : Machine}

/-! ## Arguments -/

inductive Evaluates (G : World → World → Prop) (o : Outer) : List Syntax.Arg → Machine → List Operand → Machine → Prop
  | nil {m : Machine} : Evaluates G o [] m [] m
  | cons {a : Syntax.Arg} {rest : List Syntax.Arg} {t : Operand} {ops : List Operand} {m m₁ m₂ : Machine} :
      (eval o a.2 m).Comes (Interlude G) (.done t.value m₁) → t.name = a.1 → m₁.world.store.plain t.value = .ok t.early →
      Evaluates G o rest m₁ ops m₂ → Evaluates G o (a :: rest) m (t :: ops) m₂

theorem Evaluates.evalArgs_comes {args : List Syntax.Arg} {ops : List Operand} (h : Evaluates G o args m ops m') :
    (evalArgs o args m).Comes (Interlude G) (.done (Operand.supplied Operand.value ops) m') := by
  induction h with
  | nil =>
    rw [evalArgs]
    exact .done _ _
  | @cons a rest t ops m m₁ m₂ heval hname hplain _ ih =>
    obtain ⟨name, e⟩ := a
    obtain rfl : t.name = name := hname
    rw [evalArgs]
    exact heval.bind_done (ih.bind_done (.done _ _))

theorem Evaluates.requestArgs_comes {args : List Syntax.Arg} {ops : List Operand} (h : Evaluates G o args m ops m') :
    (requestArgs o args m).Comes (Interlude G)
      (.done (Table.ofEntries (Supplied.named (Operand.supplied Operand.early ops)),
      Supplied.placed (Operand.supplied Operand.early ops)) m') := by
  have hvalues : ((args.mapM fun a => do
      let v ← eval o a.2
      return (a.1, ← plain v) : Play (List Supplied)) m).Comes (Interlude G)
        (.done (Operand.supplied Operand.early ops) m') := by
    induction h with
    | nil => exact .done _ _
    | @cons a rest t ops m m₁ m₂ heval hname hplain _ ih =>
      rw [List.mapM_cons]
      have hfirst : ((do
          let v ← eval o a.2
          return (a.1, ← plain v) : Play Supplied) m).Comes (Interlude G) (.done (t.name, t.early) m₁) := by
        refine heval.bind_done ?_
        rw [hname]
        change ((plain t.value m₁).bind fun v m => .done (a.1, v) m).Comes _ _
        rw [plain_apply hplain]
        exact .done _ _
      exact hfirst.bind_done (ih.bind_done (.done _ _))
  exact hvalues.bind_done (.done _ _)

/-! ## What the forms ask -/

def payloadOf (t : Table String Value) : Value := .dict (t.map fun s => (.text s.1, s.2))

theorem sendForm_runs {c : CommandForm} {ops : List Operand} (h : Evaluates G o c.args m ops m') (line : Nat) :
    Runs G (dispatch c.method (payloadOf (requestPayload (m.session.dispatcher.methodParams c.method none)
      (Table.ofEntries (Supplied.named (Operand.supplied Operand.early ops)))
      (Supplied.placed (Operand.supplied Operand.early ops)))) (some "function") (some line) none none) m'
      (sendForm o c line) m :=
  .next (.done m.session m) (.next h.requestArgs_comes .here)

theorem apply_runs {e : Entry} {domain method : String} {params : List String} {supplied : List Supplied}
    {piped : Option Value} {asStatement : Bool} {a : Arguments} {called : Table String Value}
    (he : e.routine = .method domain method params) (hbind : e.bind supplied piped asStatement = .ok a)
    (hpayload : a.payload m.world.store params = .ok called) (line : Option Nat) :
    Runs G (dispatch method (payloadOf called) (some "function") none none (some domain)) (m.inCall ⟨e.name, a.all⟩)
      (apply o e supplied piped asStatement line) m := by
  set n := m.inCall ⟨e.name, a.all⟩
  have hworld : (world n).Comes (Interlude G) (.done m.world n) := .done _ _
  have hdata : (liftE (a.payload m.world.store params) n).Comes (Interlude G) (.done called n) := by
    rw [hpayload]
    exact .done _ _
  have hperform :
      Runs G (dispatch method (payloadOf called) (some "function") none none (some domain)) n (perform o e a) n := by
    unfold perform
    rw [he]
    exact .next hworld (.next hdata (.first .here))
  unfold apply
  rw [hbind]
  refine .next (.done a m) (.next (.done _ _) (.first (.guarded ?_ hperform)))
  exact fun c m => ⟨_, _, rfl, c.withContext_follows _ _ _⟩

theorem call_runs {name : String} {args : List Syntax.Arg} {ops : List Operand} {e : Entry} {domain method : String}
    {params : List String} {a : Arguments} {called : Table String Value}
    (hlocal : m.session.resolver.local? m.session.dispatcher.methodNamed? name = some e) (h : Evaluates G o args m ops m')
    (he : e.routine = .method domain method params)
    (hbind : e.bind (Operand.supplied Operand.value ops) none false = .ok a)
    (hpayload : a.payload m'.world.store params = .ok called) (pos : Syntax.Pos) :
    Runs G (dispatch method (payloadOf called) (some "function") none none (some domain)) (m'.inCall ⟨e.name, a.all⟩)
      (eval o (.call name args pos)) m := by
  have hresolve : (resolve o name (some pos.line) m).Comes (Interlude G) (.done e m) := by
    rw [resolve_local o hlocal]
    exact .done e m
  rw [eval]
  exact .next hresolve (.next h.evalArgs_comes (apply_runs he hbind hpayload _))

theorem dispatch_runs {s : Syntax.Statement} {d : Dispatch} {β : Type} {y : Play β} {m₀ : Machine}
    (hopens : Opens G (placeOf s) m m₀) (hs : Dispatches o m.session s d) (h : Runs G y m' d.send m₀) :
    Runs G y m' (exec o s) m := by
  obtain ⟨k, hexec, hk⟩ := exec_dispatch hs
  have hplay : Runs G y m' d.play m₀ := .first h
  rw [hexec]
  exact .next hopens (.same (hk m₀ hopens.session).symm hplay)

/-! ## Where a run asks -/

inductive Prepared : Session → Prop
  | made {c : Config} {channel : Option Channel} {s : Session} : Session.ofConfig c channel = .ok s → Prepared s
  | registered {s : Session} {number : Nat} {r : Address.Report} {info : Address.Info} {d : Address.Dispatcher} :
      Prepared s → s.dispatcher.register number r = .ok (info, d) → Prepared { s with dispatcher := d }
  | unregistered {s : Session} (domain : String) :
      Prepared s → Prepared { s with dispatcher := s.dispatcher.unregister domain }
  | ofModule (sourceDir : String) (required : List Entry) (purpose : Purpose) :
      Prepared (moduleSession sourceDir required purpose)

theorem Prepared.capitalised {s : Session} (h : Prepared s) : s.dispatcher.Capitalised := by
  induction h with
  | @made c channel s h =>
    unfold Session.ofConfig at h
    extract_lets finish at h
    have hfinish (channel : Option Channel) (h : finish channel = .ok s) : s.dispatcher.Capitalised := by
      obtain ⟨domain, -, h⟩ := bind_eq_ok_iff.mp h
      obtain ⟨_, -, h⟩ := bind_eq_ok_iff.mp h
      cases h
      exact .initial domain _
    split at h
    · exact hfinish _ h
    · split at h
      · obtain ⟨_, -, h⟩ := bind_eq_ok_iff.mp h
        exact hfinish _ h
      · exact hfinish _ h
  | registered _ hr ih => exact ih.register hr
  | unregistered domain _ ih => exact ih.unregister domain
  | ofModule sourceDir required purpose =>
    have hnative : ({} : Address.Dispatcher).Capitalised := ⟨by decide, by decide⟩
    exact hnative

/-- In a run of a prepared session the domains are in upper case wherever the top level fetches a statement and where it
ends. From such a state a routine is entered in one, and so they are wherever it fetches a statement. -/
theorem asks_in_upper_case (n : Nat) (G : World → World → Prop) :
    (∀ m p args stopAtLabel cancelFirst rest m', Prepared m.session →
      Fetches (outer n) stopAtLabel G (atStart p args cancelFirst m) rest m' → m'.session.dispatcher.Capitalised) ∧
    (∀ m p args stopAtLabel cancelFirst k ending, Prepared m.session →
      (topLevel (outer n) stopAtLabel k 0 (atStart p args cancelFirst m)).Comes (Interlude G) ending →
        ending.state.session.dispatcher.Capitalised) ∧
    ∀ m a m₁ body rest m', m.session.dispatcher.Capitalised → enterRoutine a m = .done ⟨⟩ m₁ →
      Along (outer n) G body m₁ rest m' → m'.session.dispatcher.Capitalised := by
  refine ⟨?_, ?_, ?_⟩
  · intro m p args stopAtLabel cancelFirst rest m' hm hf
    exact hf.capitalised hm.capitalised
  · intro m p args stopAtLabel cancelFirst k ending hm hc
    exact (topLevel_closes .start hc).capitalised hm.capitalised
  · intro m a m₁ body rest m' hm henter halong
    refine halong.capitalised ?_
    have hcalm := copied_calm a m
    rw [enterRoutine_eq, Run.bind_apply] at henter
    cases hend : copied a m with
    | done args m₂ =>
      rw [hend] at hcalm henter
      cases henter
      exact (congrArg Address.Dispatcher.Capitalised hcalm).mpr hm
    | fail e m₂ =>
      rw [hend] at henter
      cases henter
    | wait w m₂ resume =>
      rw [hend] at hcalm
      exact hcalm.elim

/-- Once they have begun, the clause and the call ask the handler in function mode, with the same arguments. The clause asks
for the method as it is written, the call for the method as it was declared, and the payloads are the same exactly if every
name is written as its parameter and the data of each argument is the same when all are evaluated as it was when it was
evaluated. -/
theorem forms_send_alike (o : Outer) (G : World → World → Prop) (m m₀ m' : Machine) (c : CommandForm) (ops : List Operand)
    (e : Entry) (line : Nat)
    (hopens : Opens G ⟨line, ""⟩ m m₀) (haddressed : Addressed m.session .function)
    (hdomain : m.session.dispatcher.Capitalised)
    (hmethod : m.session.dispatcher.methodNamed? c.method = some e)
    (hlocal : m.session.resolver.local? m.session.dispatcher.methodNamed? c.method = some e)
    (hdistinct : (e.params.map Text.upper).Nodup)
    (hargs : Evaluates G o c.args m₀ ops m')
    (hnames : ∀ name ∈ Operand.names ops, ∃ p ∈ e.params, Text.upper p = Text.upper name)
    (honce : ((Operand.names ops).map Text.upper).Nodup)
    (hfit : ops.length ≤ e.params.length)
    (hlate : ∀ t ∈ ops, m'.world.store.plain t.value = .ok t.late) :
    ∃ (method : String) (sent called : Table String Value) (a : Arguments),
      e.routine = .method m.session.dispatcher.context.domain method e.params ∧ Text.upper method = Text.upper c.method ∧
      (∀ expr error text, Runs G (dispatch c.method (payloadOf sent) (some "function") (some line) none none) m'
        (exec o (.clause expr (some c) error ⟨line, text⟩)) m) ∧
      (∀ error pos text, Runs G (dispatch method (payloadOf called) (some "function") none none
        (some m.session.dispatcher.context.domain)) (m'.inCall ⟨e.name, a.all⟩)
        (exec o (.clause (some (.call c.method c.args pos)) none error ⟨line, text⟩)) m) ∧
      ((∀ key, sent.get? key = called.get? key) ↔
        ∀ t ∈ ops, (∀ name, t.name = some name → name ∈ e.params) ∧ t.early = t.late) := by
  obtain ⟨method, hroutine, hupper, -, hlenient, hdeclared⟩ := Address.Dispatcher.methodNamed?_cases hdomain hmethod
  have hfound : ∀ name ∈ Operand.names ops, e.paramNamed? name ≠ none := by
    intro name hname hnone
    obtain ⟨p, hp, hsame⟩ := hnames name hname
    exact Entry.paramNamed?_eq_none_iff.mp hnone p hp hsame
  obtain ⟨a, called, hbind, hpayload, hcalled⟩ := hlenient.payload_seating hdistinct honce hfit hfound hlate
  refine ⟨method, Operand.data Operand.early (Operand.seating some e.params ops), called, a, hroutine, hupper,
    fun expr error text => ?_, fun error pos text => ?_, ?_⟩
  · have hsend := sendForm_runs hargs line
    have hsent : m₀.session.dispatcher.methodParams c.method none = e.params := by
      rw [hopens.session]
      exact hdeclared
    rw [hsent, Operand.requestPayload_seating honce hdistinct.of_map hfit] at hsend
    exact dispatch_runs hopens (.commandForm haddressed) hsend
  · have hhere : m₀.session.resolver.local? m₀.session.dispatcher.methodNamed? c.method = some e := by
      rw [hopens.session]
      exact hlocal
    exact dispatch_runs hopens (.call haddressed) (call_runs hhere hargs hroutine hbind hpayload pos)
  · simp only [hcalled]
    exact Operand.same_data_iff hdistinct honce hfit

def otherwise : CommandForm := { method := "m", args := [(some "A", .literal (.number (.int 1)) ⟨3, 3⟩)], pos := ⟨3, 1⟩ }

/-- The command sends the name as it is written, the call the parameter. -/
theorem forms_send_alike_otherwise : ∃ (method : String) (sent called : Table String Value) (a : Arguments),
    Runs (fun _ _ => True) (dispatch "m" (payloadOf sent) (some "function") (some 3) none none) (underway ⟨3, ""⟩ serving)
      (exec (outer 1) (.clause none (some otherwise) none ⟨3, "m A=1"⟩)) serving ∧
    Runs (fun _ _ => True) (dispatch method (payloadOf called) (some "function") none none (some "SVC"))
      ((underway ⟨3, ""⟩ serving).inCall ⟨"M", a.all⟩)
      (exec (outer 1) (.clause (some (.call "m" otherwise.args ⟨3, 1⟩)) none none ⟨3, "m(A=1)"⟩)) serving ∧
    ¬ ∀ key, sent.get? key = called.get? key := by
  have hopens : Opens (fun _ _ => True) ⟨3, ""⟩ serving (underway ⟨3, ""⟩ serving) :=
    (opens_of_poised (by decide)).mpr rfl
  have hdomain : serving.session.dispatcher.Capitalised := ⟨by decide, by decide⟩
  obtain ⟨e, hmethod⟩ : ∃ e, serving.session.dispatcher.methodNamed? "m" = some e :=
    Option.isSome_iff_exists.mp (by decide +kernel)
  have hlocal : serving.session.resolver.local? serving.session.dispatcher.methodNamed? "m" = some e := by
    have hbuiltin : serving.session.resolver.builtins.find? "m" = none := Option.isNone_iff_eq_none.mp (by decide +kernel)
    rw [Resolver.local?, hbuiltin]
    exact hmethod
  obtain ⟨-, -, -, hupper, -, hdeclared⟩ := Address.Dispatcher.methodNamed?_cases hdomain hmethod
  have hname : e.name = "M" := hupper.trans (by decide)
  have hparams : e.params = ["a"] := hdeclared.symm.trans (by decide +kernel)
  have hargs : Evaluates (fun _ _ => True) (outer 1) otherwise.args (underway ⟨3, ""⟩ serving)
      [⟨some "A", .int 1, .int 1, .int 1⟩] (underway ⟨3, ""⟩ serving) :=
    .cons (.done _ _) rfl rfl .nil
  obtain ⟨method, sent, called, a, -, -, hsend, hcall, hsame⟩ :=
    forms_send_alike (outer 1) (fun _ _ => True) serving _ _ otherwise _ e 3 hopens ⟨rfl, rfl⟩ hdomain hmethod hlocal
      (by rw [hparams]; decide) hargs (by rw [hparams]; decide) (by decide) (by rw [hparams]; decide)
      (List.forall_mem_singleton.mpr rfl)
  refine ⟨method, sent, called, a, hsend none none _, hname ▸ hcall none _ _, fun h => ?_⟩
  have hwritten := (hsame.mp h _ List.mem_cons_self).1 "A" rfl
  rw [hparams] at hwritten
  exact absurd hwritten (by decide)

end Play

end Conductor
