import Conductor.Proofs.Memory.Oversized
import Conductor.Proofs.Run.SelfWait

/-!
# Scripts and their reports

A script that ends has a report, which says success or error, as long as what the report
has to show can be shown. A report shows what the condition says and the calls in
progress with their arguments. Of a stem only the size is shown, so stems never stand in
the way; an integer with more digits than the limit has no text, and the report of a
condition that arises while such an integer is an argument of a call cannot be written.
Then the failure to write it is all that is left of the run.
-/

set_option autoImplicit false

namespace Conductor

/-! ## Calls without a text -/

/-- A value that has no text as an argument. Stems always have one; a list or a dictionary of the host has
none if an integer in it is too long, or if it leads to a stem that contains itself. -/
def Store.Textless (store : Store) : Value → Prop
  | .stem _ => False
  | v => match store.tree v with
    | .ok t => t.Oversized
    | .error _ => True

theorem Printer.argument_fails {t : Tree} (h : ∀ items named, t ≠ .stem items named) :
    Fails (Printer.argument t) ↔ t.Oversized := by
  rw [← Tree.printed_fails {} 0]
  cases t with
  | stem items named => exact absurd rfl (h items named)
  | scalar _ | list _ | dict _ => exact Fails.then_pure _

namespace Store

variable (store : Store)

theorem tree_ne_stem {v : Value} (hv : ∀ a, v ≠ .stem a) {t : Tree} (ht : store.tree v = .ok t)
    (items : List Tree) (named : List (String × Tree)) : t ≠ .stem items named := by
  rintro rfl
  cases v with
  | stem a => exact hv a rfl
  | scalar s => cases ht
  | list _ | dict _ =>
    simp only [tree, treeWith, bind, Except.bind] at ht
    split at ht <;> cases ht

theorem argumentText_fails (v : Value) : Fails (store.argumentText v) ↔ store.Textless v := by
  by_cases hv : ∃ a, v = .stem a
  · obtain ⟨a, rfl⟩ := hv
    exact iff_of_false (Fails.not_ok _) id
  · have hne : ∀ a, v ≠ .stem a := fun a h => hv ⟨a, h⟩
    rw [argumentText, Textless]
    · cases ht : store.tree v with
      | error f => exact iff_of_true (Fails.error f) trivial
      | ok t => exact Printer.argument_fails (store.tree_ne_stem hne ht)
    · exact hne
    · exact hne

end Store

theorem Frame.traced_fails (store : Store) (f : Frame) : Fails (f.traced store) ↔ ∃ v ∈ f.args, store.Textless v := by
  unfold Frame.traced
  rw [Fails.then_pure, Fails.traverse_iff]
  simp only [Store.argumentText_fails]

/-- A state of a run whose calls in progress can all be shown. -/
def Machine.Traceable (m : Machine) : Prop := ∀ call ∈ m.session.calls, ∀ v ∈ call.args, ¬ m.world.store.Textless v

/-- A problem that can be told: what a condition says has a text. -/
def Problem.Tellable : Problem → Prop
  | .condition c => ¬ c.spoken.Oversized
  | .failure _ => True

namespace Play

theorem trace_done {m : Machine} (h : m.Traceable) : ∃ lines, trace m = .done lines m := by
  have htraced : ¬ Fails (traverse (Frame.traced m.world.store) m.session.calls.reverse) := by
    simp only [Fails.traverse_iff, Frame.traced_fails, List.mem_reverse]
    rintro ⟨call, hcall, v, hv, hless⟩
    exact h call hcall v hv hless
  obtain ⟨lines, hlines⟩ := Fails.not_iff.mp htraced
  refine ⟨lines, ?_⟩
  simp only [trace, Run.bind_apply, session_apply, world_apply, Step.bind, hlines, liftE_ok]

theorem trace_fails {m : Machine} (h : ¬ m.Traceable) : ∃ f, trace m = .fail (.problem (.failure f)) m := by
  have htraced : Fails (traverse (Frame.traced m.world.store) m.session.calls.reverse) := by
    simp only [Fails.traverse_iff, Frame.traced_fails, List.mem_reverse]
    simpa [Machine.Traceable] using h
  obtain ⟨f, hf⟩ := htraced
  refine ⟨f, ?_⟩
  simp only [trace, Run.bind_apply, session_apply, world_apply, Step.bind, hf, liftE_error]

/-! ## Faults -/

theorem faultOf_apply (c : Condition) (source : String) (m : Machine) :
    ∃ (c' : Condition) (m' : Machine), c'.spoken = c.spoken ∧ m'.world.store = m.world.store ∧
      m'.session.calls = m.session.calls ∧ m'.session.effects = m.session.effects ∧
      faultOf c source m = (do
        let told ← liftE c'.spoken.asName
        let message := Report.explain c' told source (← trace)
        emit "stderr" message
        return { message, kind := c'.kind.name, line := c'.line, col := c'.col, function := c'.function
                 domain := c'.domain, payload := c'.payload } : Play Fault) m' := by
  unfold faultOf
  by_cases hparse : c.kind == .parse
  · refine ⟨c, { m with session := { m.session with context := some ⟨c.line, c.function, c.domain⟩ } },
      rfl, rfl, rfl, rfl, ?_⟩
    simp only [Run.bind_apply, session_apply, Step.bind, hparse, if_true, Run.pure_apply, modifySession_apply]
  · let c' := c.atLine m.session.line
    refine ⟨c', { session := { m.session with context := some ⟨c'.line, c'.function, c'.domain⟩ }
                  world := { m.world with loader := m.world.loader.note c' } }, rfl, rfl, rfl, rfl, ?_⟩
    simp only [Run.bind_apply, session_apply, Step.bind, hparse, if_false, placed, modifyWorld_apply,
      Run.pure_apply, modifySession_apply, Bool.false_eq_true]
    rfl

theorem faultOf_done {c : Condition} (source : String) {m : Machine} (hc : ¬ c.spoken.Oversized) (hm : m.Traceable) :
    ∃ fault m', faultOf c source m = .done fault m' ∧
      m'.session.effects = m.session.effects.push ⟨["stderr"], fault.message⟩ := by
  obtain ⟨c', m₁, hspoken, hstore, hcalls, heffects, hfault⟩ := faultOf_apply c source m
  have htold : ¬ Fails c'.spoken.asName := by rwa [Tree.asName_fails, hspoken]
  obtain ⟨told, htold⟩ := Fails.not_iff.mp htold
  have hm₁ : m₁.Traceable := by
    unfold Machine.Traceable
    rw [hcalls, hstore]
    exact hm
  obtain ⟨lines, hlines⟩ := trace_done hm₁
  rw [hfault]
  simp only [Run.bind_apply, htold, liftE_ok, Step.bind, hlines]
  exact ⟨_, _, rfl, by rw [← heffects]⟩

theorem faultOf_fails {c : Condition} (source : String) {m : Machine} (h : c.spoken.Oversized ∨ ¬ m.Traceable) :
    ∃ f m', faultOf c source m = .fail (.problem (.failure f)) m' := by
  obtain ⟨c', m₁, hspoken, hstore, hcalls, -, hfault⟩ := faultOf_apply c source m
  rw [hfault]
  cases htold : c'.spoken.asName with
  | error f => exact ⟨f, m₁, rfl⟩
  | ok told =>
    have hm₁ : ¬ m₁.Traceable := by
      unfold Machine.Traceable
      rw [hcalls, hstore]
      refine h.resolve_left fun hover => ?_
      rw [← hspoken, ← Tree.asName_fails, htold] at hover
      exact Fails.not_ok told hover
    obtain ⟨f, hf⟩ := trace_fails hm₁
    refine ⟨f, m₁, ?_⟩
    simp only [Run.bind_apply, liftE_ok, Step.bind, hf]

def verdictOn (source : String) (signal : Signal) : Play Verdict := do
  match signal with
  | .problem (.condition c) => return .error (← faultOf c source)
  | .problem (.failure f) =>
    if f.interrupts then failure f
    else
      let c : Condition := { cause := .internal f, line := (← session).line }
      return .error (← faultOf c source)
  | signal => throw signal

theorem verdict_eq (x : Play Value) (source : String) :
    verdict x source = tryCatch (do return .success (← x)) (verdictOn source) := rfl

theorem verdictOn_interrupting (source : String) {p : Problem} (hp : p.interrupts = true) (m : Machine) :
    verdictOn source (.problem p) m = .fail (.problem p) m := by
  cases p with
  | condition c => cases hp
  | failure f => simp only [verdictOn, show f.interrupts = true from hp, if_true, failure, Run.throw_apply]

theorem verdictOn_failure (source : String) {f : Failure} (hf : f.interrupts = false) (m : Machine) :
    verdictOn source (.problem (.failure f)) m =
      (do return .error (← faultOf { cause := .internal f, line := m.session.line } source) : Play Verdict) m := by
  simp only [verdictOn, hf, Bool.false_eq_true, if_false, Run.bind_apply, session_apply, Step.bind]

/-- Any other problem that can be told becomes a fault, which is also an effect. -/
theorem verdictOn_done (source : String) {p : Problem} {m : Machine} (hp : p.interrupts = false) (htell : p.Tellable)
    (hm : m.Traceable) : ∃ fault m', verdictOn source (.problem p) m = .done (.error fault) m' ∧
      m'.session.effects = m.session.effects.push ⟨["stderr"], fault.message⟩ := by
  cases p with
  | condition c =>
    obtain ⟨fault, m', hfault, heffects⟩ := faultOf_done source htell hm
    exact ⟨fault, m', by simp only [verdictOn, Run.bind_apply, hfault, Step.bind, Run.pure_apply], heffects⟩
  | failure f =>
    obtain ⟨fault, m', hfault, heffects⟩ :=
      faultOf_done (c := { cause := .internal f, line := m.session.line }) source id hm
    rw [verdictOn_failure source hp]
    exact ⟨fault, m', by simp only [Run.bind_apply, hfault, Step.bind, Run.pure_apply], heffects⟩

/-- A problem that cannot be told, or whose calls cannot be shown, ends in the failure of its report. -/
theorem verdictOn_fails (source : String) {p : Problem} {m : Machine} (hp : p.interrupts = false)
    (h : ¬ (p.Tellable ∧ m.Traceable)) : ∃ f m', verdictOn source (.problem p) m = .fail (.problem (.failure f)) m' := by
  cases p with
  | condition c =>
    obtain ⟨f, m', hfault⟩ := faultOf_fails source (or_iff_not_imp_left.mpr fun hc hm => h ⟨hc, hm⟩)
    exact ⟨f, m', by simp only [verdictOn, Run.bind_apply, hfault, Step.bind]⟩
  | failure f =>
    obtain ⟨f', m', hfault⟩ := faultOf_fails (c := { cause := .internal f, line := m.session.line }) source
      (.inr fun hm => h ⟨trivial, hm⟩)
    rw [verdictOn_failure source hp]
    exact ⟨f', m', by simp only [Run.bind_apply, hfault, Step.bind]⟩

end Play

/-! ## Running alone -/

namespace Step

variable {σ ε α β : Type}

theorem alone_bind (x : Step σ ε α) (k : α → σ → Step σ ε β) :
    (x.bind k).alone = match x.alone with
      | .done a s => (k a s).alone
      | .fail e s => .fail e s
      | .stuck s => .stuck s := by
  induction x with
  | done a s => rfl
  | fail e s => rfl
  | wait w s resume ih =>
    cases w with
    | turn => exact ih none s
    | load ticket => rfl

theorem alone_recover (x : Step σ ε α) (k : ε → σ → Step σ ε α) :
    (x.recover k).alone = match x.alone with
      | .done a s => .done a s
      | .fail e s => (k e s).alone
      | .stuck s => .stuck s := by
  induction x with
  | done a s => rfl
  | fail e s => rfl
  | wait w s resume ih =>
    cases w with
    | turn => exact ih none s
    | load ticket => rfl

theorem alone_leave (x : Step σ ε α) (k : σ → σ) :
    (x.leave k).alone = match x.alone with
      | .done a s => .done a (k s)
      | .fail e s => .fail e (k s)
      | .stuck s => .stuck s := by
  induction x with
  | done a s => rfl
  | fail e s => rfl
  | wait w s resume ih =>
    cases w with
    | turn => exact ih none s
    | load ticket => rfl

end Step

section

variable {σ ε α β : Type}

theorem Run.alone_bind (x : Run σ ε α) (k : α → Run σ ε β) (s : σ) :
    ((x >>= k) s).alone = match (x s).alone with
      | .done a s => (k a s).alone
      | .fail e s => .fail e s
      | .stuck s => .stuck s := Step.alone_bind (x s) k

theorem Run.alone_tryCatch (x : Run σ ε α) (k : ε → Run σ ε α) (s : σ) :
    ((tryCatch x k) s).alone = match (x s).alone with
      | .done a s => .done a s
      | .fail e s => (k e s).alone
      | .stuck s => .stuck s := Step.alone_recover (x s) k

end

theorem Ends.alone_fail {R : Machine → Prop} {L : Limits} {α : Type} {x : Step Machine Signal α} (h : Ends False R L x)
    {e : Signal} {m : Machine} (hx : x.alone = .fail e m) : e = .exhausted ∨ R m ∧ L.allow m e := by
  induction x with
  | done a m' => cases hx
  | fail e' m' =>
    cases hx
    exact h
  | wait w m' resume ih =>
    cases w with
    | turn => exact ih none m' (h.2 m' ⟨rfl, List.prefix_rfl, fun h => h.elim⟩) hx
    | load ticket => cases hx

namespace Play

/-- The run of a script, apart from its report. -/
def scriptRun (source : String) (args : List Value) (cancelFirst : Bool) : Play Value := do
  let program ← liftP (Syntax.parse source)
  runProgram (outer horizon) program args false cancelFirst

def begun (m : Machine) : Machine :=
  { session := { m.session with effects := #[], calls := [], context := none }
    world := { m.world with runners := m.world.runners + 1 } }

def retired (m : Machine) : Machine := { m with world := { m.world with runners := m.world.runners - 1 } }

theorem runScript_apply (source : String) (args : List Value) (cancelFirst : Bool) (m : Machine) :
    runScript source args cancelFirst m =
      ((verdict (scriptRun source args cancelFirst) source (begun m)).leave retired).bind
      fun v m => .done { verdict := v, effects := m.session.effects.toList } m := by
  simp only [runScript, Run.bind_apply, modifySession_apply, modifyWorld_apply, Step.bind]
  rfl

theorem runScript_alone (source : String) (args : List Value) (cancelFirst : Bool) (m : Machine) :
    (runScript source args cancelFirst m).alone =
      match (scriptRun source args cancelFirst (begun m)).alone with
      | .done v m' => .done { verdict := .success v, effects := m'.session.effects.toList } (retired m')
      | .fail e m' =>
        match (verdictOn source e m').alone with
        | .done v m' => .done { verdict := v, effects := m'.session.effects.toList } (retired m')
        | .fail e m' => .fail e (retired m')
        | .stuck m' => .stuck m'
      | .stuck m' => .stuck m' := by
  rw [runScript_apply, Step.alone_bind, Step.alone_leave, verdict_eq, Run.alone_tryCatch, Run.alone_bind]
  cases (scriptRun source args cancelFirst (begun m)).alone with
  | done v m' => rfl
  | fail e m' => cases hv : (verdictOn source e m').alone <;> simp [hv, Step.alone, retired]
  | stuck m' => rfl

theorem scriptRun_ends {lone : Prop} (source : String) (args : List Value) (cancelFirst : Bool) {m : Machine}
    (hm : Requiring lone m) :
    Ends lone (fun m' => World.Grown lone m.world m'.world) .load (scriptRun source args cancelFirst m) := by
  have htame : Tame lone (outer horizon) := inferInstance
  unfold scriptRun
  -- neither the text of the program nor what is around it matters
  generalize outer horizon = o at htame ⊢
  generalize Syntax.parse source = parsed
  have hparse : Ends lone (Kept lone m) .load (liftP parsed m) := .of_calm (Quiet.calm m)
  refine hparse.bind (fun _ h => h.world) fun program m' h => ?_
  exact (runProgram_ends o program args false cancelFirst m' (Lasting.lasts h hm)).mono
    (fun _ hw => h.world.trans hw) fun _ _ _ => id

/-- Whatever other tasks do meanwhile, nothing leaves the verdict on a run but the failure to write it. -/
theorem verdict_leaves {lone : Prop} {R : Machine → Prop} {x : Play Value} {m : Machine} (source : String)
    (hx : Ends lone R .load (x m)) :
    (verdict x source m).Meets (pause lone) (fun _ _ _ => True)
      (fun e _ _ => e = .exhausted ∨ ∃ f, e = .problem (.failure f)) () := by
  rw [verdict_eq, Run.meets_tryCatch, Run.meets_bind]
  refine Step.Meets.mono (pause_monotone lone) (fun _ _ _ _ => trivial) ?_ hx
  rintro e - m' (rfl | ⟨-, he⟩)
  · exact Or.inl rfl
  match e with
  | .problem p =>
    cases hp : p.interrupts with
    | true =>
      rw [verdictOn_interrupting source hp]
      cases p with
      | condition c => cases hp
      | failure f => exact Or.inr ⟨f, rfl⟩
    | false =>
      by_cases h : p.Tellable ∧ m'.Traceable
      · obtain ⟨fault, m₂, hdone, -⟩ := verdictOn_done source hp h.1 h.2
        rw [hdone]
        trivial
      · obtain ⟨f, m₂, hfail⟩ := verdictOn_fails source hp h
        rw [hfail]
        exact Or.inr ⟨f, rfl⟩
  | .exhausted => exact Or.inl rfl
  | .leave | .iterate => exact he.1.elim
  | .ret _ | .exit _ | .jump _ _ => exact he.elim

theorem text_fails {n : Int} (hn : Nat.pow 10 digitLimit ≤ n.natAbs) :
    ∃ f, f.interrupts = false ∧ ∀ m, text (.int n) m = .fail (.problem (.failure f)) m := by
  obtain ⟨f, hf⟩ := (integerText_fails n).mpr hn
  refine ⟨f, integerText_error hf ▸ rfl, fun m => ?_⟩
  show (liftE (integerText n) : Play String) m = _
  rw [hf, liftE_error]

/-- An integer without a text has no length either, and the call that asked for it is still in progress when
that is reported. -/
theorem apply_length_untraceable (o : Outer) {n : Int} (hn : Nat.pow 10 digitLimit ≤ n.natAbs) (line : Option Nat)
    (m : Machine) :
    ∃ c m₁, apply o (.ofBuiltin .length) [(none, .int n)] none false line m = .fail (.problem (.condition c)) m₁ ∧
      ¬ m₁.Traceable := by
  let pushed : Machine := { m with session := { m.session with calls := ⟨"LENGTH", [.int n]⟩ :: m.session.calls } }
  obtain ⟨f, hquiet, htext⟩ := text_fails hn
  have hbind : (Entry.ofBuiltin .length).bind [(none, .int n)] none false = .ok { placed := [.int n] } := rfl
  have hperform : perform o (.ofBuiltin .length) { placed := [.int n] } pushed = .fail (.problem (.failure f)) pushed := by
    show ((((text (.int n) >>= fun s => pure s.toList) >>= fun cs => pure (Value.ofNat cs.length)) >>= normalize) pushed) = _
    simp only [Run.bind_apply, htext, Step.bind]
  refine ⟨{ cause := .functionFailed "LENGTH" f, line := line, function := some "LENGTH" }, pushed, ?_, ?_⟩
  · simp only [apply, hbind, Run.bind_apply, Run.pure_apply, Step.bind, modifySession_apply, Run.tryCatch_apply]
    show ((perform o (.ofBuiltin .length) { placed := [.int n] } pushed).recover _).bind _ = _
    rw [hperform]
    simp only [Step.recover, hquiet, Bool.false_eq_true, if_false]
    rfl
  · exact fun h => h ⟨"LENGTH", [.int n]⟩ (by simp [pushed]) (.int n) (by simp) hn

/-- A script that comes to its end has a report, of a success or of an error. Whatever other tasks do meanwhile,
all that can leave it besides is the failure to write the report, or what interrupts it. A script that runs alone and
ends with a value reports a success. If it ends with a problem that does not interrupt it, the report is an error that
is also the last effect, provided that the problem can be told and that the calls in progress can be shown; if not,
the failure does leave it. Calls that cannot be shown do arise: the length of any integer without a text is asked for
by one. -/
theorem script_reports_what_it_can_show (source : String) (args : List Value) (cancelFirst : Bool) (m : Machine) :
    (runScript source args cancelFirst m).Meets (pause False) (fun _ _ _ => True)
      (fun e _ _ => e = .exhausted ∨ ∃ f, e = .problem (.failure f)) () ∧
    (match (scriptRun source args cancelFirst (begun m)).alone with
    | .done v _ => ∃ r m', (runScript source args cancelFirst m).alone = .done r m' ∧ r.verdict = .success v
    | .fail (.problem p) m₁ =>
      (p.interrupts = true → ∃ m', (runScript source args cancelFirst m).alone = .fail (.problem p) m') ∧
      (p.interrupts = false → p.Tellable ∧ m₁.Traceable → ∃ r m' fault, (runScript source args cancelFirst m).alone = .done r m' ∧
        r.verdict = .error fault ∧ r.effects = m₁.session.effects.toList ++ [⟨["stderr"], fault.message⟩]) ∧
      (p.interrupts = false → ¬ (p.Tellable ∧ m₁.Traceable) →
        ∃ f m', (runScript source args cancelFirst m).alone = .fail (.problem (.failure f)) m')
    | .fail e _ => e = .exhausted
    | .stuck _ => ∃ m', (runScript source args cancelFirst m).alone = .stuck m') ∧
    ∀ o (n : Int) line m₀, Nat.pow 10 digitLimit ≤ n.natAbs → ∃ c m₁,
      apply o (.ofBuiltin .length) [(none, .int n)] none false line m₀ = .fail (.problem (.condition c)) m₁ ∧
        ¬ m₁.Traceable := by
  have hends : Ends False _ .load (scriptRun source args cancelFirst (begun m)) :=
    scriptRun_ends source args cancelFirst fun h => h.elim
  refine ⟨?_, ?_, fun o n line m₀ hn => apply_length_untraceable o hn line m₀⟩
  · rw [runScript_apply, Step.meets_bind, Step.meets_leave]
    exact verdict_leaves source hends
  rw [runScript_alone]
  cases hrun : (scriptRun source args cancelFirst (begun m)).alone with
  | done v m' => exact ⟨_, _, rfl, rfl⟩
  | stuck m' => exact ⟨m', rfl⟩
  | fail e m₁ =>
    have he := hends.alone_fail hrun
    match e with
    | .problem p =>
      refine ⟨fun hp => ?_, fun hp h => ?_, fun hp h => ?_⟩
      · simp only [verdictOn_interrupting source hp, Step.alone]
        exact ⟨_, rfl⟩
      · obtain ⟨fault, m₂, hdone, heffects⟩ := verdictOn_done source hp h.1 h.2
        simp only [hdone, Step.alone]
        exact ⟨_, _, fault, rfl, rfl, by simp [heffects]⟩
      · obtain ⟨f, m₂, hfail⟩ := verdictOn_fails source hp h
        simp only [hfail, Step.alone]
        exact ⟨f, _, rfl⟩
    | .exhausted => rfl
    | .leave | .iterate => exact (he.resolve_left (by simp)).2.1.elim
    | .ret _ | .exit _ | .jump _ _ => exact (he.resolve_left (by simp)).2.elim

end Play

end Conductor
