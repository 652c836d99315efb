import Conductor.Proofs.Run.Airing
import Conductor.Proofs.Run.Guarded
import Conductor.Proofs.Run.Verdict

/-!
# What a trap catches

A trap for errors catches every condition but a cancellation, wherever in the program it
arises: the program goes on at the label of the trap, which is there, because a trap is
armed only if its label is. So a run in which such a trap is armed does not end with a
condition; the one exception is a jump that leaves a module and finds no label of its
name in the program, because that is found out when the top level looks for the label.

A trap catches conditions only. The failures from below the language become conditions
where a function is called or a module is loaded, but not everywhere: a failure while
the text of a value is made for `SAY` stays one, and ends the run whatever traps there are.
So a run that a trap does not save ends with a failure over a value or over a document.
-/

set_option autoImplicit false

namespace Conductor

/-! ## Guarding nothing -/

/-- A type whose data is clear of a guard that guards nothing. -/
class Harmless (α : Type) [Carrier α] : Prop where
  clear : ∀ (G : Guard), (∀ a, ¬ G.guarded a) → ∀ a : α, Clear G a

namespace Harmless

variable {α β : Type} [Carrier α] [Carrier β]

instance (priority := low) [Inert α] : Harmless α := ⟨fun _ _ _ => inferInstance⟩

instance : Harmless Value := ⟨fun _ h _ => ⟨fun b _ => h b⟩⟩

instance [h : Harmless α] : Harmless (List α) := ⟨fun G hG _ => .of_forall fun a _ => h.clear G hG a⟩

instance [h : Harmless α] : Harmless (Array α) := ⟨fun G hG _ => ⟨fun a _ => (h.clear G hG a).out⟩⟩

instance [h : Harmless α] : Harmless (Option α) := ⟨fun G hG _ => ⟨fun a _ => (h.clear G hG a).out⟩⟩

instance [h : Harmless α] [h' : Harmless β] : Harmless (α × β) :=
  ⟨fun G hG p => ⟨(h.clear G hG p.1).out, (h'.clear G hG p.2).out⟩⟩

instance [h : Harmless α] [h' : Harmless β] : Harmless (Except α β) where
  clear G hG
    | .ok b => ⟨(h'.clear G hG b).out⟩
    | .error a => ⟨(h.clear G hG a).out⟩

instance : Harmless (Stem Value) := ⟨fun G hG s => ⟨(clear G hG s.items).out, (clear G hG s.named).out⟩⟩

instance : Harmless Store := ⟨fun G hG store => ⟨fun a ha => absurd ha (hG a), fun a _ => clear G hG (store.get a)⟩⟩

instance : Harmless Signature := ⟨fun G hG s => ⟨clear G hG s.params, clear G hG s.namedOnly⟩⟩

instance : Harmless Behaviour where
  clear G hG b := by
    cases b with
    | constant v => exact ⟨clear G hG v⟩
    | _ => exact ⟨trivial⟩

instance : Harmless HostFunction := ⟨fun G hG f => ⟨clear G hG f.signature, clear G hG f.behaviour⟩⟩

instance : Harmless Routine where
  clear G hG r := by
    cases r with
    | host f => exact ⟨clear G hG f⟩
    | _ => exact ⟨trivial⟩

instance : Harmless Entry := ⟨fun G hG e => ⟨clear G hG e.routine⟩⟩

instance : Harmless Resolver :=
  ⟨fun G hG r => ⟨clear G hG r.builtins, clear G hG r.internal, clear G hG r.required, clear G hG r.capabilities⟩⟩

instance : Harmless HostModule := ⟨fun G hG m => ⟨clear G hG m.functions⟩⟩

instance : Harmless Content where
  clear G hG
    | .module m => ⟨clear G hG m⟩
    | .bytes _ => ⟨trivial⟩

instance : Harmless Files := ⟨fun G hG fs => ⟨clear G hG fs.entries⟩⟩

instance : Harmless Module.Source where
  clear G hG
    | .module m => ⟨clear G hG m⟩
    | .text _ => ⟨trivial⟩

instance : Harmless Module.Node := ⟨fun G hG n => ⟨clear G hG n.functions⟩⟩

instance : Harmless Module.Loader :=
  ⟨fun G hG l => ⟨clear G hG l.sources, clear G hG l.hostModules, clear G hG l.nodes, clear G hG l.outcomes⟩⟩

instance : Harmless Address.Reply where
  clear G hG
    | .data v => ⟨clear G hG v⟩
    | .settled _ result error => ⟨clear G hG result, clear G hG error⟩

instance : Harmless Address.Methods :=
  ⟨fun G hG m => ⟨clear G hG m.methods, clear G hG m.command, clear G hG m.heredoc, clear G hG m.onMatch⟩⟩

instance : Harmless Address.Service where
  clear G hG
    | .methods m => ⟨clear G hG m⟩
    | .canned replies _ => ⟨clear G hG replies⟩
    | .none => ⟨trivial⟩

instance : Harmless Address.Handler := ⟨fun G hG h => ⟨clear G hG h.service⟩⟩

instance : Harmless ScriptModule := ⟨fun G hG m => ⟨clear G hG m.required⟩⟩

instance : Harmless World where
  clear G hG w := ⟨clear G hG w.store, clear G hG w.files, clear G hG w.loader, clear G hG w.modules,
    clear G hG w.handlers⟩

end Harmless

/-- Guards no stems, but keeps that every trap leads to a label. -/
def Guard.traps : Guard where
  guarded _ := False
  content _ := {}
  trapped := True

theorem traps_clear {α : Type} [Carrier α] [h : Harmless α] (a : α) : Clear .traps a := h.clear .traps (fun _ => id) a

namespace Play

open Syntax (Statement Program)

/-! ## Taking a trap -/

def Finishes {α : Type} (x : Play α) : Prop :=
  ∀ m, ∃ a m', x m = .done a m' ∧ m'.session.labels = m.session.labels

theorem Finishes.andThen {α β : Type} {x : Play α} {k : α → Play β} (hx : Finishes x) (hk : ∀ a, Finishes (k a)) :
    Finishes (x >>= k) := by
  intro m
  obtain ⟨a, m₁, h₁, hl₁⟩ := hx m
  obtain ⟨b, m₂, h₂, hl₂⟩ := hk a m₁
  exact ⟨b, m₂, by simp only [Run.bind_apply, h₁, Step.bind, h₂], hl₂.trans hl₁⟩

theorem Finishes.onSession (f : Session → Session) (hf : ∀ s, (f s).labels = s.labels) :
    Finishes (modifySession f) := fun m => ⟨_, _, rfl, hf m.session⟩

theorem Finishes.onWorld (f : World → World) : Finishes (modifyWorld f) := fun _ => ⟨_, _, rfl, rfl⟩

theorem finishes_plant (t : Tree) : Finishes (plant t) := fun _ => ⟨_, _, rfl, rfl⟩

theorem finishes_write {name : String} (hname : name.isEmpty = false) (v : Value) : Finishes (write name v) := by
  intro m
  let key := Text.upper (String.ofList (Text.dropEndWhile (· == '.') name.toList))
  have hbinding : Memory.binding name = .ok key := by simp [Memory.binding, hname, key]
  refine ⟨⟨⟩, { m with session := { m.session with scope := m.session.scope.put key v } }, ?_, rfl⟩
  unfold write memory Memory.write
  rw [hbinding]
  rfl

theorem finishes_describe (c : Condition) : Finishes (describe c) := by
  unfold describe
  extract_lets line
  refine .andThen (.onSession _ fun _ => rfl) fun _ => ?_
  refine .andThen (finishes_write rfl _) fun _ => .andThen (finishes_write rfl _) fun _ => ?_
  refine .andThen (finishes_write rfl _) fun _ => .andThen (finishes_plant _) fun _ => ?_
  refine .andThen (finishes_write rfl _) fun _ => .andThen (finishes_write rfl _) fun _ => ?_
  exact .andThen (finishes_write rfl _) fun _ => finishes_write rfl _

def Lands (label : String) (x : Play Stop) : Prop :=
  ∀ m i, m.session.labels.lookup (Text.upper label) = some i → ∃ m', x m = .done (.resume (i + 1)) m'

theorem Lands.after {α : Type} {label : String} {x : Play α} {k : α → Play Stop} (hx : Finishes x)
    (hk : ∀ a, Lands label (k a)) : Lands label (x >>= k) := by
  intro m i hi
  obtain ⟨a, m₁, h₁, hl₁⟩ := hx m
  obtain ⟨m₂, h₂⟩ := hk a m₁ i (hl₁ ▸ hi)
  exact ⟨m₂, by simp only [Run.bind_apply, h₁, Step.bind, h₂]⟩

/-- A trap whose label is there is taken: the program goes on at the label. -/
theorem takeTrap_lands (c : Condition) (label : String) : Lands label (takeTrap c label) := by
  have hlabel : Lands label (do return .resume ((← labelIndex label none) + 1)) := by
    intro m i hi
    exact ⟨m, by simp [labelIndex_apply, hi, Step.bind]⟩
  have hsession : Finishes session := fun m => ⟨_, m, rfl, rfl⟩
  unfold takeTrap
  refine .after hsession fun s => ?_
  extract_lets line
  refine Lands.after (fun m => ⟨_, _, rfl, rfl⟩) fun c => ?_
  extract_lets trap rest halt
  have hrest (u : Unit) : Lands label (rest u) :=
    .after (finishes_describe c) fun _ => .after (.onSession _ fun _ => rfl) fun _ => hlabel
  have hhalt (u : Unit) : Lands label (halt u) := .after (.onSession _ fun _ => rfl) hrest
  refine .after (.onSession _ fun _ => rfl) fun _ => ?_
  clear_value rest halt
  split
  · refine .after hsession fun s => ?_
    split
    · exact .after (.onWorld _) hhalt
    · exact hhalt ⟨⟩
  · exact hrest ⟨⟩

/-! ## The top level -/

theorem trapFor_error {c : Condition} (h : c.kind ≠ .cancellation) : trapFor c = .error := by simp [trapFor, h]

theorem stopOn_trapped {c : Condition} {m : Machine} {label : String} {i : Nat} (hc : c.kind ≠ .cancellation)
    (htrap : m.session.traps.get? .error = some label) (hi : m.session.labels.lookup (Text.upper label) = some i) :
    ∃ m', stopOn (.problem (.condition c)) m = .done (.resume (i + 1)) m' := by
  have hstop : stopOn (.problem (.condition c)) m = takeTrap c label m := by
    simp only [stopOn, Run.bind_apply, session_apply, Step.bind, trapFor_error hc, htrap]
  rw [hstop]
  exact takeTrap_lands c label m i hi

/-- The conditions that can end a run: a cancellation, any condition if there is no trap for it, and that a jump
found no label of its name. -/
def Untrapped (c : Condition) (m : Machine) : Prop :=
  c.kind = .cancellation ∨ m.session.traps.get? .error = none ∨
    ∃ label, c.cause = .labelNotFound label ∧ m.session.labels.lookup (Text.upper label) = none

def Escapes (e : Signal) (_ : Unit) (m : Machine) : Prop :=
  Clear .traps m ∧ ∀ c, e = .problem (.condition c) → Untrapped c m

theorem stopOn_escapes (e : Signal) {m : Machine} (hm : Clear .traps m) :
    (stopOn e m).Meets (meanwhile .traps) (fun _ _ m' => Clear .traps m') Escapes () := by
  match e with
  | .ret v => exact hm
  | .leave | .iterate | .exit _ | .exhausted | .problem (.failure _) => exact ⟨hm, by simp⟩
  | .jump label line =>
    have hclear : Clear .traps ({ m with session := { m.session with calls := [] } } : Machine) :=
      ⟨⟨{ hm.out.1.sound with }⟩, hm.out.2⟩
    simp only [stopOn, Run.bind_apply, modifySession_apply, Step.bind, labelIndex_apply]
    cases hi : m.session.labels.lookup (Text.upper label) with
    | some i => exact hclear
    | none =>
      refine ⟨hclear, fun c hc => .inr (.inr ⟨label, ?_, hi⟩)⟩
      cases hc
      rfl
  | .problem (.condition c) =>
    cases htrap : m.session.traps.get? (trapFor c) with
    | some label =>
      have hstop : stopOn (.problem (.condition c)) m = takeTrap c label m := by
        simp only [stopOn, Run.bind_apply, session_apply, Step.bind, htrap]
      obtain ⟨i, hi⟩ := hm.out.1.sound.traps trivial _ _ htrap
      obtain ⟨m', hdone⟩ := takeTrap_lands c label m i hi
      have hheeds : Heeds .traps (takeTrap c label) := inferInstance
      rw [hstop, hdone]
      exact ((hheeds.reaches m hm).of_done hdone).2
    | none =>
      have hstop : stopOn (.problem (.condition c)) m = .fail (.problem (.condition c)) m := by
        simp only [stopOn, Run.bind_apply, session_apply, Step.bind, htrap, Run.throw_apply]
      rw [hstop]
      refine ⟨hm, fun c' hc => ?_⟩
      cases hc
      by_cases hkind : c.kind = .cancellation
      · exact .inl hkind
      · exact .inr (.inl (trapFor_error hkind ▸ htrap))

theorem stretch_escapes (n : Nat) (body : List Statement) {m : Machine} (hm : Clear .traps m) :
    (stretch (outer n) body m).Meets (meanwhile .traps) (fun _ _ m' => Clear .traps m') Escapes () := by
  have hbody : Heeds .traps (do execAll (outer n) body; return Stop.value (.text "")) := inferInstance
  rw [stretch, Run.meets_tryCatch]
  exact Step.Meets.mono (meanwhile_monotone _) (fun _ _ _ h => h.2) (fun e _ _ h => stopOn_escapes e h.2)
    (hbody.reaches m hm)

theorem topLevel_escapes (n : Nat) (stopAtLabel : Bool) (k index : Nat) {m : Machine} (hm : Clear .traps m) :
    (topLevel (outer n) stopAtLabel k index m).Meets (meanwhile .traps) (fun _ _ m' => Clear .traps m') Escapes () := by
  induction k generalizing index m with
  | zero => exact ⟨hm, by simp⟩
  | succ k ih =>
    rw [topLevel]
    change Step.Meets _ _ _ (((stretch (outer n) _) >>= _) m) ()
    refine Run.meets_bind.mpr (Step.Meets.mono (meanwhile_monotone _) (fun stop _ m' hm' => ?_) (fun _ _ _ h => h)
      (stretch_escapes n _ hm))
    cases stop with
    | value v => exact hm'
    | resume next => exact ih next hm'

theorem untilExit_escapes {x : Play Value} {m : Machine}
    (hx : (x m).Meets (meanwhile .traps) (fun _ _ m' => Clear .traps m') Escapes ()) :
    (untilExit x m).Meets (meanwhile .traps) (fun _ _ m' => Clear .traps m') Escapes () := by
  refine Run.meets_tryCatch.mpr (Step.Meets.mono (meanwhile_monotone _) (fun _ _ _ h => h) (fun e _ m' h => ?_) hx)
  cases e with
  | exit v => exact h.1
  | _ => exact h

theorem raiseHalted_escapes {m : Machine} (hm : Clear .traps m) :
    (raiseHalted m).Meets (meanwhile .traps) (fun _ _ m' => Clear .traps m') Escapes () := by
  simp only [raiseHalted, Run.bind_apply, session_apply, Step.bind]
  cases hc : m.session.halting with
  | none => exact hm
  | some c =>
    have hkind := hm.out.1.sound.halting trivial c hc
    refine ⟨⟨⟨{ hm.out.1.sound with halting := fun _ _ h => absurd h.symm (Option.some_ne_none _) }⟩, hm.out.2⟩, fun c' hc' => .inl ?_⟩
    cases hc'
    exact hkind

/-- A run in which a trap for errors is armed does not end with a condition that a trap catches. -/
theorem runProgram_escapes (n : Nat) (p : Program) (args : List Value) (stopAtLabel cancelFirst : Bool) (m : Machine) :
    (runProgram (outer n) p args stopAtLabel cancelFirst m).Meets (meanwhile .traps) (fun _ _ m' => Clear .traps m')
      Escapes () := by
  let begun : Session :=
    { installed p m.session with
      traps := [], args := [args], calls := [], loopDepth := 0, callDepth := 0, halting := none }
  have hbegun : begun.Sound .traps :=
    { scope := traps_clear _
      resolver := traps_clear _
      traps := fun _ _ _ h => absurd h.symm (Option.some_ne_none _)
      args := traps_clear _
      halting := fun _ _ h => absurd h.symm (Option.some_ne_none _) }
  have hrun (w : World) : ((do
      let v ← untilExit (topLevel (outer n) stopAtLabel (outer n).rounds 0)
      raiseHalted
      return v : Play Value) { session := begun, world := w }).Meets (meanwhile .traps)
        (fun _ _ m' => Clear .traps m') Escapes () := by
    refine Run.meets_bind.mpr (Step.Meets.mono (meanwhile_monotone _) (fun v _ m' hm' => ?_) (fun _ _ _ h => h)
      (untilExit_escapes (topLevel_escapes n stopAtLabel _ 0 ⟨⟨hbegun⟩, traps_clear w⟩)))
    exact Run.meets_bind.mpr (Step.Meets.mono (meanwhile_monotone _) (fun _ _ _ h => h) (fun _ _ _ h => h)
      (raiseHalted_escapes hm'))
  -- a main run also says whether it is cancelled before it starts
  cases hmain : m.session.isMain with
  | true =>
    simp only [runProgram, Run.bind_apply, loadProgram_apply, modifySession_apply, session_apply, Step.bind]
    rw [if_pos (show (installed p m.session).isMain = true from hmain)]
    exact hrun _
  | false =>
    simp only [runProgram, Run.bind_apply, loadProgram_apply, modifySession_apply, session_apply, Step.bind]
    rw [if_neg (show ¬ (installed p m.session).isMain = true by simp [installed, hmain])]
    exact hrun _

/-! ## Failures at the top level -/

theorem runProgram_leaves (n : Nat) (p : Program) (args : List Value) (stopAtLabel cancelFirst : Bool) (m : Machine) :
    (runProgram (outer n) p args stopAtLabel cancelFirst m).Meets (meanwhile .traps) (fun _ _ _ => True)
      (fun e _ m' => (∀ c, e = .problem (.condition c) → Untrapped c m') ∧ e.Airs Failure.Leaves) () := by
  have hairs : Airs Failure.Leaves (runProgram (outer n) p args stopAtLabel cancelFirst) := inferInstance
  have hends := runProgram_escapes n p args stopAtLabel cancelFirst m
  exact Step.Meets.mono (meanwhile_monotone _) (fun _ _ _ _ => trivial) (fun _ _ _ h => ⟨h.1.2, h.2⟩)
    (hairs.besides (meanwhile_serene _) hends)

/-- With a trap for errors armed, the top level goes on after a problem that is no cancellation exactly if it is a
condition. -/
theorem stretch_resumes_iff {o : Outer} {R : Machine → Machine → Prop} {body : List Statement} {p : Problem}
    {m m₁ : Machine} {label : String} {i : Nat} (hfail : (execAll o body m).Comes R (.fail (.problem p) m₁))
    (hp : ∀ c, p = .condition c → c.kind ≠ .cancellation) (htrap : m₁.session.traps.get? .error = some label)
    (hi : m₁.session.labels.lookup (Text.upper label) = some i) :
    ∃ ending, (stretch o body m).Comes R ending ∧ ((∃ m', ending = .done (.resume (i + 1)) m') ↔ ∃ c, p = .condition c) := by
  have hrun : ((do execAll o body; return Stop.value (.text "") : Play Stop) m).Comes R (.fail (.problem p) m₁) :=
    hfail.bind_fail
  cases p with
  | condition c =>
    obtain ⟨m', hstop⟩ := stopOn_trapped (hp c rfl) htrap hi
    exact ⟨_, hrun.recover_fail (hstop ▸ .done _ m'), iff_of_true ⟨m', rfl⟩ ⟨c, rfl⟩⟩
  | failure f => exact ⟨_, hrun.recover_fail (.fail _ m₁), iff_of_false (by simp) (by simp)⟩

theorem exec_say_fails_iff {o : Outer} {R : Machine → Machine → Prop} {e : Syntax.Expr} {p : Syntax.Place}
    {m m₁ m₂ : Machine} {i : Int} (hbegins : (checkpoint p m).Comes R (.done ⟨⟩ m₁))
    (hmatch : m₁.session.dispatcher.match? p.text = none) (he : (eval o e m₁).Comes R (.done (.int i) m₂)) :
    ∃ ending, (exec o (.say e p) m).Comes R ending ∧
      ((∃ f, ending = .fail (.problem (.failure f)) m₂) ↔ Nat.pow 10 digitLimit ≤ i.natAbs) := by
  have hsay {ending : Step.Ending Machine Signal Unit}
      (hc : ((liftE (integerText i) >>= emit "stdout") m₂).Comes R ending) : (exec o (.say e p) m).Comes R ending := by
    rw [exec, atPlace_eq]
    refine hbegins.bind_done ?_
    rw [proceed_unsent hmatch]
    exact he.bind_done hc
  rw [← integerText_fails]
  cases hshown : integerText i with
  | error f =>
    rw [hshown] at hsay
    exact ⟨_, hsay (.fail _ m₂), iff_of_true ⟨f, rfl⟩ (Fails.error f)⟩
  | ok s =>
    rw [hshown] at hsay
    exact ⟨_, hsay (.done _ _), iff_of_false (by simp) (Fails.not_ok s)⟩

-- the trap is armed, and the run ends all the same
example :
    let pos : Syntax.Pos := ⟨2, 1⟩
    let number (n : Nat) : Syntax.Expr := .literal (.number (.int n)) pos
    let program : Program :=
      [.signal (.on .error "H") ⟨1, ""⟩, .say (.binary .pow (number 10) (number 5000) pos) ⟨2, ""⟩,
        .ret none false ⟨3, ""⟩, .label "H" ⟨4, ""⟩]
    (match runProgram (outer 3) program [] false false {} with
    | .fail (.problem (.failure .digitsBeyondLimit)) m => m.session.traps.get? .error
    | _ => none) = some "H" := by
  decide +kernel

end Play

end Conductor
