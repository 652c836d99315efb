import Conductor.Proofs.Run.Statements
import Conductor.Proofs.Run.Woven

/-!
# What leaves programs and loads

A routine stops its returns, a program its end and its jumps. A load therefore ends
with the functions of a module or with a problem, and leaves under way what was under
way before. A call of a script module's label stops all signals but one: a jump passes
through it, and it is a jump that stands below a label of a script module.

The depth of calls and loads is bounded by a number, and the facts about one depth are
proved from those about the depth below.
-/

set_option autoImplicit false

namespace Conductor.Play

open Syntax (Statement Program partsOf below)

variable {lone free : Prop}

/-! ## Routines -/

structure Entered (lone free : Prop) (ss : List Statement) (m : Machine) : Prop where
  apt : Apt lone free ss m
  outside : m.session.loopDepth = 0

instance (ss : List Statement) : Lasting lone (Entered lone free ss) :=
  ⟨fun h hm => ⟨Lasting.lasts h hm.apt, h.depth.trans hm.outside⟩⟩

theorem execAll_entered {ss : List Statement} (o : Outer) [Tame lone o] (body : List Statement)
    (hbody : partsOf body ⊆ ss) : Obeys lone (Entered lone free ss) (.statement free) (execAll o body) :=
  (execAll_obeys o body hbody).weaken (fun _ h => h.apt) fun _ _ => id

theorem routine_obeys {ss : List Statement} (o : Outer) [Tame lone o] (body : List Statement)
    (hbody : partsOf body ⊆ ss) : Obeys lone (Entered lone free ss) (.expression free) (routine o body) := by
  have hrun : Obeys lone (Entered lone free ss) (.statement free) (execAll o body) := execAll_entered o body hbody
  have hvalue : Obeys lone (Entered lone free ss) (.statement free) (do execAll o body; return Value.text "") :=
    inferInstance
  refine hvalue.recover (fun _ => rfl) fun signal m hm hs => ?_
  match signal with
  | .ret v => exact .of_calm (Still.refl m)
  | .leave | .iterate => exact absurd hs.2 (by simp [hm.outside])
  | .problem _ | .exit _ | .jump _ _ | .exhausted => exact .throw (.refl m) hs

theorem below_subset {labels : List (String × Nat)} {name : String} {i : Nat} (p : Program)
    (h : labels.lookup name = some i) : partsOf (p.drop (i + 1)) ⊆ below labels p := by
  obtain ⟨before, after, rfl, -⟩ := List.lookup_eq_some_iff.mp h
  simp only [below, List.flatMap_append, List.flatMap_cons, Syntax.partsOf_append]
  exact List.subset_append_of_subset_right _ (List.subset_append_left _ _)

theorem enterRoutine_ends {L : Limits} {α : Type} (a : Arguments) (x : Play α) (m : Machine)
    (hx : ∀ m', SameControl m.session m'.session → m'.session.loopDepth = 0 → World.Grown lone m.world m'.world →
      Ends lone (Kept lone m) L (x m')) :
    Ends lone (Kept lone m) L ((do enterRoutine a; x) m) := by
  simp only [enterRoutine_eq, bind_assoc]
  have hcopied : Ends lone (Kept lone m) L (copied a m) := .of_calm (Quiet.calm m)
  refine hcopied.bind (fun _ => id) fun args m' h => ?_
  exact hx { m' with session := entered args m'.session }
    ⟨h.control.program, h.control.labels, h.control.purpose, h.control.autoload⟩ rfl h.world

instance (o : Outer) [Tame lone o] (name : String) (a : Arguments) :
    Obeys lone (Suits lone free) (.expression free) (callLabel o name a) := by
  refine ⟨fun m hm => ?_⟩
  obtain ⟨cause, hcause, hrefused⟩ | ⟨i, hi, hdepth⟩ := callLabel_cases o name a m
  · rw [hrefused]
    obtain rfl | rfl := hcause <;> exact .throw (.refl m) trivial
  · rw [callLabel_apply o a hi hdepth]
    let body := m.session.program.toList.drop (i + 1)
    have hbody : partsOf body ⊆ below m.session.labels m.session.program.toList := below_subset _ hi
    have hrun : Ends lone (Kept lone m) (.expression free) ((do enterRoutine a; leftRoutine o body m.session) m) := by
      refine enterRoutine_ends a _ m fun m₁ hc hdepth hw => ?_
      have hroutine := (routine_obeys o body hbody).ends m₁ ⟨⟨hm.mono hc hw, hm.routines.mono hc hw⟩, hdepth⟩
      refine hroutine.leave (fun m₂ h => ?_) fun m₂ e _ he => ?_
      · exact ⟨hc.trans ⟨h.control.program, h.control.labels, h.control.purpose, h.control.autoload⟩, rfl,
          hw.trans h.world⟩
      · cases e <;> simp_all [Limits.allow, Limits.expression]
    refine hrun.leave (fun m' h => ?_) fun m' e _ he => ?_
    · exact ⟨⟨h.control.program, h.control.labels, h.control.purpose, h.control.autoload⟩, h.depth, h.world⟩
    · cases e <;> simp_all [Limits.allow, Limits.expression]

/-! ## The top level -/

structure AtTop (lone : Prop) (m : Machine) : Prop where
  requiring : Requiring lone m
  outside : m.session.loopDepth = 0

theorem AtTop.entered {m : Machine} (h : AtTop lone m) (ss : List Statement) : Entered lone True ss m := by
  have hall (ss : List Statement) : Allows lone True m ss := ⟨fun _ _ _ => h.requiring, fun _ _ _ => Or.inl trivial⟩
  exact ⟨⟨⟨fun _ => h.requiring, hall _⟩, hall ss⟩, h.outside⟩

instance : Lasting lone (AtTop lone) := ⟨fun h hm => ⟨Lasting.lasts h hm.requiring, h.depth.trans hm.outside⟩⟩

theorem takeTrap_obeys {L : Limits} (c : Condition) (label : String) :
    Obeys lone (AtTop lone) L (takeTrap c label) := by
  have hdisarm (trap : Syntax.Trap) : Quiet (modifySession fun s => { s with traps := s.traps.erase trap }) :=
    .onSession _ (fun _ => ⟨rfl, rfl, rfl, rfl⟩) fun _ => rfl
  have hcancel : Quiet (modifyWorld fun w => { w with cancelled := false }) := .onWorld _ (fun _ => rfl) (fun _ => rfl) fun _ => rfl
  have hhalt (c : Condition) : Quiet (modifySession fun s => { s with halting := some c }) :=
    .onSession _ (fun _ => ⟨rfl, rfl, rfl, rfl⟩) fun _ => rfl
  have hclear (b : Bool) : Obeys lone (AtTop lone) L
      (modifySession fun s => { s with calls := [], loopDepth := if b then 0 else s.loopDepth }) := by
    refine ⟨fun m hm => show Kept lone m _ from ⟨⟨rfl, rfl, rfl, rfl⟩, ?_, .refl m.world⟩⟩
    cases b <;> simp [hm.outside]
  unfold takeTrap
  refine .andThen fun s => ?_
  dsimp only
  refine .andThen fun c => .andThen fun _ => ?_
  have hrest : Obeys lone (AtTop lone) L (do
      describe c
      modifySession fun s => { s with calls := [], loopDepth := if trapFor c == .error then 0 else s.loopDepth }
      return Stop.resume ((← labelIndex label none) + 1)) := by
    have h := hclear (trapFor c == .error)
    infer_instance
  infer_instance

instance (o : Outer) [Tame lone o] (body : List Statement) : Obeys lone (AtTop lone) .program (stretch o body) := by
  have hexec : Obeys lone (AtTop lone) (.statement True) (execAll o body) :=
    (execAll_entered o body (List.Subset.refl _)).weaken (fun _ h => h.entered _) fun _ _ => id
  have hrun : Obeys lone (AtTop lone) (.statement True) (do execAll o body; return Stop.value (.text "")) :=
    inferInstance
  refine hrun.recover (fun _ => rfl) fun signal m hm hs => ?_
  match signal with
  | .ret v => exact .of_calm (Still.refl m)
  | .leave | .iterate => exact absurd hs.2 (by simp [hm.outside])
  | .jump label line =>
    have hclear : Quiet (modifySession fun s => { s with calls := [] }) :=
      .onSession _ (fun _ => ⟨rfl, rfl, rfl, rfl⟩) fun _ => rfl
    have hresume : Quiet (do
        modifySession fun s => { s with calls := [] }
        return Stop.resume ((← labelIndex label line) + 1)) := inferInstance
    exact .of_calm (hresume.calm m)
  | .problem (.condition c) =>
    simp only [stopOn, Run.bind_apply, session_apply, Step.bind]
    cases m.session.traps.get? (trapFor c) with
    | some label => exact (takeTrap_obeys c label).ends m hm
    | none => exact .throw (.refl m) trivial
  | .problem (.failure _) | .exit _ | .exhausted => exact .throw (.refl m) trivial

theorem topLevel_obeys (o : Outer) [Tame lone o] (stopAtLabel : Bool) (n index : Nat) :
    Obeys lone (AtTop lone) .program (topLevel o stopAtLabel n index) := by
  induction n generalizing index with
  | zero => exact .exhausted
  | succ n ih =>
    rw [topLevel]
    refine .andThen fun rest => .andThen fun stop => ?_
    cases stop <;> infer_instance

theorem untilExit_obeys {S : Machine → Prop} [Lasting lone S] {L : Limits} {x : Play Value} (hx : Obeys lone S L x) :
    Obeys lone S { L with exit := False } (untilExit x) := by
  refine hx.recover (fun _ => rfl) fun signal m _ hs => ?_
  cases signal with
  | exit v => exact .of_calm (Still.refl m)
  | problem _ => exact .throw (.refl m) hs
  | leave => exact .throw (.refl m) hs
  | iterate => exact .throw (.refl m) hs
  | ret _ => exact .throw (.refl m) hs
  | jump _ _ => exact .throw (.refl m) hs
  | exhausted => exact .throw (.refl m) hs

instance : Quiet raiseHalted := by
  have hhalt : Quiet (modifySession fun s => { s with halting := none }) :=
    .onSession _ (fun _ => ⟨rfl, rfl, rfl, rfl⟩) fun _ => rfl
  unfold raiseHalted
  refine .andThen fun s => ?_
  split <;> infer_instance

/-- A program ends with a value or a problem. It installs itself in the session, so only what happens to
the world is said. -/
theorem runProgram_ends (o : Outer) [Tame lone o] (p : Program) (args : List Value) (stopAtLabel cancelFirst : Bool)
    (m : Machine) (hm : Requiring lone m) :
    Ends lone (fun m' => World.Grown lone m.world m'.world) .load (runProgram o p args stopAtLabel cancelFirst m) := by
  have hcancel : Quiet (modifyWorld fun w => { w with cancelled := cancelFirst }) :=
    .onWorld _ (fun _ => rfl) (fun _ => rfl) fun _ => rfl
  have htop : Obeys lone (AtTop lone) .load (untilExit (topLevel o stopAtLabel o.rounds 0)) :=
    untilExit_obeys (topLevel_obeys o stopAtLabel o.rounds 0)
  have hrest : Obeys lone (AtTop lone) .load (do
      if (← session).isMain then modifyWorld fun w => { w with cancelled := cancelFirst }
      let v ← untilExit (topLevel o stopAtLabel o.rounds 0)
      raiseHalted
      return v) := inferInstance
  -- the program starts in a session that differs from the old one in nothing that requirements depend on
  let begun : Session :=
    { installed p m.session with
      traps := [], args := [args], calls := [], loopDepth := 0, callDepth := 0, halting := none }
  exact (hrest.ends { m with session := begun } ⟨hm, rfl⟩).mono (fun _ h => h.world) fun _ _ _ => id

/-! ## Sessions of their own -/

theorem within_ends {L : Limits} (hloop : ¬ L.loop) {α : Type} (s : Session) (x : Play α) (m : Machine)
    (hx : Ends lone (fun m' => World.Grown lone m.world m'.world) L (x { m with session := s })) :
    Ends lone (fun m' => m'.session = m.session ∧ World.Grown lone m.world m'.world) L (within s x m) := by
  have hrun : Ends lone (fun m' => World.Grown lone m.world m'.world) L
      ((do let a ← x; return (a, ← session) : Play (α × Session)) { m with session := s }) :=
    hx.bind (fun _ => id) fun _ _ h => h
  refine hrun.leave (fun _ h => ⟨rfl, h⟩) fun m' e _ he => ?_
  cases e <;> simp_all [Limits.allow]

theorem Kept.of_session {m m' : Machine} (hs : m'.session = m.session) (hw : World.Grown lone m.world m'.world) :
    Kept lone m m' := ⟨hs ▸ .refl m.session, hs ▸ rfl, hw⟩

theorem below_module {w : World} {sm : ScriptModule} (h : sm ∈ w.modules) :
    below sm.program.labels sm.program ⊆ w.below := by
  intro s hs
  exact List.mem_flatMap.mpr ⟨sm, Array.mem_toList_iff.mpr h, hs⟩

/-- A label of a script module is called in a session of its own. -/
theorem callModule_ends (o : Outer) [Tame lone o] (index : Nat) (label : String) (a : Arguments) (m : Machine) :
    Ends lone (fun m' => m'.session = m.session ∧ World.Grown lone m.world m'.world) .moduleCall
      (callModule o index label a m) := by
  simp only [callModule, Run.bind_apply, world_apply, Step.bind]
  cases hsm : m.world.modules[index]? with
  | none => exact ⟨rfl, .refl m.world⟩
  | some sm =>
    have hmem : sm ∈ m.world.modules := Array.mem_of_getElem? hsm
    let fresh := moduleSession sm.sourceDir sm.required .script
    -- the session loads nothing by itself, and its routines stand below the labels of a script module
    have hsuits : Suits lone False { m with session := installed sm.program fresh } := by
      refine ⟨fun hauto => absurd rfl hauto, fun e p hp _ => Or.inr ⟨e, p, ?_⟩, fun label p hp => Or.inr ⟨p, ?_, rfl⟩⟩
      · exact below_module hmem hp
      · exact below_module hmem hp
    have hcall : Obeys lone (Suits lone False) .moduleCall (untilExit (callLabel o (Text.upper label) a)) :=
      untilExit_obeys (L := .expression False) inferInstance
    have hwithin := within_ends (L := .moduleCall) id fresh (do
        loadProgram sm.program
        untilExit (callLabel o (Text.upper label) a)) m
      ((hcall.ends _ hsuits).mono (fun _ h => h.world) fun _ _ _ => id)
    exact hwithin.bind (fun _ => id) fun _ _ h => h

instance (o : Outer) [Tame lone o] (index : Nat) (label : String) (a : Arguments) :
    Obeys lone (fun _ => True) .moduleCall (callModule o index label a) :=
  ⟨fun m _ => (callModule_ends o index label a m).mono (fun _ h => Kept.of_session h.1 h.2) fun _ _ _ => id⟩

/-! ## Loads -/

section

variable (o : Outer) [ho : Tame lone o] (stack : Module.Stack)

instance (l : Module.Location) : Obeys lone (Covering lone stack) .load (readSource l) := by
  have hnote : Obeys lone (Covering lone stack) .load
      (onLoader fun loader => { loader with fetched := loader.fetched ++ [l.text] }) :=
    .onLoader _ fun _ _ _ => Iff.rfl
  unfold readSource
  split
  · refine .andThen fun w => ?_
    split
    · refine .andThen fun _ => .andThen fun _ => ?_
      split <;> infer_instance
    · infer_instance
  · refine .andThen fun w => ?_
    extract_lets files
    clear_value files
    split <;> infer_instance

instance requireAll_obeys (location : String) (base : Option String) (deps : List String) :
    Obeys lone (Covering lone stack) .load (requireAll o location base stack deps) := by
  induction deps with
  | nil => rw [requireAll]; infer_instance
  | cons dep rest ih => rw [requireAll]; infer_instance

instance (m : HostModule) (identifier location : String) (base : Option String) :
    Obeys lone (Covering lone stack) .load (loadHost o m identifier location base stack) := by
  have hcount : Obeys lone (Covering lone stack) .load (onLoader fun l => l.count location) :=
    .onLoader _ fun l => (Module.alike_count l location).loading
  have hset (deps : List String) : Obeys lone (Covering lone stack) .load
      (onLoader fun l => l.setDependencies location deps) :=
    .onLoader _ fun l => (Module.alike_setDependencies l location deps).loading
  unfold loadHost
  extract_lets start
  have hstart (u : Unit) : Obeys lone (Covering lone stack) .load (start u) := by
    unfold start
    infer_instance
  clear_value start
  split <;> infer_instance

instance (source identifier : String) (l : Module.Location) :
    Obeys lone (Covering lone stack) .load (loadScript o source identifier l stack) := by
  have hbegin : Obeys lone (Covering lone stack) .load
      (onLoader fun loader => (loader.setDependencies l.text []).count l.text) :=
    .onLoader _ fun loader a t => (Module.alike_count _ l.text).loading a t |>.trans
      ((Module.alike_setDependencies loader l.text []).loading a t)
  have hrun (dir : String) (program : Program) : Obeys lone (Covering lone stack) .load
      (within (moduleSession dir [] (.module l.text stack)) (runProgram o program [] true false)) := by
    refine ⟨fun m hm => ?_⟩
    have hends := runProgram_ends o program [] true false
      { m with session := moduleSession dir [] (.module l.text stack) } hm
    exact (within_ends id _ _ m hends).mono (fun _ h => Kept.of_session h.1 h.2) fun _ _ _ => id
  have hadd (sm : ScriptModule) : Obeys lone (Covering lone stack) .load
      (modifyWorld fun w => { w with modules := w.modules.push sm }) :=
    ⟨fun m _ => show Kept lone m _ from ⟨.refl m.session, rfl, by simp, fun _ _ _ => Iff.rfl⟩⟩
  unfold loadScript
  infer_instance

instance (identifier : String) (l : Module.Location) (base : Option String) :
    Obeys lone (Covering lone stack) .load (loadFresh o identifier l base stack) := by
  unfold loadFresh
  split
  · infer_instance
  · infer_instance
  · refine .andThen fun source => ?_
    split <;> infer_instance

/-- However a load goes, it comes to an outcome. -/
theorem outcome_meets {S : Machine → Prop} (x : Play (Table String Entry)) (hx : Obeys lone S .load x) (m : Machine)
    (hm : S m) : (outcome x m).Meets (pause lone) (fun _ _ m' => Kept lone m m') (fun e _ _ => e = .exhausted) () := by
  refine Run.meets_tryCatch.mpr (Run.meets_bind.mpr
    (Step.Meets.mono (pause_monotone lone) (fun _ _ _ => id) ?_ (hx.ends m hm)))
  rintro signal - m' (rfl | ⟨hkept, hs⟩)
  · rfl
  · match signal with
    | .problem _ => exact hkept
    | .exhausted => rfl
    | .leave | .iterate => exact hs.1.elim
    | .ret _ | .exit _ | .jump _ _ => exact hs.elim

/-- A load that was begun and settled leaves under way what was under way before. -/
theorem Kept.settled {identifier a : String} {m m' : Machine} (hfree : ∀ t, ¬ Module.Loading m.world.loader a t)
    (h : Kept lone { m with world := { m.world with loader := m.world.loader.begun identifier a } } m')
    (o : Module.Outcome) :
    Kept lone m { m' with world := { m'.world with loader := m'.world.loader.settle a m.world.loader.tickets o } } := by
  refine ⟨h.control, h.depth, h.world.modules, fun hl x t => ?_⟩
  have hbegun (x : String) (t : Nat) : Module.Loading m'.world.loader x t ↔
      Module.Loading m.world.loader x t ∨ x = a ∧ t = m.world.loader.tickets :=
    (h.world.loading hl x t).trans (Module.loading_begun hfree)
  refine (Module.loading_settle ((hbegun a m.world.loader.tickets).mpr (Or.inr ⟨rfl, rfl⟩)) _ o).trans ?_
  rw [hbegun]
  constructor
  · rintro ⟨hne, h | ⟨rfl, -⟩⟩
    · exact h
    · exact absurd rfl hne
  · intro h
    exact ⟨fun hx => hfree t (hx ▸ h), Or.inl h⟩

instance (identifier : String) (base : Option String) :
    Obeys lone (Covering lone stack) .load (load o identifier base stack) := by
  unfold load
  refine .andThen fun l => ⟨fun m hm => ?_⟩
  simp only [Run.bind_apply, world_apply, Step.bind]
  rcases Module.enter_cases m.world.loader stack identifier l.text with ⟨ids, henter, -⟩ | ⟨hnot, h⟩
  · rw [henter]
    exact .of_calm (Quiet.calm m)
  rcases h with ⟨functions, henter, -⟩ | ⟨ids, -, henter, -⟩ | ⟨ticket, henter, hloading, -⟩ | ⟨henter, -, hfree⟩
  · rw [henter]
    exact .of_calm (Quiet.calm m)
  · rw [henter]
    exact .of_calm (Quiet.calm m)
  · rw [henter]
    have hwait : lone → Wait.load ticket = .turn ∨ m.world.RequiresBelow ∧ ¬ Module.Idle m.world.loader := fun hl =>
      Or.inr ⟨(hm hl).resolve_left fun hstack => hnot (hstack _ _ hloading), fun hidle => hidle _ _ hloading⟩
    refine (Ends.await hwait).bind (fun _ => id) fun _ m' h => .after h ?_
    simp only [Run.bind_apply, world_apply, Step.bind]
    cases m'.world.loader.outcomes.get? ticket with
    | none => exact .exhausted m'
    | some result => exact .of_calm (Quiet.calm m')
  · rw [henter]
    let begun : Machine := { m with world := { m.world with loader := m.world.loader.begun identifier l.text } }
    have hcovering : Covering lone (stack ++ [(identifier, l.text)]) begun := by
      intro hl
      refine (hm hl).imp_left fun hstack a t ha => ?_
      rw [List.map_append, List.mem_append]
      rcases (Module.loading_begun hfree).mp ha with ha | ⟨rfl, -⟩
      · exact Or.inl (hstack a t ha)
      · exact Or.inr (List.mem_singleton_self _)
    have hfresh : Obeys lone (Covering lone (stack ++ [(identifier, l.text)])) .load
        (loadFresh o identifier l base (stack ++ [(identifier, l.text)])) := inferInstance
    have hout := outcome_meets _ hfresh begun hcovering
    refine Run.meets_bind.mpr ((Step.meets_done _ begun _).mpr (Run.meets_bind.mpr ?_))
    refine hout.mono (pause_monotone lone) (fun ended _ m' h => ?_) fun e _ _ he => Or.inl he
    have hrelease (result : Module.Outcome) : Quiet (release ended result) := by
      unfold release
      split <;> infer_instance
    exact Ends.after (Kept.settled hfree h _) (.of_calm ((hrelease _).calm _))

end

instance outer_tame (n : Nat) : Tame lone (outer n) := by
  induction n with
  | zero => exact ⟨fun _ _ _ => .exhausted, fun _ _ _ => .exhausted, fun _ _ _ => .exhausted⟩
  | succ n ih =>
    exact ⟨fun _ name a => inferInstanceAs (Obeys _ _ _ (callLabel (outer n) name a)),
      fun index label a => inferInstanceAs (Obeys _ _ _ (callModule (outer n) index label a)),
      fun identifier base stack => inferInstanceAs (Obeys _ _ _ (load (outer n) identifier base stack))⟩

end Conductor.Play
