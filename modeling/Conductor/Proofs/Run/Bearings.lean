import Conductor.Proofs.Run.Stops

/-!
# A run keeps its bearings

However a computation below the top level ends, and whatever others do to the world while
it waits, the run is afterwards where it was before: as deep in loops and calls, with the
same arguments and the same cancellation to report. Only a computation that is cut short by
a problem, an exit or a jump leaves calls in progress behind. A cancellation that was asked
for stays asked for, no statement begins while it does, and a statement that was withheld
for it ends the computation with a cancellation.

This is proved once for each way in which programs are woven, and from it by induction for
everything at every depth of calls and loads.
-/

set_option autoImplicit false

namespace Conductor

def amid (G : World → World → Prop) : Pause Signal Unit Machine :=
  fun _ _ m K => ∀ m', m'.session = m.session → G m.world m'.world → K none () m'

theorem amid_monotone (G : World → World → Prop) : (amid G).Monotone :=
  fun _ _ _ _ _ h hp m' hs hw => h none () m' (hp m' hs hw)

/-- Nobody takes back a cancellation. -/
def Patient (G : World → World → Prop) : Prop := ∀ w w', G w w' → w.cancelled = true → w'.cancelled = true

/-- The run has been cancelled and the next statement is to be withheld. -/
def Machine.Stopping (m : Machine) : Prop := m.session.isMain = true ∧ m.world.cancelled = true

/-- A later state in which the run is where it was. -/
structure InPlace (G : World → World → Prop) (m m' : Machine) : Prop where
  args : m'.session.args = m.session.args
  isMain : m'.session.isMain = m.session.isMain
  loopDepth : m'.session.loopDepth = m.session.loopDepth
  callDepth : m'.session.callDepth = m.session.callDepth
  halting : m'.session.halting = m.session.halting
  domains : m.session.dispatcher.Capitalised → m'.session.dispatcher.Capitalised
  cancelled : Patient G → m.world.cancelled = true → m'.world.cancelled = true
  statements : Patient G → m.Stopping → m'.session.statements = m.session.statements

/-- A later state in which a computation is done: no call is left behind, and no statement was withheld. -/
structure Accomplished (G : World → World → Prop) (m m' : Machine) : Prop extends InPlace G m m' where
  calls : m'.session.calls = m.session.calls
  withheld : m'.session.withheld = m.session.withheld

/-- The signals that computations of a level end with: problems, exits and jumps may cut any of them short, but a
routine returns, and a loop is left, only where no call is left behind. -/
def Level.Lets (l : Level) (m m' : Machine) : Signal → Prop
  | .problem _ | .exit _ | .jump _ _ | .exhausted => True
  | .ret _ => (l = .loop ∨ l = .statement) ∧ m'.session.calls = m.session.calls
  | .leave | .iterate => l = .statement ∧ 0 < m.session.loopDepth ∧ m'.session.calls = m.session.calls

def Signal.Cuts : Signal → Prop
  | .problem _ | .exit _ | .jump _ _ | .exhausted => True
  | .ret _ | .leave | .iterate => False

/-- A later state in which a computation of a level is cut short by a signal. -/
structure CutShort (G : World → World → Prop) (l : Level) (m : Machine) (e : Signal) (m' : Machine) : Prop
    extends InPlace G m m' where
  lets : l.Lets m m' e
  calls : l = .errand → m'.session.calls = m.session.calls
  withheld : m'.session.withheld = m.session.withheld ∨ e.IsCancellation ∧ l ≠ .errand

def Bears (G : World → World → Prop) (l : Level) {α : Type} (x : Play α) : Prop :=
  ∀ m, (x m).Meets (amid G) (fun _ _ m' => Accomplished G m m') (fun e _ m' => CutShort G l m e m') ()

variable {G : World → World → Prop} {l : Level} {α β : Type} {m m' m'' : Machine} {e : Signal}

namespace InPlace

theorem refl (m : Machine) : InPlace G m m := ⟨rfl, rfl, rfl, rfl, rfl, id, fun _ => id, fun _ _ => rfl⟩

theorem stopping (h : InPlace G m m') (hG : Patient G) (hm : m.Stopping) : m'.Stopping :=
  ⟨h.isMain.trans hm.1, h.cancelled hG hm.2⟩

theorem trans (h : InPlace G m m') (h' : InPlace G m' m'') : InPlace G m m'' where
  args := h'.args.trans h.args
  isMain := h'.isMain.trans h.isMain
  loopDepth := h'.loopDepth.trans h.loopDepth
  callDepth := h'.callDepth.trans h.callDepth
  halting := h'.halting.trans h.halting
  domains := h'.domains ∘ h.domains
  cancelled hG hc := h'.cancelled hG (h.cancelled hG hc)
  statements hG hm := (h'.statements hG (h.stopping hG hm)).trans (h.statements hG hm)

theorem of_unmoved (h : Unmoved m m') : InPlace G m m' where
  args := h.args
  isMain := h.isMain
  loopDepth := congrArg Marks.loopDepth h.marks
  callDepth := congrArg Marks.callDepth h.marks
  halting := congrArg Marks.halting h.marks
  domains := h.domains
  cancelled _ := h.cancelled
  statements _ _ := congrArg Marks.statements h.marks

end InPlace

namespace Accomplished

theorem refl (m : Machine) : Accomplished G m m := ⟨.refl m, rfl, rfl⟩

theorem trans (h : Accomplished G m m') (h' : Accomplished G m' m'') : Accomplished G m m'' :=
  ⟨h.toInPlace.trans h'.toInPlace, h'.calls.trans h.calls, h'.withheld.trans h.withheld⟩

theorem of_unmoved (h : Unmoved m m') : Accomplished G m m' :=
  ⟨.of_unmoved h, congrArg Marks.calls h.marks, congrArg Marks.withheld h.marks⟩

end Accomplished

theorem Signal.Cuts.lets (he : e.Cuts) : l.Lets m m' e := by
  cases e with
  | ret _ | leave | iterate => exact he.elim
  | _ => trivial

theorem Level.Lets.cuts (h : Level.expression.Lets m m' e) : e.Cuts := by
  cases e with
  | ret _ | leave | iterate => exact absurd h.1 (by simp)
  | _ => trivial

theorem Level.Lets.after (h : Accomplished G m m') (hl : l.Lets m' m'' e) : l.Lets m m'' e := by
  cases e with
  | ret _ => exact ⟨hl.1, hl.2.trans h.calls⟩
  | leave | iterate => exact ⟨hl.1, h.loopDepth ▸ hl.2.1, hl.2.2.trans h.calls⟩
  | _ => trivial

theorem Level.Lets.higher {l' : Level} (h : l.Lets m m' e) (hloop : l = .loop → l' = .statement)
    (hstatement : l ≠ .statement) : l'.Lets m m' e := by
  cases e with
  | ret _ => exact ⟨.inr (hloop (h.1.resolve_right hstatement)), h.2⟩
  | leave | iterate => exact absurd h.1 hstatement
  | _ => trivial

namespace CutShort

theorem after (h : Accomplished G m m') (h' : CutShort G l m' e m'') : CutShort G l m e m'' where
  toInPlace := h.toInPlace.trans h'.toInPlace
  lets := .after h h'.lets
  calls hl := (h'.calls hl).trans h.calls
  withheld := h'.withheld.imp_left fun heq => heq.trans h.withheld

theorem of_accomplished (h : Accomplished G m m') (he : l.Lets m m' e) : CutShort G l m e m' :=
  ⟨h.toInPlace, he, fun _ => h.calls, .inl h.withheld⟩

theorem again {p p' : Problem} (h : CutShort G l m (.problem p) m') (hm : Unmoved m' m'')
    (hp : (Signal.problem p).IsCancellation → (Signal.problem p').IsCancellation) :
    CutShort G l m (.problem p') m'' where
  toInPlace := h.toInPlace.trans (.of_unmoved hm)
  lets := trivial
  calls hl := (congrArg Marks.calls hm.marks).trans (h.calls hl)
  withheld := h.withheld.imp (congrArg Marks.withheld hm.marks).trans fun hc => ⟨hp hc.1, hc.2⟩

theorem level {l' : Level} (h : CutShort G l m e m') (hl : l' ≠ .errand) (hlets : l'.Lets m m' e) :
    CutShort G l' m e m' :=
  ⟨h.toInPlace, hlets, fun heq => absurd heq hl, h.withheld.imp_right fun hc => ⟨hc.1, hl⟩⟩

end CutShort

/-! ## Parts of a program -/

namespace Simple

theorem meets {γ : Type} {P : Pause Signal γ Machine} {d : α → γ → Machine → Prop} {f : Signal → γ → Machine → Prop} {g : γ}
    {x : Play α} (hx : Simple x) (hd : ∀ a m', Unmoved m m' → d a g m') (hf : ∀ p m', Unmoved m m' → f (.problem p) g m') :
    (x m).Meets P d f g := by
  have hcalm := hx.calm m
  cases hend : x m with
  | done a m' =>
    rw [hend] at hcalm
    exact hd a m' hcalm
  | fail e m' =>
    rw [hend] at hcalm
    obtain ⟨⟨p, rfl⟩, h⟩ := hcalm
    exact hf p m' h
  | wait w m' resume =>
    rw [hend] at hcalm
    exact hcalm.elim

theorem bears {x : Play α} (hx : Simple x) : Bears G l x :=
  fun _ => hx.meets (fun _ _ h => .of_unmoved h) fun _ _ h => .of_accomplished (.of_unmoved h) trivial

end Simple

namespace Bears

theorem andThen {x : Play α} {k : α → Play β} (hx : Bears G l x) (hk : ∀ a, Bears G l (k a)) : Bears G l (x >>= k) := by
  intro m
  rw [Run.meets_bind]
  refine (hx m).mono (amid_monotone G) (fun a _ m' h => ?_) fun _ _ _ => id
  exact (hk a m').mono (amid_monotone G) (fun _ _ _ => h.trans) fun _ _ _ => .after h

theorem higher {l' : Level} {x : Play α} (hx : Bears G l x) (hloop : l = .loop → l' = .statement)
    (hstatement : l ≠ .statement) (herrand : l' ≠ .errand) : Bears G l' x :=
  fun m => (hx m).mono (amid_monotone G) (fun _ _ _ => id) fun _ _ _ h =>
    h.level herrand (h.lets.higher hloop hstatement)

theorem recover {l' : Level} {x : Play α} {k : Signal → Play α} (hx : Bears G l x)
    (hk : ∀ m e m', CutShort G l m e m' →
      (k e m').Meets (amid G) (fun _ _ m'' => Accomplished G m m'') (fun e _ m'' => CutShort G l' m e m'') ()) :
    Bears G l' (tryCatch x k) := by
  intro m
  rw [Run.meets_tryCatch]
  exact (hx m).mono (amid_monotone G) (fun _ _ _ => id) fun e _ m' h => hk m e m' h

theorem passing {x : Play α} {k : Signal → Play α} (hx : Bears G l x) (hk : Rethrows k) : Bears G l (tryCatch x k) := by
  refine hx.recover fun m e m' h => ?_
  by_cases hproblem : ∃ p, e = .problem p
  · obtain ⟨p, rfl⟩ := hproblem
    obtain ⟨p', m'', hfail, hcancel⟩ := hk.again p m'
    have hcalm := (hk.problem p).calm m'
    rw [hfail] at hcalm ⊢
    exact h.again hcalm.2 hcancel
  · rw [hk.others e fun p hp => hproblem ⟨p, hp⟩]
    exact h

theorem settling {x : Play α} {k : Signal → Play α} (hx : Bears G .errand x) (hk : Passes k) :
    Bears G .errand (tryCatch x k) := by
  refine hx.recover fun m e m' h => ?_
  by_cases hproblem : ∃ p, e = .problem p
  · obtain ⟨p, rfl⟩ := hproblem
    have hsame : Accomplished G m m' := ⟨h.toInPlace, h.calls rfl, h.withheld.resolve_right fun hc => hc.2 rfl⟩
    exact (hk.problem p).meets (fun _ _ hm => hsame.trans (.of_unmoved hm))
      fun _ _ hm => .of_accomplished (hsame.trans (.of_unmoved hm)) trivial
  · rw [hk.others e fun p hp => hproblem ⟨p, hp⟩]
    exact h

theorem onSession (f : Session → Session) (hf : ∀ m : Machine, Accomplished G m { m with session := f m.session }) :
    Bears G l (Play.modifySession f) := fun m => hf m

theorem await (w : Wait) : Bears G l (Run.await w : Play Unit) := by
  intro m m' hs hw
  rw [Step.meets_done]
  obtain ⟨s', w'⟩ := m'
  obtain rfl : s' = m.session := hs
  exact ⟨⟨rfl, rfl, rfl, rfl, rfl, id, fun hG => hG _ _ hw, fun _ _ => rfl⟩, rfl, rfl⟩

theorem yieldIf {c : Play Bool} {due : Machine → Bool} (hc : ∀ m, c m = .done (due m) m) : Bears G l (Play.yieldIf c) := by
  intro m
  rw [Play.yieldIf_apply (hc m)]
  split
  · exact await .turn m
  · exact .refl m

theorem checkpoint (p : Syntax.Place) : Bears G .loop (Play.checkpoint p) := by
  intro m
  have hpaused : Bears G .loop (Play.yieldIf Play.isPaused) := .yieldIf Play.isPaused_apply
  have hdue : Bears G .loop (Play.yieldIf Play.isDue) := .yieldIf Play.isDue_apply
  rw [Play.checkpoint_apply, Step.meets_bind]
  refine (hpaused m).mono (amid_monotone G) (fun _ _ m₁ h₁ => ?_) fun _ _ _ => id
  split
  · exact .after h₁ ⟨⟨rfl, rfl, rfl, rfl, rfl, id, fun _ => id, fun _ _ => rfl⟩, trivial, (nomatch ·), .inr ⟨rfl, (nomatch ·)⟩⟩
  · next hstop =>
    -- a statement is counted only where none is to be withheld
    have hbegun : Accomplished G m₁ (Play.counted m₁) :=
      ⟨⟨rfl, rfl, rfl, rfl, rfl, id, fun _ => id, fun _ hm => absurd (by simp [hm.1, hm.2]) hstop⟩, rfl, rfl⟩
    rw [Step.meets_bind]
    refine (hdue (Play.counted m₁)).mono (amid_monotone G) (fun _ _ m₂ h₂ => ?_) fun _ _ _ => .after (h₁.trans hbegun)
    have hreached : Accomplished G m₂ (Play.reached p m₂) :=
      ⟨⟨rfl, rfl, rfl, rfl, rfl, id, fun _ => id, fun _ _ => rfl⟩, rfl, rfl⟩
    exact ((h₁.trans hbegun).trans h₂).trans hreached

theorem loopSignal {signal : Signal} (hs : signal = .leave ∨ signal = .iterate) (action : String) (line : Nat) :
    Bears G .statement (Play.loopSignal signal action line) := by
  intro m
  simp only [Play.loopSignal, Run.bind_apply, Play.session_apply, Step.bind, beq_iff_eq]
  by_cases hdepth : m.session.loopDepth = 0
  · rw [if_pos hdepth]
    exact .of_accomplished (.refl m) trivial
  · rw [if_neg hdepth]
    have hloop : 0 < m.session.loopDepth := Nat.pos_of_ne_zero hdepth
    rcases hs with rfl | rfl
    · exact .of_accomplished (.refl m) ⟨rfl, hloop, rfl⟩
    · exact .of_accomplished (.refl m) ⟨rfl, hloop, rfl⟩

theorem framed (f : Frame) {x : Play Value} (hx : Bears G .expression x) : Bears G .expression (Play.framed f x) := by
  intro m
  let pushed : Machine := { m with session := { m.session with calls := f :: m.session.calls } }
  have hpushed : InPlace G m pushed := ⟨rfl, rfl, rfl, rfl, rfl, id, fun _ => id, fun _ _ => rfl⟩
  rw [Play.framed, Run.meets_bind, Play.modifySession_apply, Step.meets_done, Run.meets_bind]
  refine (hx pushed).mono (amid_monotone G) (fun v _ m' h => ?_) fun e _ m' h => ?_
  · have hplace := hpushed.trans h.toInPlace
    exact ⟨⟨hplace.args, hplace.isMain, hplace.loopDepth, hplace.callDepth, hplace.halting, hplace.domains, hplace.cancelled,
      hplace.statements⟩, congrArg List.tail h.calls, h.withheld⟩
  · exact ⟨hpushed.trans h.toInPlace, h.lets.cuts.lets, (nomatch ·), h.withheld⟩

theorem round {body : Play Unit} (hbody : Bears G .statement body) : Bears G .loop (Play.round body) := by
  have hrun : Bears G .statement (do body; return true) := hbody.andThen fun _ => Simple.bears inferInstance
  refine hrun.recover fun m e m' h => ?_
  have hdone (hplain : ¬ e.IsCancellation) (hcalls : m'.session.calls = m.session.calls) : Accomplished G m m' :=
    ⟨h.toInPlace, hcalls, h.withheld.resolve_right fun hc => hplain hc.1⟩
  cases e with
  | leave => exact hdone id h.lets.2.2
  | iterate => exact hdone id h.lets.2.2
  | ret _ => exact h.level (nomatch ·) ⟨.inl rfl, h.lets.2⟩
  | _ => exact h.level (nomatch ·) trivial

theorem inLoop {x : Play Unit} (hx : Bears G .loop x) : Bears G .loop (Play.inLoop x) := by
  intro m
  let deeper : Machine := { m with session := { m.session with loopDepth := m.session.loopDepth + 1 } }
  have hback (m' : Machine) (h : InPlace G deeper m') : InPlace G m
      { m' with session := { m'.session with loopDepth := m'.session.loopDepth - 1 } } := by
    refine ⟨h.args, h.isMain, ?_, h.callDepth, h.halting, h.domains, h.cancelled, h.statements⟩
    rw [h.loopDepth]
    rfl
  rw [Play.inLoop, Run.meets_bind, Play.modifySession_apply, Step.meets_done, Run.leaving_apply, Step.meets_leave]
  refine (hx deeper).mono (amid_monotone G) (fun _ _ m' h => ⟨hback m' h.toInPlace, h.calls, h.withheld⟩) fun e _ m' h => ?_
  refine ⟨hback m' h.toInPlace, ?_, (nomatch ·), h.withheld⟩
  have hlets := h.lets
  cases e with
  | ret _ => exact hlets
  | leave | iterate => exact absurd hlets.1 (by simp)
  | _ => trivial

end Bears

/-! ## Calls -/

namespace Play

variable {o : Outer}

theorem routine_meets {body : List Syntax.Statement} (hexec : Bears G .statement (execAll o body))
    (hdepth : m.session.loopDepth = 0) :
    (routine o body m).Meets (amid G) (fun _ _ m' => Accomplished G m m')
      (fun e _ m' => CutShort G .expression m e m') () := by
  have hrun : Bears G .statement (do execAll o body; return Value.text "") :=
    hexec.andThen fun _ => Simple.bears inferInstance
  rw [routine, Run.meets_tryCatch]
  refine (hrun m).mono (amid_monotone G) (fun _ _ _ => id) fun e _ m' h => ?_
  cases e with
  | ret v => exact ⟨h.toInPlace, h.lets.2, h.withheld.resolve_right fun hc => hc.1⟩
  | leave | iterate => exact absurd h.lets.2.1 (by simp [hdepth])
  | _ => exact h.level (nomatch ·) trivial

theorem inPlace_leaveRoutine {m₁ : Machine} (args : List Value) (hm : Unmoved m m₁)
    (h : InPlace G { m₁ with session := entered args m₁.session } m') :
    InPlace G m { m' with session := leaveRoutine m.session m'.session } where
  args := (congrArg List.tail h.args).trans hm.args
  isMain := h.isMain.trans hm.isMain
  loopDepth := rfl
  callDepth := by
    change m'.session.callDepth - 1 = m.session.callDepth
    rw [h.callDepth]
    exact congrArg Marks.callDepth hm.marks
  halting := h.halting.trans (congrArg Marks.halting hm.marks)
  domains hd := ⟨(h.domains (hm.domains hd)).standard, hd.current⟩
  cancelled hG hc := h.cancelled hG (hm.cancelled hc)
  statements hG hstop :=
    (h.statements hG ⟨hm.isMain.trans hstop.1, hm.cancelled hstop.2⟩).trans (congrArg Marks.statements hm.marks)

theorem callLabel_bears (hexec : ∀ body, Bears G .statement (execAll o body)) (name : String) (a : Arguments) :
    Bears G .expression (callLabel o name a) := by
  intro m
  obtain ⟨cause, hcause, hrefused⟩ | ⟨i, hi, hdepth⟩ := callLabel_cases o name a m
  · rw [hrefused]
    obtain rfl | rfl := hcause <;> exact .of_accomplished (.refl m) trivial
  · have hscope (m' : Machine) (scope : Scope) : Unmoved m' { m' with session := { m'.session with scope := scope } } :=
      ⟨rfl, rfl, rfl, rfl, rfl, rfl, rfl, id, .refl, rfl, rfl, id⟩
    rw [callLabel_apply o a hi hdepth, Step.meets_leave, enterRoutine_eq, bind_assoc, Run.meets_bind]
    refine (inferInstance : Simple (copied a)).meets (fun args m₁ hm => ?_) fun p m₁ hm => ?_
    · rw [Run.meets_bind, modifySession_apply, Step.meets_done, leftRoutine, Run.leaving_apply, Step.meets_leave]
      refine (routine_meets (hexec _) rfl).mono (amid_monotone G) (fun _ _ m' h => ?_) fun e _ m' h => ?_
      · have hback := inPlace_leaveRoutine args hm h.toInPlace
        exact ⟨hback.trans (.of_unmoved (hscope _ _)), h.calls.trans (congrArg Marks.calls hm.marks),
          h.withheld.trans (congrArg Marks.withheld hm.marks)⟩
      · have hback := inPlace_leaveRoutine args hm h.toInPlace
        exact ⟨hback.trans (.of_unmoved (hscope _ _)), h.lets.cuts.lets, (nomatch ·),
          h.withheld.imp_left fun heq => heq.trans (congrArg Marks.withheld hm.marks)⟩
    · exact .of_accomplished (.of_unmoved (hm.trans (hscope _ _))) trivial

/-! ## Sessions of modules -/

/-- A later state at the top level of a module. -/
structure AtRest (G : World → World → Prop) (m m' : Machine) : Prop where
  isMain : m'.session.isMain = false
  loopDepth : m'.session.loopDepth = 0
  cancelled : Patient G → m.world.cancelled = true → m'.world.cancelled = true

theorem AtRest.after (h : AtRest G m m') (h' : AtRest G m' m'') : AtRest G m m'' :=
  ⟨h'.isMain, h'.loopDepth, fun hG hc => h'.cancelled hG (h.cancelled hG hc)⟩

theorem AtRest.inPlace (hm : AtRest G m m) (h : InPlace G m m') : AtRest G m m' :=
  ⟨h.isMain.trans hm.isMain, h.loopDepth.trans hm.loopDepth, h.cancelled⟩

theorem AtRest.tookTrap {c : Condition} (hm : AtRest G m m) (h : TookTrap c m m') : AtRest G m m' :=
  ⟨h.isMain.trans hm.isMain, h.loopDepth hm.loopDepth, fun _ => h.cancelled (.inr hm.isMain)⟩

/-- What a signal comes to at the top level of a module. -/
theorem stopOn_atRest (hm : AtRest G m m) (he : e.Cuts ∨ ∃ v, e = .ret v) :
    (stopOn e m).Meets (amid G) (fun _ _ m' => AtRest G m m') (fun e _ m' => AtRest G m m' ∧ e.Cuts) () := by
  have hstops := stopOn_cases e m
  generalize stopOn e m = x at hstops
  cases hstops with
  | ret => exact hm
  | jump => exact ⟨hm.isMain, hm.loopDepth, fun _ => id⟩
  | lost => exact ⟨⟨hm.isMain, hm.loopDepth, fun _ => id⟩, trivial⟩
  | trapped c label m m' i _ h => exact hm.tookTrap h
  | stranded c label m m' p _ h => exact ⟨hm.tookTrap h, trivial⟩
  | untrapped | failed | exit | exhausted => exact ⟨hm, trivial⟩
  | leave | iterate =>
    rcases he with he | ⟨v, hv⟩
    · exact he.elim
    · cases hv

def EndsAtRest (G : World → World → Prop) (m : Machine) (x : Step Machine Signal α) : Prop :=
  x.Meets (amid G) (fun _ _ m' => AtRest G m m') (fun e _ m' => AtRest G m m' ∧ e.Cuts) ()

theorem EndsAtRest.after {x : Step Machine Signal α} (h : AtRest G m m') (hx : EndsAtRest G m' x) : EndsAtRest G m x :=
  Step.Meets.mono (amid_monotone G) (fun _ _ _ => h.after) (fun _ _ _ h' => ⟨h.after h'.1, h'.2⟩) hx

theorem EndsAtRest.bind {x : Step Machine Signal α} {k : α → Play β} (hx : EndsAtRest G m x)
    (hk : ∀ a m', AtRest G m' m' → EndsAtRest G m' (k a m')) : EndsAtRest G m (x.bind k) := by
  refine (Step.meets_bind _ _ _ _).mpr (Step.Meets.mono (amid_monotone G) (fun a _ m' h => ?_) (fun _ _ _ => id) hx)
  exact EndsAtRest.after h (hk a m' ⟨h.isMain, h.loopDepth, fun _ => id⟩)

theorem stretch_atRest {body : List Syntax.Statement} (hexec : Bears G .statement (execAll o body)) (hm : AtRest G m m) :
    EndsAtRest G m (stretch o body m) := by
  have hrun : Bears G .statement (do execAll o body; return Stop.value (.text "")) :=
    hexec.andThen fun _ => Simple.bears inferInstance
  rw [stretch, EndsAtRest, Run.meets_tryCatch]
  refine (hrun m).mono (amid_monotone G) (fun _ _ _ h => hm.inPlace h.toInPlace) fun e _ m' h => ?_
  have hm' : AtRest G m m' := hm.inPlace h.toInPlace
  refine EndsAtRest.after hm' (stopOn_atRest ⟨hm'.isMain, hm'.loopDepth, fun _ => id⟩ ?_)
  have hlets := h.lets
  cases e with
  | ret v => exact .inr ⟨v, rfl⟩
  | leave | iterate => exact absurd hlets.2.1 (by simp [hm.loopDepth])
  | _ => exact .inl trivial

theorem topLevel_atRest (hexec : ∀ body, Bears G .statement (execAll o body)) (stopAtLabel : Bool) (n index : Nat)
    (hm : AtRest G m m) : EndsAtRest G m (topLevel o stopAtLabel n index m) := by
  induction n generalizing index m with
  | zero => exact ⟨hm, trivial⟩
  | succ n ih =>
    rw [topLevel]
    change EndsAtRest G m ((stretch o _ m).bind _)
    refine (stretch_atRest (hexec _) hm).bind fun stop m' hm' => ?_
    cases stop with
    | value v => exact hm'
    | resume next => exact ih next hm'

theorem untilExit_atRest {x : Play Value} (hx : EndsAtRest G m (x m)) : EndsAtRest G m (untilExit x m) := by
  rw [untilExit, EndsAtRest, Run.meets_tryCatch]
  refine Step.Meets.mono (amid_monotone G) (fun _ _ _ => id) (fun e _ m' h => ?_) hx
  cases e with
  | exit v => exact h.1
  | _ => exact h

theorem raiseHalted_atRest (hm : AtRest G m m) : EndsAtRest G m (raiseHalted m) := by
  simp only [raiseHalted, Run.bind_apply, session_apply, Step.bind]
  cases m.session.halting with
  | none => exact hm
  | some c => exact ⟨⟨hm.isMain, hm.loopDepth, fun _ => id⟩, trivial⟩

/-- What runs in a session of its own, below which nothing takes back a cancellation, ends as a computation does that
is cut short. -/
theorem inner_ends (hexec : ∀ body, Bears G .statement (execAll o body)) {x : Play Value} (hx : Inner o x)
    (hm : m.session.isMain = false) :
    (x m).Meets (amid G) (fun _ _ m' => Patient G → m.world.cancelled = true → m'.world.cancelled = true)
      (fun e _ m' => (Patient G → m.world.cancelled = true → m'.world.cancelled = true) ∧ e.Cuts) () := by
  cases hx with
  | program p args stopAtLabel cancelFirst =>
    have hworld : (atStart p args cancelFirst m).world = m.world := by simp [atStart, hm]
    have hstart : AtRest G (atStart p args cancelFirst m) (atStart p args cancelFirst m) := ⟨hm, rfl, fun _ => id⟩
    have hrun : EndsAtRest G (atStart p args cancelFirst m) (wholeRun o stopAtLabel (atStart p args cancelFirst m)) :=
      (untilExit_atRest (topLevel_atRest hexec stopAtLabel _ _ hstart)).bind fun v m' hm' =>
        (raiseHalted_atRest hm').bind fun _ _ hm'' => hm''
    rw [runProgram_eq, ← hworld]
    exact Step.Meets.mono (amid_monotone G) (fun _ _ _ h => h.cancelled) (fun _ _ _ h => ⟨h.1.cancelled, h.2⟩) hrun
  | call p name a =>
    rw [Run.meets_bind, loadProgram_apply, Step.meets_done, untilExit, Run.meets_tryCatch]
    refine (callLabel_bears hexec name a _).mono (amid_monotone G) (fun _ _ _ h => h.cancelled) fun e _ m' h => ?_
    have hcuts := h.lets.cuts
    cases e with
    | exit v => exact h.cancelled
    | ret _ | leave | iterate => exact hcuts.elim
    | _ => exact ⟨h.cancelled, trivial⟩

theorem within_bears (hexec : ∀ body, Bears G .statement (execAll o body)) {s : Session} (hs : s.isMain = false)
    {x : Play Value} (hx : Inner o x) : Bears G .errand (within s x) := by
  intro m
  have hback (m' : Machine) (hc : Patient G → m.world.cancelled = true → m'.world.cancelled = true) :
      Accomplished G m { m' with session := m.session } :=
    ⟨⟨rfl, rfl, rfl, rfl, rfl, id, hc, fun _ _ => rfl⟩, rfl, rfl⟩
  rw [within, Run.meets_bind, session_apply, Step.meets_done, Run.meets_bind, modifySession_apply, Step.meets_done,
    Run.leaving_apply, Step.meets_leave, Run.meets_bind]
  exact (inner_ends hexec hx (m := { m with session := s }) hs).mono (amid_monotone G) (fun _ _ m' hc => hback m' hc)
    fun e _ m' h => .of_accomplished (hback m' h.1) h.2.lets

end Play

/-! ## Whole programs -/

/-- What lies around a program keeps the bearings of a run. -/
class Outer.Bears (G : World → World → Prop) (o : Outer) : Prop where
  label : ∀ name a, Conductor.Bears G .expression (o.label name a)
  moduleLabel : ∀ index label a, Conductor.Bears G .errand (o.moduleLabel index label a)
  load : ∀ identifier base stack, Conductor.Bears G .errand (o.load identifier base stack)

theorem Woven.bears {o : Outer} [ho : o.Bears G] {x : Play α} (hx : Woven o l x) : Bears G l x := by
  induction hx with
  | simple x hx => exact hx.bears
  | bind x k _ _ ihx ihk => exact ihx.andThen ihk
  | reading k _ _ ihk => exact fun m => ihk m.session m
  | passing x k _ hk ihx => exact ihx.passing hk
  | exhausted => exact fun m => .of_accomplished (.refl m) trivial
  | onWorld f hf => exact fun m => ⟨⟨rfl, rfl, rfl, rfl, rfl, id, fun _ => hf m.world, fun _ _ => rfl⟩, rfl, rfl⟩
  | await w => exact .await w
  | settling x k _ hk ihx => exact ihx.settling hk
  | moduleLabel index label a => exact ho.moduleLabel index label a
  | load identifier base stack => exact ho.load identifier base stack
  | within s x hs hx _ ihexec => exact Play.within_bears ihexec hs hx
  | errand x _ ihx => exact ihx.higher (nomatch ·) (nomatch ·) (nomatch ·)
  | label name a => exact ho.label name a
  | framed f x _ ihx => exact ihx.framed f
  | calling name a _ ihexec => exact Play.callLabel_bears ihexec name a
  | expression x _ ihx => exact ihx.higher (nomatch ·) (nomatch ·) (nomatch ·)
  | checkpoint p => exact .checkpoint p
  | onTraps f => exact .onSession _ fun m => ⟨⟨rfl, rfl, rfl, rfl, rfl, id, fun _ => id, fun _ _ => rfl⟩, rfl, rfl⟩
  | departing e he => exact fun m => .of_accomplished (.refl m) (by cases e <;> simp_all [Signal.Departs, Level.Lets])
  | round body _ ih => exact ih.round
  | inLoop x _ ih => exact ih.inLoop
  | loop x _ ihx => exact ihx.higher (fun _ => rfl) (nomatch ·) (nomatch ·)
  | leaving action line => exact .loopSignal (.inl rfl) action line
  | iterating action line => exact .loopSignal (.inr rfl) action line

instance outer_bears (n : Nat) : (Play.outer n).Bears G := by
  induction n with
  | zero =>
    have hend {α : Type} {l : Level} : Bears G l (throw .exhausted : Play α) :=
      fun m => .of_accomplished (.refl m) trivial
    exact ⟨fun _ _ => hend, fun _ _ _ => hend, fun _ _ _ => hend⟩
  | succ n ih =>
    have hwoven {l : Level} {α : Type} (x : Play α) [hx : Woven (Play.outer n) l x] : Bears G l x := hx.bears
    exact ⟨fun name a => hwoven (Play.callLabel (Play.outer n) name a),
      fun index label a => hwoven (Play.callModule (Play.outer n) index label a),
      fun identifier base stack => hwoven (Play.load (Play.outer n) identifier base stack)⟩

end Conductor
