import Conductor.Proofs.Run.Bearings

/-!
# The boundaries of the top level

Between two statements of its top level a program is outside of everything: no loop is
entered, no call is in progress, and the arguments are those of the run. This holds whatever
the statements before were cut short by, because each loop and each call undoes on its way
out what it did on its way in, and the calls that a problem leaves behind are dropped when a
trap or a jump makes the program go on.

A boundary is a state in which the top level fetches its next statement. The first one is the
start of the run; a statement that ends normally leads to the next one, and a signal to which
the top level goes on at a label leads to the one after that label.
-/

set_option autoImplicit false

namespace Conductor

open Syntax (Statement Program)

/-- What may happen while a computation waits: its session stays as it is, and others change the world. -/
def Interlude (G : World → World → Prop) (m m' : Machine) : Prop := m'.session = m.session ∧ G m.world m'.world

variable {G : World → World → Prop} {α : Type}

theorem Step.Meets.comes_done {d : α → Unit → Machine → Prop} {f : Signal → Unit → Machine → Prop}
    {x : Step Machine Signal α} {a : α} {m : Machine} (h : x.Meets (amid G) d f ())
    (hc : x.Comes (Interlude G) (.done a m)) : d a () m := by
  induction x with
  | done b m' =>
    cases hc
    exact h
  | fail e m' => cases hc
  | wait w m' resume ih =>
    cases hc with
    | wait hR hc => exact ih none _ (h _ hR.1 hR.2) hc

theorem Step.Meets.comes_fail {d : α → Unit → Machine → Prop} {f : Signal → Unit → Machine → Prop}
    {x : Step Machine Signal α} {e : Signal} {m : Machine} (h : x.Meets (amid G) d f ())
    (hc : x.Comes (Interlude G) (.fail e m)) : f e () m := by
  induction x with
  | done b m' => cases hc
  | fail e m' =>
    cases hc
    exact h
  | wait w m' resume ih =>
    cases hc with
    | wait hR hc => exact ih none _ (h _ hR.1 hR.2) hc

namespace Play

/-! ## Where a statement begins -/

/-- A state in which a statement goes on once it has begun. -/
def Opens (G : World → World → Prop) (p : Syntax.Place) (m m₁ : Machine) : Prop :=
  (checkpoint p m).Comes (Interlude G) (.done ⟨⟩ m₁)

theorem Lapse.session {due : Bool} {m m' : Machine} (h : Lapse (Interlude G) due m m') : m'.session = m.session := by
  cases due with
  | false => exact congrArg Machine.session h
  | true => exact h.1

theorem Opens.session {p : Syntax.Place} {m m₁ : Machine} (h : Opens G p m m₁) :
    m₁.session = (underway p m).session := by
  obtain ⟨m', hpause, h⟩ := checkpoint_comes.mp h
  split at h
  · cases h
  · obtain ⟨m'', hturn, h⟩ := h
    cases h
    simp only [reached, hturn.session, counted, hpause.session, underway]

theorem opens_of_poised {p : Syntax.Place} {m m₁ : Machine} (h : Poised m) : Opens G p m m₁ ↔ m₁ = underway p m := by
  rw [Opens, checkpoint_underway p h]
  constructor
  · rintro ⟨⟩
    rfl
  · rintro rfl
    exact .done _ _

/-- A statement that does not begin is withheld. -/
theorem checkpoint_fails {p : Syntax.Place} {m m₁ : Machine} {e : Signal}
    (h : (checkpoint p m).Comes (Interlude G) (.fail e m₁)) : m₁.session = (withholding m).session := by
  obtain ⟨m', hpause, h⟩ := checkpoint_comes.mp h
  split at h
  · cases h
    simp only [withholding, hpause.session]
  · obtain ⟨m'', -, h⟩ := h
    cases h

/-! ## The boundaries -/

/-- The boundaries of a top level that starts in a state: what is ahead, and the state in which the first of it is
fetched. -/
inductive Fetches (o : Outer) (stopAtLabel : Bool) (G : World → World → Prop) (m₀ : Machine) :
    List Statement → Machine → Prop
  | start : Fetches o stopAtLabel G m₀ (ahead stopAtLabel 0 m₀) m₀
  | next {s : Statement} {rest : List Statement} {m m' : Machine} : Fetches o stopAtLabel G m₀ (s :: rest) m →
      (exec o s m).Comes (Interlude G) (.done ⟨⟩ m') → Fetches o stopAtLabel G m₀ rest m'
  | goOn {s : Statement} {rest : List Statement} {m m₁ m' : Machine} {e : Signal} {i : Nat} :
      Fetches o stopAtLabel G m₀ (s :: rest) m → (exec o s m).Comes (Interlude G) (.fail e m₁) →
      stopOn e m₁ = .done (.resume i) m' → Fetches o stopAtLabel G m₀ (ahead stopAtLabel i m') m'

/-- The statements of a routine that are fetched one after the other: what is left, and the state in which the first of
it is fetched. -/
inductive Along (o : Outer) (G : World → World → Prop) (body : List Statement) (m₀ : Machine) :
    List Statement → Machine → Prop
  | start : Along o G body m₀ body m₀
  | next {s : Statement} {rest : List Statement} {m m' : Machine} : Along o G body m₀ (s :: rest) m →
      (exec o s m).Comes (Interlude G) (.done ⟨⟩ m') → Along o G body m₀ rest m'

variable {o : Outer} {stopAtLabel : Bool} {m₀ m m' : Machine} {rest : List Statement}

/-! ## Every ending of the top level closes at a boundary -/

/-- How the top level closes at a boundary: no statement is left, or the top level goes on no further after a signal. -/
inductive Closes (o : Outer) (stopAtLabel : Bool) (G : World → World → Prop) (m₀ : Machine) :
    Step.Ending Machine Signal Value → Prop
  | atEnd {m : Machine} : Fetches o stopAtLabel G m₀ [] m → Closes o stopAtLabel G m₀ (.done (.text "") m)
  | value {s : Statement} {rest : List Statement} {m m₁ m' : Machine} {e : Signal} {v : Value} :
      Fetches o stopAtLabel G m₀ (s :: rest) m → (exec o s m).Comes (Interlude G) (.fail e m₁) →
      stopOn e m₁ = .done (.value v) m' → Closes o stopAtLabel G m₀ (.done v m')
  | signal {s : Statement} {rest : List Statement} {m m₁ m' : Machine} {e e' : Signal} :
      Fetches o stopAtLabel G m₀ (s :: rest) m → (exec o s m).Comes (Interlude G) (.fail e m₁) →
      stopOn e m₁ = .fail e' m' → Closes o stopAtLabel G m₀ (.fail e' m')
  | exhausted {rest : List Statement} {m : Machine} :
      Fetches o stopAtLabel G m₀ rest m → Closes o stopAtLabel G m₀ (.fail .exhausted m)

theorem execAll_comes {body : List Statement} {ending : Step.Ending Machine Signal Unit}
    (hf : Fetches o stopAtLabel G m₀ body m) (hc : (execAll o body m).Comes (Interlude G) ending) :
    (∃ m', ending = .done ⟨⟩ m' ∧ Fetches o stopAtLabel G m₀ [] m') ∨
      ∃ s rest m₁ e m₂, Fetches o stopAtLabel G m₀ (s :: rest) m₁ ∧ (exec o s m₁).Comes (Interlude G) (.fail e m₂) ∧
        ending = .fail e m₂ := by
  induction body generalizing m with
  | nil =>
    rw [execAll] at hc
    cases hc
    exact .inl ⟨m, rfl, hf⟩
  | cons s rest ih =>
    rw [execAll, Run.bind_apply] at hc
    rcases hc.of_bind with ⟨_, m₁, hs, hrest⟩ | ⟨e, m₁, hs, rfl⟩
    · exact ih (hf.next hs) hrest
    · exact .inr ⟨s, rest, m, e, m₁, hf, hs, rfl⟩

theorem stopOn_comes {e : Signal} {ending : Step.Ending Machine Signal Stop}
    (hc : (stopOn e m).Comes (Interlude G) ending) :
    (∃ stop m', ending = .done stop m' ∧ stopOn e m = .done stop m') ∨
      ∃ e' m', ending = .fail e' m' ∧ stopOn e m = .fail e' m' := by
  have hstops := stopOn_cases e m
  generalize stopOn e m = x at hc hstops
  cases hc with
  | done stop m' => exact .inl ⟨stop, m', rfl, rfl⟩
  | fail e' m' => exact .inr ⟨e', m', rfl, rfl⟩
  | wait => cases hstops

theorem stretch_comes {body : List Statement} {ending : Step.Ending Machine Signal Stop}
    (hf : Fetches o stopAtLabel G m₀ body m) (hc : (stretch o body m).Comes (Interlude G) ending) :
    (∃ m', ending = .done (.value (.text "")) m' ∧ Fetches o stopAtLabel G m₀ [] m') ∨
      ∃ s rest m₁ e m₂, Fetches o stopAtLabel G m₀ (s :: rest) m₁ ∧ (exec o s m₁).Comes (Interlude G) (.fail e m₂) ∧
        (stopOn e m₂).Comes (Interlude G) ending := by
  rw [stretch, Run.tryCatch_apply, Run.bind_apply] at hc
  rcases hc.of_recover with ⟨stop, m₁, hrun, rfl⟩ | ⟨e, m₁, hrun, hstop⟩
  · rcases hrun.of_bind with ⟨_, m₂, hall, hdone⟩ | ⟨_, _, _, heq⟩
    · cases hdone
      rcases execAll_comes hf hall with ⟨m₃, heq, hf'⟩ | ⟨_, _, _, _, _, _, _, heq⟩
      · cases heq
        exact .inl ⟨m₁, rfl, hf'⟩
      · cases heq
    · cases heq
  · rcases hrun.of_bind with ⟨_, _, _, hdone⟩ | ⟨_, _, hall, heq⟩
    · cases hdone
    · cases heq
      rcases execAll_comes hf hall with ⟨_, heq, _⟩ | ⟨s, rest, m₂, _, _, hf', hs, heq⟩
      · cases heq
      · cases heq
        exact .inr ⟨s, rest, m₂, e, m₁, hf', hs, hstop⟩

theorem topLevel_closes {n index : Nat} {ending : Step.Ending Machine Signal Value}
    (hf : Fetches o stopAtLabel G m₀ (ahead stopAtLabel index m) m)
    (hc : (topLevel o stopAtLabel n index m).Comes (Interlude G) ending) : Closes o stopAtLabel G m₀ ending := by
  induction n generalizing index m with
  | zero =>
    rw [topLevel] at hc
    cases hc
    exact .exhausted hf
  | succ n ih =>
    rw [topLevel] at hc
    have hrun : ((stretch o (ahead stopAtLabel index m) m).bind _).Comes (Interlude G) ending := hc
    rcases hrun.of_bind with ⟨stop, m₁, hstretch, hrest⟩ | ⟨e, m₁, hstretch, rfl⟩
    · rcases stretch_comes hf hstretch with ⟨m₂, heq, hf'⟩ | ⟨s, rest, m₂, e, m₃, hf', hs, hstop⟩
      · cases heq
        cases hrest
        exact .atEnd hf'
      · rcases stopOn_comes hstop with ⟨_, _, heq, hstop⟩ | ⟨_, _, heq, _⟩
        · cases heq
          cases stop with
          | value v =>
            cases hrest
            exact .value hf' hs hstop
          | resume i => exact ih (hf'.goOn hs hstop) hrest
        · cases heq
    · rcases stretch_comes hf hstretch with ⟨_, heq, _⟩ | ⟨s, rest, m₂, e, m₃, hf', hs, hstop⟩
      · cases heq
      · rcases stopOn_comes hstop with ⟨_, _, heq, _⟩ | ⟨_, _, heq, hstop⟩
        · cases heq
        · cases heq
          exact .signal hf' hs hstop

/-! ## What holds at a boundary -/

/-- Outside of all loops and calls, with no arguments but those of the run. -/
structure CleanAt (args : List Value) (m : Machine) : Prop where
  loopDepth : m.session.loopDepth = 0
  callDepth : m.session.callDepth = 0
  args : m.session.args = [args]
  calls : m.session.calls = []

theorem exec_bears (n : Nat) (s : Statement) : Bears G .statement (exec (outer n) s) :=
  (exec_woven (outer n) s).bears

theorem CleanAt.goOn {args : List Value} {m m₁ m' : Machine} {e : Signal} {i : Nat} (hm : CleanAt args m)
    (h : InPlace G m m₁) (hstop : stopOn e m₁ = .done (.resume i) m') : CleanAt args m' := by
  have hloop : m₁.session.loopDepth = 0 := h.loopDepth.trans hm.loopDepth
  have hcall : m₁.session.callDepth = 0 := h.callDepth.trans hm.callDepth
  have hargs : m₁.session.args = [args] := h.args.trans hm.args
  cases StopsOn.of_eq hstop with
  | jump => exact ⟨hloop, hcall, hargs, rfl⟩
  | trapped _ _ _ _ _ _ htook hcalls _ =>
    exact ⟨htook.loopDepth hloop, htook.callDepth.trans hcall, htook.args.trans hargs, hcalls⟩

theorem CleanAt.fetches {n : Nat} {args : List Value} (hclean : CleanAt args m₀)
    (hf : Fetches (outer n) stopAtLabel G m₀ rest m) : CleanAt args m := by
  induction hf with
  | start => exact hclean
  | next _ hs ih =>
    have h := (exec_bears n _ _).comes_done hs
    exact ⟨h.loopDepth.trans ih.loopDepth, h.callDepth.trans ih.callDepth, h.args.trans ih.args, h.calls.trans ih.calls⟩
  | goOn _ hs hstop ih => exact ih.goOn ((exec_bears n _ _).comes_fail hs).toInPlace hstop

/-! ## The domains -/

theorem StopsOn.domains {e : Signal} {m m' : Machine} {x : Step Machine Signal Stop} (h : StopsOn e m x)
    (hx : (∃ stop, x = .done stop m') ∨ ∃ e', x = .fail e' m') (hm : m.session.dispatcher.Capitalised) :
    m'.session.dispatcher.Capitalised := by
  cases h with
  | trapped _ _ _ _ _ _ htook | stranded _ _ _ _ _ _ htook =>
    rcases hx with ⟨_, heq⟩ | ⟨_, heq⟩ <;> cases heq
    exact htook.domains hm
  | _ =>
    rcases hx with ⟨_, heq⟩ | ⟨_, heq⟩ <;> cases heq
    exact hm

/-- Whatever a run addresses, where it goes on the domains are in upper case. -/
theorem Fetches.capitalised {n : Nat} (hf : Fetches (outer n) stopAtLabel G m₀ rest m)
    (hm : m₀.session.dispatcher.Capitalised) : m.session.dispatcher.Capitalised := by
  induction hf with
  | start => exact hm
  | next _ hs ih => exact ((exec_bears n _ _).comes_done hs).domains ih
  | goOn _ hs hstop ih =>
    exact (StopsOn.of_eq hstop).domains (.inl ⟨_, rfl⟩) (((exec_bears n _ _).comes_fail hs).domains ih)

theorem Along.capitalised {n : Nat} {body : List Statement} (h : Along (outer n) G body m₀ rest m)
    (hm : m₀.session.dispatcher.Capitalised) : m.session.dispatcher.Capitalised := by
  induction h with
  | start => exact hm
  | next _ hs ih => exact ((exec_bears n _ _).comes_done hs).domains ih

theorem Closes.capitalised {n : Nat} {ending : Step.Ending Machine Signal Value}
    (h : Closes (outer n) stopAtLabel G m₀ ending) (hm : m₀.session.dispatcher.Capitalised) :
    ending.state.session.dispatcher.Capitalised := by
  cases h with
  | atEnd hf | exhausted hf => exact hf.capitalised hm
  | value hf hs hstop =>
    exact (StopsOn.of_eq hstop).domains (.inl ⟨_, rfl⟩) (((exec_bears n _ _).comes_fail hs).domains (hf.capitalised hm))
  | signal hf hs hstop =>
    exact (StopsOn.of_eq hstop).domains (.inr ⟨_, rfl⟩) (((exec_bears n _ _).comes_fail hs).domains (hf.capitalised hm))

/-! ## What a call of a label leaves as it was -/

/-- As deep in loops and calls, with the same arguments and the same address. -/
structure SameStanding (m m' : Machine) : Prop where
  loopDepth : m'.session.loopDepth = m.session.loopDepth
  callDepth : m'.session.callDepth = m.session.callDepth
  args : m'.session.args = m.session.args
  context : m'.session.dispatcher.context = m.session.dispatcher.context

theorem copied_calm (a : Arguments) (m : Machine) :
    Calm (fun m m' => m'.session.dispatcher = m.session.dispatcher) m (copied a m) := by
  have htrans (m₁ m₂ m₃ : Machine) (h : m₂.session.dispatcher = m₁.session.dispatcher)
      (h' : m₃.session.dispatcher = m₂.session.dispatcher) : m₃.session.dispatcher = m₁.session.dispatcher := h'.trans h
  have hmemory {β : Type} (act : Memory.Act β) (m : Machine) :
      Calm (fun m m' => m'.session.dispatcher = m.session.dispatcher) m (memory act m) := by
    simp only [memory]
    split
    · exact rfl
    · exact ⟨⟨_, rfl⟩, rfl⟩
  have hcopies (vs : List Value) (m : Machine) : Calm (fun m m' => m'.session.dispatcher = m.session.dispatcher) m
      ((vs.mapM fun v => memory (Memory.copy v) : Play (List Value)) m) := by
    induction vs generalizing m with
    | nil => exact rfl
    | cons v rest ih =>
      rw [List.mapM_cons]
      exact (hmemory _ m).bind htrans fun _ m₁ => (ih m₁).bind htrans fun _ _ => rfl
  exact (hmemory _ m).bind htrans fun _ m₁ => hcopies a.placed m₁

theorem leave_meets {β : Type} {f : Machine → Machine} {T : Machine → Prop} (hf : ∀ m, T (f m))
    (x : Step Machine Signal β) : (x.leave f).Meets (amid G) (fun _ _ m => T m) (fun _ _ m => T m) () := by
  induction x with
  | done a m => exact hf m
  | fail e m => exact hf m
  | wait w m resume ih => exact fun m' _ _ => ih none m'

theorem callLabel_context (name : String) (a : Arguments) (m : Machine) :
    (callLabel o name a m).Meets (amid G) (fun _ _ m' => m'.session.dispatcher.context = m.session.dispatcher.context)
      (fun _ _ m' => m'.session.dispatcher.context = m.session.dispatcher.context) () := by
  obtain ⟨_, -, hrefused⟩ | ⟨i, hi, hdepth⟩ := callLabel_cases o name a m
  · rw [hrefused]
    exact rfl
  · rw [callLabel_apply o a hi hdepth, Step.meets_leave, enterRoutine_eq, bind_assoc, Run.meets_bind]
    have hcalm := copied_calm a m
    cases hend : copied a m with
    | done args m₁ =>
      rw [Step.meets_done, Run.meets_bind, modifySession_apply, Step.meets_done, leftRoutine, Run.leaving_apply]
      apply leave_meets (T := fun m' => m'.session.dispatcher.context = m.session.dispatcher.context)
      exact fun _ => rfl
    | fail e m₁ =>
      rw [hend] at hcalm
      exact congrArg _ hcalm.2
    | wait w m₁ resume =>
      rw [hend] at hcalm
      exact hcalm.elim

theorem callLabel_standing (n : Nat) (name : String) (a : Arguments) (m : Machine)
    {ending : Step.Ending Machine Signal Value} (hc : (callLabel (outer n) name a m).Comes (Interlude G) ending) :
    SameStanding m ending.state := by
  have hbears : Bears G .expression (callLabel (outer n) name a) :=
    callLabel_bears (fun body => (execAll_woven (outer n) body).bears) name a
  have hcontext := @callLabel_context G (outer n) name a m
  cases ending with
  | done v m' =>
    have h := (hbears m).comes_done hc
    exact ⟨h.loopDepth, h.callDepth, h.args, hcontext.comes_done hc⟩
  | fail e m' =>
    have h := (hbears m).comes_fail hc
    exact ⟨h.loopDepth, h.callDepth, h.args, hcontext.comes_fail hc⟩
  | stuck m' => exact hc.not_stuck.elim

theorem callLabel_refused (o : Outer) (name : String) (a : Arguments) {m : Machine}
    (hdepth : callLimit ≤ m.session.callDepth) : ∃ e, callLabel o name a m = .fail e m := by
  obtain ⟨_, -, hrefused⟩ | ⟨_, -, hshallow⟩ := callLabel_cases o name a m
  · exact ⟨_, hrefused⟩
  · exact absurd hdepth (Nat.not_le.mpr hshallow)

theorem enterRoutine_callDepth {a : Arguments} {m m₁ : Machine} (h : enterRoutine a m = .done ⟨⟩ m₁) :
    m₁.session.callDepth = m.session.callDepth + 1 := by
  have hcalm := (inferInstance : Simple (copied a)).calm m
  rw [enterRoutine_eq, Run.bind_apply] at h
  cases hend : copied a m with
  | done args m' =>
    rw [hend] at hcalm h
    cases h
    exact congrArg (Marks.callDepth · + 1) hcalm.marks
  | fail e m' =>
    rw [hend] at h
    cases h
  | wait w m' resume =>
    rw [hend] at h
    cases h

theorem Along.callDepth {n : Nat} {body : List Statement} (h : Along (outer n) G body m₀ rest m) :
    m.session.callDepth = m₀.session.callDepth := by
  induction h with
  | start => rfl
  | next _ hs ih => exact ((exec_bears n _ _).comes_done hs).callDepth.trans ih

/-- At every boundary of the top level of a run the control state is clean, whatever the run has been through, and the
top level ends nowhere but at a boundary. Every exit of a call of a label leaves loops, calls, arguments and address as
they were, and no statement of a routine is fetched at a depth of calls above the limit: a call at the limit is refused. -/
theorem control_clean_at_boundaries (n : Nat) (G : World → World → Prop) :
    (∀ p args stopAtLabel cancelFirst m rest m',
      Fetches (outer n) stopAtLabel G (atStart p args cancelFirst m) rest m' → CleanAt args m') ∧
    (∀ p args stopAtLabel cancelFirst m k ending,
      (topLevel (outer n) stopAtLabel k 0 (atStart p args cancelFirst m)).Comes (Interlude G) ending →
        Closes (outer n) stopAtLabel G (atStart p args cancelFirst m) ending) ∧
    (∀ name a m ending, (callLabel (outer n) name a m).Comes (Interlude G) ending → SameStanding m ending.state) ∧
    (∀ name a m, callLimit ≤ m.session.callDepth → ∃ e, callLabel (outer n) name a m = .fail e m) ∧
    (∀ a m m₁ body rest m', m.session.callDepth < callLimit → enterRoutine a m = .done ⟨⟩ m₁ →
      Along (outer n) G body m₁ rest m' → m'.session.callDepth = m.session.callDepth + 1 ∧
        m'.session.callDepth ≤ callLimit) := by
  refine ⟨?_, ?_, ?_, ?_, ?_⟩
  · intro p args stopAtLabel cancelFirst m rest m' hf
    exact CleanAt.fetches ⟨rfl, rfl, rfl, rfl⟩ hf
  · intro p args stopAtLabel cancelFirst m k ending hc
    exact topLevel_closes .start hc
  · intro name a m ending hc
    exact callLabel_standing n name a m hc
  · intro name a m hdepth
    exact callLabel_refused (outer n) name a hdepth
  · intro a m m₁ body rest m' hdepth henter halong
    have heq : m'.session.callDepth = m.session.callDepth + 1 := halong.callDepth.trans (enterRoutine_callDepth henter)
    exact ⟨heq, by omega⟩

/-- Arms a trap and calls a routine that jumps to nowhere from inside a loop. -/
def stumbling : Program :=
  [.signal (.on .error "H") ⟨1, "SIGNAL ON ERROR NAME H"⟩, .call "SUB" [] ⟨2, "CALL SUB"⟩, .label "H" ⟨3, "H:"⟩,
    .nop ⟨4, "NOP"⟩, .label "SUB" ⟨5, "SUB:"⟩,
    .loop .forever [.signal (.goto "NOWHERE") ⟨7, "SIGNAL NOWHERE"⟩] ⟨6, "DO FOREVER"⟩]

def trappedAt (o : Outer) (s s' : Statement) (m : Machine) : Option (Nat × Nat) :=
  match exec o s m with
  | .done _ m₁ =>
    match exec o s' m₁ with
    | .fail e m₂ =>
      match stopOn e m₂ with
      | .done (.resume i) m₃ => some (i, m₃.session.statements)
      | _ => none
    | _ => none
  | _ => none

theorem fetches_of_trappedAt {s s' : Statement} {i k : Nat} (hahead : ahead stopAtLabel 0 m = s :: s' :: rest)
    (h : trappedAt o s s' m = some (i, k)) :
    ∃ m', Fetches o stopAtLabel G m (ahead stopAtLabel i m') m' ∧ m'.session.statements = k := by
  have hstart : Fetches o stopAtLabel G m (s :: s' :: rest) m := hahead ▸ .start
  simp only [trappedAt] at h
  split at h
  · next m₁ h₁ =>
    split at h
    · next e m₂ h₂ =>
      split at h
      · next i' m₃ h₃ =>
        cases h
        have hnext : Fetches o stopAtLabel G m (s' :: rest) m₁ := hstart.next (h₁ ▸ .done _ _)
        exact ⟨m₃, hnext.goOn (h₂ ▸ .fail _ _) h₃, rfl⟩
      · cases h
    · cases h
  · cases h

/-- After the trap has been taken in the fourth statement that began, the top level is outside of the loop and the call. -/
theorem control_clean_after_trap : ∃ m',
    Fetches (outer 3) false (fun _ _ => True) (atStart stumbling [] false {}) (ahead false 3 m') m' ∧
      m'.session.statements = 4 ∧ CleanAt [] m' := by
  have htrapped : trappedAt (outer 3) (.signal (.on .error "H") ⟨1, "SIGNAL ON ERROR NAME H"⟩)
      (.call "SUB" [] ⟨2, "CALL SUB"⟩) (atStart stumbling [] false {}) = some (3, 4) := by decide +kernel
  have hfetches : ∃ m', Fetches (outer 3) false (fun _ _ => True) (atStart stumbling [] false {}) (ahead false 3 m') m' ∧
      m'.session.statements = 4 := fetches_of_trappedAt rfl htrapped
  obtain ⟨m', hf, hcount⟩ := hfetches
  exact ⟨m', hf, hcount, (control_clean_at_boundaries 3 fun _ _ => True).1 _ _ _ _ _ _ _ hf⟩

end Play

end Conductor
