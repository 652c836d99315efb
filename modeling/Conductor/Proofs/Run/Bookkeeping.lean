import Conductor.Proofs.Module.Request
import Conductor.Proofs.Run.Composed

/-!
# What loads enter in the ledger

Every computation of a program keeps to the rules of the ledger through all of its turns,
whatever the other tasks do between them and wherever it is interrupted: it works on no
load but those that it begins itself. A load begins, executes its module at most once and
is settled, and its caller gets the outcome that it was settled with, or goes on with the
interruption, and then the load was settled with the condition that tells of it.
-/

set_option autoImplicit false

namespace Conductor

open Relation (ReflTransGen)
open Conductor.Module (Ledger History Deed Move Moves Others Balanced Since Holds After Loading Loaded SameBooks)

/-- How things stand during a turn of a task that began with a ledger. -/
structure Turning (i : Nat) (g : Ledger) (h : History) (m : Machine) : Prop where
  balanced : Balanced g
  moves : ReflTransGen (Move i) g ⟨h, m.world.loader⟩

/-- How a task goes on after a wait, when others have moved: once the load is settled that it waited for, or with its
interruption. -/
structure Module.Ledger.Resumes (i : Nat) (wait : Wait) (A : Ledger) (raised : Option Signal) (g : Ledger) (m : Machine) :
    Prop where
  loader : g.loader = m.world.loader
  others : ReflTransGen (Others i) A g
  answer : raised = none → ∀ t, wait = .load t → m.world.loader.outcomes.get? t ≠ none
  interrupted : ∀ e, raised = some e → e = Signal.interruption

section

variable {i : Nat} {wait : Wait} {A g : Ledger} {m : Machine}

theorem Module.Ledger.Resumes.answered (hloader : g.loader = m.world.loader) (hothers : ReflTransGen (Others i) A g)
    (hanswer : ∀ t, wait = .load t → m.world.loader.outcomes.get? t ≠ none) : Ledger.Resumes i wait A none g m :=
  ⟨hloader, hothers, fun _ => hanswer, fun e he => (Option.some_ne_none e he.symm).elim⟩

theorem Module.Ledger.Resumes.raised (hloader : g.loader = m.world.loader) (hothers : ReflTransGen (Others i) A g) :
    Ledger.Resumes i wait A (some Signal.interruption) g m :=
  ⟨hloader, hothers, fun h => absurd h (Option.some_ne_none _), fun _ he => (Option.some.inj he).symm⟩

end

/-- A wait between two turns of a task. It waits for no load but one that is under way. -/
def Module.Ledger.pause (i : Nat) : Pause Signal Ledger Machine := fun wait g m K =>
  ∃ h, Turning i g h m ∧ (∀ t, wait = .load t → ∃ a, Loading m.world.loader a t) ∧
    ∀ raised g' m', Ledger.Resumes i wait ⟨h, m.world.loader⟩ raised g' m' → K raised g' m'

def Went (i : Nat) (free : Deed → Prop) (A g : Ledger) (m : Machine) : Prop :=
  ∃ h, Turning i g h m ∧ Since i free A ⟨h, m.world.loader⟩

def nothing : Deed → Prop := fun _ => False

/-- A computation that keeps to the rules, and to the loads that it begins itself. -/
class Keeps {α : Type} (x : Play α) : Prop where
  meets : ∀ {i : Nat} {g : Ledger} {h : History} {m : Machine}, Turning i g h m →
    (x m).Meets (Ledger.pause i) (fun _ => Went i nothing ⟨h, m.world.loader⟩)
      (fun _ => Went i nothing ⟨h, m.world.loader⟩) g

/-- A computation that may also execute the module of a load which its task holds, once. -/
structure Executes {α : Type} (a : String) (t : Nat) (x : Play α) : Prop where
  meets : ∀ {i : Nat} {g : Ledger} {h : History} {m : Machine}, Turning i g h m → Holds i a t ⟨h, m.world.loader⟩ →
    (∀ j, (j, .executed a t) ∉ h) →
    (x m).Meets (Ledger.pause i) (fun _ => Went i (· = .executed a t) ⟨h, m.world.loader⟩)
      (fun _ => Went i (· = .executed a t) ⟨h, m.world.loader⟩) g

theorem Module.Ledger.pause_monotone (i : Nat) : (Ledger.pause i).Monotone := by
  rintro wait g m K L hKL ⟨h, hturn, hload, hresume⟩
  exact ⟨h, hturn, hload, fun raised g' m' hgoes => hKL raised g' m' (hresume raised g' m' hgoes)⟩

section

variable {i : Nat} {free : Deed → Prop} {A B g : Ledger} {h : History} {m m' : Machine}

theorem Turning.now (hturn : Turning i g h m) : Balanced ⟨h, m.world.loader⟩ :=
  hturn.balanced.moves (Module.moves_of_own hturn.moves)

theorem Turning.move {h' : History} (hturn : Turning i g h m)
    (hmove : Move i ⟨h, m.world.loader⟩ ⟨h', m'.world.loader⟩) : Turning i g h' m' :=
  ⟨hturn.balanced, hturn.moves.tail hmove⟩

theorem Turning.went (hturn : Turning i g h m) : Went i free ⟨h, m.world.loader⟩ g m := ⟨h, hturn, .refl _⟩

theorem Turning.silent (hturn : Turning i g h m) (hl : SameBooks m.world.loader m'.world.loader) :
    Went i free ⟨h, m.world.loader⟩ g m' :=
  ⟨h, hturn.move (.silent hl), .single ⟨i, .silent hl⟩, .inl⟩

theorem Went.trans (hb : Balanced A) (hsince : Since i free A B) (hwent : Went i free B g m) : Went i free A g m := by
  obtain ⟨h, hturn, hsince'⟩ := hwent
  exact ⟨h, hturn, hsince.trans hb hsince'⟩

theorem Went.mono {free' : Deed → Prop} (hfree : ∀ d, free d → free' d) (hwent : Went i free A g m) :
    Went i free' A g m := by
  obtain ⟨h, hturn, hsince⟩ := hwent
  exact ⟨h, hturn, hsince.mono hfree⟩

theorem Went.loader (hwent : Went i free A g m) (hl : m'.world.loader = m.world.loader) : Went i free A g m' := by
  obtain ⟨h, hturn, hsince⟩ := hwent
  exact ⟨h, ⟨hturn.balanced, hl ▸ hturn.moves⟩, hl ▸ hsince⟩

theorem Turning.resumed {wait : Wait} {raised : Option Signal} {g' : Ledger} (hturn : Turning i g h m)
    (hgoes : Ledger.Resumes i wait ⟨h, m.world.loader⟩ raised g' m') : Went i free ⟨h, m.world.loader⟩ g' m' := by
  obtain ⟨h', l'⟩ := g'
  obtain ⟨rfl, hothers, -, -⟩ := hgoes
  exact ⟨h', ⟨hturn.now.moves (Module.moves_of_others hothers), .refl⟩, .of_others hothers⟩

end

namespace Keeps

variable {α β : Type}

theorem bind {x : Play α} {k : α → Play β} (hx : Keeps x) (hk : ∀ a, Keeps (k a)) : Keeps (x >>= k) := by
  refine ⟨fun {i g h m} hturn => Run.meets_bind.mpr ((hx.meets hturn).mono (Ledger.pause_monotone i) ?_ fun _ _ _ hw => hw)⟩
  rintro a g' m' ⟨h', hturn', hsince⟩
  exact ((hk a).meets hturn').mono (Ledger.pause_monotone i) (fun _ _ _ => .trans hturn.now hsince)
    fun _ _ _ => .trans hturn.now hsince

theorem recover {x : Play α} {k : Signal → Play α} (hx : Keeps x) (hk : ∀ e, Keeps (k e)) : Keeps (tryCatch x k) := by
  refine ⟨fun {i g h m} hturn => Run.meets_tryCatch.mpr ((hx.meets hturn).mono (Ledger.pause_monotone i) (fun _ _ _ hw => hw) ?_)⟩
  rintro e g' m' ⟨h', hturn', hsince⟩
  exact ((hk e).meets hturn').mono (Ledger.pause_monotone i) (fun _ _ _ => .trans hturn.now hsince)
    fun _ _ _ => .trans hturn.now hsince

theorem leaving {x : Play α} {f : Machine → Machine} (hx : Keeps x) (hf : ∀ m, (f m).world.loader = m.world.loader) :
    Keeps (x.leaving f) :=
  ⟨fun {i _ _ _} hturn => (Step.meets_leave _ _ _).mpr ((hx.meets hturn).mono (Ledger.pause_monotone i)
    (fun _ _ _ hw => hw.loader (hf _)) fun _ _ _ hw => hw.loader (hf _))⟩

theorem quiet {x : Play α} (hx : Quiet x) : Keeps x := by
  refine ⟨fun {i g h m} hturn => ?_⟩
  have hstill {m' : Machine} (hm' : Still m m') : Went i nothing ⟨h, m.world.loader⟩ g m' := by
    have hbooks := hm'.books
    simp only [Module.Loader.books, Prod.mk.injEq] at hbooks
    obtain ⟨hnodes, htickets, hpending, houtcomes, hexecutions⟩ := hbooks
    exact hturn.silent ⟨by funext a; rw [Module.Loader.view, Module.Loader.view, hnodes], hpending, htickets, houtcomes,
      hexecutions⟩
  have hcalm := hx.calm m
  generalize x m = s at hcalm
  cases s with
  | done _ _ => exact hstill hcalm
  | fail _ _ => exact hstill hcalm.2
  | wait _ _ _ => exact hcalm.elim

theorem onLoader {f : Module.Loader → Module.Loader} (hf : ∀ l, SameBooks l (f l)) : Keeps (Play.onLoader f) :=
  ⟨fun hturn => hturn.silent (hf _)⟩

theorem turn : Keeps (Run.await .turn : Play Unit) := by
  refine ⟨fun {_ _ h _} hturn => ⟨h, hturn, nofun, fun raised _ _ hgoes => ?_⟩⟩
  cases raised with
  | none => exact hturn.resumed hgoes
  | some e => exact hturn.resumed hgoes

end Keeps

/-- Surroundings that keep to the rules. -/
class Careful (o : Outer) : Prop where
  label : ∀ name a, Keeps (o.label name a)
  moduleLabel : ∀ index label a, Keeps (o.moduleLabel index label a)
  load : ∀ identifier base stack, Keeps (o.load identifier base stack)

theorem Composed.keeps {o : Outer} [ho : Careful o] {α : Type} {x : Play α} (hx : Composed o x) : Keeps x := by
  induction hx with
  | quiet x h => exact .quiet h
  | throw e => exact ⟨fun hturn => hturn.went⟩
  | bind x k _ _ hx hk => exact hx.bind hk
  | recover x k _ _ hx hk => exact hx.recover hk
  | leaving x f _ hf _ hx => exact hx.leaving hf
  | onSession f => exact ⟨fun hturn => hturn.went.loader rfl⟩
  | onWorld f hf _ => exact ⟨fun hturn => hturn.went.loader (hf _)⟩
  | onLoader f hf => exact .onLoader hf
  | turn => exact .turn
  | label name a => exact ho.label name a
  | moduleLabel index label a => exact ho.moduleLabel index label a
  | load identifier base stack => exact ho.load identifier base stack

/-! ## Executing a module -/

namespace Executes

variable {α β : Type} {a : String} {t : Nat}

theorem after {x : Play α} {k : α → Play β} (hx : Keeps x) (hk : ∀ b, Executes a t (k b)) : Executes a t (x >>= k) := by
  refine ⟨fun {i g h m} hturn hheld hfirst => ?_⟩
  refine Run.meets_bind.mpr ((hx.meets hturn).mono (Ledger.pause_monotone i) ?_ fun _ _ _ => .mono fun _ => False.elim)
  rintro b g' m' ⟨h', hturn', hsince⟩
  have hsince' : Since i (· = .executed a t) ⟨h, m.world.loader⟩ ⟨h', m'.world.loader⟩ := hsince.mono fun _ => False.elim
  have hheld' := hsince.holds hturn.now hheld fun _ => id
  have hfirst' := hsince.unexecuted hturn.now hheld id hfirst
  exact ((hk b).meets hturn' hheld' hfirst').mono (Ledger.pause_monotone i) (fun _ _ _ => .trans hturn.now hsince')
    fun _ _ _ => .trans hturn.now hsince'

theorem count {f : Module.Loader → Module.Loader} (hf : ∀ l, ∃ l', SameBooks l l' ∧ f l = l'.count a) {k : Unit → Play β}
    (hk : ∀ u, Keeps (k u)) : Executes a t (Play.onLoader f >>= k) := by
  refine ⟨fun {i g h m} hturn hheld hfirst => ?_⟩
  obtain ⟨l', hl, hcount⟩ := hf m.world.loader
  have hsilent : Move i ⟨h, m.world.loader⟩ ⟨h, l'⟩ := .silent hl
  have hexecutes : Move i ⟨h, l'⟩ ⟨(i, .executed a t) :: h, l'.count a⟩ :=
    .executes (hl.loading.mpr (hheld.loading hturn.now)) hheld.began hfirst
  have hsince : Since i (· = .executed a t) ⟨h, m.world.loader⟩ ⟨(i, .executed a t) :: h, l'.count a⟩ := by
    refine ⟨.tail (.single ⟨i, hsilent⟩) ⟨i, hexecutes⟩, fun {d} hd => ?_⟩
    rcases List.mem_cons.mp hd with hd | hd
    · exact .inr (.inr (Prod.mk.inj hd).2)
    · exact .inl hd
  let m' : Machine := { m with world := { m.world with loader := f m.world.loader } }
  have hturn' : Turning i g ((i, .executed a t) :: h) m' := by
    refine ⟨hturn.balanced, (hturn.moves.tail hsilent).tail ?_⟩
    show Move i _ ⟨_, f m.world.loader⟩
    rw [hcount]
    exact hexecutes
  rw [← hcount] at hsince
  refine Run.meets_bind.mpr (((hk ⟨⟩).meets hturn').mono (Ledger.pause_monotone i) ?_ ?_)
  · exact fun _ _ _ hw => .trans hturn.now hsince (hw.mono fun _ => False.elim)
  · exact fun _ _ _ hw => .trans hturn.now hsince (hw.mono fun _ => False.elim)

end Executes

namespace Play

variable (o : Outer) [Careful o]

theorem keeps {α : Type} (x : Play α) [hx : Composed o x] : Keeps x := hx.keeps

theorem loadHost_executes (t : Nat) (module : HostModule) (identifier a : String) (base : Option String)
    (stack : Module.Stack) : Executes a t (loadHost o module identifier a base stack) := by
  have hset (deps : List String) : Composed o (onLoader fun l => l.setDependencies a deps) :=
    .onLoader _ fun l => .update l a _ fun _ => rfl
  have hrest (exports : List Module.Export) : Executes a t (do
      onLoader fun l => l.count a
      let deps ← liftE module.requirements
      onLoader fun l => l.setDependencies a deps
      requireAll o a base stack deps
      liftP (module.entries exports identifier a)) :=
    .count (fun l => ⟨l, .refl l, rfl⟩) fun _ => keeps o _
  unfold loadHost
  extract_lets start
  have hstart (u : Unit) : Executes a t (start u) := .after (keeps o _) hrest
  split
  · exact .after (keeps o _) hstart
  · exact hstart ⟨⟩

theorem loadScript_executes (t : Nat) (source identifier : String) (l : Module.Location) (stack : Module.Stack) :
    Executes l.text t (loadScript o source identifier l stack) := by
  have hadd (sm : ScriptModule) : Composed o (modifyWorld fun w => { w with modules := w.modules.push sm }) :=
    .onWorld _ (fun _ => rfl) fun _ => rfl
  refine .after (keeps o _) fun program => .after (keeps o _) fun w => .count ?_ fun _ => keeps o _
  exact fun loader => ⟨loader.setDependencies l.text [], .update loader l.text _ fun _ => rfl, rfl⟩

theorem loadFresh_executes (t : Nat) (identifier : String) (l : Module.Location) (base : Option String)
    (stack : Module.Stack) : Executes l.text t (loadFresh o identifier l base stack) := by
  unfold loadFresh
  split
  · exact .after (keeps o _) fun w => .after (keeps o _) fun module => loadHost_executes o t module identifier _ _ _
  · refine .after (keeps o _) fun source => .after (keeps o _) fun w => loadHost_executes o t _ identifier _ _ _
  · refine .after (keeps o _) fun source => ?_
    split
    · exact loadScript_executes o t _ identifier l stack
    · exact loadScript_executes o t _ identifier l stack

/-- A load comes to an end, or ends with a signal that is no problem. -/
theorem outcome_executes {a : String} {t : Nat} {x : Play (Table String Entry)}
    (hx : Executes a t x) {i : Nat} {g : Ledger} {h : History} {m : Machine} (hturn : Turning i g h m)
    (hheld : Holds i a t ⟨h, m.world.loader⟩) (hfirst : ∀ j, (j, .executed a t) ∉ h) :
    (outcome x m).Meets (Ledger.pause i) (fun _ => Went i (· = .executed a t) ⟨h, m.world.loader⟩)
      (fun e g' m' => Went i (· = .executed a t) ⟨h, m.world.loader⟩ g' m' ∧ ∀ p, e ≠ .problem p) g := by
  refine Run.meets_tryCatch.mpr (Run.meets_bind.mpr ((hx.meets hturn hheld hfirst).mono (Ledger.pause_monotone i) ?_ ?_))
  · exact fun _ _ _ hw => hw
  · intro e g' m' hw
    match e with
    | .problem p => exact (Step.meets_done _ m' g').mpr hw
    | .leave | .iterate | .ret _ | .exit _ | .jump _ _ | .exhausted =>
      exact (Step.meets_fail _ m' g').mpr ⟨hw, fun _ => Signal.noConfusion⟩

end Play

/-! ## Loading a module -/

/-- What whoever began a load goes on with if it fails, and the condition that the load is settled with: the same,
unless the load was interrupted. -/
inductive LeftWith (identifier : String) (ticket : Nat) : Problem → Condition → Prop
  | failed (c : Condition) : LeftWith identifier ticket (.condition c) c
  | interrupted {f : Failure} (h : f.interrupts = true) :
    LeftWith identifier ticket (.failure f) { cause := .loadInterrupted identifier, load := some ticket }

theorem Play.release_cases (identifier : String) (ticket : Nat) (ended : Except Problem (Table String Entry)) (m : Machine) :
    (∃ f, settlement identifier ticket ended = .ok f ∧ release ended (settlement identifier ticket ended) m = .done f m) ∨
      ∃ p c, LeftWith identifier ticket p c ∧ settlement identifier ticket ended = .error c ∧
        release ended (settlement identifier ticket ended) m = .fail (.problem p) m := by
  match ended with
  | .ok f => exact .inl ⟨f, rfl, rfl⟩
  | .error (.condition c) => exact .inr ⟨_, _, .failed _, rfl, rfl⟩
  | .error (.failure f) =>
    by_cases h : f.interrupts = true
    · refine .inr ⟨_, _, .interrupted h, ?_, ?_⟩
      · simp [settlement, loadCondition, h, Except.mapError]
      · simp only [release, if_pos h]
        rfl
    · refine .inr ⟨_, _, .failed _, rfl, ?_⟩
      simp only [release, if_neg h]
      rfl

def Machine.begun (m : Machine) (identifier a : String) : Machine :=
  { m with world := { m.world with loader := m.world.loader.begun identifier a } }

section

variable {i : Nat} {g : Ledger} {h : History} {m : Machine} {a : String}

theorem Turning.begins (identifier : String) (hturn : Turning i g h m) (hloaded : ∀ f, ¬ Loaded m.world.loader a f)
    (hloading : ∀ t, ¬ Loading m.world.loader a t) :
    Turning i g ((i, .began a m.world.loader.tickets) :: h) (m.begun identifier a) :=
  hturn.move (.begins identifier a hloaded hloading)

theorem since_begun {identifier : String} {B : Ledger} (hloaded : ∀ f, ¬ Loaded m.world.loader a f)
    (hloading : ∀ t, ¬ Loading m.world.loader a t)
    (hsince : Since i (· = .executed a m.world.loader.tickets)
      ⟨(i, .began a m.world.loader.tickets) :: h, m.world.loader.begun identifier a⟩ B) :
    Since i nothing ⟨h, m.world.loader⟩ B := by
  refine ⟨.head ⟨i, .begins identifier a hloaded hloading⟩ hsince.moves, fun hd => ?_⟩
  rcases hsince.own hd with hd | hd | rfl
  · rcases List.mem_cons.mp hd with hd | hd
    · cases hd
      exact .inr (.inl (le_refl _))
    · exact .inl hd
  · exact .inr (.inl (Nat.le_of_succ_le hd))
  · exact .inr (.inl (le_refl _))

theorem since_enter {A : Ledger} {l l' : Module.Loader} {d : Deed} (hsince : Since i nothing A ⟨h, l⟩)
    (hmove : Move i ⟨h, l⟩ ⟨(i, d) :: h, l'⟩) (hd : A.loader.tickets ≤ d.ticket) : Since i nothing A ⟨(i, d) :: h, l'⟩ := by
  refine ⟨hsince.moves.tail ⟨i, hmove⟩, fun hd' => ?_⟩
  rcases List.mem_cons.mp hd' with hd' | hd'
  · cases hd'
    exact .inr (.inl hd)
  · exact hsince.own hd'

end

namespace Play

variable {i : Nat} {g : Ledger} {h : History} {m : Machine}

/-- A load from its beginning to its end: its caller gets the outcome that it was settled with, or goes on with its
interruption. -/
theorem fresh_meets {o : Outer} [Careful o] (identifier : String) (l : Module.Location) (base : Option String)
    (stack : Module.Stack) (hturn : Turning i g h m) (hloaded : ∀ f, ¬ Loaded m.world.loader l.text f)
    (hloading : ∀ t, ¬ Loading m.world.loader l.text t) :
    ((do
        let ended ← outcome (loadFresh o identifier l base (stack ++ [(identifier, l.text)]))
        let result := settlement identifier m.world.loader.tickets ended
        onLoader fun loader => loader.settle l.text m.world.loader.tickets result
        release ended result : Play (Table String Entry)) (m.begun identifier l.text)).Meets (Ledger.pause i)
      (fun f g' m' => Went i nothing ⟨h, m.world.loader⟩ g' m' ∧
        m'.world.loader.outcomes.get? m.world.loader.tickets = some (.ok f))
      (fun e g' m' => Went i nothing ⟨h, m.world.loader⟩ g' m' ∧
        ∀ p, e = .problem p → ∃ c, LeftWith identifier m.world.loader.tickets p c ∧
          m'.world.loader.outcomes.get? m.world.loader.tickets = some (.error c)) g := by
  let t := m.world.loader.tickets
  have hturn' := hturn.begins identifier hloaded hloading
  have hheld : Holds i l.text t ⟨(i, .began l.text t) :: h, (m.begun identifier l.text).world.loader⟩ :=
    ⟨List.mem_cons_self, hturn.now.future t (le_refl _)⟩
  have hfirst : ∀ j, (j, Deed.executed l.text t) ∉ (i, Deed.began l.text t) :: h := by
    intro j hj
    rcases List.mem_cons.mp hj with hj | hj
    · cases hj
    · exact absurd (hturn.now.drawn hj) (lt_irrefl _)
  have hexecutes := loadFresh_executes o t identifier l base (stack ++ [(identifier, l.text)])
  refine Run.meets_bind.mpr ((outcome_executes hexecutes hturn' hheld hfirst).mono (Ledger.pause_monotone i) ?_ ?_)
  · rintro ended g₁ m₁ ⟨h₁, hturn₁, hsince⟩
    have hheld₁ := hsince.holds hturn'.now hheld fun _ => Deed.noConfusion
    have hloading₁ := hheld₁.loading hturn₁.now
    have hbefore := since_begun hloaded hloading hsince
    -- the load is settled, and the result is what its caller gets unless it was interrupted
    let result := settlement identifier t ended
    let m₂ : Machine := { m₁ with world := { m₁.world with loader := m₁.world.loader.settle l.text t result } }
    have hmove : Move i ⟨h₁, m₁.world.loader⟩ ⟨(i, .settled l.text t result) :: h₁, m₂.world.loader⟩ :=
      .settles result hloading₁ hheld₁.began
    have hwent : Went i nothing ⟨h, m.world.loader⟩ g₁ m₂ :=
      ⟨_, hturn₁.move hmove, since_enter hbefore hmove (le_refl t)⟩
    have houtcome : m₂.world.loader.outcomes.get? t = some result :=
      (hturn₁.now.move hmove).outcome.mpr ⟨i, l.text, List.mem_cons_self⟩
    show (release ended result m₂).Meets _ _ _ g₁
    rcases release_cases identifier t ended m₂ with ⟨f, hresult, hdone⟩ | ⟨p, c, hleft, hresult, hfail⟩
    · rw [hdone]
      exact ⟨hwent, houtcome.trans (congrArg some hresult)⟩
    · rw [hfail]
      refine ⟨hwent, fun p' hp => ?_⟩
      obtain rfl : p = p' := Signal.problem.inj hp
      exact ⟨c, hleft, houtcome.trans (congrArg some hresult)⟩
  · rintro e g₁ m₁ ⟨⟨h₁, hturn₁, hsince⟩, hsignal⟩
    exact ⟨⟨h₁, hturn₁, since_begun hloaded hloading hsince⟩, fun p hp => absurd hp (hsignal p)⟩

def told (ticket : Nat) : Play (Table String Entry) := do
  match (← world).loader.outcomes.get? ticket with
  | some result => liftC (result.mapError (← world).loader.latest)
  | none => throw .exhausted

instance (o : Outer) (ticket : Nat) : Composed o (told ticket) := by
  unfold told
  refine .andThen fun w => ?_
  split <;> infer_instance

def answered (ticket : Nat) : Option Signal → Play (Table String Entry)
  | none => told ticket
  | some e => throw e

theorem load_busy (o : Outer) {identifier : String} {base : Option String} {stack : Module.Stack} {l : Module.Location}
    {t : Nat} (htarget : Module.target m.world (identifier, base) = .ok l)
    (henter : m.world.loader.enter stack identifier l.text = .busy t) :
    ∃ sought, load o identifier base stack m =
      .wait (.load t) { m with world := { m.world with sought := sought } } (answered t) := by
  obtain ⟨sought, hlocate⟩ := Module.locate_apply m (identifier, base)
  refine ⟨sought, ?_⟩
  rw [load, Run.bind_apply, hlocate, htarget]
  simp only [Step.bind, Run.bind_apply, world_apply, henter]
  refine congrArg (Step.wait _ _) (funext fun raised => ?_)
  cases raised <;> rfl

/-- The end that a load was settled with under a ticket is the end of a computation, unless it was interrupted. -/
def EndsAsSettled (i : Nat) (identifier : String) (ticket : Nat) (g : Ledger) (x : Step Machine Signal (Table String Entry)) :
    Prop :=
  x.Meets (Ledger.pause i) (fun f _ m => m.world.loader.outcomes.get? ticket = some (.ok f))
    (fun e _ m => ∀ p, e = .problem p →
      ∃ c, LeftWith identifier ticket p c ∧ m.world.loader.outcomes.get? ticket = some (.error c)) g

theorem load_fresh (o : Outer) [Careful o] {identifier : String} {base : Option String} {stack : Module.Stack}
    {l : Module.Location} {ticket : Nat} {loader : Module.Loader} (hturn : Turning i g h m)
    (htarget : Module.target m.world (identifier, base) = .ok l)
    (henter : m.world.loader.enter stack identifier l.text = .fresh ticket loader) :
    EndsAsSettled i identifier ticket g (load o identifier base stack m) := by
  obtain ⟨sought, hlocate⟩ := Module.locate_apply m (identifier, base)
  rw [load, Run.bind_apply, hlocate, htarget]
  simp only [Step.bind, Run.bind_apply, world_apply]
  rcases Module.enter_cases m.world.loader stack identifier l.text with ⟨ids, hother, -⟩ | ⟨-, hcases⟩
  · rw [hother] at henter
    cases henter
  rcases hcases with ⟨f, hother, -⟩ | ⟨ids, -, hother, -⟩ | ⟨t, hother, -⟩ | ⟨hfresh, hloaded, hloading⟩
  · rw [hother] at henter
    cases henter
  · rw [hother] at henter
    cases henter
  · rw [hother] at henter
    cases henter
  · rw [hfresh] at henter ⊢
    cases henter
    let m' : Machine := { m with world := { m.world with sought := sought } }
    have hturn' : Turning i g h m' := ⟨hturn.balanced, hturn.moves⟩
    exact (fresh_meets identifier l base stack hturn' hloaded hloading).mono (Ledger.pause_monotone i)
      (fun _ _ _ hw => hw.2) fun _ _ _ hw => hw.2

instance load_keeps (o : Outer) [Careful o] (identifier : String) (base : Option String) (stack : Module.Stack) :
    Keeps (load o identifier base stack) := by
  refine .bind (keeps o _) fun l => ⟨fun {i g h m} hturn => ?_⟩
  have hquiet (x : Play (Table String Entry)) (hx : Quiet x) := (Keeps.quiet hx).meets hturn
  simp only [Run.bind_apply, world_apply, Step.bind]
  rcases Module.enter_cases m.world.loader stack identifier l.text with ⟨ids, henter, -⟩ | ⟨-, hcases⟩
  · rw [henter]
    exact hquiet _ inferInstance
  rcases hcases with ⟨f, henter, -⟩ | ⟨ids, -, henter, -⟩ | ⟨t, henter, hloading, -⟩ | ⟨henter, hloaded, hloading⟩
  · rw [henter]
    exact hquiet _ inferInstance
  · rw [henter]
    exact hquiet _ inferInstance
  · rw [henter]
    refine ⟨h, hturn, ?_, fun raised g' m' hgoes => ?_⟩
    · rintro t' ⟨⟩
      exact ⟨l.text, hloading⟩
    cases raised with
    | some e => exact hturn.resumed hgoes
    | none =>
      obtain ⟨h', hturn', hsince⟩ := (hturn.resumed hgoes : Went i nothing _ g' m')
      exact ((keeps o (told t)).meets hturn').mono (Ledger.pause_monotone i) (fun _ _ _ => .trans hturn.now hsince)
        fun _ _ _ => .trans hturn.now hsince
  · rw [henter]
    exact (fresh_meets identifier l base stack hturn hloaded hloading).mono (Ledger.pause_monotone i)
      (fun _ _ _ hw => hw.1) fun _ _ _ hw => hw.1

instance outer_careful (n : Nat) : Careful (outer n) := by
  induction n with
  | zero =>
    have hthrow {α : Type} : Keeps (throw .exhausted : Play α) := ⟨fun hturn => hturn.went⟩
    exact ⟨fun _ _ => hthrow, fun _ _ _ => hthrow, fun _ _ _ => hthrow⟩
  | succ n ih =>
    exact ⟨fun name a => keeps (outer n) (callLabel (outer n) name a),
      fun index label a => keeps (outer n) (callModule (outer n) index label a),
      fun identifier base stack => load_keeps (outer n) identifier base stack⟩

end Play

end Conductor
