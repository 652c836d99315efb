import Conductor.Proofs.Run.Enclosure
import Conductor.Proofs.Run.Trap
import Mathlib.Tactic.Ring

/-!
# Counted ranges

A loop over a range of integers writes its variable, runs its body and reads the variable again,
and it writes it once more before it finds that the range is over. As long as the body leaves the
variable alone, the runs of the body are those of a list of numbers that is known before the first
of them, and what the variable holds in the end is the number after the last one.

`Turns` tells which runs of a body follow one another, each with its number in the variable. A loop
over a range comes to the endings of its turns: all numbers have had theirs, or the body has broken
one of them off.
-/

set_option autoImplicit false

namespace Conductor

open Syntax (Expr Ref Statement Place)

/-! ## The numbers of a range -/

/-- How many numbers a range has from one number to another in steps. -/
def rangeCount (a b s : Int) : Nat := ((b - a).fdiv s + 1).toNat

def rangeValues (a s : Int) (n : Nat) : List Int := (List.range n).map fun j : Nat => a + s * j

theorem rangeValues_succ (a s : Int) (n : Nat) : rangeValues a s (n + 1) = a :: rangeValues (a + s) s n := by
  simp only [rangeValues, List.range_succ_eq_map, List.map_cons, List.map_map, Nat.cast_zero, mul_zero, add_zero]
  refine congrArg (a :: ·) (List.map_congr_left fun j _ => ?_)
  simp only [Function.comp_apply, Nat.cast_succ]
  ring

def WithinRange (a b s : Int) : Prop := if 0 < s then a ≤ b else b ≤ a

theorem withinRange_iff {s : Int} (hs : s ≠ 0) (a b : Int) : WithinRange a b s ↔ 0 ≤ (b - a).fdiv s := by
  unfold WithinRange
  split
  · next hpos =>
    rw [Int.fdiv_eq_ediv_of_nonneg _ (Int.le_of_lt hpos), Int.ediv_nonneg_iff_of_pos hpos]
    omega
  · next hneg =>
    have hpos : 0 < -s := by omega
    rw [← Int.neg_fdiv_neg, Int.fdiv_eq_ediv_of_nonneg _ (Int.le_of_lt hpos), Int.ediv_nonneg_iff_of_pos hpos]
    omega

theorem rangeCount_of_beyond {a b s : Int} (hs : s ≠ 0) (h : ¬ WithinRange a b s) : rangeCount a b s = 0 := by
  rw [withinRange_iff hs] at h
  unfold rangeCount
  omega

theorem rangeCount_of_within {a b s : Int} (hs : s ≠ 0) (h : WithinRange a b s) :
    rangeCount a b s = rangeCount (a + s) b s + 1 := by
  have hstep : (b - (a + s)).fdiv s = (b - a).fdiv s - 1 := by
    have h := Int.add_mul_fdiv_right (b - a) (-1) hs
    rw [show b - (a + s) = b - a + -1 * s by ring, h]
    ring
  rw [withinRange_iff hs] at h
  simp only [rangeCount, hstep]
  omega

namespace Play

variable {G : World → World → Prop} {body : Play Unit} {key : String} {o : Outer}

/-! ## Turns -/

def counterAt (key : String) (i : Int) (m : Machine) : Machine :=
  { m with session := { m.session with scope := m.session.scope.put key (.int i) } }

@[simp] theorem counterAt_get? (key : String) (i : Int) (m : Machine) :
    (counterAt key i m).session.scope.get? key = some (.int i) :=
  Table.get?_put_self key _ _

/-- A run of the body is completed: normally, or because the loop is to go on with its next round. -/
def Completes (G : World → World → Prop) (body : Play Unit) (m m' : Machine) : Prop :=
  (body m).Comes (Interlude G) (.done ⟨⟩ m') ∨ (body m).Comes (Interlude G) (.fail .iterate m')

/-- The body has run once for each of the numbers, in their order, with the number in the variable, and has completed
each of these runs. -/
inductive Turns (G : World → World → Prop) (body : Play Unit) (key : String) : List Int → Machine → Machine → Prop
  | nil (m : Machine) : Turns G body key [] m m
  | cons {i : Int} {is : List Int} {m m' m'' : Machine} :
      Completes G body (counterAt key i m) m' → Turns G body key is m' m'' → Turns G body key (i :: is) m m''

theorem Turns.keeps {P : Machine → Prop} (hP : ∀ i m m', P m → Completes G body (counterAt key i m) m' → P m')
    {is : List Int} {m m' : Machine} (h : Turns G body key is m m') (hm : P m) : P m' := by
  induction h with
  | nil => exact hm
  | cons hc _ ih => exact ih (hP _ _ _ hm hc)

/-- In this state the body starts its run for the number of a place of the range. -/
def Starts (G : World → World → Prop) (body : Play Unit) (key : String) (a s : Int) (m : Machine) (j : Nat)
    (m' : Machine) : Prop :=
  ∃ m₁, Turns G body key (rangeValues a s j) m m₁ ∧ m' = counterAt key (a + s * j) m₁

theorem starts_zero {a s : Int} {m m' : Machine} : Starts G body key a s m 0 m' ↔ m' = counterAt key a m := by
  constructor
  · rintro ⟨m₁, hturns, rfl⟩
    cases hturns
    simp
  · rintro rfl
    exact ⟨m, .nil m, by simp⟩

theorem starts_succ {a s : Int} {m m' : Machine} {j : Nat} :
    Starts G body key a s m (j + 1) m' ↔
      ∃ m₁, Completes G body (counterAt key a m) m₁ ∧ Starts G body key (a + s) s m₁ j m' := by
  have hnumber : a + s * ((j + 1 : Nat) : Int) = a + s + s * j := by
    push_cast
    ring
  simp only [Starts, rangeValues_succ, hnumber]
  constructor
  · rintro ⟨m₂, hturns, rfl⟩
    cases hturns with
    | cons hc hrest => exact ⟨_, hc, m₂, hrest, rfl⟩
  · rintro ⟨m₁, hc, m₂, hrest, rfl⟩
    exact ⟨m₂, .cons hc hrest, rfl⟩

/-- In this range the body leaves the variable as it is. -/
def SparesVariable (G : World → World → Prop) (body : Play Unit) (key : String) (a s : Int) (n : Nat) (m : Machine) :
    Prop :=
  ∀ j m', j < n → Starts G body key a s m j m' → ∀ ending, (body m').Comes (Interlude G) ending →
    ending.state.session.scope.get? key = some (.int (a + s * j))

/-- How a loop over so many numbers of a range ends. -/
inductive RangeEnds (G : World → World → Prop) (body : Play Unit) (key : String) (a s : Int) (n : Nat) (m : Machine) :
    Step.Ending Machine Signal Unit → Prop
  | finished {m' : Machine} : Turns G body key (rangeValues a s n) m m' →
      RangeEnds G body key a s n m (.done ⟨⟩ (counterAt key (a + s * n) m'))
  | left {j : Nat} {m' m'' : Machine} : j < n → Starts G body key a s m j m' →
      (body m').Comes (Interlude G) (.fail .leave m'') → RangeEnds G body key a s n m (.done ⟨⟩ m'')
  | broken {j : Nat} {m' m'' : Machine} {e : Signal} : j < n → Starts G body key a s m j m' →
      (body m').Comes (Interlude G) (.fail e m'') → ¬ e.ForLoop → RangeEnds G body key a s n m (.fail e m'')

theorem rangeEnds_zero {a s : Int} {m : Machine} {ending : Step.Ending Machine Signal Unit} :
    RangeEnds G body key a s 0 m ending ↔ ending = .done ⟨⟩ (counterAt key a m) := by
  constructor
  · intro h
    cases h with
    | finished hturns =>
      cases hturns
      simp
    | left hj | broken hj => exact absurd hj (Nat.not_lt_zero _)
  · rintro rfl
    have h : RangeEnds G body key a s 0 m (.done ⟨⟩ (counterAt key (a + s * (0 : Nat)) m)) := .finished (.nil m)
    simpa using h

/-- The first run of a range, and what is left of the range after it. -/
theorem rangeEnds_succ {a s : Int} {n : Nat} {m : Machine} {ending : Step.Ending Machine Signal Unit} :
    RangeEnds G body key a s (n + 1) m ending ↔
      (∃ m', Completes G body (counterAt key a m) m' ∧ RangeEnds G body key (a + s) s n m' ending) ∨
      (∃ m', (body (counterAt key a m)).Comes (Interlude G) (.fail .leave m') ∧ ending = .done ⟨⟩ m') ∨
      ∃ e m', (body (counterAt key a m)).Comes (Interlude G) (.fail e m') ∧ ¬ e.ForLoop ∧ ending = .fail e m' := by
  have hnumber (j : Nat) : a + s * ((j + 1 : Nat) : Int) = a + s + s * j := by
    push_cast
    ring
  constructor
  · intro h
    cases h with
    | finished hturns =>
      rw [rangeValues_succ] at hturns
      cases hturns with
      | cons hc hrest => exact .inl ⟨_, hc, hnumber n ▸ .finished hrest⟩
    | @left j _ _ hj hstarts hbody =>
      cases j with
      | zero => exact .inr (.inl ⟨_, starts_zero.mp hstarts ▸ hbody, rfl⟩)
      | succ j =>
        obtain ⟨m₁, hc, hrest⟩ := starts_succ.mp hstarts
        exact .inl ⟨m₁, hc, .left (Nat.lt_of_succ_lt_succ hj) hrest hbody⟩
    | @broken j _ _ _ hj hstarts hbody he =>
      cases j with
      | zero => exact .inr (.inr ⟨_, _, starts_zero.mp hstarts ▸ hbody, he, rfl⟩)
      | succ j =>
        obtain ⟨m₁, hc, hrest⟩ := starts_succ.mp hstarts
        exact .inl ⟨m₁, hc, .broken (Nat.lt_of_succ_lt_succ hj) hrest hbody he⟩
  · rintro (⟨m', hc, h⟩ | ⟨m', hbody, rfl⟩ | ⟨e, m', hbody, he, rfl⟩)
    · cases h with
      | finished hturns => exact hnumber n ▸ .finished (rangeValues_succ a s n ▸ .cons hc hturns)
      | left hj hstarts hbody => exact .left (Nat.succ_lt_succ hj) (starts_succ.mpr ⟨m', hc, hstarts⟩) hbody
      | broken hj hstarts hbody he =>
        exact .broken (Nat.succ_lt_succ hj) (starts_succ.mpr ⟨m', hc, hstarts⟩) hbody he
    · exact .left (Nat.succ_pos n) (starts_zero.mpr rfl) hbody
    · exact .broken (Nat.succ_pos n) (starts_zero.mpr rfl) hbody he

/-! ## One round -/

/-- A round goes on after a completed run of the body, and ends the loop after one that leaves it. -/
theorem round_comes {m : Machine} {ending : Step.Ending Machine Signal Bool} :
    (round body m).Comes (Interlude G) ending ↔
      (∃ m', Completes G body m m' ∧ ending = .done true m') ∨
      (∃ m', (body m).Comes (Interlude G) (.fail .leave m') ∧ ending = .done false m') ∨
      ∃ e m', (body m).Comes (Interlude G) (.fail e m') ∧ ¬ e.ForLoop ∧ ending = .fail e m' := by
  rw [round, Run.comes_tryCatch]
  simp only [Run.comes_bind]
  constructor
  · rintro (⟨_, m', ⟨_, m₁, hbody, ⟨⟩⟩ | ⟨_, _, _, ⟨⟩⟩, rfl⟩ | ⟨e, m', ⟨_, _, _, ⟨⟩⟩ | ⟨_, m₁, hbody, ⟨⟩⟩, hsignal⟩)
    · exact .inl ⟨m', .inl hbody, rfl⟩
    · cases e with
      | leave =>
        cases hsignal
        exact .inr (.inl ⟨_, hbody, rfl⟩)
      | iterate =>
        cases hsignal
        exact .inl ⟨_, .inr hbody, rfl⟩
      | _ =>
        cases hsignal
        exact .inr (.inr ⟨_, _, hbody, id, rfl⟩)
  · rintro (⟨m', hbody | hbody, rfl⟩ | ⟨m', hbody, rfl⟩ | ⟨e, m', hbody, he, rfl⟩)
    · exact .inl ⟨true, m', .inl ⟨⟨⟩, m', hbody, .done _ _⟩, rfl⟩
    · exact .inr ⟨.iterate, m', .inr ⟨_, m', hbody, rfl⟩, .done _ _⟩
    · exact .inr ⟨.leave, m', .inr ⟨_, m', hbody, rfl⟩, .done _ _⟩
    · refine .inr ⟨e, m', .inr ⟨_, m', hbody, rfl⟩, ?_⟩
      cases e with
      | leave | iterate => exact absurd trivial he
      | _ => exact .fail _ _

theorem withinRange_eq (a b s : Int) :
    (if (Number.int s).gt (.int 0) then (Number.int a).le (.int b) else (Number.int a).ge (.int b)) = true ↔
      WithinRange a b s := by
  have hgt (x y : Int) : (Number.int x).gt (.int y) = true ↔ y < x := by
    simp [Number.gt, Number.order?, compare_gt_iff_gt]
  have heq (x y : Int) : (Number.int x).eq (.int y) = true ↔ x = y := by
    simp [Number.eq, Number.order?]
  have hlt (x y : Int) : (Number.int x).lt (.int y) = true ↔ x < y := by
    simp [Number.lt, Number.order?, compare_lt_iff_lt]
  simp only [WithinRange, hgt]
  split
  · simp [Number.le, heq, hlt]
    omega
  · simp [Number.ge, heq, hgt]
    omega

section

variable {name : String} (hkey : Memory.binding name = .ok key)
include hkey

theorem write_apply (i : Int) (m : Machine) : memory (Memory.write name (.int i) []) m = .done ⟨⟩ (counterAt key i m) := by
  unfold Memory.write
  rw [hkey]
  rfl

theorem read_apply {i : Int} {m : Machine} (h : m.session.scope.get? key = some (.int i)) :
    memory (Memory.read name []) m = .done (.int i) m := by
  unfold Memory.read
  rw [hkey]
  change Step.done ((m.session.scope.get? key).getD .unbound) m = _
  rw [h]
  rfl

theorem rangeFrom_next (stop : Option Number) (s : Int) (n : Nat) {i : Int} {m : Machine}
    (h : m.session.scope.get? key = some (.int i)) :
    (do let reached ← number (← memory (Memory.read name []))
        rangeFrom (name, []) stop (.int s) body n (← liftE (reached.add (.int s)))) m =
      rangeFrom (name, []) stop (.int s) body n (.int (i + s)) m := by
  have hnumber : number (.int i) m = .done (.int i) m := rfl
  simp only [Run.bind_apply, read_apply hkey h, Step.bind, hnumber, Number.add, liftE_ok]

variable (body) in
theorem rangeFrom_apply (a b s : Int) (n : Nat) (m : Machine) :
    (WithinRange a b s → rangeFrom (name, []) (some (.int b)) (.int s) body (n + 1) (.int a) m =
      (do
        if ← round body then
          let reached ← number (← memory (Memory.read name []))
          rangeFrom (name, []) (some (.int b)) (.int s) body n (← liftE (reached.add (.int s)))) (counterAt key a m)) ∧
    (¬ WithinRange a b s → rangeFrom (name, []) (some (.int b)) (.int s) body (n + 1) (.int a) m =
      .done ⟨⟩ (counterAt key a m)) := by
  have hwrite : memory (Memory.write name (Value.ofNumber (.int a)) []) m = .done ⟨⟩ (counterAt key a m) :=
    write_apply hkey a m
  constructor
  · intro hwithin
    simp only [rangeFrom, Run.bind_apply, hwrite, Step.bind, (withinRange_eq a b s).mpr hwithin, if_true]
  · intro hbeyond
    simp only [rangeFrom, Run.bind_apply, hwrite, Step.bind, mt (withinRange_eq a b s).mp hbeyond]
    rfl

theorem rangeFrom_ends {b s : Int} (hs : s ≠ 0) {fuel : Nat} {a : Int} {m : Machine} (hfuel : rangeCount a b s < fuel)
    (hspares : SparesVariable G body key a s (rangeCount a b s) m) (ending : Step.Ending Machine Signal Unit) :
    (rangeFrom (name, []) (some (.int b)) (.int s) body fuel (.int a) m).Comes (Interlude G) ending ↔
      RangeEnds G body key a s (rangeCount a b s) m ending := by
  induction fuel generalizing a m with
  | zero => exact absurd hfuel (Nat.not_lt_zero _)
  | succ fuel ih =>
    obtain ⟨hwithin, hbeyond⟩ := rangeFrom_apply body hkey a b s fuel m
    by_cases h : WithinRange a b s
    · rw [rangeCount_of_within hs h] at hfuel hspares ⊢
      rw [hwithin h, rangeEnds_succ, Run.comes_bind]
      have hgoOn (m' : Machine) (hc : Completes G body (counterAt key a m) m') :
          ((do let reached ← number (← memory (Memory.read name []))
               rangeFrom (name, []) (some (.int b)) (.int s) body fuel (← liftE (reached.add (.int s)))) m').Comes
            (Interlude G) ending ↔ RangeEnds G body key (a + s) s (rangeCount (a + s) b s) m' ending := by
        have hfirst := hspares 0 _ (Nat.succ_pos _) (starts_zero.mpr rfl)
        have hvar : m'.session.scope.get? key = some (.int a) := by
          rcases hc with hc | hc <;> exact (hfirst _ hc).trans (by simp)
        rw [rangeFrom_next hkey _ _ _ hvar]
        refine ih (Nat.lt_of_succ_lt_succ hfuel) fun j m₂ hj hstarts ending hbody => ?_
        have hlater := hspares (j + 1) m₂ (Nat.succ_lt_succ hj) (starts_succ.mpr ⟨m', hc, hstarts⟩) ending hbody
        rw [hlater]
        refine congrArg (some <| Value.int ·) ?_
        push_cast
        ring
      simp only [round_comes]
      constructor
      · rintro (⟨_, m', ⟨_, hc, ⟨⟩⟩ | ⟨_, hbody, ⟨⟩⟩ | ⟨_, _, _, _, ⟨⟩⟩, hrest⟩ |
          ⟨_, m', ⟨_, _, ⟨⟩⟩ | ⟨_, _, ⟨⟩⟩ | ⟨e, _, hbody, he, ⟨⟩⟩, rfl⟩)
        · exact .inl ⟨m', hc, (hgoOn m' hc).mp hrest⟩
        · cases hrest
          exact .inr (.inl ⟨_, hbody, rfl⟩)
        · exact .inr (.inr ⟨_, _, hbody, he, rfl⟩)
      · rintro (⟨m', hc, hrest⟩ | ⟨m', hbody, rfl⟩ | ⟨e, m', hbody, he, rfl⟩)
        · exact .inl ⟨true, m', .inl ⟨m', hc, rfl⟩, (hgoOn m' hc).mpr hrest⟩
        · exact .inl ⟨false, m', .inr (.inl ⟨m', hbody, rfl⟩), .done _ _⟩
        · exact .inr ⟨e, m', .inr (.inr ⟨e, m', hbody, he, rfl⟩), rfl⟩
    · rw [hbeyond h, rangeCount_of_beyond hs h, rangeEnds_zero]
      constructor
      · rintro ⟨⟩
        rfl
      · rintro rfl
        exact .done _ _

end

/-! ## Loops over a range -/

def atHead (m : Machine) : Machine :=
  { m with session := { m.session with loopDepth := m.session.loopDepth + 1 } }

/-- The state in which a loop has been left behind. -/
def behindLoop (m : Machine) : Machine :=
  { m with session := { m.session with loopDepth := m.session.loopDepth - 1 } }

def Unwithheld (G : World → World → Prop) (p : Place) (m : Machine) : Prop :=
  ∀ e m₁, ¬ (checkpoint p m).Comes (Interlude G) (.fail e m₁)

/-- A loop over a range of integers is about to be executed: its variable is a simple symbol, its head evaluates to
integers, the width of the steps is not zero, and the budget suffices for all rounds. -/
structure IntegerRange (o : Outer) (G : World → World → Prop) (var : Ref) (start : Expr) (stop step : Option Expr)
    (p : Place) (key : String) (a b s : Int) (m : Machine) : Prop where
  simple : var.tail = []
  variable_ : Memory.binding var.name = .ok key
  unwithheld : Unwithheld G p m
  unsent : m.session.dispatcher.match? p.text = none
  head : ∀ m₀, Opens G p m m₀ → ∀ ending, (rangeHead o start stop step (atHead m₀)).Comes (Interlude G) ending →
    ∃ m₁, ending = .done (.int a, some (.int b), .int s) m₁
  steps : s ≠ 0
  budget : rangeCount a b s < o.rounds

/-- The state that the evaluation of the head leaves. -/
def HeadLeaves (o : Outer) (G : World → World → Prop) (start : Expr) (stop step : Option Expr) (p : Place) (a b s : Int)
    (m m₁ : Machine) : Prop :=
  ∃ m₀, Opens G p m m₀ ∧
    (rangeHead o start stop step (atHead m₀)).Comes (Interlude G) (.done (.int a, some (.int b), .int s) m₁)

theorem atPlace_comes {p : Place} {m : Machine} (hunwithheld : Unwithheld G p m)
    (hunsent : m.session.dispatcher.match? p.text = none) (sendable : Bool) (act : Play Unit)
    (ending : Step.Ending Machine Signal Unit) :
    (atPlace p sendable act m).Comes (Interlude G) ending ↔
      ∃ m₀, Opens G p m m₀ ∧ (act m₀).Comes (Interlude G) ending := by
  have hact {m₀ : Machine} (h : Opens G p m m₀) : proceed p sendable act m₀ = act m₀ :=
    proceed_unsent (by rw [h.session]; exact hunsent) sendable act
  constructor
  · intro hc
    rcases Run.comes_bind.mp hc with ⟨_, m₀, hopens, hrest⟩ | ⟨e, m₁, hfails, -⟩
    · exact ⟨m₀, hopens, hact hopens ▸ hrest⟩
    · exact absurd hfails (hunwithheld e m₁)
  · rintro ⟨m₀, hopens, hrest⟩
    rw [← hact hopens] at hrest
    exact Run.comes_bind.mpr (.inl ⟨_, m₀, hopens, hrest⟩)

section

variable {var : Ref} {start : Expr} {stop step : Option Expr} {ss : List Statement} {p : Place} {a b s : Int} {m : Machine}

theorem execRange_comes (h : IntegerRange o G var start stop step p key a b s m)
    (hspares : ∀ m₁, HeadLeaves o G start stop step p a b s m m₁ →
      SparesVariable G (execAll o ss) key a s (rangeCount a b s) m₁) (ending : Step.Ending Machine Signal Unit) :
    (exec o (.loop (.range var start stop step) ss p) m).Comes (Interlude G) ending ↔
      ∃ m₁ ending', HeadLeaves o G start stop step p a b s m m₁ ∧
        RangeEnds G (execAll o ss) key a s (rangeCount a b s) m₁ ending' ∧ ending = ending'.after behindLoop := by
  have hloop (ending : Step.Ending Machine Signal Unit) :
      (exec o (.loop (.range var start stop step) ss p) m).Comes (Interlude G) ending ↔ ∃ m₀, Opens G p m m₀ ∧
        ((loopRange o var start stop step p.line (execAll o ss) (atHead m₀)).leave behindLoop).Comes
          (Interlude G) ending := by
    rw [exec]
    exact atPlace_comes h.unwithheld h.unsent _ _ ending
  have hrange : loopRange o var start stop step p.line (execAll o ss) = (do
      let head ← rangeHead o start stop step
      if head.2.2.isZero then causeAt .zeroStep (some p.line)
      rangeFrom (var.name, []) head.2.1 head.2.2 (execAll o ss) o.rounds head.1) := by
    rw [loopRange_eq, tailOf, h.simple]
    rfl
  have hzero : (Number.int s).isZero = false := by simp [Number.isZero, Number.eq, Number.order?, h.steps]
  simp only [hloop, Step.comes_leave_iff, hrange]
  have hbody (m₁ : Machine) (ending' : Step.Ending Machine Signal Unit) :
      ((do if (Number.int s).isZero then causeAt .zeroStep (some p.line)
           rangeFrom (var.name, []) (some (.int b)) (.int s) (execAll o ss) o.rounds (.int a) : Play Unit) m₁).Comes
        (Interlude G) ending' ↔
      (rangeFrom (var.name, []) (some (.int b)) (.int s) (execAll o ss) o.rounds (.int a) m₁).Comes (Interlude G) ending' := by
    rw [hzero]
    rfl
  constructor
  · rintro ⟨m₀, hopens, ending', hc, rfl⟩
    rcases Run.comes_bind.mp hc with ⟨x, m₁, hhead, hrest⟩ | ⟨e, m₁, hhead, rfl⟩
    · obtain ⟨_, ⟨⟩⟩ := h.head m₀ hopens _ hhead
      have hleaves : HeadLeaves o G start stop step p a b s m m₁ := ⟨m₀, hopens, hhead⟩
      exact ⟨m₁, ending', hleaves, (rangeFrom_ends h.variable_ h.steps h.budget (hspares m₁ hleaves) _).mp
        ((hbody m₁ ending').mp hrest), rfl⟩
    · obtain ⟨_, ⟨⟩⟩ := h.head m₀ hopens _ hhead
  · rintro ⟨m₁, ending', hleaves, hends, rfl⟩
    obtain ⟨m₀, hopens, hhead⟩ := hleaves
    refine ⟨m₀, hopens, ending', Run.comes_bind.mpr (.inl ⟨_, m₁, hhead, (hbody m₁ ending').mpr ?_⟩), rfl⟩
    exact (rangeFrom_ends h.variable_ h.steps h.budget (hspares m₁ ⟨m₀, hopens, hhead⟩) _).mpr hends

/-- A counted loop over integers runs its body once for each number of its range, in their order, with the number in its
variable. If every run of the body is completed, normally or by going on with the next round, all `rangeCount a b s` of
them take place, and the loop ends with the number after the last one in the variable; it comes to no other ending. If the
run for a number leaves the loop, the loop ends there, and the variable keeps that number. Any other ending is that of a
run of the body which is broken off. -/
theorem counted_loop (h : IntegerRange o G var start stop step p key a b s m)
    (hspares : ∀ m₁, HeadLeaves o G start stop step p a b s m m₁ →
      SparesVariable G (execAll o ss) key a s (rangeCount a b s) m₁) :
    ((∀ m₁ j m', HeadLeaves o G start stop step p a b s m m₁ → j < rangeCount a b s →
        Starts G (execAll o ss) key a s m₁ j m' → ∀ ending, (execAll o ss m').Comes (Interlude G) ending →
          ∃ m'', ending = .done ⟨⟩ m'' ∨ ending = .fail .iterate m'') →
      ∀ ending, (exec o (.loop (.range var start stop step) ss p) m).Comes (Interlude G) ending ↔
        ∃ m₁ m₂, HeadLeaves o G start stop step p a b s m m₁ ∧
          Turns G (execAll o ss) key (rangeValues a s (rangeCount a b s)) m₁ m₂ ∧
          ending = .done ⟨⟩ (behindLoop (counterAt key (a + s * rangeCount a b s) m₂))) ∧
    (∀ m₁ j m' m'', HeadLeaves o G start stop step p a b s m m₁ → j < rangeCount a b s →
      Starts G (execAll o ss) key a s m₁ j m' → (execAll o ss m').Comes (Interlude G) (.fail .leave m'') →
        (exec o (.loop (.range var start stop step) ss p) m).Comes (Interlude G) (.done ⟨⟩ (behindLoop m'')) ∧
          (behindLoop m'').session.scope.get? key = some (.int (a + s * j))) ∧
    ∀ ending, (exec o (.loop (.range var start stop step) ss p) m).Comes (Interlude G) ending ↔
      ∃ m₁ ending', HeadLeaves o G start stop step p a b s m m₁ ∧
        RangeEnds G (execAll o ss) key a s (rangeCount a b s) m₁ ending' ∧ ending = ending'.after behindLoop := by
  have hloop := execRange_comes h hspares
  refine ⟨fun hcomplete ending => ?_, fun m₁ j m' m'' hhead hj hstarts hbody => ⟨?_, ?_⟩, hloop⟩
  · rw [hloop]
    constructor
    · rintro ⟨m₁, ending', hhead, hends, rfl⟩
      cases hends with
      | finished hturns => exact ⟨m₁, _, hhead, hturns, rfl⟩
      | left hj hstarts hbody =>
        obtain ⟨_, heq | heq⟩ := hcomplete m₁ _ _ hhead hj hstarts _ hbody <;> cases heq
      | broken hj hstarts hbody he =>
        obtain ⟨_, heq | heq⟩ := hcomplete m₁ _ _ hhead hj hstarts _ hbody
        · cases heq
        · cases heq
          exact absurd trivial he
    · rintro ⟨m₁, m₂, hhead, hturns, rfl⟩
      exact ⟨m₁, _, hhead, .finished hturns, rfl⟩
  · exact (hloop _).mpr ⟨m₁, _, hhead, .left hj hstarts hbody, rfl⟩
  · exact hspares m₁ hhead j m' hj hstarts _ hbody

end

example : (rangeCount 1 7 3, rangeCount 7 1 3, rangeCount 7 1 (-2), rangeCount 5 5 (-1)) = (3, 0, 4, 1) := by decide

/-! ## A loop over numerals -/

def numeral (i : Int) : Expr := .literal (.number (.int i)) ⟨1, 1⟩

theorem headLeaves_numerals {a b s : Int} {p : Place} {m m₁ : Machine} :
    HeadLeaves o G (numeral a) (some (numeral b)) (some (numeral s)) p a b s m m₁ ↔
      ∃ m₀, Opens G p m m₀ ∧ m₁ = atHead m₀ := by
  have hhead (m₀ : Machine) : rangeHead o (numeral a) (some (numeral b)) (some (numeral s)) (atHead m₀) =
      .done (.int a, some (.int b), .int s) (atHead m₀) := rfl
  simp only [HeadLeaves, hhead]
  refine exists_congr fun m₀ => and_congr_right fun _ => ⟨?_, ?_⟩
  · rintro ⟨⟩
    rfl
  · rintro rfl
    exact .done _ _

def Undisturbed (m : Machine) : Prop := m.session.isMain = false ∧ m.session.dispatcher = {}

theorem Undisturbed.unwithheld {p : Place} {m : Machine} (hm : Undisturbed m) : Unwithheld G p m := by
  intro e m₁ hfails
  obtain ⟨m', hpause, h⟩ := checkpoint_comes.mp hfails
  have hlive : (m'.session.isMain && m'.world.cancelled) = false := by
    rw [hpause.session, hm.1]
    rfl
  rw [hlive] at h
  obtain ⟨m'', -, h⟩ := h
  cases h

theorem Undisturbed.opens {p : Place} {m m₀ : Machine} (hm : Undisturbed m) (h : Opens G p m m₀) : Undisturbed m₀ := by
  rw [Undisturbed, h.session]
  exact hm

theorem idle_comes {p : Place} {m : Machine} (hm : Undisturbed m) {ending : Step.Ending Machine Signal Unit} :
    (execAll o [.nop p] m).Comes (Interlude G) ending ↔ ∃ m₀, Opens G p m m₀ ∧ ending = .done ⟨⟩ m₀ := by
  have hnop : execAll o [.nop p] = atPlace p true (return ()) := by
    simp only [execAll, exec]
    exact bind_pure_unit
  have hunsent : m.session.dispatcher.match? p.text = none := by
    rw [hm.2]
    rfl
  rw [hnop, atPlace_comes hm.unwithheld hunsent]
  refine exists_congr fun m₀ => and_congr_right fun _ => ⟨?_, ?_⟩
  · rintro ⟨⟩
    rfl
  · rintro rfl
    exact .done _ _

theorem Starts.idle {p : Place} {a s : Int} {m m' : Machine} {j : Nat} (hm : Undisturbed m)
    (h : Starts G (execAll o [.nop p]) key a s m j m') : Undisturbed m' := by
  obtain ⟨m₁, hturns, rfl⟩ := h
  refine hturns.keeps (fun i m m' hm hc => ?_) hm
  have hidle : Undisturbed (counterAt key i m) := hm
  rcases hc with hc | hc
  · obtain ⟨m₀, hopens, ⟨⟩⟩ := (idle_comes hidle).mp hc
    exact hidle.opens hopens
  · obtain ⟨m₀, -, ⟨⟩⟩ := (idle_comes hidle).mp hc

/-- Counts from one to seven in steps of three. -/
def counting : Statement :=
  .loop (.range ⟨"I", [], ⟨1, 4⟩⟩ (numeral 1) (some (numeral 7)) (some (numeral 3))) [.nop ⟨2, "NOP"⟩]
    ⟨1, "DO I = 1 TO 7 BY 3"⟩

/-- The loop runs its body for 1, 4 and 7, and leaves 10 in its variable. -/
theorem counted_loop_by_threes : ∃ m', (exec (outer 5) counting {}).Comes (Interlude fun _ _ => True) (.done ⟨⟩ m') ∧
    m'.session.scope.get? "I" = some (.int 10) := by
  have hinitial : Undisturbed {} := ⟨rfl, rfl⟩
  have hidle (m₁ : Machine) (hhead : HeadLeaves (outer 5) (fun _ _ => True) (numeral 1) (some (numeral 7))
      (some (numeral 3)) ⟨1, "DO I = 1 TO 7 BY 3"⟩ 1 7 3 {} m₁) : Undisturbed m₁ := by
    obtain ⟨m₀, hopens, rfl⟩ := headLeaves_numerals.mp hhead
    have hopened : Undisturbed m₀ := hinitial.opens hopens
    exact hopened
  have hrange : IntegerRange (outer 5) (fun _ _ => True) ⟨"I", [], ⟨1, 4⟩⟩ (numeral 1) (some (numeral 7)) (some (numeral 3))
      ⟨1, "DO I = 1 TO 7 BY 3"⟩ "I" 1 7 3 {} := by
    refine ⟨rfl, congrArg Except.ok (by decide +kernel), hinitial.unwithheld, rfl, ?_, by decide, by decide⟩
    rintro m₀ - _ ⟨⟩
    exact ⟨_, rfl⟩
  have hspares (m₁ : Machine) (hhead : HeadLeaves (outer 5) (fun _ _ => True) (numeral 1) (some (numeral 7))
      (some (numeral 3)) ⟨1, "DO I = 1 TO 7 BY 3"⟩ 1 7 3 {} m₁) :
      SparesVariable (fun _ _ => True) (execAll (outer 5) [.nop ⟨2, "NOP"⟩]) "I" 1 3 (rangeCount 1 7 3) m₁ := by
    intro j m' _ hstarts ending hc
    obtain ⟨m₀, hopens, rfl⟩ := (idle_comes (hstarts.idle (hidle m₁ hhead))).mp hc
    obtain ⟨m₂, -, rfl⟩ := hstarts
    change m₀.session.scope.get? "I" = _
    rw [hopens.session]
    exact counterAt_get? _ _ m₂
  have hloop := counted_loop hrange hspares
  have hcomes := hloop.1 fun m₁ j m' hhead _ hstarts ending hc => by
    obtain ⟨m₀, -, rfl⟩ := (idle_comes (hstarts.idle (hidle m₁ hhead))).mp hc
    exact ⟨_, .inl rfl⟩
  have hopens : Opens (fun _ _ => True) ⟨1, "DO I = 1 TO 7 BY 3"⟩ {} (underway ⟨1, "DO I = 1 TO 7 BY 3"⟩ {}) :=
    (opens_of_poised (by decide)).mpr rfl
  have hturns : ∃ m₂, Turns (fun _ _ => True) (execAll (outer 5) [.nop ⟨2, "NOP"⟩]) "I" [1, 4, 7]
      (atHead (underway ⟨1, "DO I = 1 TO 7 BY 3"⟩ {})) m₂ :=
    ⟨_, .cons (.inl (.done _ _)) (.cons (.inl (.done _ _)) (.cons (.inl (.done _ _)) (.nil _)))⟩
  obtain ⟨m₂, hturns⟩ := hturns
  exact ⟨_, (hcomes _).mpr ⟨_, m₂, headLeaves_numerals.mpr ⟨_, hopens, rfl⟩, hturns, rfl⟩, counterAt_get? "I" _ m₂⟩

end Play

end Conductor
