import Conductor.Proofs.Schedule.Steady
import Mathlib.Data.Fintype.Card
import Mathlib.Data.Fintype.EquivFin
import Mathlib.Order.WellFounded

/-!
# Loads never lock each other out

However the turns of the tasks are ordered, and whatever graph the modules form, no
task waits, through others, for itself: a task whose wait would close a circle finds
the way back to its own stack and reports a cycle instead. So while a task is
unfinished, one of the unfinished tasks can go on.
-/

set_option autoImplicit false

namespace Conductor

open Conductor.Module
open Relation (TransGen)

namespace Schedule

variable {w : World} {requests : List Request} {s : Schedule (Table String Entry)} {owner : Nat → Option Nat}
  {act : Nat → Activity} {T : Judgment w}

def anyModule (w : World) (requests : List Request)
    (hhost : ∀ r l, Asked w requests r → target w r = .ok l → l.language = .host) : Judgment w where
  asked := Asked w requests
  edge _ _ := True
  fine _ _ := True
  flawed _ := True
  needs _ _ := False
  closed := Asked.next
  host := hhost _ _
  edge_intro _ _ _ _ := trivial
  flawed_back _ _ := trivial
  flawed_cycle _ := trivial
  flawed_self _ _ _ := trivial
  flawed_astray _ _ _ _ := trivial
  flawed_web _ _ _ _ := trivial
  fine_intro _ _ _ _ _ _ _ := trivial
  needs_intro _ _ h := h.elim

/-! ## Who waits for whom -/

theorem Steady.awaits {i j : Nat} (h : Steady T requests s owner act) (hij : WaitsFor s owner i j) :
    Awaits act i j := by
  obtain ⟨t, hi, hj⟩ := hij
  obtain ⟨hnone, a, ha⟩ := h.waits t i hi
  rcases h.orderly.awaited i a t ha with hanswered | ⟨k, hk⟩
  · rw [Answered, hnone] at hanswered
    exact hanswered.elim
  · obtain rfl : k = j := Option.some.inj ((h.owned k _ hk).symm.trans hj)
    exact ⟨(a, t), ha, hk⟩

theorem Steady.acyclic (h : Steady T requests s owner act) (i : Nat) : ¬ TransGen (WaitsFor s owner) i i :=
  fun hi => h.orderly.acyclic i (TransGen.mono (fun _ _ hij => h.awaits hij) _ _ hi)

theorem Steady.waitsFor_unfinished {i : Nat} (h : Steady T requests s owner act) (hi : Blocked s i) :
    ∃ j, WaitsFor s owner i j ∧ s.Unfinished j := by
  obtain ⟨t, hi⟩ := hi
  obtain ⟨hnone, a, ha⟩ := h.waits t i hi
  rcases h.orderly.awaited i a t ha with hanswered | ⟨j, hj⟩
  · rw [Answered, hnone] at hanswered
    exact hanswered.elim
  · refine ⟨j, ⟨t, hi, h.owned j _ hj⟩, ?_⟩
    by_contra hfinished
    rw [h.idle j hfinished] at hj
    simp at hj

theorem exists_unblocked {R : Nat → Nat → Prop} {P : Nat → Prop} {n : Nat} (hP : ∀ i, P i → i < n)
    (hacyclic : ∀ i, ¬ TransGen R i i) (hsome : ∃ i, P i) : ∃ i, P i ∧ ∀ j, P j → ¬ R i j := by
  obtain ⟨i₀, hi₀⟩ := hsome
  let Q : Fin n → Fin n → Prop := fun a b => TransGen R b.1 a.1
  have hwf : WellFounded Q := by
    have : IsTrans (Fin n) Q := ⟨fun a b c hab hbc => hbc.trans hab⟩
    have : Std.Irrefl Q := ⟨fun a => hacyclic a.1⟩
    exact Finite.wellFounded_of_trans_of_irrefl Q
  obtain ⟨i, hi, hmin⟩ := hwf.has_min {a : Fin n | P a.1} ⟨⟨i₀, hP i₀ hi₀⟩, hi₀⟩
  exact ⟨i.1, hi, fun j hj hij => hmin ⟨j, hP j hj⟩ hj (.single hij)⟩

theorem Steady.exists_ready (h : Steady T requests s owner act) (hsome : ∃ i, s.Unfinished i) :
    ∃ i, s.Unfinished i ∧ ¬ Blocked s i ∧ (Turn.task i ∈ s.ready ∨ Turn.news i ∈ s.ready) := by
  have hlt : ∀ i, s.Unfinished i → i < s.results.size :=
    fun i hi => (Array.getElem?_eq_some_iff.mp hi).1
  obtain ⟨i, hi, hfree⟩ := exists_unblocked hlt h.acyclic hsome
  have hunblocked : ¬ Blocked s i := by
    intro hblocked
    obtain ⟨j, hij, hj⟩ := h.waitsFor_unfinished hblocked
    exact hfree j hj hij
  refine ⟨i, hi, hunblocked, ?_⟩
  rcases List.mem_append.mp ((h.placed i).mpr hi) with hready | hwaiting
  · obtain ⟨turn, hturn, rfl⟩ := List.mem_map.mp hready
    cases turn with
    | task i => exact Or.inl hturn
    | news i => exact Or.inr hturn
  · obtain ⟨⟨t, j⟩, he, rfl⟩ := List.mem_map.mp hwaiting
    exact absurd ⟨t, he⟩ hunblocked

def entwined : World :=
  { loader := { sources := some [
      ("http://h/a.py", .module { requires := some (.list [.text "b.py"]) }),
      ("http://h/b.py", .module { requires := some (.list [.text "a.py"]) })] } }

end Schedule

end Conductor
