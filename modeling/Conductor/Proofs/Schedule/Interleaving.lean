import Conductor.Run.Schedule
import Mathlib.Logic.Relation

/-!
# Every order of turns

The queue of a schedule may be served in any order, not only from its front. The
states that can be reached so are those of every interleaving of the tasks' turns. A
ticket belongs to the task in whose turn it was drawn. Main facts: a turn takes one
place of the served task away and moves the places of the others without losing or
doubling any, and news goes exactly to those who wait for a load that the turn settled.
-/

set_option autoImplicit false

namespace Conductor

def Turn.index : Turn → Nat
  | .task i => i
  | .news i => i

namespace Schedule

variable {α : Type}

/-- One of the queue is served, whichever. -/
inductive Serves (s : Schedule α) : Turn → Schedule α → Prop
  | serve {turn : Turn} (rest : List Turn) (h : s.ready.Perm (turn :: rest)) :
    Serves s turn ({ s with ready := turn :: rest } : Schedule α).step

def credit (s s' : Schedule α) (i : Nat) (owner : Nat → Option Nat) (ticket : Nat) : Option Nat :=
  if s.world.loader.tickets ≤ ticket ∧ ticket < s'.world.loader.tickets then some i else owner ticket

/-- The states that some order of turns leads to, each with the owners of the tickets drawn so far. -/
inductive Reaches (s₀ : Schedule α) : Schedule α → (Nat → Option Nat) → Prop
  | start : Reaches s₀ s₀ fun _ => none
  | turn {s s' : Schedule α} {owner : Nat → Option Nat} {turn : Turn} (h : Reaches s₀ s owner)
      (hs : Serves s turn s') : Reaches s₀ s' (credit s s' turn.index owner)

/-- The states that some order of turns leads to when tasks may also be interrupted, wherever they wait. -/
inductive Arrives (s₀ : Schedule α) : Schedule α → (Nat → Option Nat) → Prop
  | start : Arrives s₀ s₀ fun _ => none
  | turn {s s' : Schedule α} {owner : Nat → Option Nat} {turn : Turn} (h : Arrives s₀ s owner)
      (hs : Serves s turn s') : Arrives s₀ s' (credit s s' turn.index owner)
  | interruption {s : Schedule α} {owner : Nat → Option Nat} (h : Arrives s₀ s owner) (i : Nat) :
      Arrives s₀ (s.interrupt i) owner

theorem Reaches.arrives {s₀ s : Schedule α} {owner : Nat → Option Nat} (h : Reaches s₀ s owner) : Arrives s₀ s owner := by
  induction h with
  | start => exact .start
  | turn _ hs ih => exact ih.turn hs

def Unfinished (s : Schedule α) (i : Nat) : Prop := s.results[i]? = some none

def Blocked (s : Schedule α) (i : Nat) : Prop := ∃ ticket, (ticket, i) ∈ s.waiting

/-- One task waits for a load that another has under way. -/
def WaitsFor (s : Schedule α) (owner : Nat → Option Nat) (i j : Nat) : Prop :=
  ∃ ticket, (ticket, i) ∈ s.waiting ∧ owner ticket = some j

/-- Serving the queue from its front is one of the orders. -/
theorem serves_step {s : Schedule α} {turn : Turn} {rest : List Turn} (h : s.ready = turn :: rest) :
    Serves s turn s.step := by
  have hs : ({ s with ready := turn :: rest } : Schedule α) = s := by rw [← h]
  have hserve : Serves s turn ({ s with ready := turn :: rest } : Schedule α).step := .serve rest (by rw [h])
  rwa [hs] at hserve

theorem reaches_serve (s : Schedule α) (n : Nat) : ∃ owner, Reaches s (s.serve n) owner := by
  have hgo : ∀ n (s' : Schedule α) owner, Reaches s s' owner → ∃ owner', Reaches s (s'.serve n) owner' := by
    intro n
    induction n with
    | zero => exact fun s' owner h => ⟨owner, h⟩
    | succ n ih =>
      intro s' owner h
      unfold serve
      cases hready : s'.ready with
      | nil => exact ⟨owner, by simpa using h⟩
      | cons turn rest => simpa using ih s'.step _ (h.turn (serves_step hready))
  exact hgo n s _ .start

def places (s : Schedule α) : List Nat := s.ready.map Turn.index ++ s.waiting.map Prod.snd

/-! ## News -/

def settledBy (known : Nat) (w : World) : List Nat := (w.loader.outcomes.drop known).map Prod.fst

theorem flatMap_filter_perm {β : Type} {keys : List Nat} (hkeys : keys.Nodup) (xs : List (Nat × β)) :
    (keys.flatMap fun k => xs.filter fun e => e.1 == k).Perm (xs.filter fun e => keys.contains e.1) := by
  induction keys with
  | nil => simp
  | cons k rest ih =>
    obtain ⟨hk, hrest⟩ := List.nodup_cons.mp hkeys
    have hsplit := List.filter_append_perm (fun e : Nat × β => e.1 == k)
      (xs.filter fun e => (k :: rest).contains e.1)
    rw [List.filter_filter, List.filter_filter] at hsplit
    have hfirst : (xs.filter fun e => (e.1 == k) && (k :: rest).contains e.1) = xs.filter fun e => e.1 == k := by
      refine List.filter_congr fun e _ => ?_
      by_cases he : e.1 = k <;> simp [he]
    have hsecond : (xs.filter fun e => (!(e.1 == k)) && (k :: rest).contains e.1) =
        xs.filter fun e => rest.contains e.1 := by
      refine List.filter_congr fun e _ => ?_
      by_cases he : e.1 = k
      · simp [he, hk]
      · simp [he]
    rw [hfirst, hsecond] at hsplit
    rw [List.flatMap_cons]
    exact ((ih hrest).append_left _).trans hsplit

variable {s : Schedule α} {known : Nat} {w : World}

theorem mem_spread_waiting {e : Nat × Nat} :
    e ∈ (s.spread known w).waiting ↔ e ∈ s.waiting ∧ e.1 ∉ settledBy known w := by
  simp [spread, settledBy]

theorem mem_spread_ready {turn : Turn} :
    turn ∈ (s.spread known w).ready ↔ turn ∈ s.ready ∨
      ∃ t i, turn = .news i ∧ (t, i) ∈ s.waiting ∧ t ∈ settledBy known w := by
  simp only [spread, List.mem_append, List.mem_flatMap, List.mem_map, List.mem_filter, settledBy]
  refine or_congr_right ⟨?_, ?_⟩
  · rintro ⟨t, ht, e, ⟨he, het⟩, rfl⟩
    obtain rfl : e.1 = t := by simpa using het
    exact ⟨e.1, e.2, rfl, he, ht⟩
  · rintro ⟨t, i, rfl, he, ht⟩
    exact ⟨t, ht, (t, i), ⟨he, by simp⟩, rfl⟩

theorem places_spread (h : (settledBy known w).Nodup) : (s.spread known w).places.Perm s.places := by
  have hnews : (((settledBy known w).flatMap fun ticket =>
      (s.waiting.filter fun e => e.1 == ticket).map fun e => Turn.news e.2).map Turn.index) =
      ((settledBy known w).flatMap fun ticket => s.waiting.filter fun e => e.1 == ticket).map Prod.snd := by
    simp only [List.map_flatMap, List.map_map]
    rfl
  have hperm := (flatMap_filter_perm h s.waiting).map Prod.snd
  have hsplit := (List.filter_append_perm (fun e : Nat × Nat => (settledBy known w).contains e.1) s.waiting).map Prod.snd
  rw [List.map_append] at hsplit
  unfold places
  show (List.map Turn.index (s.ready ++ _) ++ List.map Prod.snd (s.waiting.filter _)).Perm _
  rw [List.map_append, List.append_assoc]
  refine List.Perm.append_left _ ?_
  rw [← hnews] at hperm
  exact (hperm.append_right _).trans hsplit

/-! ## What a turn does -/

def handOver (s : Schedule α) (rest : List Turn) (w : World) : Schedule α :=
  ({ s with ready := rest } : Schedule α).spread s.world.loader.outcomes.length w

theorem places_handOver {i : Nat} {rest : List Turn} (hready : s.ready.Perm (.task i :: rest))
    (hkeys : (settledBy s.world.loader.outcomes.length w).Nodup) : (i :: (s.handOver rest w).places).Perm s.places := by
  refine ((places_spread hkeys).cons i).trans ?_
  exact ((hready.map Turn.index).append_right (s.waiting.map Prod.snd)).symm

section Steps

variable {s' : Schedule α} {i : Nat} {rest : List Turn} {task : Task α} {m : Machine}

theorem mem_places_of_turn (hready : s.ready.Perm (.task i :: rest)) : i ∈ s.places :=
  List.mem_append_left _ (List.mem_map.mpr ⟨_, hready.symm.subset List.mem_cons_self, rfl⟩)

theorem places_queued (hready : s'.ready = s.ready ++ [.task i]) (hwaiting : s'.waiting = s.waiting) :
    s'.places.Perm (i :: s.places) := by
  rw [places, places, hready, hwaiting, List.map_append, List.append_assoc]
  exact List.perm_middle

theorem places_parked {t : Nat} (hready : s'.ready = s.ready) (hwaiting : s'.waiting = s.waiting ++ [(t, i)]) :
    s'.places.Perm (i :: s.places) := by
  rw [places, places, hready, hwaiting, List.map_append, ← List.append_assoc]
  exact List.perm_append_singleton i _

theorem step_done {a : α} (htask : s.tasks[i]? = some task)
    (hrun : task.next ⟨task.session, s.world⟩ = .done a m) :
    ({ s with ready := .task i :: rest } : Schedule α).step = (s.handOver rest m.world).finish i (.ok a) := by
  simp only [step, htask, hrun, handOver]

theorem step_fail {e : Signal} (htask : s.tasks[i]? = some task)
    (hrun : task.next ⟨task.session, s.world⟩ = .fail e m) :
    ({ s with ready := .task i :: rest } : Schedule α).step = (s.handOver rest m.world).finish i (.error e) := by
  simp only [step, htask, hrun, handOver]

theorem step_turn {resume : Option Signal → Machine → Step Machine Signal α} (htask : s.tasks[i]? = some task)
    (hrun : task.next ⟨task.session, s.world⟩ = .wait .turn m resume) :
    ({ s with ready := .task i :: rest } : Schedule α).step = { s.handOver rest m.world with
      tasks := s.tasks.setIfInBounds i ⟨m.session, resume none⟩
      handlers := s.handlers.setIfInBounds i fun e => resume (some e)
      ready := (s.handOver rest m.world).ready ++ [.task i] } := by
  simp only [step, htask, hrun, handOver]
  rfl

theorem step_load {resume : Option Signal → Machine → Step Machine Signal α} {t : Nat} (htask : s.tasks[i]? = some task)
    (hrun : task.next ⟨task.session, s.world⟩ = .wait (.load t) m resume) :
    ({ s with ready := .task i :: rest } : Schedule α).step = { s.handOver rest m.world with
      tasks := s.tasks.setIfInBounds i ⟨m.session, resume none⟩
      handlers := s.handlers.setIfInBounds i fun e => resume (some e)
      waiting := (s.handOver rest m.world).waiting ++ [(t, i)] } := by
  simp only [step, htask, hrun, handOver]
  rfl

end Steps

/-! ## What an interruption does -/

/-- A task that has not ended is interrupted. -/
structure Interrupts (s : Schedule α) (i : Nat) (task : Task α) (raise : Signal → Play α) : Prop where
  held : s.tasks[i]? = some task
  handled : s.handlers[i]? = some raise
  unfinished : s.results[i]? = some none
  eq : s.interrupt i = { s with
    tasks := s.tasks.setIfInBounds i { task with next := raise Signal.interruption }
    ready := s.ready ++ (s.waiting.filter fun e => e.2 == i).map fun e => .task e.2
    waiting := s.waiting.filter fun e => e.2 != i }

theorem interrupts_or (s : Schedule α) (i : Nat) : (∃ task raise, Interrupts s i task raise) ∨
    s.interrupt i = s ∧ ∀ task raise, s.tasks[i]? = some task → s.handlers[i]? = some raise → s.results[i]? ≠ some none := by
  rw [interrupt]
  split
  · next task raise htask hraise hresult =>
    refine .inl ⟨task, raise, htask, hraise, hresult, ?_⟩
    simp only [interrupt, htask, hraise, hresult]
  · next hnone => exact .inr ⟨rfl, fun task raise htask hraise => hnone task raise htask hraise⟩

theorem world_interrupt (s : Schedule α) (i : Nat) : (s.interrupt i).world = s.world := by
  rcases interrupts_or s i with ⟨task, raise, h⟩ | ⟨heq, -⟩
  · rw [h.eq]
  · rw [heq]

theorem places_interrupt (s : Schedule α) (i : Nat) : (s.interrupt i).places.Perm s.places := by
  rcases interrupts_or s i with ⟨task, raise, h⟩ | ⟨heq, -⟩
  · rw [h.eq]
    have hsplit := (List.filter_append_perm (fun e : Nat × Nat => e.2 == i) s.waiting).map Prod.snd
    simp only [List.map_append] at hsplit
    simp only [places, List.map_append, List.append_assoc, List.map_map]
    exact List.Perm.append_left _ hsplit
  · rw [heq]

end Schedule

end Conductor
