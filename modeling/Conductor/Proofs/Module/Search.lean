import Conductor.Module.Loader
import Mathlib.Data.List.Chain
import Mathlib.Logic.Relation

/-!
# The search for a way back

The search by breadth finds a path exactly when there is one. A path that it finds
follows the edges from the start to a target. When it finds none, the locations that
were seen are closed under the edges and hold no target. The bound on its rounds is
never felt: a round takes one path off the queue, and what it puts on the queue are
ends of edges that had not been seen.
-/

set_option autoImplicit false

namespace Conductor.Module

open Relation (ReflTransGen)

/-- An edge of the graph, read off its table. -/
def Along (edges : Table String (List String)) (a b : String) : Prop := b ∈ (edges.get? a).getD []

namespace Loader

variable {edges : Table String (List String)} {targets : List String}

theorem mem_sorted {names : List String} {x : String} : x ∈ Text.sorted names ↔ x ∈ names :=
  (List.mergeSort_perm names _).mem_iff

def unseen (edges : Table String (List String)) (seen : List String) (x : String) : List String :=
  (Text.sorted ((edges.get? x).getD [])).filter fun n => !seen.contains n

theorem mem_unseen {seen : List String} {x y : String} :
    y ∈ unseen edges seen x ↔ Along edges x y ∧ y ∉ seen := by
  simp [unseen, Along, mem_sorted]

theorem searchFrom_succ (fuel : Nat) (seen path : List String) (queue : List (List String)) :
    searchFrom edges targets (fuel + 1) seen (path :: queue) =
      if targets.contains (path.headD "") then some path.reverse
      else searchFrom edges targets fuel (seen ++ unseen edges seen (path.headD ""))
        (queue ++ (unseen edges seen (path.headD "")).map (· :: path)) := rfl

/-! ## Found paths -/

def Trail (edges : Table String (List String)) (start : String) (path : List String) : Prop :=
  path.getLast? = some start ∧ path.IsChain fun a b => Along edges b a

theorem trail_cons {start x : String} {path : List String} (h : Trail edges start path)
    (hx : Along edges (path.headD "") x) : Trail edges start (x :: path) := by
  obtain ⟨hlast, hchain⟩ := h
  cases path with
  | nil => simp at hlast
  | cons y rest => exact ⟨by simpa using hlast, List.isChain_cons_cons.mpr ⟨hx, hchain⟩⟩

theorem searchFrom_some (start : String) (fuel : Nat) (seen : List String) (queue : List (List String))
    (hqueue : ∀ p ∈ queue, Trail edges start p) {path : List String}
    (h : searchFrom edges targets fuel seen queue = some path) :
    path.head? = some start ∧ path.IsChain (Along edges) ∧ ∃ b ∈ targets, path.getLast? = some b := by
  induction fuel generalizing seen queue with
  | zero => simp [searchFrom] at h
  | succ fuel ih =>
    cases queue with
    | nil => simp [searchFrom] at h
    | cons p rest =>
      have hp := hqueue p (by simp)
      rw [searchFrom_succ] at h
      split at h
      · rename_i htarget
        obtain rfl : p.reverse = path := by simpa using h
        cases p with
        | nil => simp [Trail] at hp
        | cons x xs =>
          refine ⟨by rw [List.head?_reverse]; exact hp.1, List.isChain_reverse.mpr hp.2, x, by simpa using htarget, by simp⟩
      · refine ih _ _ ?_ h
        intro q hq
        rcases List.mem_append.mp hq with hq | hq
        · exact hqueue q (by simp [hq])
        · obtain ⟨x, hx, rfl⟩ := List.mem_map.mp hq
          exact trail_cons hp (mem_unseen.mp hx).1

/-! ## Searches in vain -/

def unseenCount (edges : Table String (List String)) (seen : List String) : Nat :=
  (edges.flatMap Prod.snd).countP fun n => !seen.contains n

theorem get?_sublist {x : String} : ((edges.get? x).getD []).Sublist (edges.flatMap Prod.snd) := by
  induction edges with
  | nil => simp [Table.get?]
  | cons e rest ih =>
    by_cases he : e.1 == x
    · simp [Table.get?, he]
    · simpa [Table.get?, he] using ih.trans (List.sublist_append_right _ _)

theorem unseenCount_append (edges : Table String (List String)) (seen : List String) (x : String) :
    unseenCount edges (seen ++ unseen edges seen x) + (unseen edges seen x).length ≤ unseenCount edges seen := by
  have hsplit := List.countP_eq_countP_filter_add (edges.flatMap Prod.snd) (fun n => !seen.contains n)
    (fun n => (unseen edges seen x).contains n)
  have hold : unseenCount edges (seen ++ unseen edges seen x) = ((edges.flatMap Prod.snd).filter
      (fun n => !(unseen edges seen x).contains n)).countP (fun n => !seen.contains n) := by
    rw [unseenCount, List.countP_filter]
    congr 1
    funext n
    simp
  have hnew : (unseen edges seen x).length ≤ ((edges.flatMap Prod.snd).filter
      (fun n => (unseen edges seen x).contains n)).countP (fun n => !seen.contains n) := by
    have hlen : (unseen edges seen x).length = ((edges.get? x).getD []).countP (fun n => !seen.contains n) := by
      rw [unseen, ← List.countP_eq_length_filter]
      exact (List.mergeSort_perm _ _).countP_eq _
    have hsame : ((edges.get? x).getD []).countP (fun n => !seen.contains n) =
        ((edges.get? x).getD []).countP (fun n => !seen.contains n && (unseen edges seen x).contains n) := by
      apply List.countP_congr
      intro n hn
      have : n ∈ unseen edges seen x ↔ n ∉ seen := by simp [mem_unseen, Along, hn]
      simp [this]
    rw [hlen, hsame, List.countP_filter]
    exact get?_sublist.countP_le
  rw [hold]
  change _ ≤ (edges.flatMap Prod.snd).countP (fun n => !seen.contains n)
  omega

def Settled (edges : Table String (List String)) (targets seen : List String) (queue : List (List String)) : Prop :=
  ∀ x ∈ seen, (∃ p ∈ queue, p.headD "" = x) ∨ x ∉ targets ∧ ∀ y, Along edges x y → y ∈ seen

theorem settled_step {seen path : List String} {queue : List (List String)}
    (h : Settled edges targets seen (path :: queue)) (hpath : path.headD "" ∉ targets) :
    Settled edges targets (seen ++ unseen edges seen (path.headD ""))
      (queue ++ (unseen edges seen (path.headD "")).map (· :: path)) := by
  have hsucc : ∀ y, Along edges (path.headD "") y → y ∈ seen ++ unseen edges seen (path.headD "") := by
    intro y hy
    by_cases hs : y ∈ seen
    · exact List.mem_append_left _ hs
    · exact List.mem_append_right _ (mem_unseen.mpr ⟨hy, hs⟩)
  intro x hx
  rcases List.mem_append.mp hx with hx | hx
  · rcases h x hx with ⟨p, hp, hpx⟩ | ⟨ht, hclosed⟩
    · rcases List.mem_cons.mp hp with rfl | hp
      · subst hpx
        exact Or.inr ⟨hpath, hsucc⟩
      · exact Or.inl ⟨p, List.mem_append_left _ hp, hpx⟩
    · exact Or.inr ⟨ht, fun y hy => List.mem_append_left _ (hclosed y hy)⟩
  · refine Or.inl ⟨x :: path, List.mem_append_right _ (List.mem_map.mpr ⟨x, hx, rfl⟩), rfl⟩

theorem searchFrom_none (fuel : Nat) (seen : List String) (queue : List (List String))
    (hsettled : Settled edges targets seen queue) (hfuel : queue.length + unseenCount edges seen < fuel)
    (h : searchFrom edges targets fuel seen queue = none) :
    ∀ x ∈ seen, ∀ y, ReflTransGen (Along edges) x y → y ∉ targets := by
  induction fuel generalizing seen queue with
  | zero => omega
  | succ fuel ih =>
    cases queue with
    | nil =>
      intro x hx y hxy
      have hy : y ∈ seen := by
        induction hxy with
        | refl => exact hx
        | tail _ hbc ihb =>
          rcases hsettled _ ihb with ⟨p, hp, -⟩ | ⟨-, hclosed⟩
          · simp at hp
          · exact hclosed _ hbc
      rcases hsettled y hy with ⟨p, hp, -⟩ | ⟨ht, -⟩
      · simp at hp
      · exact ht
    | cons p rest =>
      rw [searchFrom_succ] at h
      split at h
      · simp at h
      · rename_i htarget
        have hround := unseenCount_append edges seen (p.headD "")
        intro x hx
        refine ih _ _ (settled_step hsettled (by simpa using htarget)) ?_ h x (List.mem_append_left _ hx)
        simp only [List.length_append, List.length_map, List.length_cons] at hfuel ⊢
        omega

/-! ## The whole search -/

variable {l : Loader} {start : String}

theorem pathTo?_some {path : List String} (h : l.pathTo? start targets = some path) :
    path.head? = some start ∧ path.IsChain (Along l.edges) ∧ ∃ b ∈ targets, path.getLast? = some b :=
  searchFrom_some start _ _ _ (by simp [Trail]) h

/-- The bound of the search is larger than the number of rounds that it can take. -/
theorem rounds_lt (edges : Table String (List String)) (start : String) :
    ([[start]] : List (List String)).length + unseenCount edges [start] <
      (edges.map fun e => e.2.length + 1).foldl (· + ·) 0 + 2 := by
  have hsize : (edges.flatMap Prod.snd).length ≤ (edges.map fun e => e.2.length + 1).foldl (· + ·) 0 := by
    rw [← List.sum_eq_foldl, List.length_flatMap]
    induction edges with
    | nil => simp
    | cons e rest ih => simp only [List.map_cons, List.sum_cons]; omega
  have hcount := List.countP_le_length (p := fun n => !([start] : List String).contains n)
    (l := edges.flatMap Prod.snd)
  simp only [unseenCount, List.length_cons, List.length_nil]
  omega

theorem settled_start : Settled edges targets [start] [[start]] :=
  fun _ hx => .inl ⟨[start], List.mem_singleton.mpr rfl, (List.mem_singleton.mp hx).symm⟩

theorem pathTo?_none (h : l.pathTo? start targets = none) :
    ∀ y, ReflTransGen (Along l.edges) start y → y ∉ targets :=
  searchFrom_none _ _ _ settled_start (rounds_lt l.edges start) h start (List.mem_singleton.mpr rfl)

theorem pathTo?_isSome_iff :
    (l.pathTo? start targets).isSome ↔ ∃ b ∈ targets, ReflTransGen (Along l.edges) start b := by
  constructor
  · intro h
    obtain ⟨path, hpath⟩ := Option.isSome_iff_exists.mp h
    obtain ⟨hhead, hchain, b, hb, hlast⟩ := pathTo?_some hpath
    cases path with
    | nil => simp at hhead
    | cons x rest =>
      obtain rfl : x = start := by simpa using hhead
      refine ⟨b, hb, List.relationReflTransGen_of_exists_isChain_cons rest hchain ?_⟩
      rw [List.getLast?_eq_some_getLast (List.cons_ne_nil _ _)] at hlast
      exact Option.some.inj hlast
  · rintro ⟨b, hb, hreach⟩
    by_contra hnone
    exact pathTo?_none (Option.not_isSome_iff_eq_none.mp hnone) b hreach hb

end Loader

end Conductor.Module
