import Conductor.Proofs.Module.Search
import Mathlib.Data.List.Nodup

/-!
# The nearest target

The search by breadth goes through the locations in the order of their distances from the start. Each round begins with
paths of one length at the front of the queue and paths that are longer by one edge behind them; all that is as near as
the front has been seen, and no target is nearer. So a path that the search finds is a shortest one, and as a location is
put on the queue only once, no path meets a location twice.
-/

set_option autoImplicit false

namespace Conductor.Module

open Relation (ReflTransGen)

/-- A way along the edges from a location to one of the targets. -/
structure Way (edges : Table String (List String)) (start : String) (targets path : List String) : Prop where
  starts : path.head? = some start
  follows : path.IsChain (Along edges)
  ends : ∃ b ∈ targets, path.getLast? = some b

/-- A location to which so many edges lead. -/
inductive Distant (edges : Table String (List String)) (start : String) : Nat → String → Prop
  | here : Distant edges start 0 start
  | further {n : Nat} {a b : String} (h : Distant edges start n a) (hab : Along edges a b) :
      Distant edges start (n + 1) b

variable {edges : Table String (List String)} {targets : List String} {start : String}

theorem distant_of_isChain {k : Nat} {a b : String} {path : List String} (ha : Distant edges start k a)
    (hchain : (a :: path).IsChain (Along edges)) (hlast : (a :: path).getLast? = some b) :
    Distant edges start (k + path.length) b := by
  induction path generalizing a k with
  | nil =>
    obtain rfl : a = b := by simpa using hlast
    exact ha
  | cons c path ih =>
    obtain ⟨hac, hrest⟩ := List.isChain_cons_cons.mp hchain
    have hb := ih (ha.further hac) hrest (by simpa using hlast)
    rwa [Nat.add_right_comm, Nat.add_assoc] at hb

theorem Way.distant {path : List String} (h : Way edges start targets path) :
    ∃ k, path.length = k + 1 ∧ ∃ b ∈ targets, Distant edges start k b := by
  obtain ⟨hstart, hchain, b, hb, hlast⟩ := h
  cases path with
  | nil => cases hstart
  | cons a path =>
    cases hstart
    have hdistant := distant_of_isChain .here hchain hlast
    rw [Nat.zero_add] at hdistant
    exact ⟨path.length, rfl, b, hb, hdistant⟩

namespace Loader

/-! ## The rounds of the search -/

/-- The search as its rounds go, with no bound on their number: it ends with the queue, or at a path to a target, and
otherwise goes on with the paths that are longer by an edge to what has not been seen. -/
inductive Searches (edges : Table String (List String)) (targets : List String) :
    List String → List (List String) → Option (List String) → Prop
  | exhausted {seen : List String} : Searches edges targets seen [] none
  | found {seen path : List String} {queue : List (List String)} (h : path.headD "" ∈ targets) :
      Searches edges targets seen (path :: queue) (some path.reverse)
  | onward {seen path : List String} {queue : List (List String)} {result : Option (List String)}
      (h : path.headD "" ∉ targets)
      (rest : Searches edges targets (seen ++ unseen edges seen (path.headD ""))
        (queue ++ (unseen edges seen (path.headD "")).map (· :: path)) result) :
      Searches edges targets seen (path :: queue) result

theorem searchFrom_searches (fuel : Nat) (seen : List String) (queue : List (List String))
    (hfuel : queue.length + unseenCount edges seen < fuel) :
    Searches edges targets seen queue (searchFrom edges targets fuel seen queue) := by
  induction fuel generalizing seen queue with
  | zero => omega
  | succ fuel ih =>
    cases queue with
    | nil => exact .exhausted
    | cons path queue =>
      rw [searchFrom_succ]
      split
      · next htarget => exact .found (by simpa using htarget)
      · next htarget =>
        -- a round uses up as many unseen ends of edges as it puts paths on the queue
        have hround := unseenCount_append edges seen (path.headD "")
        refine .onward (by simpa using htarget) (ih _ _ ?_)
        simp only [List.length_append, List.length_map, List.length_cons] at hfuel ⊢
        omega

/-! ## Paths without repetition -/

def Fresh (seen : List String) (queue : List (List String)) : Prop := ∀ p ∈ queue, p.Nodup ∧ ∀ x ∈ p, x ∈ seen

theorem fresh_step {seen path : List String} {queue : List (List String)} (h : Fresh seen (path :: queue)) :
    Fresh (seen ++ unseen edges seen (path.headD ""))
      (queue ++ (unseen edges seen (path.headD "")).map (· :: path)) := by
  obtain ⟨hpath, hqueue⟩ := List.forall_mem_cons.mp h
  intro p hp
  rcases List.mem_append.mp hp with hp | hp
  · exact ⟨(hqueue p hp).1, fun x hx => List.mem_append_left _ ((hqueue p hp).2 x hx)⟩
  · obtain ⟨y, hy, rfl⟩ := List.mem_map.mp hp
    have hnew : y ∉ path := fun hmem => (mem_unseen.mp hy).2 (hpath.2 y hmem)
    refine ⟨List.nodup_cons.mpr ⟨hnew, hpath.1⟩, List.forall_mem_cons.mpr ⟨List.mem_append_right _ hy, ?_⟩⟩
    exact fun x hx => List.mem_append_left _ (hpath.2 x hx)

theorem Searches.nodup {seen : List String} {queue : List (List String)} {result : Option (List String)}
    (h : Searches edges targets seen queue result) (hfresh : Fresh seen queue) {path : List String}
    (hpath : result = some path) : path.Nodup := by
  induction h with
  | exhausted => cases hpath
  | found =>
    cases hpath
    exact List.nodup_reverse.mpr (hfresh _ List.mem_cons_self).1
  | onward _ _ ih => exact ih (fresh_step hfresh) hpath

/-! ## Distances -/

/-- The state of the search while it takes paths of `n` edges off the queue: `now` is what is left of them, `later` the
paths that are longer by one edge. -/
structure Layered (edges : Table String (List String)) (targets : List String) (start : String) (n : Nat)
    (seen : List String) (now later : List (List String)) : Prop where
  now_length : ∀ p ∈ now, p.length = n + 1
  later_length : ∀ p ∈ later, p.length = n + 2
  later_distant : ∀ p ∈ later, ∀ k ≤ n, ¬ Distant edges start k (p.headD "")
  seen_near : ∀ k ≤ n, ∀ x, Distant edges start k x → x ∈ seen
  missed : ∀ k < n, ∀ x, Distant edges start k x → x ∉ targets
  settled : Settled edges targets seen (now ++ later)

theorem layered_start : Layered edges targets start 0 [start] [[start]] [] where
  now_length := by simp
  later_length := by simp
  later_distant := by simp
  seen_near := by
    intro k hk x hx
    obtain rfl : k = 0 := by omega
    cases hx
    exact List.mem_singleton.mpr rfl
  missed := by
    intro k hk
    omega
  settled := settled_start

theorem Layered.next {n : Nat} {seen : List String} {later : List (List String)}
    (h : Layered edges targets start n seen [] later) : Layered edges targets start (n + 1) seen later [] := by
  -- what is as near as the front was has left the queue
  have hdone : ∀ k ≤ n, ∀ x, Distant edges start k x → x ∉ targets ∧ ∀ y, Along edges x y → y ∈ seen := by
    intro k hk x hx
    rcases h.settled x (h.seen_near k hk x hx) with ⟨p, hp, rfl⟩ | hx
    · exact absurd hx (h.later_distant p hp k hk)
    · exact hx
  refine ⟨h.later_length, by simp, by simp, ?_, ?_, by simpa using h.settled⟩
  · intro k hk x hx
    rcases Nat.le_succ_iff.mp hk with hk | rfl
    · exact h.seen_near k hk x hx
    · cases hx with
      | further hx hxy => exact (hdone n (Nat.le_refl n) _ hx).2 _ hxy
  · intro k hk x hx
    exact (hdone k (Nat.lt_succ_iff.mp hk) x hx).1

/-- A round that finds no target. -/
theorem Layered.round {n : Nat} {seen path : List String} {now later : List (List String)}
    (h : Layered edges targets start n seen (path :: now) later) (hpath : path.headD "" ∉ targets) :
    Layered edges targets start n (seen ++ unseen edges seen (path.headD "")) now
      (later ++ (unseen edges seen (path.headD "")).map (· :: path)) := by
  obtain ⟨hhead, hnow⟩ := List.forall_mem_cons.mp h.now_length
  refine ⟨hnow, ?_, ?_, ?_, h.missed, ?_⟩
  · intro p hp
    rcases List.mem_append.mp hp with hp | hp
    · exact h.later_length p hp
    · obtain ⟨y, -, rfl⟩ := List.mem_map.mp hp
      rw [List.length_cons, hhead]
  · intro p hp k hk hnear
    rcases List.mem_append.mp hp with hp | hp
    · exact h.later_distant p hp k hk hnear
    · obtain ⟨y, hy, rfl⟩ := List.mem_map.mp hp
      exact (mem_unseen.mp hy).2 (h.seen_near k hk y hnear)
  · intro k hk x hx
    exact List.mem_append_left _ (h.seen_near k hk x hx)
  · rw [← List.append_assoc]
    exact settled_step h.settled hpath

theorem Layered.front {n : Nat} {seen path : List String} {queue now later : List (List String)}
    (h : Layered edges targets start n seen now later) (hqueue : path :: queue = now ++ later) :
    ∃ n now later, queue = now ++ later ∧ Layered edges targets start n seen (path :: now) later := by
  cases now with
  | nil =>
    rw [List.nil_append] at hqueue
    subst hqueue
    exact ⟨n + 1, queue, [], (List.append_nil _).symm, h.next⟩
  | cons p now =>
    obtain ⟨rfl, rfl⟩ := List.cons.inj hqueue
    exact ⟨n, now, later, rfl, h⟩

theorem Searches.shortest {seen : List String} {queue : List (List String)} {result : Option (List String)}
    (h : Searches edges targets seen queue result) {n : Nat} {now later : List (List String)}
    (hqueue : queue = now ++ later) (hlayered : Layered edges targets start n seen now later) {path : List String}
    (hpath : result = some path) : ∀ k, ∀ x ∈ targets, Distant edges start k x → path.length ≤ k + 1 := by
  induction h generalizing n now later with
  | exhausted => cases hpath
  | found =>
    cases hpath
    obtain ⟨n, now, later, -, hfront⟩ := hlayered.front hqueue
    intro k x hx hdistant
    rw [List.length_reverse, hfront.now_length _ List.mem_cons_self]
    by_contra hshort
    exact hfront.missed k (by omega) x hdistant hx
  | onward hmiss _ ih =>
    obtain ⟨n, now, later, rfl, hfront⟩ := hlayered.front hqueue
    exact ih (List.append_assoc _ _ _) (hfront.round hmiss) hpath

/-! ## The whole search -/

/-- The search for a way comes to its end. It finds one exactly if a target can be reached, the start itself counting, and
what it finds is a way from the start to a target that meets no location twice and than which none is shorter. -/
theorem pathTo?_nearest (l : Loader) (start : String) (targets : List String) :
    Searches l.edges targets [start] [[start]] (l.pathTo? start targets) ∧
    ((l.pathTo? start targets).isSome ↔ ∃ b ∈ targets, ReflTransGen (Along l.edges) start b) ∧
    ∀ path, l.pathTo? start targets = some path →
      Way l.edges start targets path ∧ path.Nodup ∧
        ∀ other, Way l.edges start targets other → path.length ≤ other.length := by
  have hsearches : Searches l.edges targets [start] [[start]] (l.pathTo? start targets) :=
    searchFrom_searches _ _ _ (rounds_lt l.edges start)
  have hfresh : Fresh [start] [[start]] := List.forall_mem_singleton.mpr ⟨List.nodup_singleton _, fun _ hx => hx⟩
  refine ⟨hsearches, pathTo?_isSome_iff, fun path hpath => ?_⟩
  obtain ⟨hstart, hchain, hend⟩ := pathTo?_some hpath
  refine ⟨⟨hstart, hchain, hend⟩, hsearches.nodup hfresh hpath, fun other hother => ?_⟩
  obtain ⟨k, hlength, b, hb, hdistant⟩ := hother.distant
  rw [hlength]
  exact hsearches.shortest rfl layered_start hpath k b hb hdistant

theorem sorted_eq_self {names : List String} (h : names.Pairwise fun a b => (Text.compare a b != .gt) = true) :
    Text.sorted names = names := List.mergeSort_of_pairwise h

/-- A graph with a circle, with three ways from `a` to `d`, and with a location that has no entry. -/
def ringed : Loader := { edges := [("a", ["b", "c"]), ("b", ["d"]), ("c", ["b", "d"]), ("d", ["a", "e"])] }

theorem pathTo?_nearest_ringed :
    ringed.pathTo? "a" ["e", "d"] = some ["a", "b", "d"] ∧
      Way ringed.edges "a" ["e", "d"] ["a", "b", "d"] ∧
      ∀ other, Way ringed.edges "a" ["e", "d"] other → 3 ≤ other.length := by
  have ha : Text.sorted ["b", "c"] = ["b", "c"] := sorted_eq_self (by decide)
  have hb : Text.sorted ["d"] = ["d"] := sorted_eq_self (by decide)
  have hc : Text.sorted ["b", "d"] = ["b", "d"] := sorted_eq_self (by decide)
  have hfound : ringed.pathTo? "a" ["e", "d"] = some ["a", "b", "d"] := by
    simp [pathTo?, searchFrom, ringed, Table.get?, ha, hb, hc]
  obtain ⟨hway, -, hshortest⟩ := (pathTo?_nearest ringed "a" ["e", "d"]).2.2 _ hfound
  exact ⟨hfound, hway, hshortest⟩

end Loader

end Conductor.Module
