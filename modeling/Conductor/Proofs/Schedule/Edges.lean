import Conductor.Proofs.Schedule.Reports

/-!
# Edges and dependencies

Between two turns anything may be changed that the loader does not keep itself: files, sources,
the registry. The chronicle goes on over such changes. By it the edges of a module are those of
all loads of it, the failed ones too, while its node tells what the last of them has asked for.
So the edges of a loaded module lead to all that its dependencies led to, and to nothing else
if it was loaded at the first attempt; what an earlier attempt has asked for remains.
-/

set_option autoImplicit false

namespace Conductor

open Conductor.Module
open Relation (ReflTransGen)

namespace Schedule

variable {α : Type}

structure Edited (w w' : World) : Prop where
  nodes : w'.loader.nodes = w.loader.nodes
  pending : w'.loader.pending = w.loader.pending
  edges : w'.loader.edges = w.loader.edges
  tickets : w'.loader.tickets = w.loader.tickets
  outcomes : w'.loader.outcomes = w.loader.outcomes
  executions : w'.loader.executions = w.loader.executions

/-- The states that some order of turns leads to, with edits and interruptions between them. -/
inductive Visits (s₀ : Schedule α) : Schedule α → Prop
  | start : Visits s₀ s₀
  | turn {s s' : Schedule α} {turn : Turn} (h : Visits s₀ s) (hs : Serves s turn s') : Visits s₀ s'
  | edit {s : Schedule α} {w : World} (h : Visits s₀ s) (hw : Edited s.world w) : Visits s₀ { s with world := w }
  | interruption {s : Schedule α} (h : Visits s₀ s) (i : Nat) : Visits s₀ (s.interrupt i)

theorem edited_files (w : World) (files : Files) : Edited w { w with files := files } :=
  ⟨rfl, rfl, rfl, rfl, rfl, rfl⟩

theorem Edited.sameBooks {w w' : World} (h : Edited w w') : SameBooks w.loader w'.loader :=
  ⟨funext fun a => by rw [Loader.view, Loader.view, h.nodes], h.pending, h.tickets, h.outcomes, h.executions⟩

theorem Accounted.edited {s : Schedule α} {owner : Nat → Option Nat} {h : History} {waits : Nat → Option Nat} {w : World}
    (hacc : Accounted s owner h waits) (hw : Edited s.world w) : Accounted { s with world := w } owner h waits := by
  refine ⟨hacc.balanced.silent hw.sameBooks, hacc.owned, hacc.once, fun hj => ?_, fun hturn t ht => ?_, fun {i} hi => ?_⟩
  · rw [hw.outcomes]
    exact hacc.waiting hj
  · rw [hw.outcomes]
    exact hacc.called hturn t ht
  · exact (hacc.able hi).kept ⟨rfl, rfl, rfl⟩ (.single ⟨i + 1, Nat.succ_ne_self i, .silent hw.sameBooks⟩)

theorem Matched.edited {S : Surroundings} {J : Chronicle} {s s' : Schedule α} {w : World} (h : Matched S J s s')
    (hw : Edited s.world w) (hallowed : S.allows w.files (registryOf w)) :
    Matched S J { s with world := w } { s' with world := w } := by
  refine ⟨rfl, h.ready, h.waiting, h.results, h.tasks, h.handlers, h.documented.frame hw.nodes hw.edges hw.tickets, hallowed,
    fun hi => (h.able hi).kept ⟨rfl, rfl, rfl⟩ ⟨rfl, rfl, rfl⟩ ⟨List.prefix_refl _, fun {_ _ _ a} _ _ _ => ?_⟩⟩
  exact ⟨congrArg (·.get? a) hw.nodes, congrArg (·.get? a) hw.pending, rfl⟩

/-- The loader stays documented, whatever is edited. -/
theorem Visits.matched {s₀ s s₀' : Schedule α} {owner : Nat → Option Nat} {h : History} {waits : Nat → Option Nat}
    {J : Chronicle} (hs : Visits s₀ s) (hmatched : Matched .any J s₀ s₀') (hacc : Accounted s₀ owner h waits) :
    ∃ J' s' owner' h' waits', J <+: J' ∧ Matched .any J' s s' ∧ Accounted s owner' h' waits' := by
  induction hs with
  | start => exact ⟨J, s₀', owner, h, waits, List.prefix_refl _, hmatched, hacc⟩
  | turn _ hserves ih =>
    obtain ⟨J₁, s₁, owner₁, h₁, waits₁, hJ₁, hmatched₁, hacc₁⟩ := ih
    obtain ⟨J₂, s₂, hJ₂, -, hmatched₂⟩ := hmatched₁.serve hacc₁ hserves
    obtain ⟨h₂, waits₂, hacc₂, -⟩ := hacc₁.serve hserves
    exact ⟨J₂, s₂, _, h₂, waits₂, hJ₁.trans hJ₂, hmatched₂, hacc₂⟩
  | edit _ hw ih =>
    obtain ⟨J₁, s₁, owner₁, h₁, waits₁, hJ₁, hmatched₁, hacc₁⟩ := ih
    exact ⟨J₁, _, owner₁, h₁, waits₁, hJ₁, hmatched₁.edited hw trivial, hacc₁.edited hw⟩
  | interruption _ i ih =>
    obtain ⟨J₁, s₁, owner₁, h₁, waits₁, hJ₁, hmatched₁, hacc₁⟩ := ih
    obtain ⟨waits₂, hacc₂, -⟩ := hacc₁.interrupt i
    exact ⟨J₁, _, owner₁, h₁, waits₂, hJ₁, hmatched₁.interrupt i, hacc₂⟩

/-! ## Edges of a module -/

structure Mirrored (J : Chronicle) (l : Loader) : Prop where
  /-- The edges of a location lead wherever one of its loads has asked for something, be it under way, loaded or failed. -/
  edges : ∀ a b, Along l.edges a b ↔
    ∃ i t q d, (i, .began t q) ∈ J ∧ q.LeadsTo a ∧ d ∈ J.asks t ∧ d.LeadsTo b
  /-- The dependencies of a loaded module are what the load of it has asked for, in its order. -/
  dependencies : ∀ {a n}, l.nodes.get? a = some n → n.status = .loaded →
    n.dependencies = (J.asks n.ticket).map Ask.identifier
  /-- Its edges lead wherever they led. -/
  forward : ∀ {a n}, l.nodes.get? a = some n → n.status = .loaded → ∀ d ∈ J.asks n.ticket, ∀ b, d.LeadsTo b →
    Along l.edges a b
  /-- There are no other edges of it unless another load of it has begun before. -/
  backward : ∀ {a n}, l.nodes.get? a = some n → n.status = .loaded →
    (∀ i t q, (i, .began t q) ∈ J → q.LeadsTo a → t = n.ticket) →
    ∀ b, Along l.edges a b → ∃ d ∈ J.asks n.ticket, d.LeadsTo b

theorem Mirrored.of_documented {S : Surroundings} {J : Chronicle} {l : Loader} (h : Documented S ⟨J, l⟩) :
    Mirrored J l := by
  refine ⟨fun a b => h.edges, fun hn hloaded => (h.complete hn hloaded).symm, ?_, ?_⟩
  · intro a n hn _ d hd b hb
    obtain ⟨i, q, hq, ha, -⟩ := h.node hn
    exact h.edges.mpr ⟨i, n.ticket, q, d, hq, ha, hd, hb⟩
  · intro a n _ _ honly b hab
    obtain ⟨i, t, q, d, hq, ha, hd, hb⟩ := h.edges.mp hab
    obtain rfl := honly i t q hq ha
    exact ⟨d, hd, hb⟩

theorem Mirrored.along_mono {J J' : Chronicle} {l l' : Loader} (h : Mirrored J l) (h' : Mirrored J' l') (hJ : J <+: J')
    {a b : String} (hab : Along l.edges a b) : Along l'.edges a b := by
  obtain ⟨i, t, q, d, hq, ha, hd, hb⟩ := (h.edges a b).mp hab
  obtain ⟨j, hj⟩ := Chronicle.mem_asks.mp hd
  exact (h'.edges a b).mpr ⟨i, t, q, d, hJ.subset hq, ha, Chronicle.mem_asks.mpr ⟨j, hJ.subset hj⟩, hb⟩

/-- Requirements on one loader, in any interleaving, with any edits between the turns and interrupted at any time: the
edges are those of all loads that have begun, and none of them ever goes; the dependencies of a loaded module are those of
the last. -/
theorem edges_of_all_attempts {w : World} {n : Nat} {requests : List Request} {s : Schedule (Table String Entry)}
    (hunused : Unused w.loader) (hedges : w.loader.edges = []) (hs : Visits (loading w n requests) s) :
    ∃ J, Documented .any ⟨J, s.world.loader⟩ ∧ Mirrored J s.world.loader ∧
      ∀ s', Visits s s' → ∀ a b, Along s.world.loader.edges a b → Along s'.world.loader.edges a b := by
  have hload (r : Request) : LoadsAbreast .any r.1 r.2 [] (Play.load (Play.outer n) r.1 r.2 [])
      (Play.load (Play.outer n) r.1 r.2 []) := Play.load_alongside r.1 r.2 []
  have hmatched : Matched .any [] (loading w n requests) (loading w n requests) :=
    matched_start (S := .any) hunused.nodes hedges trivial hload requests
  obtain ⟨J, s₁, owner, h, waits, -, hmatched₁, hacc₁⟩ := hs.matched hmatched (accounted_loading hunused n requests)
  have hmirrored := Mirrored.of_documented hmatched₁.documented
  refine ⟨J, hmatched₁.documented, hmirrored, fun s' hs' a b hab => ?_⟩
  obtain ⟨J', s₂, -, -, -, hJ, hmatched₂, -⟩ := hs'.matched hmatched₁ hacc₁
  exact hmirrored.along_mono (.of_documented hmatched₂.documented) hJ hab

def onDisk (m : HostModule) : World := { files := { entries := [("/a.py", .module m)] } }

/-- A module asks for one that is not there, and fails. It is edited so that it asks for nothing, and loaded: the edge to
what is not there remains. -/
theorem edges_of_all_attempts_retried :
    let first := loading (onDisk { requires := some (.list [.text "b.py"]) }) 2 [("/a.py", none), ("/a.py", none)]
    let failed := first.step
    let edited : Schedule (Table String Entry) := { failed with world := { failed.world with files := (onDisk {}).files } }
    let s := edited.step
    (s.world.loader.nodes.get? "/a.py").map (fun n => (n.status, n.dependencies)) = some (.loaded, []) ∧
      (s.world.loader.edges.get? "/a.py") = some ["/b.py"] ∧ Visits first s ∧
      ∃ J, Documented .any ⟨J, s.world.loader⟩ ∧ Mirrored J s.world.loader := by
  intro first failed edited s
  have hloaded : (s.world.loader.nodes.get? "/a.py").map (fun n => (n.status, n.dependencies)) = some (.loaded, []) := by
    decide +kernel
  have hedge : s.world.loader.edges.get? "/a.py" = some ["/b.py"] := by decide +kernel
  have hfirst : first.ready = [.task 0, .task 1] := rfl
  have hedited : edited.ready = [.task 1] := by decide +kernel
  have hfailed : Visits first failed := Visits.start.turn (serves_step hfirst)
  have hvisits : Visits first s := (hfailed.edit (edited_files _ _)).turn (serves_step hedited)
  have hunused : Unused (onDisk { requires := some (.list [.text "b.py"]) }).loader := ⟨rfl, rfl, rfl, rfl⟩
  obtain ⟨J, hdoc, hmirrored, -⟩ := edges_of_all_attempts hunused rfl hvisits
  exact ⟨hloaded, hedge, hvisits, J, hdoc, hmirrored⟩

end Schedule

end Conductor
