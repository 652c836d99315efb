import Conductor.Proofs.Run.Watched
import Conductor.Proofs.Schedule.Books
import Conductor.Proofs.Schedule.Deadlock

/-!
# Cycles that are reported

Tasks take turns on one loader, in any order, and beside them run tasks of the same text whose
loads are watched. Both come through the same states, whatever the alarm would do: so no cycle
is ever reported that is not a closed walk of the graph. In every state there is a chronicle
that documents the loader.
-/

set_option autoImplicit false

namespace Conductor

open Conductor.Module
open Relation (ReflTransGen)

namespace Schedule

variable {α : Type}

def GoAbreast (S : Surroundings) (i : Nat) (A : Account) (session : Session) (next next' : Play α) : Prop :=
  ∀ B m, m.session = session → B.loader = m.world.loader → Documented S B →
    S.allows m.world.files (registryOf m.world) → Beside (fun j _ => j = i) A B →
    (next m).Abreast (Account.pause S i) (fun _ g m' => ∃ J, Present S i g J m') (fun _ g m' => ∃ J, Present S i g J m')
      (next' m) B

structure Agrees (S : Surroundings) (i : Nat) (A : Account) (task task' : Task α) (raise raise' : Signal → Play α) : Prop where
  session : task'.session = task.session
  onward : GoAbreast S i A task.session task.next task'.next
  interrupted : GoAbreast S i A task.session (raise Signal.interruption) (raise' Signal.interruption)

def AgreeAt (S : Surroundings) (i : Nat) (A : Account) (s s' : Schedule α) : Prop :=
  ∃ task task' raise raise', s.tasks[i]? = some task ∧ s'.tasks[i]? = some task' ∧ s.handlers[i]? = some raise ∧
    s'.handlers[i]? = some raise' ∧ Agrees S i A task task' raise raise'

/-- Two schedules that have come to the same state, whose loader is documented. -/
structure Matched (S : Surroundings) (J : Chronicle) (s s' : Schedule α) : Prop where
  world : s'.world = s.world
  ready : s'.ready = s.ready
  waiting : s'.waiting = s.waiting
  results : s'.results = s.results
  tasks : s'.tasks.size = s.tasks.size
  handlers : s'.handlers.size = s.handlers.size
  documented : Documented S ⟨J, s.world.loader⟩
  allowed : S.allows s.world.files (registryOf s.world)
  able : ∀ {i : Nat}, i ∈ s.places → AgreeAt S i ⟨J, s.world.loader⟩ s s'

variable {S : Surroundings} {J J' : Chronicle} {s s' s₁ s₁' : Schedule α} {i : Nat} {m : Machine} {rest : List Turn}

theorem GoAbreast.mono {A B : Account} {session : Session} {next next' : Play α} (h : GoAbreast S i A session next next')
    (hAB : Beside (fun j _ => j = i) A B) : GoAbreast S i B session next next' :=
  fun D m hsession hloader hdoc hallowed hbeside => h D m hsession hloader hdoc hallowed (hAB.trans hbeside)

theorem Agrees.mono {A B : Account} {task task' : Task α} {raise raise' : Signal → Play α}
    (h : Agrees S i A task task' raise raise') (hAB : Beside (fun j _ => j = i) A B) :
    Agrees S i B task task' raise raise' :=
  ⟨h.session, h.onward.mono hAB, h.interrupted.mono hAB⟩

theorem AgreeAt.kept {A B : Account} (h : AgreeAt S i A s s') (hs : Kept s s₁ i) (hs' : Kept s' s₁' i)
    (hAB : Beside (fun j _ => j = i) A B) : AgreeAt S i B s₁ s₁' := by
  obtain ⟨task, task', raise, raise', htask, htask', hraise, hraise', hagrees⟩ := h
  exact ⟨task, task', raise, raise', hs.task.trans htask, hs'.task.trans htask', hs.handler.trans hraise,
    hs'.handler.trans hraise', hagrees.mono hAB⟩

theorem goAbreast_of_alongside {A : Account} {next next' : Play α} {session : Session} {P : Nat → Prop}
    {T : α → Chronicle → Machine → Prop} {F : Chronicle → Machine → Prop}
    (h : Alongside S i P (fun _ m => m.session.place = session.place) next next' T F) :
    GoAbreast S i A session next next' := by
  rintro ⟨K, l⟩ m hsession hloader hdoc hallowed -
  cases hloader
  refine (h.abreast ⟨hdoc, hallowed, .refl _ _⟩ (congrArg Session.place hsession)).mono (Account.pause_monotone S i) ?_ ?_
  · exact fun _ _ _ ⟨J, hpresent, _⟩ => ⟨J, hpresent⟩
  · exact fun _ _ _ ⟨J, hpresent, _⟩ => ⟨J, hpresent⟩

theorem Matched.next (h : Matched S J s s') (hpresent : Present S i ⟨J, s.world.loader⟩ J' m)
    (hworlds : s₁.world = m.world ∧ s₁'.world = m.world) (hready : s₁'.ready = s₁.ready)
    (hwaiting : s₁'.waiting = s₁.waiting) (hresults : s₁'.results = s₁.results)
    (htasks : s₁'.tasks.size = s₁.tasks.size) (hhandlers : s₁'.handlers.size = s₁.handlers.size)
    (hplaces : ∀ j, j ∈ s₁.places → j ≠ i → j ∈ s.places) (hkept : ∀ j, j ≠ i → Kept s s₁ j ∧ Kept s' s₁' j)
    (hown : i ∈ s₁.places → AgreeAt S i ⟨J', m.world.loader⟩ s₁ s₁') : Matched S J' s₁ s₁' := by
  refine ⟨hworlds.2.trans hworlds.1.symm, hready, hwaiting, hresults, htasks, hhandlers, ?_, ?_, fun {j} hj => ?_⟩
  · rw [hworlds.1]
    exact hpresent.documented
  · rw [hworlds.1]
    exact hpresent.allowed
  · rw [hworlds.1]
    by_cases hji : j = i
    · subst hji
      exact hown hj
    · obtain ⟨hleft, hleft'⟩ := hkept j hji
      refine (h.able (hplaces j hj hji)).kept hleft hleft' (hpresent.beside.mono ?_)
      rintro k t rfl
      exact hji

theorem Matched.serve_news (h : Matched S J s s') (hready : s.ready.Perm (.news i :: rest)) :
    Matched S J ({ s with ready := .news i :: rest } : Schedule α).step
      ({ s' with ready := .news i :: rest } : Schedule α).step := by
  have hplaces : ((rest ++ [Turn.task i]).map Turn.index ++ s.waiting.map Prod.snd).Perm s.places := by
    refine List.Perm.append_right _ (List.Perm.trans ?_ (hready.map Turn.index).symm)
    rw [List.map_append]
    exact List.perm_append_singleton i _
  exact ⟨h.world, rfl, h.waiting, h.results, h.tasks, h.handlers, h.documented, h.allowed,
    fun hi => h.able (hplaces.subset hi)⟩

theorem Matched.handOver (h : Matched S J s s') (rest : List Turn) (w : World) :
    (s'.handOver rest w).ready = (s.handOver rest w).ready ∧ (s'.handOver rest w).waiting = (s.handOver rest w).waiting ∧
      (s'.handOver rest w).results = (s.handOver rest w).results := by
  simp only [Schedule.handOver, spread, h.world, h.waiting, h.results, and_self]

theorem places_beside {w : World} (hready : s.ready.Perm (.task i :: rest)) (honce : s.places.Nodup)
    (hkeys : (w.loader.outcomes.map Prod.fst).Nodup) :
    i ∉ (s.handOver rest w).places ∧ ∀ j ∈ (s.handOver rest w).places, j ∈ s.places := by
  have hperm := places_handOver (w := w) hready (hkeys.sublist ((List.drop_sublist _ _).map _))
  exact ⟨(List.nodup_cons.mp (hperm.nodup_iff.mpr honce)).1, fun j hj => hperm.subset (List.mem_cons_of_mem _ hj)⟩

theorem Matched.ended (h : Matched S J s s') (hpresent : Present S i ⟨J, s.world.loader⟩ J' m) (r : Except Signal α)
    (hplaces : i ∉ (s.handOver rest m.world).places ∧ ∀ j ∈ (s.handOver rest m.world).places, j ∈ s.places) :
    Matched S J' ((s.handOver rest m.world).finish i r) ((s'.handOver rest m.world).finish i r) := by
  obtain ⟨hready, hwaiting, hresults⟩ := h.handOver rest m.world
  have hfinished : ((s'.handOver rest m.world).finish i r).results = ((s.handOver rest m.world).finish i r).results := by
    simp only [finish, hresults]
  have hkept (s : Schedule α) (j : Nat) (hj : j ≠ i) : Kept s ((s.handOver rest m.world).finish i r) j :=
    ⟨rfl, rfl, Array.getElem?_setIfInBounds_ne (Ne.symm hj)⟩
  exact h.next hpresent ⟨rfl, rfl⟩ hready hwaiting hfinished h.tasks h.handlers (fun j hj _ => hplaces.2 j hj)
    (fun j hj => ⟨hkept s j hj, hkept s' j hj⟩) fun hi => absurd hi hplaces.1

theorem Matched.paused (h : Matched S J s s') (hpresent : Present S i ⟨J, s.world.loader⟩ J' m)
    {resume resume' : Option Signal → Play α}
    (hresume : ∀ raised, GoAbreast S i ⟨J', m.world.loader⟩ m.session (resume raised) (resume' raised))
    (hparked : Parked s s₁ i m.session resume) (hparked' : Parked s' s₁' i m.session resume')
    (hable : AgreeAt S i ⟨J, s.world.loader⟩ s s') (hworlds : s₁.world = m.world ∧ s₁'.world = m.world)
    (hready : s₁'.ready = s₁.ready) (hwaiting : s₁'.waiting = s₁.waiting)
    (hplaces : s₁.places.Perm (i :: (s.handOver rest m.world).places))
    (hbeside : ∀ j ∈ (s.handOver rest m.world).places, j ∈ s.places) : Matched S J' s₁ s₁' := by
  obtain ⟨task, task', raise, raise', htask, htask', hraise, hraise', -⟩ := hable
  have hsize {xs : Array (Task α)} {t : Task α} (ht : xs[i]? = some t) : i < xs.size := (Array.getElem?_eq_some_iff.mp ht).1
  have hsize' {xs : Array (Signal → Play α)} {k : Signal → Play α} (hk : xs[i]? = some k) : i < xs.size :=
    (Array.getElem?_eq_some_iff.mp hk).1
  have hbefore (j : Nat) (hj : j ∈ s₁.places) (hji : j ≠ i) : j ∈ s.places :=
    hbeside j ((List.mem_cons.mp (hplaces.mem_iff.mp hj)).resolve_left hji)
  refine h.next hpresent hworlds hready hwaiting ?_ ?_ ?_ hbefore (fun j hj => ⟨hparked.kept hj, hparked'.kept hj⟩)
    fun _ => ⟨_, _, _, _, hparked.task (hsize htask), hparked'.task (hsize htask'), hparked.handler (hsize' hraise),
      hparked'.handler (hsize' hraise'), rfl, hresume none, hresume (some Signal.interruption)⟩
  · rw [hparked.results, hparked'.results, h.results]
  · rw [hparked.tasks, hparked'.tasks, Array.size_setIfInBounds, Array.size_setIfInBounds, h.tasks]
  · rw [hparked.handlers, hparked'.handlers, Array.size_setIfInBounds, Array.size_setIfInBounds, h.handlers]

theorem Matched.serve_task (h : Matched S J s s') (hready : s.ready.Perm (.task i :: rest)) (honce : s.places.Nodup)
    (hkeys : ((({ s with ready := .task i :: rest } : Schedule α).step).world.loader.outcomes.map Prod.fst).Nodup) :
    ∃ J', J <+: J' ∧ Matched S J' ({ s with ready := .task i :: rest } : Schedule α).step
      ({ s' with ready := .task i :: rest } : Schedule α).step := by
  have hplace := mem_places_of_turn hready
  obtain ⟨task, task', raise, raise', htask, htask', hraise, hraise', hagrees⟩ := h.able hplace
  have habreast := hagrees.onward ⟨J, s.world.loader⟩ ⟨task.session, s.world⟩ rfl rfl h.documented h.allowed (.refl _ _)
  have hmachine : (⟨task'.session, s'.world⟩ : Machine) = ⟨task.session, s.world⟩ := by rw [hagrees.session, h.world]
  cases hrun : task.next ⟨task.session, s.world⟩ with
  | done a m =>
    rw [hrun] at habreast
    obtain ⟨hrun', J', hpresent⟩ := habreast
    rw [← hmachine] at hrun'
    rw [step_done htask hrun] at hkeys ⊢
    rw [step_done htask' hrun']
    exact ⟨J', hpresent.beside.chronicle, h.ended hpresent _ (places_beside hready honce hkeys)⟩
  | fail e m =>
    rw [hrun] at habreast
    obtain ⟨hrun', J', hpresent⟩ := habreast
    rw [← hmachine] at hrun'
    rw [step_fail htask hrun] at hkeys ⊢
    rw [step_fail htask' hrun']
    exact ⟨J', hpresent.beside.chronicle, h.ended hpresent _ (places_beside hready honce hkeys)⟩
  | wait wait m resume =>
    rw [hrun] at habreast
    obtain ⟨resume', hrun', J', hpresent, hresume⟩ := habreast
    rw [← hmachine] at hrun'
    have honward (raised : Option Signal) :
        GoAbreast S i ⟨J', m.world.loader⟩ m.session (resume raised) (resume' raised) := hresume raised
    obtain ⟨hready', hwaiting', -⟩ := h.handOver rest m.world
    refine ⟨J', hpresent.beside.chronicle, ?_⟩
    cases wait with
    | turn =>
      rw [step_turn htask hrun] at hkeys ⊢
      rw [step_turn htask' hrun']
      exact h.paused hpresent honward ⟨rfl, rfl, rfl⟩ ⟨rfl, rfl, rfl⟩ (h.able hplace) ⟨rfl, rfl⟩
        (congrArg (· ++ [Turn.task i]) hready') hwaiting' (places_queued rfl rfl) (places_beside hready honce hkeys).2
    | load t =>
      rw [step_load htask hrun] at hkeys ⊢
      rw [step_load htask' hrun']
      exact h.paused hpresent honward ⟨rfl, rfl, rfl⟩ ⟨rfl, rfl, rfl⟩ (h.able hplace) ⟨rfl, rfl⟩ hready'
        (congrArg (· ++ [(t, i)]) hwaiting') (places_parked rfl rfl) (places_beside hready honce hkeys).2

/-- What one turn preserves: served alike, two schedules match again, and the chronicle goes on. -/
theorem Matched.serve {owner : Nat → Option Nat} {history : History} {waits : Nat → Option Nat} {turn : Turn}
    (h : Matched S J s s') (hacc : Accounted s owner history waits) (hs : Serves s turn s₁) :
    ∃ J' s₁', J <+: J' ∧ Serves s' turn s₁' ∧ Matched S J' s₁ s₁' := by
  obtain ⟨history', waits', hacc', -⟩ := hacc.serve hs
  obtain ⟨rest, hready⟩ := hs
  have hserves : Serves s' turn ({ s' with ready := turn :: rest } : Schedule α).step := .serve rest (by rwa [h.ready])
  cases turn with
  | task i =>
    obtain ⟨J', hJ, hmatched⟩ := h.serve_task hready hacc.once hacc'.balanced.keys
    exact ⟨J', _, hJ, hserves, hmatched⟩
  | news i => exact ⟨J, _, List.prefix_refl _, hserves, h.serve_news hready⟩

theorem Matched.interrupt (h : Matched S J s s') (i : Nat) : Matched S J (s.interrupt i) (s'.interrupt i) := by
  rcases interrupts_or s i with ⟨task, raise, hs⟩ | ⟨heq, hnone⟩
  · obtain ⟨hi, -⟩ := Array.getElem?_eq_some_iff.mp hs.held
    obtain ⟨hi', -⟩ := Array.getElem?_eq_some_iff.mp hs.handled
    have htask' := Array.getElem?_eq_getElem (h.tasks.symm ▸ hi : i < s'.tasks.size)
    have hraise' := Array.getElem?_eq_getElem (h.handlers.symm ▸ hi' : i < s'.handlers.size)
    rcases interrupts_or s' i with ⟨task', raise', hs'⟩ | ⟨-, hnone'⟩
    swap
    · exact absurd (h.results ▸ hs.unfinished) (hnone' _ _ htask' hraise')
    have hplaces (j : Nat) (hj : j ∈ (s.interrupt i).places) : j ∈ s.places := (places_interrupt s i).mem_iff.mp hj
    have hheld {r : Schedule α} {task : Task α} {raise : Signal → Play α} (hr : Interrupts r i task raise) :
        (r.interrupt i).tasks[i]? = some { task with next := raise Signal.interruption } ∧
          ∀ j, j ≠ i → Kept r (r.interrupt i) j := by
      rw [hr.eq]
      exact ⟨Array.getElem?_setIfInBounds_self_of_lt (Array.getElem?_eq_some_iff.mp hr.held).1,
        fun j hj => ⟨Array.getElem?_setIfInBounds_ne (Ne.symm hj), rfl, rfl⟩⟩
    constructor
    case world => rw [world_interrupt, world_interrupt, h.world]
    case ready => rw [hs.eq, hs'.eq, h.ready, h.waiting]
    case waiting => rw [hs.eq, hs'.eq, h.waiting]
    case results => rw [hs.eq, hs'.eq, h.results]
    case tasks => rw [hs.eq, hs'.eq, Array.size_setIfInBounds, Array.size_setIfInBounds, h.tasks]
    case handlers => rw [hs.eq, hs'.eq, h.handlers]
    case documented => exact (world_interrupt s i).symm ▸ h.documented
    case allowed => exact (world_interrupt s i).symm ▸ h.allowed
    case able =>
      intro j hj
      rw [world_interrupt]
      by_cases hji : j = i
      · subst hji
        obtain ⟨held, held', raise₁, raise₁', hheld₁, hheld₁', hraise₁, hraise₁', hagrees⟩ := h.able (hplaces j hj)
        obtain rfl : held = task := Option.some.inj (hheld₁.symm.trans hs.held)
        obtain rfl : held' = task' := Option.some.inj (hheld₁'.symm.trans hs'.held)
        obtain rfl : raise₁ = raise := Option.some.inj (hraise₁.symm.trans hs.handled)
        obtain rfl : raise₁' = raise' := Option.some.inj (hraise₁'.symm.trans hs'.handled)
        refine ⟨_, _, raise₁, raise₁', (hheld hs).1, (hheld hs').1, ?_, ?_, hagrees.session, hagrees.interrupted,
          hagrees.interrupted⟩
        · rw [hs.eq]
          exact hraise₁
        · rw [hs'.eq]
          exact hraise₁'
      · exact (h.able (hplaces j hj)).kept ((hheld hs).2 j hji) ((hheld hs').2 j hji) (.refl _ _)
  · rcases interrupts_or s' i with ⟨task', raise', hs'⟩ | ⟨heq', -⟩
    · obtain ⟨hi, -⟩ := Array.getElem?_eq_some_iff.mp hs'.held
      obtain ⟨hi', -⟩ := Array.getElem?_eq_some_iff.mp hs'.handled
      exact absurd (h.results ▸ hs'.unfinished) (hnone _ _ (Array.getElem?_eq_getElem (h.tasks ▸ hi))
        (Array.getElem?_eq_getElem (h.handlers ▸ hi')))
    · rw [heq, heq']
      exact h

/-- What a run preserves. -/
theorem Matched.arrives {owner owner' : Nat → Option Nat} {history : History} {waits : Nat → Option Nat}
    (h : Matched S J s s') (hacc : Accounted s owner' history waits) (hs : Arrives s s₁ owner) :
    ∃ J' s₁', J <+: J' ∧ Arrives s' s₁' owner ∧ Matched S J' s₁ s₁' := by
  induction hs with
  | start => exact ⟨J, s', List.prefix_refl _, .start, h⟩
  | @turn s₂ s₃ owner turn hs hserves ih =>
    obtain ⟨J₂, s₂', hJ₂, hs₂, hmatched₂⟩ := ih
    obtain ⟨history₂, waits₂, hacc₂, -⟩ := hacc.arrives hs
    obtain ⟨J₃, s₃', hJ₃, hserves₃, hmatched₃⟩ := hmatched₂.serve hacc₂ hserves
    refine ⟨J₃, s₃', hJ₂.trans hJ₃, ?_, hmatched₃⟩
    have hcredit : credit s₂ s₃ turn.index owner = credit s₂' s₃' turn.index owner := by
      funext t
      simp only [credit, hmatched₂.world, hmatched₃.world]
    rw [hcredit]
    exact hs₂.turn hserves₃
  | interruption hs i ih =>
    obtain ⟨J₂, s₂', hJ₂, hs₂, hmatched₂⟩ := ih
    exact ⟨J₂, _, hJ₂, hs₂.interruption i, hmatched₂.interrupt i⟩

/-! ## From the start -/

theorem matched_start {w : World} (hnodes : w.loader.nodes = []) (hedges : w.loader.edges = [])
    (hallowed : S.allows w.files (registryOf w)) {loads loads' : Request → Play (Table String Entry)}
    (h : ∀ r, LoadsAbreast S r.1 r.2 [] (loads r) (loads' r)) (requests : List Request) :
    Matched S [] (ofTasks w (requests.map fun r => ⟨{}, loads r⟩)) (ofTasks w (requests.map fun r => ⟨{}, loads' r⟩)) := by
  refine ⟨rfl, by simp [ofTasks], rfl, by simp [ofTasks], by simp [ofTasks], by simp [ofTasks], .start hnodes hedges,
    hallowed, fun {i} hi => ?_⟩
  have hi : i < requests.length := by simpa [places, ofTasks, Turn.index, Function.comp_def] using hi
  have hload := (h requests[i]).root i (Session.place {})
  have hthrow : Alongside S i (fun _ => True) (fun _ m => m.session.place = (Session.place {}))
      (throw Signal.interruption : Play (Table String Entry)) (throw Signal.interruption) (fun _ _ _ => True)
      fun _ _ => True := .throw _ fun _ _ _ => trivial
  exact ⟨⟨{}, loads requests[i]⟩, ⟨{}, loads' requests[i]⟩, throw, throw, by simp [ofTasks, hi],
    by simp [ofTasks, hi], by simp [ofTasks, hi], by simp [ofTasks, hi], rfl, goAbreast_of_alongside hload, goAbreast_of_alongside hthrow⟩

theorem accounted_loading {w : World} (hunused : Unused w.loader) (n : Nat) (requests : List Request) :
    Accounted (loading w n requests) (fun _ => none) [] fun _ => none := by
  refine accounted_start hunused fun task htask => ?_
  obtain ⟨r, -, rfl⟩ := List.mem_map.mp htask
  exact ⟨n + 1, Composed.load (o := Play.outer (n + 1)) r.1 r.2 []⟩

noncomputable def watching (S : Surroundings) (alarm : Play (Table String Entry)) (w : World) (n : Nat)
    (requests : List Request) : Schedule (Table String Entry) :=
  .ofTasks w (requests.map fun r => ⟨{}, Play.watchedLoad S alarm (Play.watched S alarm n) r.1 r.2 []⟩)

/-- What a load finds to close a cycle is what it reports. And any number of requirements, in any interleaving and
interrupted at any time, come through the same states to the same results with every load watched, whatever the alarm would
do: no cycle is ever reported that is not a closed walk of the graph. -/
theorem reported_cycles_are_closed_walks {w : World} {n : Nat} {requests : List Request}
    {s : Schedule (Table String Entry)} {owner : Nat → Option Nat} (hunused : Unused w.loader)
    (hedges : w.loader.edges = []) (hs : Arrives (loading w n requests) s owner) (alarm : Play (Table String Entry)) :
    (∀ (o : Outer) (m : Machine) (r : Request) (stack : Stack) (l : Location) (ids : List String),
      target m.world r = .ok l → m.world.loader.enter stack r.1 l.text = .circular ids →
      ∃ m', Play.load o r.1 r.2 stack m = .fail (.problem (.condition { cause := .cycle ids })) m') ∧
    (∃ J, Documented (.since w) ⟨J, s.world.loader⟩) ∧
    ∃ s', Arrives (watching (.since w) alarm w n requests) s' owner ∧
      s'.world = s.world ∧ s'.ready = s.ready ∧ s'.waiting = s.waiting ∧ s'.results = s.results := by
  have hmatched : Matched (.since w) [] (loading w n requests) (watching (.since w) alarm w n requests) :=
    matched_start (S := .since w) hunused.nodes hedges ⟨.refl, rfl⟩ (fun r => Play.watchedLoad_alongside alarm r.1 r.2 []) requests
  obtain ⟨J, s', -, hs', hmatched'⟩ := hmatched.arrives (accounted_loading hunused n requests) hs
  refine ⟨fun o m r stack l ids htarget henter => ?_, ⟨J, hmatched'.documented⟩, s', hs', hmatched'.world,
    hmatched'.ready, hmatched'.waiting, hmatched'.results⟩
  obtain ⟨sought, hload⟩ := load_reports o htarget henter
  exact ⟨_, hload⟩

def cycleOf : Except Signal (Table String Entry) → Option (List String)
  | .error (.problem (.condition { cause := .cycle ids, .. })) => some ids
  | _ => none

/-- One of two tasks that load modules which require each other reports a cycle through the load of the other. -/
theorem reported_cycles_are_closed_walks_entwined :
    let roots := [("http://h/a.py", none), ("http://h/b.py", none)]
    let s := (loading entwined 2 roots).serve 4
    s.results[1]?.join.bind cycleOf = some ["http://h/b.py", "a.py", "http://h/b.py"] ∧
    ∃ owner, Arrives (loading entwined 2 roots) s owner ∧ (∃ J, Documented (.since entwined) ⟨J, s.world.loader⟩) ∧
      ∃ s', Arrives (watching (.since entwined) (throw .exhausted) entwined 2 roots) s' owner ∧ s'.results = s.results := by
  intro roots s
  have hreported : s.results[1]?.join.bind cycleOf = some ["http://h/b.py", "a.py", "http://h/b.py"] := by decide +kernel
  obtain ⟨owner, hs⟩ : ∃ owner, Arrives (loading entwined 2 roots) s owner :=
    (reaches_serve (loading entwined 2 roots) 4).imp fun _ => Reaches.arrives
  have hunused : Unused entwined.loader := ⟨rfl, rfl, rfl, rfl⟩
  have hend := reported_cycles_are_closed_walks hunused rfl hs (throw .exhausted)
  clear_value s
  obtain ⟨-, hdoc, s', hs', -, -, -, hresults⟩ := hend
  exact ⟨hreported, owner, hs, hdoc, s', hs', hresults⟩

end Schedule

end Conductor
