import Conductor.Proofs.Run.Bookkeeping
import Conductor.Proofs.Schedule.Steady

/-!
# The ledger of tasks side by side

Tasks that are composed of requirements, scripts and quiet work take turns on one loader,
in any order, and are interrupted at any time. In every state that this leads to there is a
balanced ledger: who did what to which load. A task that waits for a load has its place among
those who wait until the load is settled, and then goes on with the outcome that it was
settled with; a task that is interrupted meanwhile goes on with that.
-/

set_option autoImplicit false

namespace Conductor

open Conductor.Module
open Relation (ReflTransGen)

namespace Step

variable {σ ε α β : Type}

def into (x : Step σ ε α) (K : Except ε α → σ → Step σ ε β) : Step σ ε β :=
  match x with
  | done a s => K (.ok a) s
  | fail e s => K (.error e) s
  | wait w s resume => wait w s fun raised s' => (resume raised s').into K

def ended : Except ε α → σ → Step σ ε α
  | .ok a => done a
  | .error e => fail e

theorem into_ended (x : Step σ ε α) : x.into ended = x := by
  induction x with
  | done a s => rfl
  | fail e s => rfl
  | wait w s resume ih => exact congrArg (wait w s) (funext fun raised => funext (ih raised))

end Step

namespace Schedule

variable {α : Type}

/-- A task that can go on once others have moved, but after a wait for a load not before the load was settled. -/
def Follows (i : Nat) (waits : Option Nat) (A : Ledger) (next : Play α) : Prop :=
  ∀ g m, g.loader = m.world.loader → ReflTransGen (Others i) A g →
    (∀ t, waits = some t → m.world.loader.outcomes.get? t ≠ none) →
    (next m).Meets (Ledger.pause i) (fun _ g' m' => ∃ h, Turning i g' h m') (fun _ g' m' => ∃ h, Turning i g' h m') g

def Prepared (s : Schedule α) (i : Nat) (waits : Option Nat) (A : Ledger) : Prop :=
  ∃ task raise, s.tasks[i]? = some task ∧ s.handlers[i]? = some raise ∧ s.results[i]? = some none ∧
    Follows i waits A task.next ∧ Follows i none A (raise Signal.interruption)

/-- A state with the account of its loads. What a task waits for, or waited for when it had its last turn, is in `waits`. -/
structure Accounted (s : Schedule α) (owner : Nat → Option Nat) (h : History) (waits : Nat → Option Nat) : Prop where
  balanced : Balanced ⟨h, s.world.loader⟩
  owned : ∀ {i t : Nat}, owner t = some i ↔ ∃ a, (i, .began a t) ∈ h
  once : s.places.Nodup
  waiting : ∀ {t i : Nat}, (t, i) ∈ s.waiting → s.world.loader.outcomes.get? t = none ∧ waits i = some t
  called : ∀ {turn : Turn}, turn ∈ s.ready → ∀ t, waits turn.index = some t → s.world.loader.outcomes.get? t ≠ none
  able : ∀ {i : Nat}, i ∈ s.places → Prepared s i (waits i) ⟨h, s.world.loader⟩

theorem Follows.mono {i : Nat} {waits : Option Nat} {A B : Ledger} {next : Play α} (h : Follows i waits A next)
    (hAB : ReflTransGen (Others i) A B) : Follows i waits B next :=
  fun g m hloader hothers hanswer => h g m hloader (hAB.trans hothers) hanswer

structure Kept (s s' : Schedule α) (i : Nat) : Prop where
  task : s'.tasks[i]? = s.tasks[i]?
  handler : s'.handlers[i]? = s.handlers[i]?
  result : s'.results[i]? = s.results[i]?

theorem Prepared.kept {s s' : Schedule α} {i : Nat} {waits : Option Nat} {A B : Ledger} (h : Prepared s i waits A)
    (hs : Kept s s' i) (hAB : ReflTransGen (Others i) A B) : Prepared s' i waits B := by
  obtain ⟨task, raise, htask, hraise, hresult, hnext, hinterrupted⟩ := h
  exact ⟨task, raise, hs.task.trans htask, hs.handler.trans hraise, hs.result.trans hresult, hnext.mono hAB,
    hinterrupted.mono hAB⟩

structure Parked (s s' : Schedule α) (i : Nat) (session : Session) (resume : Option Signal → Play α) : Prop where
  tasks : s'.tasks = s.tasks.setIfInBounds i ⟨session, resume none⟩
  handlers : s'.handlers = s.handlers.setIfInBounds i fun e => resume (some e)
  results : s'.results = s.results

namespace Parked

variable {s s' : Schedule α} {i : Nat} {session : Session} {resume : Option Signal → Play α}

theorem task (h : Parked s s' i session resume) (hi : i < s.tasks.size) : s'.tasks[i]? = some ⟨session, resume none⟩ := by
  rw [h.tasks]
  exact Array.getElem?_setIfInBounds_self_of_lt hi

theorem handler (h : Parked s s' i session resume) (hi : i < s.handlers.size) :
    s'.handlers[i]? = some fun e => resume (some e) := by
  rw [h.handlers]
  exact Array.getElem?_setIfInBounds_self_of_lt hi

theorem kept (h : Parked s s' i session resume) {j : Nat} (hj : j ≠ i) : Kept s s' j := by
  refine ⟨?_, ?_, by rw [h.results]⟩
  · rw [h.tasks]
    exact Array.getElem?_setIfInBounds_ne (Ne.symm hj)
  · rw [h.handlers]
    exact Array.getElem?_setIfInBounds_ne (Ne.symm hj)

end Parked

theorem follows_of_keeps {i : Nat} {waits : Option Nat} {A : Ledger} {next : Play α} (hb : Balanced A) (h : Keeps next) :
    Follows i waits A next := by
  rintro ⟨hist, l⟩ m hloader hothers -
  cases hloader
  have hturn : Turning i ⟨hist, m.world.loader⟩ hist m := ⟨hb.moves (moves_of_others hothers), .refl⟩
  refine (h.meets hturn).mono (Ledger.pause_monotone i) ?_ ?_
  · rintro _ g' m' ⟨h', hturn', -⟩
    exact ⟨h', hturn'⟩
  · rintro _ g' m' ⟨h', hturn', -⟩
    exact ⟨h', hturn'⟩

/-! ## One turn -/

section

variable {s s' : Schedule α} {owner : Nat → Option Nat} {h h' : History} {waits : Nat → Option Nat} {i : Nat}
  {rest : List Turn} {m : Machine}

structure Left (s s' : Schedule α) (waits waits' : Nat → Option Nat) (j : Nat) : Prop where
  kept : Kept s s' j
  place : j ∈ s.places → j ∈ s'.places
  waits : waits' j = waits j

def GoesOn (s s' : Schedule α) (turn : Turn) (owner : Nat → Option Nat) (h : History) (waits : Nat → Option Nat) : Prop :=
  ∃ h' waits', Accounted s' (credit s s' turn.index owner) h' waits' ∧
    ReflTransGen Moves ⟨h, s.world.loader⟩ ⟨h', s'.world.loader⟩ ∧ ∀ j, turn ≠ .task j → Left s s' waits waits' j

theorem Accounted.owned_next (hacc : Accounted s owner h waits) (hturn : Turning i ⟨h, s.world.loader⟩ h' m)
    (hworld : s'.world = m.world) (j t : Nat) :
    credit s s' i owner t = some j ↔ ∃ a, (j, .began a t) ∈ h' := by
  obtain ⟨hle, hbegan⟩ := began_iff_of_own (j := j) (t := t) hturn.moves
  rw [hbegan, credit, hworld]
  have hold : (∃ a, (j, .began a t) ∈ h) → t < s.world.loader.tickets := by
    rintro ⟨a, ha⟩
    exact hacc.balanced.drawn ha
  split
  · next hrange =>
    constructor
    · intro heq
      exact .inl ⟨hrange.1, hrange.2, (Option.some.inj heq).symm⟩
    · rintro (⟨-, -, rfl⟩ | hbefore)
      · rfl
      · exact absurd (hold hbefore) (Nat.not_lt.mpr hrange.1)
  · next hrange =>
    rw [hacc.owned]
    constructor
    · exact .inr
    · rintro (⟨hfrom, hto, -⟩ | hbefore)
      · exact absurd ⟨hfrom, hto⟩ hrange
      · exact hbefore

theorem Accounted.called_next (hacc : Accounted s owner h waits) (hready : s.ready.Perm (.task i :: rest))
    (hturn : Turning i ⟨h, s.world.loader⟩ h' m) {turn : Turn} (hmem : turn ∈ (s.handOver rest m.world).ready) {t : Nat}
    (hwaits : waits turn.index = some t) : m.world.loader.outcomes.get? t ≠ none := by
  have hafter : After ⟨h, s.world.loader⟩ ⟨h', m.world.loader⟩ := .moves hacc.balanced (moves_of_own hturn.moves)
  rcases mem_spread_ready.mp hmem with hbefore | ⟨t', j, rfl, hj, ht'⟩
  · have hsome := hacc.called (hready.symm.subset (List.mem_cons_of_mem _ hbefore)) t hwaits
    obtain ⟨o, ho⟩ := Option.ne_none_iff_exists'.mp hsome
    rw [hafter.get?_outcomes ho]
    exact Option.some_ne_none o
  · obtain ⟨hnone, hwaits'⟩ := hacc.waiting hj
    obtain rfl : t' = t := Option.some.inj (hwaits'.symm.trans hwaits)
    exact (settledBy_iff hafter.outcomes hnone).mp ht'

theorem Accounted.next (own : Option Nat) (hacc : Accounted s owner h waits) (hready : s.ready.Perm (.task i :: rest))
    (hturn : Turning i ⟨h, s.world.loader⟩ h' m) (hworld : s'.world = m.world)
    (hplaces : s'.places.Perm (s.handOver rest m.world).places ∨
      s'.places.Perm (i :: (s.handOver rest m.world).places) ∧ Prepared s' i own ⟨h', m.world.loader⟩)
    (hwaiting : ∀ t j, (t, j) ∈ s'.waiting → (t, j) ∈ (s.handOver rest m.world).waiting ∨
      j = i ∧ own = some t ∧ m.world.loader.outcomes.get? t = none)
    (hcalled : ∀ turn ∈ s'.ready, turn ∈ (s.handOver rest m.world).ready ∨ turn = .task i ∧ own = none)
    (hkept : ∀ j, j ≠ i → Kept s s' j) : GoesOn s s' (.task i) owner h waits := by
  have hkeys : (settledBy s.world.loader.outcomes.length m.world).Nodup :=
    hturn.now.keys.sublist ((List.drop_sublist _ _).map _)
  have hperm := places_handOver hready hkeys
  have hnodup : (i :: (s.handOver rest m.world).places).Nodup := hperm.nodup_iff.mpr hacc.once
  have hi : i ∉ (s.handOver rest m.world).places := (List.nodup_cons.mp hnodup).1
  have hothers (j : Nat) (hj : j ≠ i) : j ∈ s'.places ↔ j ∈ s.places := by
    rw [← hperm.mem_iff]
    rcases hplaces with hended | ⟨hgoes, -⟩
    · rw [hended.mem_iff, List.mem_cons, or_iff_right hj]
    · rw [hgoes.mem_iff]
  have hafter : After ⟨h, s.world.loader⟩ ⟨h', m.world.loader⟩ := .moves hacc.balanced (moves_of_own hturn.moves)
  refine ⟨h', Function.update waits i own, ?_, hworld ▸ moves_of_own hturn.moves, fun j hj => ?_⟩
  rotate_left
  · have hne : j ≠ i := fun heq => hj (heq ▸ rfl)
    exact ⟨hkept j hne, (hothers j hne).mpr, Function.update_of_ne hne _ _⟩
  constructor
  case balanced => exact hworld ▸ hturn.now
  case owned => exact hacc.owned_next hturn hworld _ _
  case once =>
    rcases hplaces with hended | ⟨hgoes, -⟩
    · exact hended.nodup_iff.mpr (List.nodup_cons.mp hnodup).2
    · exact hgoes.nodup_iff.mpr hnodup
  case waiting =>
    intro t j hj
    rw [hworld]
    rcases hwaiting t j hj with hold | ⟨rfl, hown, hnone⟩
    · have hne : j ≠ i := by
        rintro rfl
        exact hi (List.mem_append_right _ (List.mem_map.mpr ⟨_, hold, rfl⟩))
      obtain ⟨hbefore, ht⟩ := mem_spread_waiting.mp hold
      obtain ⟨hnone, hwaits⟩ := hacc.waiting hbefore
      refine ⟨not_not.mp ((settledBy_iff hafter.outcomes hnone).not.mp ht), ?_⟩
      rw [Function.update_of_ne hne, hwaits]
    · exact ⟨hnone, by rw [Function.update_self, hown]⟩
  case called =>
    intro turn hmem t hwaits
    rw [hworld]
    rcases hcalled turn hmem with hold | ⟨rfl, hown⟩
    · have hne : turn.index ≠ i := by
        intro heq
        exact hi (List.mem_append_left _ (List.mem_map.mpr ⟨_, hold, heq⟩))
      exact hacc.called_next hready hturn hold (by rwa [Function.update_of_ne hne] at hwaits)
    · rw [Turn.index, Function.update_self, hown] at hwaits
      cases hwaits
  case able =>
    intro j hj
    rw [hworld]
    by_cases hji : j = i
    · subst hji
      rw [Function.update_self]
      rcases hplaces with hended | ⟨-, hable⟩
      · exact absurd (hended.mem_iff.mp hj) hi
      · exact hable
    · rw [Function.update_of_ne hji]
      refine (hacc.able ((hothers j hji).mp hj)).kept (hkept j hji) ?_
      exact ReflTransGen.mono (fun _ _ hmove => ⟨i, Ne.symm hji, hmove⟩) _ _ hturn.moves

theorem Accounted.serve_task (hacc : Accounted s owner h waits) (hready : s.ready.Perm (.task i :: rest))
    (hs' : s' = ({ s with ready := .task i :: rest } : Schedule α).step) : GoesOn s s' (.task i) owner h waits := by
  have hmem : Turn.task i ∈ s.ready := hready.symm.subset List.mem_cons_self
  obtain ⟨task, raise, htask, hraise, hresult, hfollows, -⟩ := hacc.able (mem_places_of_turn hready)
  have hmeets := hfollows ⟨h, s.world.loader⟩ ⟨task.session, s.world⟩ rfl .refl (hacc.called hmem)
  have hsize : i < s.tasks.size := (Array.getElem?_eq_some_iff.mp htask).1
  have hsize' : i < s.handlers.size := (Array.getElem?_eq_some_iff.mp hraise).1
  -- a task that has ended has no place any more
  have hend {m : Machine} {r : Except Signal α} (hturn : ∃ h', Turning i ⟨h, s.world.loader⟩ h' m)
      (heq : s' = (s.handOver rest m.world).finish i r) : GoesOn s s' (.task i) owner h waits := by
    obtain ⟨h', hturn⟩ := hturn
    subst heq
    exact hacc.next none hready hturn rfl (.inl (List.Perm.refl _)) (fun _ _ => .inl) (fun _ => .inl) fun j hj =>
      ⟨rfl, rfl, Array.getElem?_setIfInBounds_ne (Ne.symm hj)⟩
  cases hrun : task.next ⟨task.session, s.world⟩ with
  | done a m =>
    rw [hrun] at hmeets
    exact hend hmeets (hs'.trans (step_done htask hrun))
  | fail e m =>
    rw [hrun] at hmeets
    exact hend hmeets (hs'.trans (step_fail htask hrun))
  | wait wait m resume =>
    rw [hrun] at hmeets
    obtain ⟨h', hturn, hload, hresume⟩ := hmeets
    -- it goes on where it waits, or with its interruption
    have hprepared {own : Option Nat} (hwait : ∀ t, wait = .load t → own = some t)
        (hparked : Parked s s' i m.session resume) : Prepared s' i own ⟨h', m.world.loader⟩ := by
      refine ⟨_, _, hparked.task hsize, hparked.handler hsize', hparked.results ▸ hresult, ?_, ?_⟩
      · exact fun g m' hloader hothers hanswer =>
          hresume none g m' (.answered hloader hothers fun t ht => hanswer t (hwait t ht))
      · exact fun g m' hloader hothers _ =>
          hresume (some Signal.interruption) g m' (.raised hloader hothers)
    cases wait with
    | turn =>
      rw [step_turn htask hrun] at hs'
      have hparked : Parked s s' i m.session resume := by rw [hs']; exact ⟨rfl, rfl, rfl⟩
      subst hs'
      refine hacc.next none hready hturn rfl (.inr ⟨places_queued rfl rfl, hprepared nofun hparked⟩) (fun _ _ => .inl)
        (fun turn hturn' => ?_) fun j hj => hparked.kept hj
      exact (List.mem_append.mp hturn').imp_right fun heq => ⟨List.mem_singleton.mp heq, rfl⟩
    | load t =>
      rw [step_load htask hrun] at hs'
      have hparked : Parked s s' i m.session resume := by rw [hs']; exact ⟨rfl, rfl, rfl⟩
      subst hs'
      refine hacc.next (some t) hready hturn rfl (.inr ⟨places_parked rfl rfl, hprepared ?_ hparked⟩) (fun t' j hj => ?_)
        (fun _ => .inl) fun j hj => hparked.kept hj
      · rintro _ ⟨⟩
        rfl
      · refine (List.mem_append.mp hj).imp_right fun heq => ?_
        obtain ⟨rfl, rfl⟩ := Prod.mk.inj (List.mem_singleton.mp heq)
        obtain ⟨a, hloading⟩ := hload t' rfl
        exact ⟨rfl, rfl, (hturn.now.loading.mp hloading).2⟩

theorem Accounted.serve_news (hacc : Accounted s owner h waits) (hready : s.ready.Perm (.news i :: rest)) :
    GoesOn s ({ s with ready := .news i :: rest } : Schedule α).step (.news i) owner h waits := by
  let s' : Schedule α := { s with ready := rest ++ [.task i] }
  have hplaces : s'.places.Perm s.places := by
    refine List.Perm.append_right _ (List.Perm.trans ?_ (hready.map Turn.index).symm)
    rw [List.map_append]
    exact List.perm_append_singleton i _
  have hcredit : credit s s' i owner = owner := by
    funext t
    exact if_neg fun ht => absurd (ht.1.trans_lt ht.2) (lt_irrefl _)
  refine ⟨h, waits, ?_, .refl, fun j _ => ⟨⟨rfl, rfl, rfl⟩, hplaces.mem_iff.mpr, rfl⟩⟩
  show Accounted s' (credit s s' i owner) h waits
  rw [hcredit]
  refine ⟨hacc.balanced, hacc.owned, hplaces.nodup_iff.mpr hacc.once, hacc.waiting, ?_, ?_⟩
  · intro turn hturn t ht
    rcases List.mem_append.mp hturn with hturn | hturn
    · exact hacc.called (hready.symm.subset (List.mem_cons_of_mem _ hturn)) t ht
    · rw [List.mem_singleton.mp hturn] at ht
      have hnews : Turn.news i ∈ s.ready := hready.symm.subset List.mem_cons_self
      exact hacc.called hnews t ht
  · exact fun hi => hacc.able (hplaces.subset hi)

/-- What one turn preserves. -/
theorem Accounted.serve {turn : Turn} (hacc : Accounted s owner h waits) (hs : Serves s turn s') :
    GoesOn s s' turn owner h waits := by
  obtain ⟨rest, hready⟩ := hs
  cases turn with
  | task i => exact hacc.serve_task hready rfl
  | news i => exact hacc.serve_news hready

/-! ## Interruptions -/

/-- What an interruption leaves to the task that it is of: it has its turn still, and goes on with that in it. -/
structure Stopped (s s' : Schedule α) (waits : Nat → Option Nat) (i : Nat) : Prop where
  task : ∃ task raise, s.tasks[i]? = some task ∧ s.handlers[i]? = some raise ∧
    s'.tasks[i]? = some { task with next := raise Signal.interruption }
  handler : s'.handlers[i]? = s.handlers[i]?
  waits : waits i = none

theorem Accounted.interrupted {task : Task α} {raise : Signal → Play α} (hacc : Accounted s owner h waits)
    (hs : Interrupts s i task raise) :
    Accounted (s.interrupt i) owner h (Function.update waits i none) ∧
      (∀ j, j ≠ i → Left s (s.interrupt i) waits (Function.update waits i none) j) ∧
      Stopped s (s.interrupt i) (Function.update waits i none) i := by
  have hplaces := places_interrupt s i
  have hsize : i < s.tasks.size := (Array.getElem?_eq_some_iff.mp hs.held).1
  have htask : (s.interrupt i).tasks[i]? = some { task with next := raise Signal.interruption } := by
    rw [hs.eq]
    exact Array.getElem?_setIfInBounds_self_of_lt hsize
  have hhandlers : (s.interrupt i).handlers = s.handlers := by rw [hs.eq]
  have hresults : (s.interrupt i).results = s.results := by rw [hs.eq]
  have hkept (j : Nat) (hj : j ≠ i) : Kept s (s.interrupt i) j := by
    refine ⟨?_, by rw [hhandlers], by rw [hresults]⟩
    rw [hs.eq]
    exact Array.getElem?_setIfInBounds_ne (Ne.symm hj)
  refine ⟨?_, fun j hj => ⟨hkept j hj, hplaces.mem_iff.mpr, Function.update_of_ne hj _ _⟩,
    ⟨⟨task, raise, hs.held, hs.handled, htask⟩, by rw [hhandlers], Function.update_self ..⟩⟩
  constructor
  case balanced => exact (world_interrupt s i).symm ▸ hacc.balanced
  case owned => exact hacc.owned
  case once => exact hplaces.nodup_iff.mpr hacc.once
  case waiting =>
    intro t j hj
    rw [hs.eq] at hj
    obtain ⟨hj, hne⟩ := List.mem_filter.mp hj
    rw [world_interrupt, Function.update_of_ne (by simpa using hne)]
    exact hacc.waiting hj
  case called =>
    intro turn hturn t ht
    rw [world_interrupt]
    by_cases hne : turn.index = i
    · rw [hne, Function.update_self] at ht
      cases ht
    · rw [Function.update_of_ne hne] at ht
      rw [hs.eq] at hturn
      rcases List.mem_append.mp hturn with hturn | hturn
      · exact hacc.called hturn t ht
      · obtain ⟨e, he, rfl⟩ := List.mem_map.mp hturn
        exact absurd (eq_of_beq (List.mem_filter.mp he).2) hne
  case able =>
    intro j hj
    rw [world_interrupt]
    by_cases hne : j = i
    · subst hne
      obtain ⟨task', raise', -, hraise, hresult, -, hinterrupted⟩ := hacc.able (hplaces.mem_iff.mp hj)
      obtain rfl : raise = raise' := Option.some.inj (hs.handled.symm.trans hraise)
      rw [Function.update_self]
      exact ⟨_, raise, htask, hhandlers ▸ hraise, hresults ▸ hresult, hinterrupted, hinterrupted⟩
    · rw [Function.update_of_ne hne]
      exact (hacc.able (hplaces.mem_iff.mp hj)).kept (hkept j hne) .refl

/-- What an interruption preserves. -/
theorem Accounted.interrupt (hacc : Accounted s owner h waits) (i : Nat) :
    ∃ waits', Accounted (s.interrupt i) owner h waits' ∧ (∀ j, j ≠ i → Left s (s.interrupt i) waits waits' j) ∧
      (i ∈ s.places → Stopped s (s.interrupt i) waits' i) := by
  rcases interrupts_or s i with ⟨task, raise, hs⟩ | ⟨heq, hnone⟩
  · obtain ⟨hacc', hleft, hstopped⟩ := hacc.interrupted hs
    exact ⟨_, hacc', hleft, fun _ => hstopped⟩
  · rw [heq]
    refine ⟨waits, hacc, fun j _ => ⟨⟨rfl, rfl, rfl⟩, id, rfl⟩, fun hi => ?_⟩
    obtain ⟨task, raise, htask, hraise, hresult, -⟩ := hacc.able hi
    exact absurd hresult (hnone task raise htask hraise)

/-! ## Any order of turns -/

theorem Accounted.arrives {owner' : Nat → Option Nat} (hacc : Accounted s owner h waits) (hs : Arrives s s' owner') :
    ∃ h' waits', Accounted s' (fun t => (owner' t).or (owner t)) h' waits' ∧
      ReflTransGen Moves ⟨h, s.world.loader⟩ ⟨h', s'.world.loader⟩ := by
  induction hs with
  | start => exact ⟨h, waits, hacc, .refl⟩
  | @turn s₁ s₂ owner' turn _ hserves ih =>
    obtain ⟨h₁, waits₁, hacc₁, hmoves₁⟩ := ih
    obtain ⟨h₂, waits₂, hacc₂, hmoves₂, -⟩ := hacc₁.serve hserves
    refine ⟨h₂, waits₂, ?_, hmoves₁.trans hmoves₂⟩
    have hcredit : (fun t => (credit s₁ s₂ turn.index owner' t).or (owner t)) =
        credit s₁ s₂ turn.index fun t => (owner' t).or (owner t) := by
      funext t
      unfold credit
      split <;> rfl
    rw [hcredit]
    exact hacc₂
  | interruption _ i ih =>
    obtain ⟨h₁, waits₁, hacc₁, hmoves₁⟩ := ih
    obtain ⟨waits₂, hacc₂, -⟩ := hacc₁.interrupt i
    exact ⟨h₁, waits₂, hacc₂, by rw [world_interrupt]; exact hmoves₁⟩

/-- Between two turns of a task others are served, and anybody is interrupted; it is told whether the task itself is. -/
inductive Meanwhile (i : Nat) (s : Schedule α) : Bool → Schedule α → Prop
  | start : Meanwhile i s false s
  | turn {s₁ s₂ : Schedule α} {interrupted : Bool} {turn : Turn} (h : Meanwhile i s interrupted s₁) (hturn : turn ≠ .task i)
      (hs : Serves s₁ turn s₂) : Meanwhile i s interrupted s₂
  | interruption {s₁ : Schedule α} {interrupted : Bool} (h : Meanwhile i s interrupted s₁) (j : Nat) :
      Meanwhile i s (interrupted || j == i) (s₁.interrupt j)

structure Stands (s s' : Schedule α) (waits waits' : Nat → Option Nat) (i : Nat) (interrupted : Bool) : Prop where
  place : i ∈ s'.places
  handler : s'.handlers[i]? = s.handlers[i]?
  going : interrupted = false → s'.tasks[i]? = s.tasks[i]? ∧ waits' i = waits i
  stopped : interrupted = true → Stopped s s' waits' i

section

variable {s₁ : Schedule α} {waits₁ waits₂ : Nat → Option Nat} {interrupted : Bool}

theorem Stopped.left (hs : Stopped s s' waits i) (h : Left s' s₁ waits waits₁ i) : Stopped s s₁ waits₁ i := by
  obtain ⟨task, raise, htask, hraise, hnext⟩ := hs.task
  exact ⟨⟨task, raise, htask, hraise, h.kept.task.trans hnext⟩, h.kept.handler.trans hs.handler, h.waits.trans hs.waits⟩

theorem Stands.left (hs : Stands s s' waits waits₁ i interrupted) (h : Left s' s₁ waits₁ waits₂ i) :
    Stands s s₁ waits waits₂ i interrupted := by
  refine ⟨h.place hs.place, h.kept.handler.trans hs.handler, fun hgoing => ?_, fun hstopped => (hs.stopped hstopped).left h⟩
  obtain ⟨htask, hwaits⟩ := hs.going hgoing
  exact ⟨h.kept.task.trans htask, h.waits.trans hwaits⟩

theorem Stands.stop (hs : Stands s s' waits waits₁ i interrupted) (hplace : i ∈ s₁.places) (h : Stopped s' s₁ waits₂ i) :
    Stands s s₁ waits waits₂ i true := by
  refine ⟨hplace, h.handler.trans hs.handler, nofun, fun _ => ⟨?_, h.handler.trans hs.handler, h.waits⟩⟩
  obtain ⟨task, raise, htask, hraise, hnext⟩ := h.task
  have hhandler := hs.handler.symm.trans hraise
  cases hi : interrupted with
  | false => exact ⟨task, raise, (hs.going hi).1.symm.trans htask, hhandler, hnext⟩
  | true =>
    -- whoever is interrupted again goes on as before
    obtain ⟨task', raise', htask', hraise', hnext'⟩ := (hs.stopped hi).task
    obtain rfl := Option.some.inj (htask.symm.trans hnext')
    obtain rfl := Option.some.inj (hhandler.symm.trans hraise')
    exact ⟨task', raise, htask', hraise', hnext⟩

end

theorem Accounted.meanwhile {interrupted : Bool} (hacc : Accounted s owner h waits) (hi : i ∈ s.places)
    (hs : Meanwhile i s interrupted s') :
    ∃ owner' h' waits', Accounted s' owner' h' waits' ∧ Stands s s' waits waits' i interrupted := by
  induction hs with
  | start => exact ⟨owner, h, waits, hacc, hi, rfl, fun _ => ⟨rfl, rfl⟩, nofun⟩
  | @turn s₁ s₂ interrupted turn _ hturn hserves ih =>
    obtain ⟨owner₁, h₁, waits₁, hacc₁, hstands⟩ := ih
    obtain ⟨h₂, waits₂, hacc₂, -, hleft⟩ := hacc₁.serve hserves
    exact ⟨_, h₂, waits₂, hacc₂, hstands.left (hleft i hturn)⟩
  | @interruption s₁ interrupted _ j ih =>
    obtain ⟨owner₁, h₁, waits₁, hacc₁, hstands⟩ := ih
    obtain ⟨waits₂, hacc₂, hleft, hstopped⟩ := hacc₁.interrupt j
    by_cases hj : j = i
    · subst hj
      have hstopped := hstands.stop ((places_interrupt s₁ j).mem_iff.mpr hstands.place) (hstopped hstands.place)
      exact ⟨_, h₁, waits₂, hacc₂, by simpa using hstopped⟩
    · have hsame : (interrupted || j == i) = interrupted := by simp [hj]
      rw [hsame]
      exact ⟨_, h₁, waits₂, hacc₂, hstands.left (hleft i (Ne.symm hj))⟩

end

theorem accounted_start {w : World} {tasks : List (Task α)} (hunused : Unused w.loader)
    (htasks : ∀ task ∈ tasks, ∃ n, Composed (Play.outer n) task.next) :
    Accounted (ofTasks w tasks) (fun _ => none) [] fun _ => none := by
  have hplaces : (ofTasks w tasks).places = List.range tasks.length := by
    simp only [places, ofTasks, List.map_map, List.map_nil, List.append_nil]
    exact List.map_id _
  have hthrow : Keeps (throw Signal.interruption : Play α) := ⟨fun hturn => hturn.went⟩
  refine ⟨hunused.balanced, by simp, hplaces ▸ List.nodup_range, by simp [ofTasks], by simp, fun {i} hi => ?_⟩
  rw [hplaces, List.mem_range] at hi
  obtain ⟨n, hcomposed⟩ := htasks _ (List.getElem_mem hi)
  exact ⟨tasks[i], throw, by simp [ofTasks, hi], by simp [ofTasks, hi], by simp [ofTasks, hi],
    follows_of_keeps hunused.balanced hcomposed.keeps, follows_of_keeps hunused.balanced hthrow⟩

/-! ## Those who wait -/

/-- What the caller of a load gets for an outcome: the functions, or the error, with what was missing of its place. -/
inductive Conveys : Outcome → Except Signal (Table String Entry) → Prop
  | functions (f : Table String Entry) : Conveys (.ok f) (.ok f)
  | error (c : Condition) (line : Option Nat) (function domain : Option String) :
      Conveys (.error c) (.error (.problem (.condition (c.withContext line function domain))))

/-- A task asks for a module whose load is under way, and does `K` with what it gets. -/
def Joins (s : Schedule α) (i t : Nat) (K : Except Signal (Table String Entry) → Machine → Step Machine Signal α) : Prop :=
  ∃ task o identifier base stack m l, s.tasks[i]? = some task ∧
    task.next ⟨task.session, s.world⟩ = (Play.load o identifier base stack m).into K ∧
    target m.world (identifier, base) = .ok l ∧ m.world.loader.enter stack identifier l.text = .busy t

/-- What becomes of a task that waits for a load. While the load is under way it waits. After that it has a turn, in which
it does `K` with the outcome. If it is interrupted meanwhile it does `K` with that, and waits no longer. -/
inductive Learns (s : Schedule α) (i t : Nat) (K : Except Signal (Table String Entry) → Machine → Step Machine Signal α) :
    Bool → Prop
  | waits (hnone : s.world.loader.outcomes.get? t = none) (hwaits : (t, i) ∈ s.waiting) : Learns s i t K false
  | told {o : Outcome} {result : Except Signal (Table String Entry)} {turn : Turn} {task : Task α}
      (houtcome : s.world.loader.outcomes.get? t = some o) (hconveys : Conveys o result) (hturn : turn ∈ s.ready)
      (hindex : turn.index = i) (htask : s.tasks[i]? = some task)
      (hnext : task.next ⟨task.session, s.world⟩ = K result ⟨task.session, s.world⟩) : Learns s i t K false
  | stopped {turn : Turn} {task : Task α} (hturn : turn ∈ s.ready) (hindex : turn.index = i)
      (htask : s.tasks[i]? = some task)
      (hnext : task.next ⟨task.session, s.world⟩ = K (.error Signal.interruption) ⟨task.session, s.world⟩) :
      Learns s i t K true

theorem told_into {K : Except Signal (Table String Entry) → Machine → Step Machine Signal α} {t : Nat} {o : Outcome}
    {m : Machine} (ho : m.world.loader.outcomes.get? t = some o) :
    ∃ result, Conveys o result ∧ (Play.told t m).into K = K result m := by
  have htold : Play.told t m = Play.liftC (o.mapError m.world.loader.latest) m := by
    simp only [Play.told, Run.bind_apply, Play.world_apply, Step.bind, ho]
  rw [htold]
  cases o with
  | ok f => exact ⟨.ok f, .functions f, rfl⟩
  | error c =>
    have hlatest : ∃ line function domain, m.world.loader.latest c = c.withContext line function domain := by
      unfold Loader.latest
      split
      · exact ⟨_, _, _, rfl⟩
      · exact ⟨none, none, none, by simp [Condition.withContext]⟩
    obtain ⟨line, function, domain, hlatest⟩ := hlatest
    refine ⟨_, .error c line function domain, ?_⟩
    rw [← hlatest]
    rfl

/-- From the turn in which a task asks for such a module on, it waits for the load and learns its outcome, or is
interrupted. -/
theorem Accounted.learns {s s₁ s₂ : Schedule α} {owner : Nat → Option Nat} {h : History} {waits : Nat → Option Nat}
    {i t : Nat} {K : Except Signal (Table String Entry) → Machine → Step Machine Signal α} {interrupted : Bool}
    (hacc : Accounted s owner h waits) (hjoins : Joins s i t K) (hserves : Serves s (.task i) s₁)
    (hmeanwhile : Meanwhile i s₁ interrupted s₂) : Learns s₂ i t K interrupted := by
  obtain ⟨task, o, identifier, base, stack, m, l, htask, hnext, htarget, henter⟩ := hjoins
  obtain ⟨sought, hwait⟩ := Play.load_busy o htarget henter
  rw [hwait] at hnext
  obtain ⟨h₁, waits₁, hacc₁, -, -⟩ := hacc.serve hserves
  have hplace₀ : i ∈ s.places := by
    obtain ⟨rest, hready⟩ := hserves
    exact List.mem_append_left _ (List.mem_map.mpr ⟨_, hready.symm.subset List.mem_cons_self, rfl⟩)
  obtain ⟨-, raise, -, hraise, -⟩ := hacc.able hplace₀
  -- the turn in which it asks
  obtain ⟨hwaiting, hparked⟩ : (t, i) ∈ s₁.waiting ∧
      Parked s s₁ i m.session fun raised m' => (Play.answered t raised m').into K := by
    obtain ⟨rest, hready⟩ := hserves
    rw [step_load htask hnext]
    exact ⟨List.mem_append_right _ (List.mem_singleton_self _), rfl, rfl, rfl⟩
  have htask₁ := hparked.task (Array.getElem?_eq_some_iff.mp htask).1
  have hhandler₁ := hparked.handler (Array.getElem?_eq_some_iff.mp hraise).1
  have hplace : i ∈ s₁.places := List.mem_append_right _ (List.mem_map.mpr ⟨_, hwaiting, rfl⟩)
  have hwaits₁ := (hacc₁.waiting hwaiting).2
  -- what happens meanwhile
  obtain ⟨owner₂, h₂, waits₂, hacc₂, hstands⟩ := hacc₁.meanwhile hplace hmeanwhile
  cases interrupted with
  | true =>
    obtain ⟨⟨task', raise', htask', hraise', hnext'⟩, -, hwaits₂⟩ := hstands.stopped rfl
    obtain rfl := Option.some.inj (htask₁.symm.trans htask')
    obtain rfl := Option.some.inj (hhandler₁.symm.trans hraise')
    rcases List.mem_append.mp hstands.place with hready | hwaiting₂
    · obtain ⟨turn, hturn, hindex⟩ := List.mem_map.mp hready
      exact .stopped hturn hindex hnext' rfl
    · obtain ⟨⟨t', j⟩, hmem, rfl⟩ := List.mem_map.mp hwaiting₂
      exact absurd ((hacc₂.waiting hmem).2.symm.trans hwaits₂) (Option.some_ne_none _)
  | false =>
    obtain ⟨htask₂, hwaits₂⟩ := hstands.going rfl
    have hwaits₂ : waits₂ i = some t := hwaits₂.trans hwaits₁
    rcases List.mem_append.mp hstands.place with hready | hwaiting₂
    · obtain ⟨turn, hturn, rfl⟩ := List.mem_map.mp hready
      obtain ⟨outcome, houtcome⟩ := Option.ne_none_iff_exists'.mp (hacc₂.called hturn t hwaits₂)
      obtain ⟨result, hconveys, hinto⟩ := told_into (m := ⟨m.session, s₂.world⟩) (K := K) houtcome
      exact .told houtcome hconveys hturn rfl (htask₂.trans htask₁) hinto
    · obtain ⟨⟨t', j⟩, hmem, rfl⟩ := List.mem_map.mp hwaiting₂
      obtain ⟨hnone, hwaits⟩ := hacc₂.waiting hmem
      obtain rfl : t = t' := Option.some.inj (hwaits₂.symm.trans hwaits)
      exact .waits hnone hmem

/-- One module on the web, and two tasks that ask for it, the first in its first turn. -/
def shared (module : HostModule) : Schedule (Table String Entry) :=
  (loading { loader := { sources := some [("http://h/a.py", .module module)] } } 1
    [("http://h/a.py", none), ("http://h/a.py", none)]).step

theorem shared_served (module : HostModule) :
    Serves (loading { loader := { sources := some [("http://h/a.py", .module module)] } } 1
      [("http://h/a.py", none), ("http://h/a.py", none)]) (.task 0) (shared module) := by
  exact serves_step rfl

theorem shared_ready (module : HostModule) : (shared module).ready = [.task 1, .task 0] := rfl

theorem shared_joins (module : HostModule) : Joins (shared module) 1 0 Step.ended := by
  refine ⟨⟨{}, Play.load (Play.outer 1) "http://h/a.py" none []⟩, Play.outer 1, "http://h/a.py", none, [],
    ⟨{}, (shared module).world⟩, ⟨.url, "http://h/a.py", .host⟩, ?_, (Step.into_ended _).symm, ?_, ?_⟩
  · rfl
  · rfl
  · exact enter_of_loading _ ⟨_, rfl, rfl, rfl⟩

def problemOf : Option (Option (Except Signal α)) → Option Problem
  | some (some (.error (.problem p))) => some p
  | _ => none

theorem eq_of_problemOf {ending : Option (Option (Except Signal α))} {p : Problem} (h : problemOf ending = some p) :
    ending = some (some (.error (.problem p))) := by
  unfold problemOf at h
  split at h
  · cases h
    rfl
  · cases h

end Schedule

end Conductor
