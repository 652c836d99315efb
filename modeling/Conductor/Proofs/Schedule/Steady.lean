import Conductor.Proofs.Module.Turn
import Conductor.Proofs.Schedule.Interleaving

/-!
# Loads side by side

Several tasks, each loading one module, take turns on one loader. Every state that any
order of turns leads to is steady: the loader and the tasks are in order, every
unfinished task has exactly one place, either in the queue, from which it can go on,
or among those who wait for a load that is under way, and every finished task has the
result that its request deserves.
-/

set_option autoImplicit false

namespace Conductor

open Conductor.Module
open Relation (TransGen)

namespace Schedule

def loading (w : World) (n : Nat) (requests : List Request) : Schedule (Table String Entry) :=
  .ofTasks w (requests.map fun r => ⟨{}, Play.load (Play.outer n) r.1 r.2 []⟩)

variable {w₀ : World}

def Deserved (T : Judgment w₀) (l : Loader) (r : Request) : Except Signal (Table String Entry) → Prop
  | .ok es => ∃ a, target w₀ r = .ok a ∧ Loaded l a.text es
  | .error e => (∃ p, e = .problem p) ∧ ∀ a, target w₀ r = .ok a → T.flawed a.text

def Able (T : Judgment w₀) (i : Nat) (r : Request) (own : Activity) (l : Loader) (task : Task (Table String Entry)) :
    Prop :=
  ∀ g m, g.activity i = own → g.start = m.world.loader → m.session = task.session → SameSetting w₀ m.world →
    Orderly T m.world.loader g.activity → Later l m.world.loader →
    (∀ a t, own.waits = some (a, t) → m.world.loader.outcomes.get? t ≠ none) →
    (task.next m).Meets (between T i)
      (fun es g' m' => During T i g' m'.world ⟨[], none⟩ ∧ Deserved T m'.world.loader r (.ok es))
      (fun e g' m' => During T i g' m'.world ⟨[], none⟩ ∧ Deserved T m'.world.loader r (.error e)) g

structure Steady (T : Judgment w₀) (requests : List Request) (s : Schedule (Table String Entry))
    (owner : Nat → Option Nat) (act : Nat → Activity) : Prop where
  setting : SameSetting w₀ s.world
  orderly : Orderly T s.world.loader act
  owned : ∀ i e, e ∈ (act i).stack → owner e.2 = some i
  once : s.places.Nodup
  placed : ∀ i, i ∈ s.places ↔ s.Unfinished i
  waits : ∀ t i, (t, i) ∈ s.waiting → s.world.loader.outcomes.get? t = none ∧ ∃ a, (act i).waits = some (a, t)
  called : ∀ turn ∈ s.ready, ∀ a t, (act turn.index).waits = some (a, t) → s.world.loader.outcomes.get? t ≠ none
  idle : ∀ i, ¬ s.Unfinished i → (act i).stack = []
  able : ∀ i, s.Unfinished i → ∃ task r, s.tasks[i]? = some task ∧ requests[i]? = some r ∧
    Able T i r (act i) s.world.loader task
  deserved : ∀ (i : Nat) (result : Except Signal (Table String Entry)), s.results[i]? = some (some result) → ∃ r, requests[i]? = some r ∧
    Deserved T s.world.loader r result

variable {T : Judgment w₀} {requests : List Request} {s : Schedule (Table String Entry)} {owner : Nat → Option Nat}
  {act : Nat → Activity} {i : Nat} {r : Request} {l l' : Loader}

theorem Deserved.mono {result : Except Signal (Table String Entry)} (h : Deserved T l r result) (hl : Later l l') :
    Deserved T l' r result := by
  cases result with
  | ok es =>
    obtain ⟨a, ha, hloaded⟩ := h
    exact ⟨a, ha, hl.loaded _ _ hloaded⟩
  | error e => exact h

theorem Able.mono {own : Activity} {task : Task (Table String Entry)} (h : Able T i r own l task)
    (hl : Later l l') : Able T i r own l' task :=
  fun g m hown hstart hsession hsetting horderly hlater hanswer =>
    h g m hown hstart hsession hsetting horderly (hl.trans hlater) hanswer

/-! ## After a turn -/

/-- What a turn of one task leaves to the others. -/
structure Passed (T : Judgment w₀) (requests : List Request) (s : Schedule (Table String Entry)) (i : Nat)
    (act : Nat → Activity) (s' : Schedule (Table String Entry)) : Prop where
  perm : (i :: s'.places).Perm s.places
  waits : ∀ t j, (t, j) ∈ s'.waiting → s'.world.loader.outcomes.get? t = none ∧ ∃ a, (act j).waits = some (a, t)
  called : ∀ turn ∈ s'.ready, ∀ a t, (act turn.index).waits = some (a, t) → s'.world.loader.outcomes.get? t ≠ none

theorem settledBy_iff {w w' : World} (hl : w.loader.outcomes <+: w'.loader.outcomes) {t : Nat}
    (h : w.loader.outcomes.get? t = none) :
    t ∈ settledBy w.loader.outcomes.length w' ↔ w'.loader.outcomes.get? t ≠ none := by
  obtain ⟨new, hnew⟩ := hl
  rw [settledBy, ← hnew, List.drop_left, Table.get?_append, h, Option.none_or, ne_eq, Table.get?_eq_none_iff, not_not]

theorem settledBy_of_later {w w' : World} (hl : Later w.loader w'.loader) {t : Nat}
    (h : w.loader.outcomes.get? t = none) :
    t ∈ settledBy w.loader.outcomes.length w' ↔ w'.loader.outcomes.get? t ≠ none := by
  obtain ⟨new, hnew⟩ := hl.outcomes
  exact settledBy_iff ⟨new, hnew.symm⟩ h

theorem passed_handOver {rest : List Turn} {w' : World} {own : Activity} (h : Steady T requests s owner act)
    (hready : s.ready.Perm (.task i :: rest)) (hduring : During T i ⟨act, s.world.loader⟩ w' own) :
    Passed T requests s i act (s.handOver rest w') := by
  have hlater := hduring.later
  have hkeys : (settledBy s.world.loader.outcomes.length w').Nodup := by
    have := hduring.orderly.keys
    exact (this.sublist ((List.drop_sublist _ _).map _))
  refine ⟨?_, ?_, ?_⟩
  · exact places_handOver hready hkeys
  · intro t j hj
    obtain ⟨hj, ht⟩ := mem_spread_waiting.mp hj
    obtain ⟨hnone, hwaits⟩ := h.waits t j hj
    exact ⟨not_not.mp ((settledBy_of_later hlater hnone).not.mp ht), hwaits⟩
  · intro turn hturn a t hwaits
    rcases mem_spread_ready.mp hturn with hturn | ⟨t', j, rfl, hj, ht'⟩
    · have hold := h.called turn (hready.symm.subset (by simp [hturn])) a t hwaits
      obtain ⟨new, hnew⟩ := hlater.outcomes
      show w'.loader.outcomes.get? t ≠ none
      rw [hnew, Table.get?_append]
      cases ho : s.world.loader.outcomes.get? t with
      | none => exact absurd ho hold
      | some o => simp
    · obtain ⟨hnone, a', ha'⟩ := h.waits t' j hj
      obtain ⟨rfl, rfl⟩ : a' = a ∧ t' = t := by
        have := ha'.symm.trans hwaits
        simpa using this
      exact (settledBy_of_later hlater hnone).mp ht'

variable {s₁ s' : Schedule (Table String Entry)} {own : Activity}

theorem Steady.next (h : Steady T requests s owner act) (hpassed : Passed T requests s i act s₁)
    (hduring : During T i ⟨act, s.world.loader⟩ s'.world own) (hworld : s'.world = s₁.world)
    (honce : s'.places.Nodup) (hplaced : ∀ j, j ∈ s'.places ↔ s'.Unfinished j)
    (hwaiting : ∀ t j, (t, j) ∈ s'.waiting → (t, j) ∈ s₁.waiting ∨
      j = i ∧ s'.world.loader.outcomes.get? t = none ∧ ∃ a, own.waits = some (a, t))
    (hready : ∀ turn ∈ s'.ready, turn ∈ s₁.ready ∨ turn = .task i ∧ own.waits = none)
    (hresults : ∀ j, j ≠ i → s'.results[j]? = s.results[j]?) (htasks : ∀ j, j ≠ i → s'.tasks[j]? = s.tasks[j]?)
    (hidle : ¬ s'.Unfinished i → own.stack = [])
    (hable : s'.Unfinished i → ∃ task r, s'.tasks[i]? = some task ∧ requests[i]? = some r ∧
      Able T i r own s'.world.loader task)
    (hdeserved : ∀ result, s'.results[i]? = some (some result) → ∃ r, requests[i]? = some r ∧
      Deserved T s'.world.loader r result) :
    Steady T requests s' (credit s s' i owner) (Function.update act i own) := by
  have hnodup : (i :: s₁.places).Nodup := hpassed.perm.nodup_iff.mpr h.once
  have hi : i ∉ s₁.places := (List.nodup_cons.mp hnodup).1
  have hunfinished : ∀ j, j ≠ i → (s'.Unfinished j ↔ s.Unfinished j) := by
    intro j hj
    rw [Unfinished, Unfinished, hresults j hj]
  have hact : ∀ j, j ≠ i → Function.update act i own j = act j := fun j hj => Function.update_of_ne hj own act
  refine ⟨hduring.setting, hduring.orderly, ?_, honce, hplaced, ?_, ?_, ?_, ?_, ?_⟩
  · intro j e he
    have hlt := (hduring.orderly.held j e.1 e.2 he).1
    by_cases hj : j = i
    · subst hj
      simp only [Function.update_self] at he
      rcases hduring.drawn e he with hold | hnew
      · have hbefore := (h.orderly.held j e.1 e.2 hold).1
        rw [credit, if_neg (by omega)]
        exact h.owned j e hold
      · rw [credit, if_pos ⟨hnew, hlt⟩]
    · rw [hact j hj] at he
      have hbefore := (h.orderly.held j e.1 e.2 he).1
      rw [credit, if_neg (by omega)]
      exact h.owned j e he
  · intro t j hj
    rcases hwaiting t j hj with hold | ⟨rfl, hnone, hwaits⟩
    · have hne : j ≠ i := by
        rintro rfl
        exact hi (List.mem_append_right _ (List.mem_map.mpr ⟨_, hold, rfl⟩))
      rw [hworld, hact j hne]
      exact hpassed.waits t j hold
    · exact ⟨hnone, by simpa using hwaits⟩
  · intro turn hturn a t hwaits
    rcases hready turn hturn with hold | ⟨rfl, hnone⟩
    · have hne : turn.index ≠ i := by
        intro hji
        exact hi (List.mem_append_left _ (List.mem_map.mpr ⟨_, hold, hji⟩))
      rw [hact _ hne] at hwaits
      rw [hworld]
      exact hpassed.called turn hold a t hwaits
    · simp [Turn.index, hnone] at hwaits
  · intro j hj
    by_cases hji : j = i
    · subst hji
      simpa using hidle hj
    · rw [hact j hji]
      exact h.idle j ((hunfinished j hji).not.mp hj)
  · intro j hj
    by_cases hji : j = i
    · subst hji
      simpa using hable hj
    · obtain ⟨task, r, htask, hr, hableOld⟩ := h.able j ((hunfinished j hji).mp hj)
      rw [hact j hji, htasks j hji]
      exact ⟨task, r, htask, hr, hableOld.mono hduring.later⟩
  · intro j result hj
    by_cases hji : j = i
    · subst hji
      exact hdeserved result hj
    · rw [hresults j hji] at hj
      obtain ⟨r, hr, hold⟩ := h.deserved j result hj
      exact ⟨r, hr, hold.mono hduring.later⟩

/-! ## One turn -/

theorem Steady.finish {w' : World} {rest : List Turn} {result : Except Signal (Table String Entry)}
    (h : Steady T requests s owner act) (hunfinished : s.Unfinished i) (hr : requests[i]? = some r)
    (hpassed : Passed T requests s i act (s.handOver rest w'))
    (hduring : During T i ⟨act, s.world.loader⟩ w' ⟨[], none⟩) (hdeserved : Deserved T w'.loader r result) :
    Steady T requests ((s.handOver rest w').finish i result)
      (credit s ((s.handOver rest w').finish i result) i owner) (Function.update act i ⟨[], none⟩) := by
  have hsize : i < s.results.size := (Array.getElem?_eq_some_iff.mp hunfinished).1
  have hnodup : (i :: (s.handOver rest w').places).Nodup := hpassed.perm.nodup_iff.mpr h.once
  have hown : ((s.handOver rest w').finish i result).results[i]? = some (some result) := by
    simp [Schedule.finish, handOver, spread, hsize]
  have hothers : ∀ j, j ≠ i → ((s.handOver rest w').finish i result).results[j]? = s.results[j]? := by
    intro j hj
    simp [Schedule.finish, handOver, spread, Ne.symm hj]
  refine h.next hpassed hduring rfl (List.nodup_cons.mp hnodup).2 ?_ (fun t j hj => Or.inl hj)
    (fun turn hturn => Or.inl hturn) hothers (fun j _ => rfl) (fun _ => rfl) ?_ ?_
  · intro j
    by_cases hj : j = i
    · subst hj
      exact iff_of_false (List.nodup_cons.mp hnodup).1 (by rw [Unfinished, hown]; simp)
    · rw [Unfinished, hothers j hj]
      refine Iff.trans ?_ (h.placed j)
      rw [← hpassed.perm.mem_iff]
      simp [hj, Schedule.finish, places]
  · intro hnot
    rw [Unfinished, hown] at hnot
    simp at hnot
  · intro result' hresult'
    obtain rfl : result = result' := by simpa [hown] using hresult'
    exact ⟨r, hr, hdeserved⟩

theorem Steady.pause {task task' : Task (Table String Entry)} (h : Steady T requests s owner act)
    (hunfinished : s.Unfinished i) (htask : s.tasks[i]? = some task) (hr : requests[i]? = some r)
    (hpassed : Passed T requests s i act s₁) (hduring : During T i ⟨act, s.world.loader⟩ s'.world own)
    (hable : Able T i r own s'.world.loader task') (hworld : s'.world = s₁.world)
    (htasks : s'.tasks = s.tasks.setIfInBounds i task') (hresults : s'.results = s.results)
    (hplaces : s'.places.Perm (i :: s₁.places))
    (hwaiting : ∀ t j, (t, j) ∈ s'.waiting → (t, j) ∈ s₁.waiting ∨
      j = i ∧ s'.world.loader.outcomes.get? t = none ∧ ∃ a, own.waits = some (a, t))
    (hready : ∀ turn ∈ s'.ready, turn ∈ s₁.ready ∨ turn = .task i ∧ own.waits = none) :
    Steady T requests s' (credit s s' i owner) (Function.update act i own) := by
  have hsize : i < s.tasks.size := (Array.getElem?_eq_some_iff.mp htask).1
  have hperm : s'.places.Perm s.places := hplaces.trans hpassed.perm
  have hsame : ∀ j, s'.Unfinished j ↔ s.Unfinished j := fun j => by rw [Unfinished, Unfinished, hresults]
  refine h.next hpassed hduring hworld (hperm.nodup_iff.mpr h.once) ?_ hwaiting hready ?_ ?_ ?_ ?_ ?_
  · exact fun j => hperm.mem_iff.trans ((h.placed j).trans (hsame j).symm)
  · exact fun j _ => by rw [hresults]
  · exact fun j hj => by rw [htasks, Array.getElem?_setIfInBounds_ne (Ne.symm hj)]
  · exact fun hnot => absurd ((hsame i).mpr hunfinished) hnot
  · exact fun _ => ⟨task', r, by rw [htasks]; simp [hsize], hr, hable⟩
  · intro result hresult
    rw [hresults, show s.results[i]? = some none from hunfinished] at hresult
    simp at hresult

theorem Steady.serve_news {rest : List Turn} (h : Steady T requests s owner act)
    (hperm : s.ready.Perm (.news i :: rest)) : Steady T requests { s with ready := rest ++ [.task i] } owner act := by
  have hplaces : (rest ++ [Turn.task i]).map Turn.index ++ s.waiting.map Prod.snd |>.Perm s.places := by
    refine List.Perm.append_right _ ?_
    refine List.Perm.trans ?_ (hperm.map Turn.index).symm
    rw [List.map_append]
    exact List.perm_append_singleton i _
  refine ⟨h.setting, h.orderly, h.owned, hplaces.nodup_iff.mpr h.once, fun j => ?_, h.waits, ?_, h.idle, h.able,
    h.deserved⟩
  · exact hplaces.mem_iff.trans (h.placed j)
  · intro turn hturn a t hwaits
    rcases List.mem_append.mp hturn with hturn | hturn
    · exact h.called turn (hperm.symm.subset (by simp [hturn])) a t hwaits
    · obtain rfl : turn = .task i := by simpa using hturn
      exact h.called (.news i) (hperm.symm.subset (by simp)) a t hwaits

theorem Steady.serve_task {rest : List Turn} (h : Steady T requests s owner act)
    (hperm : s.ready.Perm (.task i :: rest)) :
    ∃ act', Steady T requests ({ s with ready := .task i :: rest } : Schedule (Table String Entry)).step
      (credit s ({ s with ready := .task i :: rest } : Schedule (Table String Entry)).step i owner) act' := by
  have hunfinished : s.Unfinished i := (h.placed i).mp (mem_places_of_turn hperm)
  obtain ⟨task, r, htask, hr, hable⟩ := h.able i hunfinished
  have hcalled := h.called (.task i) (hperm.symm.subset (by simp))
  have hmeets := hable ⟨act, s.world.loader⟩ ⟨task.session, s.world⟩ rfl rfl rfl h.setting h.orderly (.refl _) hcalled
  cases hrun : task.next ⟨task.session, s.world⟩ with
  | done es m =>
    rw [hrun] at hmeets
    obtain ⟨hduring, hdeserved⟩ := hmeets
    rw [step_done htask hrun]
    exact ⟨_, h.finish hunfinished hr (passed_handOver h hperm hduring) hduring hdeserved⟩
  | fail e m =>
    rw [hrun] at hmeets
    obtain ⟨hduring, hdeserved⟩ := hmeets
    rw [step_fail htask hrun]
    exact ⟨_, h.finish hunfinished hr (passed_handOver h hperm hduring) hduring hdeserved⟩
  | wait wait m resume =>
    rw [hrun] at hmeets
    obtain ⟨own, hduring, hfits, hresume⟩ := hmeets
    have hpassed := passed_handOver h hperm hduring
    have hnext : Able T i r own m.world.loader ⟨m.session, resume none⟩ := by
      intro g' m' hown hstart hsession hsetting horderly hlater hanswer
      refine hresume g' m' ⟨hown, hstart, hsession, hsetting, horderly, hlater, ?_⟩
      rintro t rfl
      obtain ⟨-, a, ha⟩ := hfits
      exact hanswer a t ha
    cases wait with
    | turn =>
      rw [step_turn htask hrun]
      refine ⟨_, h.pause hunfinished htask hr hpassed hduring hnext rfl rfl rfl (places_queued rfl rfl)
        (fun t j hj => Or.inl hj) ?_⟩
      intro turn hturn
      rcases List.mem_append.mp hturn with hturn | hturn
      · exact Or.inl hturn
      · exact Or.inr ⟨by simpa using hturn, hfits⟩
    | load t =>
      obtain ⟨hpending, a, ha⟩ := hfits
      rw [step_load htask hrun]
      refine ⟨_, h.pause hunfinished htask hr hpassed hduring hnext rfl rfl rfl (places_parked rfl rfl) ?_
        fun turn hturn => Or.inl hturn⟩
      intro t' j hj
      rcases List.mem_append.mp hj with hj | hj
      · exact Or.inl hj
      · obtain ⟨rfl, rfl⟩ : t' = t ∧ j = i := by simpa using hj
        exact Or.inr ⟨rfl, hpending, a, ha⟩

theorem Steady.serve {turn : Turn} (h : Steady T requests s owner act) (hs : Serves s turn s') :
    ∃ act', Steady T requests s' (credit s s' turn.index owner) act' := by
  obtain ⟨rest, hperm⟩ := hs
  cases turn with
  | task i => exact h.serve_task hperm
  | news i =>
    refine ⟨act, ?_⟩
    have hcredit : credit s ({ s with ready := .news i :: rest } : Schedule (Table String Entry)).step i owner = owner := by
      funext t
      exact if_neg fun ht => absurd (ht.1.trans_lt ht.2) (lt_irrefl _)
    simp only [Turn.index]
    rw [hcredit]
    exact h.serve_news hperm

/-! ## The start -/

structure Rested (l : Loader) : Prop where
  calm : ∀ a t, ¬ Loading l a t
  future : ∀ t, l.tickets ≤ t → l.outcomes.get? t = none
  keys : (l.outcomes.map Prod.fst).Nodup

theorem Rested.orderly (h : Rested l) (hedges : ∀ a b, Along l.edges a b → T.edge a b)
    (hloaded : ∀ a f, Loaded l a f → T.fine a f ∧ ∀ b, T.needs a b → ∃ f', Loaded l b f') :
    Orderly T l fun _ => {} := by
  refine ⟨h.future, h.keys, fun a t hl => absurd hl (h.calm a t), ?_, ?_, ?_, ?_, ?_, ?_, ?_, ?_, hedges, hloaded⟩
  · simp
  · simp
  · exact fun a b t hl => absurd hl (h.calm a t)
  · simp
  · simp
  · simp
  · simp
  · intro i hi
    obtain ⟨j, ⟨e, he, -⟩, -⟩ := TransGen.head'_iff.mp hi
    simp at he

theorem steady_loading {texts : List String} {n : Nat} (hroots : ∀ r ∈ requests, T.asked r)
    (htexts : ∀ r l, T.asked r → target w₀ r = .ok l → l.text ∈ texts) (hdepth : texts.length ≤ n)
    (horderly : Orderly T w₀.loader fun _ => {}) :
    Steady T requests (loading w₀ n requests) (fun _ => none) fun _ => {} := by
  have hplaces : (loading w₀ n requests).places = List.range requests.length := by
    simp only [places, loading, ofTasks, List.length_map, List.map_map, List.map_nil, List.append_nil]
    exact List.map_id _
  have hunfinished : ∀ i, (loading w₀ n requests).Unfinished i ↔ i < requests.length := by
    intro i
    rcases lt_or_ge i requests.length with hi | hi
    · simp [Unfinished, loading, ofTasks, hi]
    · simp [Unfinished, loading, ofTasks, hi]
  refine ⟨.refl _, horderly, by simp, hplaces ▸ List.nodup_range, ?_, by simp [loading, ofTasks], by simp, by simp,
    ?_, ?_⟩
  · intro i
    rw [hplaces, hunfinished, List.mem_range]
  · intro i hi
    have hlt := (hunfinished i).mp hi
    refine ⟨⟨{}, Play.load (Play.outer n) requests[i].1 requests[i].2 []⟩, requests[i], ?_, by simp [hlt], ?_⟩
    · simp [loading, ofTasks, hlt]
    · intro g m hown hstart hsession hsetting horderly hlater _
      have hduring : During T i g m.world ⟨[], none⟩ := by
        refine ⟨hsetting, ?_, hstart ▸ .refl _, by simp⟩
        rw [← hown, Function.update_eq_self]
        exact horderly
      have hload : Loads T (Play.load (Play.outer n)) [] := load_meets htexts n (by simp) (by simpa using hdepth)
      refine (hload i g m requests[i] [] (hroots _ (by simp)) rfl hduring (by simp)).mono (between_monotone T i) ?_ ?_
      · rintro es g' m' ⟨hduring', -, hdeserved⟩
        exact ⟨hduring', hdeserved⟩
      · rintro e g' m' ⟨hduring', hproblem, hflawed⟩
        exact ⟨hduring', hproblem, hflawed⟩
  · intro i result hresult
    simp [loading, ofTasks] at hresult

/-- Every state that some order of turns leads to is steady. -/
theorem Steady.reaches {s₀ : Schedule (Table String Entry)} (h : Steady T requests s₀ (fun _ => none) fun _ => {})
    (hs : Reaches s₀ s owner) : ∃ act, Steady T requests s owner act := by
  induction hs with
  | start => exact ⟨_, h⟩
  | turn _ hserves ih =>
    obtain ⟨act, hact⟩ := ih
    exact hact.serve hserves

end Schedule

end Conductor
