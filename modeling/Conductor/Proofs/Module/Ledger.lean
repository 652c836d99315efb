import Conductor.Proofs.Module.Orderly
import Mathlib.Data.List.Infix

/-!
# The ledger of a loader

All that tasks do to the loads of a loader is to begin them, to execute their modules and
to settle them. A ledger is a loader together with the account of this: who did what, the
latest first. Main facts: every move that keeps to the rules keeps the ledger balanced, and
in a balanced ledger exactly the loads that were begun and not settled are under way, one
for a location; a module that is not loaded has been executed as often, at most, as its load
has failed, but for the load under way; and what is loaded stays as it is.
-/

set_option autoImplicit false

namespace Conductor.Module

open Relation (ReflTransGen)

/-- What is done to the load of a location under a ticket. -/
inductive Deed
  | began (location : String) (ticket : Nat)
  | executed (location : String) (ticket : Nat)
  | settled (location : String) (ticket : Nat) (o : Outcome)

namespace Deed

def location : Deed → String
  | began a _ | executed a _ | settled a _ _ => a

def ticket : Deed → Nat
  | began _ t | executed _ t | settled _ t _ => t

def isFailure (a : String) : Deed → Bool
  | settled b _ (.error _) => b == a
  | _ => false

end Deed

abbrev History := List (Nat × Deed)

def History.failures (h : History) (a : String) : Nat := h.countP fun e => e.2.isFailure a

theorem History.failures_cons (e : Nat × Deed) (h : History) (a : String) :
    History.failures (e :: h) a = h.failures a + if e.2.isFailure a then 1 else 0 := List.countP_cons

structure Ledger where
  history : History
  loader : Loader

/-! ## What the books say -/

def Node.bare (n : Node) : Node := { n with dependencies := [] }

def Node.settled (n : Node) : Outcome → Node
  | .ok functions => { n with status := .loaded, functions := functions, error := none }
  | .error c => { n with status := .failed, functions := [], error := some c }

namespace Loader

def view (l : Loader) (a : String) : Option Node := (l.nodes.get? a).map Node.bare

def executed (l : Loader) (a : String) : Nat := (l.executions.get? a).getD 0

end Loader

/-- Two loaders with the same loads. -/
structure SameBooks (l l' : Loader) : Prop where
  view : l'.view = l.view
  pending : l'.pending = l.pending
  tickets : l'.tickets = l.tickets
  outcomes : l'.outcomes = l.outcomes
  executions : l'.executions = l.executions

section Views

variable {l : Loader} {a x : String} {n : Node} {t : Nat} {o : Outcome}

theorem loading_iff_view :
    Loading l a t ↔ ∃ n, l.view a = some n ∧ n.status = .loading ∧ l.pending.get? a = some t := by
  constructor
  · rintro ⟨n, hn, hstatus, hpending⟩
    exact ⟨n.bare, by rw [Loader.view, hn]; rfl, hstatus, hpending⟩
  · rintro ⟨n, hn, hstatus, hpending⟩
    obtain ⟨n', hn', rfl⟩ := Option.map_eq_some_iff.mp hn
    exact ⟨n', hn', hstatus, hpending⟩

def Tallied (l : Loader) : Prop :=
  ∀ a t, l.pending.get? a = some t ↔ ∃ n, l.view a = some n ∧ n.status = .loading ∧ n.ticket = t

theorem Tallied.loading_iff (h : Tallied l) :
    Loading l a t ↔ ∃ n, l.view a = some n ∧ n.status = .loading ∧ n.ticket = t := by
  rw [loading_iff_view, ← h a t]
  refine ⟨fun ⟨_, _, _, hpending⟩ => hpending, fun hpending => ?_⟩
  obtain ⟨n, hn, hstatus, -⟩ := (h a t).mp hpending
  exact ⟨n, hn, hstatus, hpending⟩

theorem loaded_iff_view {f : Table String Entry} :
    Loaded l a f ↔ ∃ n, l.view a = some n ∧ n.status = .loaded ∧ n.functions = f := by
  constructor
  · rintro ⟨n, hn, hstatus, hfunctions⟩
    exact ⟨n.bare, by rw [Loader.view, hn]; rfl, hstatus, hfunctions⟩
  · rintro ⟨n, hn, hstatus, hfunctions⟩
    obtain ⟨n', hn', rfl⟩ := Option.map_eq_some_iff.mp hn
    exact ⟨n', hn', hstatus, hfunctions⟩

theorem view_put (l : Loader) (a : String) (n : Node) (x : String) :
    Loader.view { l with nodes := l.nodes.put a n } x = if x = a then some n.bare else l.view x := by
  by_cases hx : x = a
  · subst hx
    simp [Loader.view, Table.get?_put_self]
  · simp [Loader.view, Table.get?_put_of_ne hx, hx]

theorem view_begun (l : Loader) (identifier a x : String) :
    (l.begun identifier a).view x =
      if x = a then some { identifier, location := a, status := .loading, ticket := l.tickets } else l.view x :=
  view_put l a _ x

theorem executed_count (l : Loader) (a x : String) :
    (l.count a).executed x = if x = a then l.executed a + 1 else l.executed x := by
  by_cases hx : x = a
  · subst hx
    simp [Loader.executed, Loader.count, Table.get?_put_self]
  · simp [Loader.executed, Loader.count, Table.get?_put_of_ne hx, hx]

theorem settle_view (hn : l.view a = some n) (t : Nat) (o : Outcome) :
    (∀ x, (l.settle a t o).view x = if x = a then some (n.settled o) else l.view x) ∧
    (l.settle a t o).tickets = l.tickets ∧ (l.settle a t o).outcomes = l.outcomes.put t o ∧
    (l.settle a t o).executions = l.executions ∧ (l.settle a t o).pending = l.pending.erase a := by
  obtain ⟨n', hn', rfl⟩ := Option.map_eq_some_iff.mp hn
  cases o with
  | ok functions =>
    have heq : l.settle a t (.ok functions) = { l with
        nodes := l.nodes.put a (n'.settled (.ok functions)), outcomes := l.outcomes.put t (.ok functions)
        pending := l.pending.erase a } := by
      simp only [Loader.settle, Loader.update, hn', Node.settled]
    rw [heq]
    exact ⟨view_put { l with outcomes := l.outcomes.put t (.ok functions), pending := l.pending.erase a } a _,
      rfl, rfl, rfl, rfl⟩
  | error c =>
    obtain ⟨failures, hnote⟩ := note_eq { l with
      nodes := l.nodes.put a (n'.settled (.error c)), outcomes := l.outcomes.put t (.error c)
      pending := l.pending.erase a } c
    have heq : l.settle a t (.error c) = { l with
        nodes := l.nodes.put a (n'.settled (.error c)), outcomes := l.outcomes.put t (.error c)
        pending := l.pending.erase a, failures := failures } := by
      simp only [Loader.settle, Loader.update, hn']
      exact hnote
    rw [heq]
    exact ⟨view_put { l with
      outcomes := l.outcomes.put t (.error c), pending := l.pending.erase a, failures := failures } a _,
      rfl, rfl, rfl, rfl⟩

theorem status_settled (n : Node) (o : Outcome) :
    (n.settled o).status = .loaded ∧ o = .ok (n.settled o).functions ∨
      (n.settled o).status = .failed ∧ (n.settled o).functions = [] ∧ ∃ c, o = .error c ∧ (n.settled o).error = some c := by
  cases o with
  | ok functions => exact .inl ⟨rfl, rfl⟩
  | error c => exact .inr ⟨rfl, rfl, c, rfl, rfl⟩

theorem Tallied.begun (h : Tallied l) (identifier a : String) : Tallied (l.begun identifier a) := by
  intro x t
  rw [view_begun]
  by_cases hx : x = a
  · subst hx
    simp [Loader.begun, Table.get?_put_self]
  · rw [if_neg hx, ← h x t]
    simp [Loader.begun, Table.get?_put_of_ne hx]

theorem Tallied.settle (h : Tallied l) (hn : l.view a = some n) (t : Nat) (o : Outcome) :
    Tallied (l.settle a t o) := by
  intro x t'
  obtain ⟨hview, -, -, -, hpending⟩ := settle_view hn t o
  rw [hview, hpending]
  by_cases hx : x = a
  · subst hx
    rcases status_settled n o with ⟨hs, -⟩ | ⟨hs, -⟩ <;> simp [Table.get?_erase_self, hs]
  · rw [if_neg hx, Table.get?_erase_of_ne hx]
    exact h x t'

end Views

namespace SameBooks

variable {l l' l'' : Loader}

theorem refl (l : Loader) : SameBooks l l := ⟨rfl, rfl, rfl, rfl, rfl⟩

theorem loading (h : SameBooks l l') {a : String} {t : Nat} : Loading l' a t ↔ Loading l a t := by
  rw [loading_iff_view, loading_iff_view, h.view, h.pending]

theorem tallied (h : SameBooks l l') (ht : Tallied l) : Tallied l' := by
  intro a t
  rw [h.view, h.pending]
  exact ht a t

theorem executed (h : SameBooks l l') (a : String) : l'.executed a = l.executed a := by
  rw [Loader.executed, Loader.executed, h.executions]

theorem addEdge (l : Loader) (a b : String) : SameBooks l (l.addEdge a b) := by
  obtain ⟨edges, hl⟩ := addEdge_eq l a b
  rw [hl]
  exact ⟨rfl, rfl, rfl, rfl, rfl⟩

theorem update (l : Loader) (a : String) (f : Node → Node) (hf : ∀ n, (f n).bare = n.bare) :
    SameBooks l (l.update a f) := by
  unfold Loader.update
  cases hn : l.nodes.get? a with
  | none => exact refl l
  | some n =>
    refine ⟨funext fun x => ?_, rfl, rfl, rfl, rfl⟩
    rw [view_put, hf]
    split
    · next hx => rw [hx, Loader.view, hn]; rfl
    · rfl

end SameBooks

/-! ## Moves -/

/-- What a task may do. Only who began a load executes its module, once, and settles it. -/
inductive Move (i : Nat) : Ledger → Ledger → Prop
  | silent {h : History} {l l' : Loader} (hl : SameBooks l l') : Move i ⟨h, l⟩ ⟨h, l'⟩
  | begins {h : History} {l : Loader} (identifier a : String) (hloaded : ∀ f, ¬ Loaded l a f)
      (hloading : ∀ t, ¬ Loading l a t) : Move i ⟨h, l⟩ ⟨(i, .began a l.tickets) :: h, l.begun identifier a⟩
  | executes {h : History} {l : Loader} {a : String} {t : Nat} (hloading : Loading l a t)
      (hmine : (i, .began a t) ∈ h) (hfirst : ∀ j, (j, .executed a t) ∉ h) :
      Move i ⟨h, l⟩ ⟨(i, .executed a t) :: h, l.count a⟩
  | settles {h : History} {l : Loader} {a : String} {t : Nat} (o : Outcome) (hloading : Loading l a t)
      (hmine : (i, .began a t) ∈ h) : Move i ⟨h, l⟩ ⟨(i, .settled a t o) :: h, l.settle a t o⟩

def Ledger.Spent (L : Ledger) (a : String) : Prop :=
  ∃ n j, L.loader.view a = some n ∧ (n.status = .loading ∨ n.status = .loaded) ∧ (j, .executed a n.ticket) ∈ L.history

/-- The account and the books agree. -/
structure Balanced (L : Ledger) : Prop where
  tallied : Tallied L.loader
  future : ∀ t, L.loader.tickets ≤ t → L.loader.outcomes.get? t = none
  keys : (L.loader.outcomes.map Prod.fst).Nodup
  drawn : ∀ {i : Nat} {d : Deed}, (i, d) ∈ L.history → d.ticket < L.loader.tickets
  begun : ∀ {i : Nat} {d : Deed}, (i, d) ∈ L.history → (i, .began d.location d.ticket) ∈ L.history
  unique : ∀ {i j : Nat} {a b : String} {t : Nat}, (i, .began a t) ∈ L.history → (j, .began b t) ∈ L.history →
    i = j ∧ a = b
  loading : ∀ {a : String} {t : Nat},
    Loading L.loader a t ↔ (∃ i, (i, .began a t) ∈ L.history) ∧ L.loader.outcomes.get? t = none
  outcome : ∀ {t : Nat} {o : Outcome}, L.loader.outcomes.get? t = some o ↔ ∃ i a, (i, .settled a t o) ∈ L.history
  known : ∀ {a : String} {n : Node}, L.loader.view a = some n → n.status ≠ .pending
  loaded : ∀ {a : String} {n : Node}, L.loader.view a = some n → n.status = .loaded →
    L.loader.outcomes.get? n.ticket = some (.ok n.functions)
  failed : ∀ {a : String} {n : Node}, L.loader.view a = some n → n.status = .failed → n.functions = [] ∧
    ∃ c, n.error = some c ∧ L.loader.outcomes.get? n.ticket = some (.error c)
  unspent : ∀ a, ¬ L.Spent a → L.loader.executed a ≤ L.history.failures a
  bound : ∀ a, L.loader.executed a ≤ L.history.failures a + 1

structure Unused (l : Loader) : Prop where
  nodes : l.nodes = []
  pending : l.pending = []
  outcomes : l.outcomes = []
  executions : l.executions = []

theorem Unused.balanced {l : Loader} (h : Unused l) : Balanced ⟨[], l⟩ := by
  have hview (a : String) : l.view a = none := by rw [Loader.view, h.nodes]; rfl
  have houtcome (t : Nat) : l.outcomes.get? t = none := by rw [h.outcomes]; rfl
  have hexecuted (a : String) : l.executed a = 0 := by rw [Loader.executed, h.executions]; rfl
  refine ⟨?_, fun t _ => houtcome t, by simp [h.outcomes], by simp, by simp, by simp, ?_, ?_, ?_, ?_, ?_, ?_, ?_⟩
  · intro a t
    simp [h.pending, hview, Table.get?]
  · intro a t
    simp [loading_iff_view, hview]
  · simp [houtcome]
  · simp [hview]
  · simp [hview]
  · simp [hview]
  · simp [hexecuted]
  · simp [hexecuted]

namespace Balanced

variable {h : History} {l l' : Loader} {i : Nat} {a : String} {t : Nat}

theorem silent (hb : Balanced ⟨h, l⟩) (hl : SameBooks l l') : Balanced ⟨h, l'⟩ := by
  obtain ⟨htallied, hfuture, hkeys, hdrawn, hbegun, hunique, hloading, houtcome, hknown, hloaded, hfailed, hunspent,
    hbound⟩ := hb
  refine ⟨hl.tallied htallied, ?_, ?_, ?_, hbegun, hunique, ?_, ?_, ?_, ?_, ?_, ?_, ?_⟩
  all_goals dsimp only at *
  · rw [hl.tickets, hl.outcomes]; exact hfuture
  · rw [hl.outcomes]; exact hkeys
  · rw [hl.tickets]; exact hdrawn
  · intro a t
    rw [hl.loading, hl.outcomes]
    exact hloading
  · rw [hl.outcomes]; exact houtcome
  · rw [hl.view]; exact hknown
  · rw [hl.view, hl.outcomes]; exact hloaded
  · rw [hl.view, hl.outcomes]; exact hfailed
  · intro a hspent
    rw [hl.executed]
    refine hunspent a fun ⟨n, j, hn, hrest⟩ => hspent ⟨n, j, ?_, hrest⟩
    exact hl.view ▸ hn
  · intro a
    rw [hl.executed]
    exact hbound a

theorem drawn_cons (hb : Balanced ⟨h, l⟩) {tickets : Nat} (hmore : l.tickets ≤ tickets) {d : Deed}
    (hd : d.ticket < tickets) {j : Nat} {e : Deed} (he : (j, e) ∈ (i, d) :: h) : e.ticket < tickets := by
  rcases List.mem_cons.mp he with he | he
  · cases he
    exact hd
  · exact (hb.drawn he).trans_le hmore

theorem begun_cons (hb : Balanced ⟨h, l⟩) {d : Deed} (hd : (i, .began d.location d.ticket) ∈ (i, d) :: h) {j : Nat}
    {e : Deed} (he : (j, e) ∈ (i, d) :: h) : (j, .began e.location e.ticket) ∈ (i, d) :: h := by
  rcases List.mem_cons.mp he with he | he
  · cases he
    exact hd
  · exact List.mem_cons_of_mem _ (hb.begun he)

theorem begins (hb : Balanced ⟨h, l⟩) (identifier : String) (hloaded : ∀ f, ¬ Loaded l a f)
    (hloading : ∀ t, ¬ Loading l a t) : Balanced ⟨(i, .began a l.tickets) :: h, l.begun identifier a⟩ := by
  have hold {j : Nat} {d : Deed} (hd : (j, d) ∈ h) : d.ticket ≠ l.tickets := (hb.drawn hd).ne
  have hview := view_begun l identifier a
  have hunspent : ¬ Ledger.Spent ⟨h, l⟩ a := by
    rintro ⟨n, j, hn, hstatus | hstatus, -⟩
    · exact hloading n.ticket (hb.tallied.loading_iff.mpr ⟨n, hn, hstatus, rfl⟩)
    · exact hloaded n.functions (loaded_iff_view.mpr ⟨n, hn, hstatus, rfl⟩)
  have hfailures (x : String) : History.failures ((i, .began a l.tickets) :: h) x = h.failures x := by
    simp [History.failures_cons, Deed.isFailure]
  constructor
  case tallied => exact hb.tallied.begun identifier a
  case future => exact fun t ht => hb.future t (Nat.le_of_succ_le ht)
  case keys => exact hb.keys
  case drawn => exact hb.drawn_cons (Nat.le_succ _) (Nat.lt_succ_self _)
  case begun => exact hb.begun_cons List.mem_cons_self
  case unique =>
    intro j k x y t hj hk
    rcases List.mem_cons.mp hj with hj | hj <;> rcases List.mem_cons.mp hk with hk | hk
    · cases hj
      cases hk
      exact ⟨rfl, rfl⟩
    · cases hj
      exact absurd rfl (hold hk)
    · cases hk
      exact absurd rfl (hold hj)
    · exact hb.unique hj hk
  case loading =>
    intro x t
    refine (loading_begun hloading).trans ?_
    constructor
    · rintro (hx | ⟨rfl, rfl⟩)
      · obtain ⟨⟨j, hj⟩, hnone⟩ := hb.loading.mp hx
        exact ⟨⟨j, List.mem_cons_of_mem _ hj⟩, hnone⟩
      · exact ⟨⟨i, List.mem_cons_self⟩, hb.future _ (le_refl _)⟩
    · rintro ⟨⟨j, hj⟩, hnone⟩
      rcases List.mem_cons.mp hj with hj | hj
      · cases hj
        exact .inr ⟨rfl, rfl⟩
      · exact .inl (hb.loading.mpr ⟨⟨j, hj⟩, hnone⟩)
  case outcome =>
    intro t o
    refine hb.outcome.trans ?_
    simp
  case known =>
    intro x n hn
    rw [hview] at hn
    split at hn
    · cases hn
      exact nofun
    · exact hb.known hn
  case loaded =>
    intro x n hn hstatus
    rw [hview] at hn
    split at hn
    · cases hn
      cases hstatus
    · exact hb.loaded hn hstatus
  case failed =>
    intro x n hn hstatus
    rw [hview] at hn
    split at hn
    · cases hn
      cases hstatus
    · exact hb.failed hn hstatus
  case unspent =>
    intro x hx
    rw [hfailures]
    refine hb.unspent x fun ⟨n, j, hn, hstatus, hj⟩ => ?_
    by_cases hxa : x = a
    · subst hxa
      exact hunspent ⟨n, j, hn, hstatus, hj⟩
    · exact hx ⟨n, j, by rw [hview, if_neg hxa]; exact hn, hstatus, List.mem_cons_of_mem _ hj⟩
  case bound =>
    intro x
    rw [hfailures]
    exact hb.bound x

theorem executes (hb : Balanced ⟨h, l⟩) (hloading : Loading l a t) (hmine : (i, .began a t) ∈ h)
    (hfirst : ∀ j, (j, .executed a t) ∉ h) : Balanced ⟨(i, .executed a t) :: h, l.count a⟩ := by
  have hdrawn : t < l.tickets := hb.drawn hmine
  obtain ⟨n, hn, hstatus, rfl⟩ := hb.tallied.loading_iff.mp hloading
  have hunspent : ¬ Ledger.Spent ⟨h, l⟩ a := by
    rintro ⟨n', j, hn', -, hj⟩
    obtain rfl : n = n' := Option.some.inj (hn.symm.trans hn')
    exact hfirst j hj
  have hfailures (x : String) : History.failures ((i, .executed a n.ticket) :: h) x = h.failures x := by
    simp [History.failures_cons, Deed.isFailure]
  have hbegan {j : Nat} {x : String} {t : Nat} : (j, .began x t) ∈ (i, .executed a n.ticket) :: h ↔ (j, .began x t) ∈ h := by
    simp
  constructor
  case tallied => exact hb.tallied
  case future => exact hb.future
  case keys => exact hb.keys
  case drawn => exact hb.drawn_cons (d := .executed a n.ticket) (le_refl _) hdrawn
  case begun => exact hb.begun_cons (List.mem_cons_of_mem _ hmine)
  case unique => exact fun hj hk => hb.unique (hbegan.mp hj) (hbegan.mp hk)
  case loading =>
    intro x t
    simp only [hbegan]
    exact hb.loading
  case outcome =>
    intro t o
    refine hb.outcome.trans ?_
    simp
  case known => exact hb.known
  case loaded => exact hb.loaded
  case failed => exact hb.failed
  case unspent =>
    intro x hx
    rw [hfailures]
    dsimp only
    rw [executed_count]
    split
    · next hxa =>
      subst hxa
      exact absurd ⟨n, i, hn, .inl hstatus, List.mem_cons_self⟩ hx
    · exact hb.unspent x fun ⟨n', j, hn', hstatus', hj⟩ => hx ⟨n', j, hn', hstatus', List.mem_cons_of_mem _ hj⟩
  case bound =>
    intro x
    rw [hfailures]
    dsimp only
    rw [executed_count]
    split
    · next hxa =>
      subst hxa
      exact Nat.succ_le_succ (hb.unspent x hunspent)
    · exact hb.bound x

theorem ticket_settled (n : Node) (o : Outcome) : (n.settled o).ticket = n.ticket := by
  cases o <;> rfl

theorem get?_settle {n : Node} (hn : l.view a = some n) (t : Nat) (o : Outcome) (t' : Nat) :
    (l.settle a t o).outcomes.get? t' = if t' = t then some o else l.outcomes.get? t' := by
  rw [(settle_view hn t o).2.2.1]
  split
  · next ht => rw [ht, Table.get?_put_self]
  · next ht => rw [Table.get?_put_of_ne ht]

theorem outcome_other (hb : Balanced ⟨h, l⟩) (hloading : Loading l a t) {t' : Nat} {o : Outcome}
    (ho : l.outcomes.get? t' = some o) : t' ≠ t := by
  rintro rfl
  rw [(hb.loading.mp hloading).2] at ho
  cases ho

theorem loading_settled (hb : Balanced ⟨h, l⟩) (o : Outcome) (hloading : Loading l a t) (hmine : (i, .began a t) ∈ h)
    (x : String) (t' : Nat) :
    Loading (l.settle a t o) x t' ↔ (∃ j, (j, .began x t') ∈ h) ∧ (l.settle a t o).outcomes.get? t' = none := by
  obtain ⟨n, hn, -, rfl⟩ := hb.tallied.loading_iff.mp hloading
  rw [loading_settle hloading, get?_settle hn]
  constructor
  · rintro ⟨hxa, hx⟩
    obtain ⟨⟨j, hj⟩, hnone⟩ := hb.loading.mp hx
    refine ⟨⟨j, hj⟩, ?_⟩
    rw [if_neg, hnone]
    rintro rfl
    exact hxa (hb.unique hj hmine).2
  · rintro ⟨hj, hnone⟩
    split at hnone
    · cases hnone
    · next hne =>
      have hx := hb.loading.mpr ⟨hj, hnone⟩
      refine ⟨?_, hx⟩
      rintro rfl
      exact hne (hx.unique hloading)

theorem unspent_settled (hb : Balanced ⟨h, l⟩) (o : Outcome) (hloading : Loading l a t) {x : String}
    (hx : ¬ Ledger.Spent ⟨(i, .settled a t o) :: h, l.settle a t o⟩ x) :
    l.executed x ≤ History.failures ((i, .settled a t o) :: h) x := by
  obtain ⟨n, hn, hstatus, rfl⟩ := hb.tallied.loading_iff.mp hloading
  have hview := (settle_view hn n.ticket o).1
  rw [History.failures_cons]
  by_cases hspent : Ledger.Spent ⟨h, l⟩ x
  · obtain ⟨n', j, hn', hstatus', hj⟩ := hspent
    by_cases hxa : x = a
    · subst hxa
      obtain rfl : n = n' := Option.some.inj (hn.symm.trans hn')
      rcases status_settled n o with ⟨hs, -⟩ | ⟨-, -, c, rfl, -⟩
      · refine absurd ⟨n.settled o, j, ?_, .inr hs, ?_⟩ hx
        · exact (hview x).trans (if_pos rfl)
        · rw [ticket_settled]
          exact List.mem_cons_of_mem _ hj
      · simpa [Deed.isFailure] using hb.bound x
    · refine absurd ⟨n', j, ?_, hstatus', List.mem_cons_of_mem _ hj⟩ hx
      exact ((hview x).trans (if_neg hxa)).trans hn'
  · exact Nat.le_add_right_of_le (hb.unspent x hspent)

theorem settles (hb : Balanced ⟨h, l⟩) (o : Outcome) (hloading : Loading l a t) (hmine : (i, .began a t) ∈ h) :
    Balanced ⟨(i, .settled a t o) :: h, l.settle a t o⟩ := by
  have hdrawn : t < l.tickets := hb.drawn hmine
  have hloadings := hb.loading_settled o hloading hmine
  have hunspent {x : String} := hb.unspent_settled (i := i) (x := x) o hloading
  have hother {t' : Nat} {o' : Outcome} (ho : l.outcomes.get? t' = some o') : t' ≠ t := hb.outcome_other hloading ho
  obtain ⟨n, hn, hstatus, rfl⟩ := hb.tallied.loading_iff.mp hloading
  obtain ⟨hview, htickets, houtcomes, hexecutions, -⟩ := settle_view hn n.ticket o
  have hget := get?_settle hn n.ticket o
  have hexecuted (x : String) : (l.settle a n.ticket o).executed x = l.executed x := by
    rw [Loader.executed, Loader.executed, hexecutions]
  have hbegan {j : Nat} {x : String} {t : Nat} :
      (j, .began x t) ∈ (i, .settled a n.ticket o) :: h ↔ (j, .began x t) ∈ h := by simp
  constructor
  case tallied => exact hb.tallied.settle hn n.ticket o
  case future =>
    intro t' ht'
    dsimp only at *
    rw [htickets] at ht'
    rw [hget, if_neg (by omega)]
    exact hb.future t' ht'
  case keys => exact houtcomes ▸ Table.nodup_put hb.keys n.ticket o
  case drawn => exact hb.drawn_cons htickets.ge (htickets.symm ▸ hdrawn)
  case begun => exact hb.begun_cons (List.mem_cons_of_mem _ hmine)
  case unique => exact fun hj hk => hb.unique (hbegan.mp hj) (hbegan.mp hk)
  case loading =>
    intro x t'
    simp only [hbegan]
    exact hloadings x t'
  case outcome =>
    intro t' o'
    simp only [hget, List.mem_cons, Prod.mk.injEq, Deed.settled.injEq]
    constructor
    · intro ho'
      split at ho'
      · next heq => exact ⟨i, a, .inl ⟨rfl, rfl, heq, (Option.some.inj ho').symm⟩⟩
      · obtain ⟨j, x, hj⟩ := hb.outcome.mp ho'
        exact ⟨j, x, .inr hj⟩
    · rintro ⟨j, x, ⟨-, -, rfl, rfl⟩ | hj⟩
      · exact if_pos rfl
      · have ho' := hb.outcome.mpr ⟨j, x, hj⟩
        exact (if_neg (hother ho')).trans ho'
  case known =>
    intro x n' hn'
    dsimp only at hn'
    rw [hview] at hn'
    split at hn'
    · cases hn'
      rcases status_settled n o with ⟨hs, -⟩ | ⟨hs, -⟩ <;> rw [hs] <;> exact nofun
    · exact hb.known hn'
  case loaded =>
    intro x n' hn' hs'
    dsimp only at *
    rw [hview] at hn'
    rw [hget]
    split at hn'
    · cases hn'
      rcases status_settled n o with ⟨-, ho⟩ | ⟨hs, -⟩
      · rw [ticket_settled, if_pos rfl, ← ho]
      · rw [hs'] at hs
        cases hs
    · have ho := hb.loaded hn' hs'
      exact (if_neg (hother ho)).trans ho
  case failed =>
    intro x n' hn' hs'
    dsimp only at *
    rw [hview] at hn'
    split at hn'
    · cases hn'
      rcases status_settled n o with ⟨hs, -⟩ | ⟨-, hfunctions, c, ho, hc⟩
      · rw [hs'] at hs
        cases hs
      · exact ⟨hfunctions, c, hc, by rw [hget, ticket_settled, if_pos rfl, ho]⟩
    · obtain ⟨hfunctions, c, hc, ho⟩ := hb.failed hn' hs'
      exact ⟨hfunctions, c, hc, (hget _).trans ((if_neg (hother ho)).trans ho)⟩
  case unspent =>
    intro x hx
    exact (hexecuted x).trans_le (hunspent hx)
  case bound =>
    intro x
    dsimp only
    rw [hexecuted, History.failures_cons, Nat.add_right_comm]
    exact Nat.le_add_right_of_le (hb.bound x)

/-- What one step preserves. -/
theorem move {A B : Ledger} (hb : Balanced A) (hmove : Move i A B) : Balanced B := by
  cases hmove with
  | silent hl => exact hb.silent hl
  | begins identifier a hloaded hloading => exact hb.begins identifier hloaded hloading
  | executes hloading hmine hfirst => exact hb.executes hloading hmine hfirst
  | settles o hloading hmine => exact hb.settles o hloading hmine

end Balanced

/-! ## Moves of many tasks -/

def Moves (A B : Ledger) : Prop := ∃ i, Move i A B

def Others (i : Nat) (A B : Ledger) : Prop := ∃ j, j ≠ i ∧ Move j A B

theorem moves_of_own {i : Nat} {A B : Ledger} (h : ReflTransGen (Move i) A B) : ReflTransGen Moves A B :=
  ReflTransGen.mono (fun _ _ hmove => ⟨i, hmove⟩) A B h

theorem Move.draws {i : Nat} {A B : Ledger} (h : Move i A B) :
    (B.loader.tickets = A.loader.tickets ∧ ∀ j a t, (j, .began a t) ∈ B.history ↔ (j, .began a t) ∈ A.history) ∨
      ∃ a, B.history = (i, .began a A.loader.tickets) :: A.history ∧ B.loader.tickets = A.loader.tickets + 1 := by
  cases h with
  | silent hl => exact .inl ⟨hl.tickets, fun _ _ _ => Iff.rfl⟩
  | begins identifier a _ _ => exact .inr ⟨a, rfl, rfl⟩
  | executes _ _ _ => exact .inl ⟨rfl, by simp⟩
  | settles o hloading _ =>
    obtain ⟨n, hn, -, -⟩ := loading_iff_view.mp hloading
    exact .inl ⟨(settle_view hn _ o).2.1, by simp⟩

theorem began_iff_of_own {i j t : Nat} {A B : Ledger} (h : ReflTransGen (Move i) A B) :
    A.loader.tickets ≤ B.loader.tickets ∧ ((∃ a, (j, .began a t) ∈ B.history) ↔
      A.loader.tickets ≤ t ∧ t < B.loader.tickets ∧ j = i ∨ ∃ a, (j, .began a t) ∈ A.history) := by
  induction h with
  | refl =>
    refine ⟨le_refl _, .inr, ?_⟩
    rintro (⟨hle, hlt, -⟩ | hold)
    · omega
    · exact hold
  | @tail B C _ hmove ih =>
    obtain ⟨hle, ih⟩ := ih
    rcases hmove.draws with ⟨htickets, hbegan⟩ | ⟨a, hhistory, htickets⟩
    · simp only [htickets, hbegan]
      exact ⟨hle, ih⟩
    · rw [htickets, hhistory]
      refine ⟨Nat.le_succ_of_le hle, ?_⟩
      have hnew : (∃ b, (j, .began b t) ∈ (i, .began a B.loader.tickets) :: B.history) ↔
          j = i ∧ t = B.loader.tickets ∨ ∃ b, (j, .began b t) ∈ B.history := by
        constructor
        · rintro ⟨b, hb⟩
          rcases List.mem_cons.mp hb with hb | hb
          · cases hb
            exact .inl ⟨rfl, rfl⟩
          · exact .inr ⟨b, hb⟩
        · rintro (⟨rfl, rfl⟩ | ⟨b, hb⟩)
          · exact ⟨a, List.mem_cons_self⟩
          · exact ⟨b, List.mem_cons_of_mem _ hb⟩
      rw [hnew, ih]
      constructor
      · rintro (⟨hj, ht⟩ | ⟨ht, hlt, hj⟩ | hold)
        · exact .inl ⟨by omega, by omega, hj⟩
        · exact .inl ⟨ht, by omega, hj⟩
        · exact .inr hold
      · rintro (⟨ht, hlt, hj⟩ | hold)
        · by_cases heq : t = B.loader.tickets
          · exact .inl ⟨hj, heq⟩
          · exact .inr (.inl ⟨ht, by omega, hj⟩)
        · exact .inr (.inr hold)

theorem moves_of_others {i : Nat} {A B : Ledger} (h : ReflTransGen (Others i) A B) : ReflTransGen Moves A B :=
  ReflTransGen.mono (fun _ _ ⟨j, _, hmove⟩ => ⟨j, hmove⟩) A B h

/-- What a run of moves preserves. -/
theorem Balanced.moves {A B : Ledger} (hb : Balanced A) (h : ReflTransGen Moves A B) : Balanced B := by
  induction h with
  | refl => exact hb
  | tail _ hmove ih => exact ih.move hmove.choose_spec

/-- What only grows: the account, the tickets and the outcomes, in their order; and what is loaded stays as it is. -/
structure After (A B : Ledger) : Prop where
  history : A.history <:+ B.history
  tickets : A.loader.tickets ≤ B.loader.tickets
  outcomes : A.loader.outcomes <+: B.loader.outcomes
  loaded : ∀ {a : String} {n : Node}, A.loader.view a = some n → n.status = .loaded →
    B.loader.view a = some n ∧ B.loader.executed a = A.loader.executed a

namespace After

variable {A B C : Ledger}

theorem refl (A : Ledger) : After A A := ⟨List.suffix_refl _, le_refl _, List.prefix_refl _, fun hn _ => ⟨hn, rfl⟩⟩

theorem trans (h : After A B) (h' : After B C) : After A C := by
  refine ⟨h.history.trans h'.history, h.tickets.trans h'.tickets, h.outcomes.trans h'.outcomes, ?_⟩
  intro a n hn hstatus
  obtain ⟨hn', hexecuted⟩ := h.loaded hn hstatus
  obtain ⟨hn'', hexecuted'⟩ := h'.loaded hn' hstatus
  exact ⟨hn'', hexecuted'.trans hexecuted⟩

theorem move {i : Nat} (hb : Balanced A) (hmove : Move i A B) : After A B := by
  cases hmove with
  | silent hl =>
    exact ⟨List.suffix_refl _, hl.tickets.ge, by rw [hl.outcomes], fun hn _ => ⟨hl.view ▸ hn, hl.executed _⟩⟩
  | @begins h l identifier a hloaded hloading =>
    refine ⟨List.suffix_cons _ _, Nat.le_succ _, List.prefix_refl _, fun {x n} hn hstatus => ⟨?_, rfl⟩⟩
    rw [view_begun, if_neg, hn]
    rintro rfl
    exact hloaded n.functions (loaded_iff_view.mpr ⟨n, hn, hstatus, rfl⟩)
  | @executes h l a t hloading hmine hfirst =>
    refine ⟨List.suffix_cons _ _, le_refl _, List.prefix_refl _, fun {x n} hn hstatus => ⟨hn, ?_⟩⟩
    rw [executed_count, if_neg]
    rintro rfl
    exact hloading.not_loaded (loaded_iff_view.mpr ⟨n, hn, hstatus, rfl⟩)
  | @settles h l a t o hloading hmine =>
    obtain ⟨n, hn, -, rfl⟩ := hb.tallied.loading_iff.mp hloading
    obtain ⟨hview, htickets, houtcomes, hexecutions, -⟩ := settle_view hn n.ticket o
    refine ⟨List.suffix_cons _ _, htickets.ge, ?_, fun {x n'} hn' hstatus => ⟨?_, ?_⟩⟩
    · rw [houtcomes, Table.put_of_get?_none (hb.loading.mp hloading).2]
      exact List.prefix_append _ _
    · rw [hview, if_neg, hn']
      rintro rfl
      exact hloading.not_loaded (loaded_iff_view.mpr ⟨n', hn', hstatus, rfl⟩)
    · rw [Loader.executed, Loader.executed, hexecutions]

theorem moves (hb : Balanced A) (h : ReflTransGen Moves A B) : After A B := by
  induction h with
  | refl => exact refl A
  | tail hrun hmove ih => exact ih.trans (move (hb.moves hrun) hmove.choose_spec)

theorem get?_outcomes (h : After A B) {t : Nat} {o : Outcome} (ho : A.loader.outcomes.get? t = some o) :
    B.loader.outcomes.get? t = some o := by
  obtain ⟨new, hnew⟩ := h.outcomes
  rw [← hnew, Table.get?_append, ho]
  rfl

end After

/-! ## Loads in a task's hands -/

/-- Between two states of the ledger a task has worked on nothing but the loads that it has begun meanwhile, and done
what it was free to do. -/
structure Since (i : Nat) (free : Deed → Prop) (A B : Ledger) : Prop where
  moves : ReflTransGen Moves A B
  own : ∀ {d : Deed}, (i, d) ∈ B.history → (i, d) ∈ A.history ∨ A.loader.tickets ≤ d.ticket ∨ free d

/-- A load that a task has begun and not settled. -/
structure Holds (i : Nat) (a : String) (t : Nat) (L : Ledger) : Prop where
  began : (i, .began a t) ∈ L.history
  pending : L.loader.outcomes.get? t = none

theorem Holds.loading {i : Nat} {a : String} {t : Nat} {L : Ledger} (hb : Balanced L) (h : Holds i a t L) :
    Loading L.loader a t := hb.loading.mpr ⟨⟨i, h.began⟩, h.pending⟩

namespace Since

variable {i : Nat} {free : Deed → Prop} {A B C : Ledger} {a : String} {t : Nat}

theorem refl (A : Ledger) : Since i free A A := ⟨.refl, .inl⟩

theorem trans (hb : Balanced A) (h : Since i free A B) (h' : Since i free B C) : Since i free A C := by
  refine ⟨h.moves.trans h'.moves, fun hd => ?_⟩
  rcases h'.own hd with hd | hd | hd
  · exact h.own hd
  · exact .inr (.inl ((After.moves hb h.moves).tickets.trans hd))
  · exact .inr (.inr hd)

theorem mono {free' : Deed → Prop} (h : Since i free A B) (hfree : ∀ d, free d → free' d) : Since i free' A B :=
  ⟨h.moves, fun hd => (h.own hd).imp_right fun hd => hd.imp_right (hfree _)⟩

theorem of_others (h : ReflTransGen (Others i) A B) : Since i free A B := by
  refine ⟨moves_of_others h, fun {d} hd => .inl ?_⟩
  induction h with
  | refl => exact hd
  | tail _ hmove ih =>
    obtain ⟨j, hj, hmove⟩ := hmove
    refine ih ?_
    have hne : ∀ {e : Deed} {h : History}, (i, d) ∈ (j, e) :: h → (i, d) ∈ h := fun hmem =>
      (List.mem_cons.mp hmem).resolve_left fun heq => hj (Prod.mk.inj heq).1.symm
    cases hmove with
    | silent _ => exact hd
    | begins _ _ _ _ => exact hne hd
    | executes _ _ _ => exact hne hd
    | settles _ _ _ => exact hne hd

theorem own_of_holds (hb : Balanced A) (h : Since i free A B) (hheld : Holds i a t A) {j : Nat} {d : Deed}
    (hd : (j, d) ∈ B.history) (ht : d.ticket = t) : j = i ∧ d.location = a ∧ ((i, d) ∈ A.history ∨ free d) := by
  have hb' := hb.moves h.moves
  have hbegan := hb'.begun hd
  rw [ht] at hbegan
  obtain ⟨rfl, hloc⟩ := hb'.unique hbegan ((After.moves hb h.moves).history.subset hheld.began)
  refine ⟨rfl, hloc, ?_⟩
  rcases h.own hd with hd | hd | hd
  · exact .inl hd
  · have hlt : t < A.loader.tickets := hb.drawn hheld.began
    omega
  · exact .inr hd

theorem holds (hb : Balanced A) (h : Since i free A B) (hheld : Holds i a t A) (hfree : ∀ o, ¬ free (.settled a t o)) :
    Holds i a t B := by
  refine ⟨(After.moves hb h.moves).history.subset hheld.began, ?_⟩
  cases ho : B.loader.outcomes.get? t with
  | none => rfl
  | some o =>
    obtain ⟨j, b, hsettled⟩ := (hb.moves h.moves).outcome.mp ho
    obtain ⟨rfl, rfl, hold | hlicensed⟩ := h.own_of_holds hb hheld hsettled rfl
    · have hsome := hb.outcome.mpr ⟨_, _, hold⟩
      rw [hheld.pending] at hsome
      cases hsome
    · exact absurd hlicensed (hfree o)

theorem unexecuted (hb : Balanced A) (h : Since i free A B) (hheld : Holds i a t A) (hfree : ¬ free (.executed a t))
    (hold : ∀ j, (j, .executed a t) ∉ A.history) (j : Nat) : (j, .executed a t) ∉ B.history := by
  intro hexecuted
  obtain ⟨rfl, -, hbefore | hlicensed⟩ := h.own_of_holds hb hheld hexecuted rfl
  · exact hold _ hbefore
  · exact hfree hlicensed

end Since

/-! ## What the account comes to -/

/-- The loads of a loader, by the account of them. -/
structure InOrder (h : History) (l : Loader) : Prop where
  tallied : ∀ {a : String} {t : Nat}, l.pending.get? a = some t ↔
    ∃ n, l.nodes.get? a = some n ∧ n.status = .loading ∧ n.ticket = t
  loading : ∀ {a : String} {t : Nat}, Loading l a t ↔ ∃ i, Holds i a t ⟨h, l⟩
  alone : ∀ {i j : Nat} {a : String} {t t' : Nat}, Holds i a t ⟨h, l⟩ → Holds j a t' ⟨h, l⟩ → i = j ∧ t = t'
  failed : ∀ {a : String} {n : Node}, l.nodes.get? a = some n → n.status = .failed → n.functions = [] ∧
    ∃ c, n.error = some c ∧ l.outcomes.get? n.ticket = some (.error c)
  settled : ∀ {t : Nat} {o : Outcome}, l.outcomes.get? t = some o ↔ ∃ i a, (i, .settled a t o) ∈ h
  executed : ∀ a, l.executed a ≤ 1 + h.failures a

theorem Balanced.inOrder {h : History} {l : Loader} (hb : Balanced ⟨h, l⟩) : InOrder h l := by
  constructor
  case tallied =>
    intro a t
    rw [hb.tallied a t]
    constructor
    · rintro ⟨n, hn, hrest⟩
      obtain ⟨n', hn', rfl⟩ := Option.map_eq_some_iff.mp hn
      exact ⟨n', hn', hrest⟩
    · rintro ⟨n, hn, hrest⟩
      exact ⟨n.bare, by rw [Loader.view, hn]; rfl, hrest⟩
  case loading =>
    intro a t
    rw [hb.loading]
    exact ⟨fun ⟨⟨i, hi⟩, hnone⟩ => ⟨i, hi, hnone⟩, fun ⟨i, hi, hnone⟩ => ⟨⟨i, hi⟩, hnone⟩⟩
  case alone =>
    intro i j a t t' hi hj
    obtain rfl : t = t' := (hi.loading hb).unique (hj.loading hb)
    exact ⟨(hb.unique hi.began hj.began).1, rfl⟩
  case failed =>
    intro a n hn hstatus
    have hview : l.view a = some n.bare := by rw [Loader.view, hn]; rfl
    exact hb.failed (n := n.bare) hview hstatus
  case settled => exact hb.outcome
  case executed => exact fun a => Nat.add_comm _ _ ▸ hb.bound a

/-- What is loaded, and what is settled, is so for good. -/
structure ForGood (l l' : Loader) : Prop where
  loaded : ∀ {a : String} {f : Table String Entry}, Loaded l a f → Loaded l' a f ∧ l'.executed a = l.executed a
  settled : ∀ {t : Nat} {o : Outcome}, l.outcomes.get? t = some o → l'.outcomes.get? t = some o

theorem After.forGood {A B : Ledger} (h : After A B) : ForGood A.loader B.loader := by
  refine ⟨fun hloaded => ?_, h.get?_outcomes⟩
  obtain ⟨n, hn, hstatus, hfunctions⟩ := loaded_iff_view.mp hloaded
  obtain ⟨hn', hexecuted⟩ := h.loaded hn hstatus
  exact ⟨loaded_iff_view.mpr ⟨n, hn', hstatus, hfunctions⟩, hexecuted⟩

end Conductor.Module
