import Conductor.Proofs.Module.Ledger

/-!
# The chronicle of a loader

A chronicle tells which modules were asked for, by which load, and which of the loads began,
the earliest first. An identifier is asked for with a base, in the files and with the registry
that there are at the time, and where it led to is fixed by these for good. A loader is
documented by a chronicle if its nodes, its edges and its tickets are what the chronicle
makes them.

Main facts: each thing that happens to a documented loader can be entered in the chronicle;
what one task does leaves the loads of the others alone; and a cycle that a documented loader
reports is a closed walk of its graph.
-/

set_option autoImplicit false

namespace Conductor

def Files.Writes (fs fs' : Files) : Prop := ∃ base locator data, fs' = (fs.write base locator data).2

namespace Module

open Relation (ReflTransGen)

/-! ## What is asked for -/

/-- An identifier as it is asked for: with the base against which it is resolved, in the files and with the registry
that there are. -/
structure Ask where
  identifier : String
  base : Option String
  files : Files
  registry : Option String

namespace Ask

def located (q : Ask) : Except Condition Location := Module.locate q.files q.registry q.identifier q.base

def LeadsTo (q : Ask) (a : String) : Prop := ∃ l, q.located = .ok l ∧ l.text = a

/-- What is asked for in a module is resolved against the place of the module; a module of the host passes on the base
that it was asked from. -/
def Makes (q d : Ask) : Prop := ∃ l w, q.located = .ok l ∧ d.base = baseFor w l q.base

theorem LeadsTo.unique {q : Ask} {a b : String} (h : q.LeadsTo a) (h' : q.LeadsTo b) : a = b := by
  obtain ⟨l, hl, rfl⟩ := h
  obtain ⟨l', hl', rfl⟩ := h'
  obtain rfl : l = l' := Except.ok.inj (hl.symm.trans hl')
  rfl

end Ask

/-- Something is asked for, by the load under a ticket or by none, or a load begins under a ticket. -/
inductive Event
  | asked (asker : Option Nat) (q : Ask)
  | began (ticket : Nat) (q : Ask)

abbrev Chronicle := List (Nat × Event)

def Event.askOf (ticket : Nat) : Event → Option Ask
  | .asked (some t) q => if t = ticket then some q else none
  | _ => none

def Chronicle.asks (J : Chronicle) (ticket : Nat) : List Ask := J.filterMap fun e => e.2.askOf ticket

theorem Chronicle.mem_asks {J : Chronicle} {t : Nat} {q : Ask} : q ∈ J.asks t ↔ ∃ i, (i, .asked (some t) q) ∈ J := by
  simp only [asks, List.mem_filterMap]
  constructor
  · rintro ⟨⟨i, e⟩, he, hq⟩
    cases e with
    | began ticket p => cases hq
    | asked asker p =>
      cases asker with
      | none => cases hq
      | some t' =>
        simp only [Event.askOf, Option.ite_none_right_eq_some, Option.some.injEq] at hq
        obtain ⟨rfl, rfl⟩ := hq
        exact ⟨i, he⟩
  · rintro ⟨i, hi⟩
    exact ⟨_, hi, if_pos rfl⟩

theorem Chronicle.asks_append (J K : Chronicle) (t : Nat) : (J ++ K).asks t = J.asks t ++ K.asks t :=
  List.filterMap_append

@[simp] theorem Chronicle.asks_asked (i t : Nat) (asker : Option Nat) (q : Ask) :
    Chronicle.asks [(i, .asked asker q)] t = if asker = some t then [q] else [] := by
  cases asker with
  | none => simp [asks, Event.askOf]
  | some t' => by_cases h : t' = t <;> simp [asks, Event.askOf, h]

@[simp] theorem Chronicle.asks_began (i t ticket : Nat) (q : Ask) : Chronicle.asks [(i, .began ticket q)] t = [] := rfl

/-- What files and registries there may be; what programs write is allowed for. -/
structure Surroundings where
  allows : Files → Option String → Prop
  written : ∀ {fs fs' : Files} {registry : Option String}, fs.Writes fs' → allows fs registry → allows fs' registry

/-- The surroundings of a run in which nobody but the programs changes files: those of its beginning, with what was
written since. -/
def Surroundings.since (w : World) : Surroundings where
  allows fs registry := ReflTransGen Files.Writes w.files fs ∧ registry = registryOf w
  written hwrites h := ⟨h.1.tail hwrites, h.2⟩

def Surroundings.any : Surroundings where
  allows _ _ := True
  written _ h := h

theorem Surroundings.allows_of_writes {S : Surroundings} {fs fs' : Files} {registry : Option String}
    (h : ReflTransGen Files.Writes fs fs') (hallows : S.allows fs registry) : S.allows fs' registry := by
  induction h with
  | refl => exact hallows
  | tail _ hwrites ih => exact S.written hwrites ih

/-! ## Loaders with their chronicles -/

structure Account where
  chronicle : Chronicle
  loader : Loader

/-- A loader is what its chronicle makes it. -/
structure Documented (S : Surroundings) (A : Account) : Prop where
  allowed : ∀ {i asker q}, (i, .asked asker q) ∈ A.chronicle → S.allows q.files q.registry
  drawn : ∀ {i t q}, (i, .began t q) ∈ A.chronicle → t < A.loader.tickets
  unique : ∀ {i j t p q}, (i, .began t p) ∈ A.chronicle → (j, .began t q) ∈ A.chronicle → i = j ∧ p = q
  /-- What is loaded was asked for. -/
  wanted : ∀ {i t q}, (i, .began t q) ∈ A.chronicle → ∃ asker, (i, .asked asker q) ∈ A.chronicle
  /-- A load asks for modules from where it stands. -/
  asker : ∀ {i t d}, (i, .asked (some t) d) ∈ A.chronicle → ∃ q, (i, .began t q) ∈ A.chronicle ∧ q.Makes d
  /-- A node belongs to a load that led there. -/
  node : ∀ {a n}, A.loader.nodes.get? a = some n →
    ∃ i q, (i, .began n.ticket q) ∈ A.chronicle ∧ q.LeadsTo a ∧ q.identifier = n.identifier
  entered : ∀ {i t q a}, (i, .began t q) ∈ A.chronicle → q.LeadsTo a → A.loader.nodes.get? a ≠ none
  /-- The edges of a location are where the loads of it have asked, all of them. -/
  edges : ∀ {a b}, Along A.loader.edges a b ↔
    ∃ i t q d, (i, .began t q) ∈ A.chronicle ∧ q.LeadsTo a ∧ d ∈ A.chronicle.asks t ∧ d.LeadsTo b
  /-- What a load has asked for are dependencies of its node, -/
  declared : ∀ {a n}, A.loader.nodes.get? a = some n →
    (A.chronicle.asks n.ticket).map Ask.identifier <+: n.dependencies
  /-- and all of them once the module is loaded. -/
  complete : ∀ {a n}, A.loader.nodes.get? a = some n → n.status = .loaded →
    (A.chronicle.asks n.ticket).map Ask.identifier = n.dependencies

/-- What goes on beside some loads: others may ask and begin, but these are as they were. -/
structure Beside (P : Nat → Nat → Prop) (A B : Account) : Prop where
  chronicle : A.chronicle <+: B.chronicle
  left : ∀ {i t q a}, (i, .began t q) ∈ A.chronicle → P i t → Loading A.loader a t →
    B.loader.nodes.get? a = A.loader.nodes.get? a ∧ B.loader.pending.get? a = A.loader.pending.get? a ∧
      B.chronicle.asks t = A.chronicle.asks t

namespace Beside

variable {P Q : Nat → Nat → Prop} {A B D : Account}

theorem refl (P : Nat → Nat → Prop) (A : Account) : Beside P A A := ⟨List.prefix_refl _, fun _ _ _ => ⟨rfl, rfl, rfl⟩⟩

theorem mono (h : Beside P A B) (hPQ : ∀ i t, Q i t → P i t) : Beside Q A B :=
  ⟨h.chronicle, fun hbegan hQ => h.left hbegan (hPQ _ _ hQ)⟩

theorem mem (h : Beside P A B) {e : Nat × Event} (he : e ∈ A.chronicle) : e ∈ B.chronicle := h.chronicle.subset he

theorem loading (h : Beside P A B) {i t : Nat} {q : Ask} {a : String} (hbegan : (i, .began t q) ∈ A.chronicle)
    (hP : P i t) (hloading : Loading A.loader a t) : Loading B.loader a t := by
  obtain ⟨hnode, hpending, -⟩ := h.left hbegan hP hloading
  obtain ⟨n, hn, hstatus, ht⟩ := hloading
  exact ⟨n, hnode.trans hn, hstatus, hpending.trans ht⟩

theorem trans (h : Beside P A B) (h' : Beside P B D) : Beside P A D := by
  refine ⟨h.chronicle.trans h'.chronicle, fun hbegan hP hloading => ?_⟩
  obtain ⟨hnode, hpending, hasks⟩ := h.left hbegan hP hloading
  obtain ⟨hnode', hpending', hasks'⟩ := h'.left (h.mem hbegan) hP (h.loading hbegan hP hloading)
  exact ⟨hnode'.trans hnode, hpending'.trans hpending, hasks'.trans hasks⟩

theorem of_elsewhere {J J' : Chronicle} {l l' : Loader} {a : String} (hJ : J <+: J')
    (hnodes : ∀ x, x ≠ a → l'.nodes.get? x = l.nodes.get? x)
    (hpending : ∀ x, x ≠ a → l'.pending.get? x = l.pending.get? x)
    (hothers : ∀ {i t q}, (i, .began t q) ∈ J → P i t → ¬ Loading l a t)
    (hasks : ∀ {i t q}, (i, .began t q) ∈ J → P i t → J'.asks t = J.asks t) : Beside P ⟨J, l⟩ ⟨J', l'⟩ := by
  refine ⟨hJ, fun {i t q x} hbegan hP hloading => ?_⟩
  have hne : x ≠ a := by
    rintro rfl
    exact hothers hbegan hP hloading
  exact ⟨hnodes x hne, hpending x hne, hasks hbegan hP⟩

end Beside

/-! ## What is entered in a chronicle -/

theorem settle_graph {l : Loader} {a : String} {n : Node} (hn : l.nodes.get? a = some n) (t : Nat) (o : Outcome) :
    ∃ outcomes failures, l.settle a t o =
      { l with
        nodes := l.nodes.put a (n.settled o), pending := l.pending.erase a, outcomes := outcomes
        failures := failures } := by
  cases o with
  | ok functions =>
    refine ⟨l.outcomes.put t (.ok functions), l.failures, ?_⟩
    simp only [Loader.settle, Loader.update, hn, Node.settled]
  | error c =>
    obtain ⟨failures, hnote⟩ := note_eq { l with
      nodes := l.nodes.put a (n.settled (.error c)), pending := l.pending.erase a
      outcomes := l.outcomes.put t (.error c) } c
    refine ⟨l.outcomes.put t (.error c), failures, ?_⟩
    simp only [Loader.settle, Loader.update, hn]
    exact hnote

theorem update_eq (l : Loader) (a : String) (f : Node → Node) : ∃ nodes, l.update a f = { l with nodes := nodes } := by
  unfold Loader.update
  split
  · exact ⟨_, rfl⟩
  · exact ⟨l.nodes, rfl⟩

namespace Documented

variable {S : Surroundings} {J : Chronicle} {l l' : Loader} {i t : Nat} {a : String} {n : Node} {p q : Ask}
  {asker : Option Nat}

theorem start (hnodes : l.nodes = []) (hedges : l.edges = []) : Documented S ⟨[], l⟩ := by
  have hnode (x : String) : l.nodes.get? x = none := by rw [hnodes]; rfl
  refine ⟨nofun, nofun, nofun, nofun, nofun, fun h => ?_, nofun, ?_, fun h => ?_, fun h => ?_⟩
  · exact absurd h (by simp [hnode])
  · simp [Along, hedges, Table.get?]
  · exact absurd h (by simp [hnode])
  · exact absurd h (by simp [hnode])

theorem frame (h : Documented S ⟨J, l⟩) (hnodes : l'.nodes = l.nodes) (hedges : l'.edges = l.edges)
    (htickets : l'.tickets = l.tickets) : Documented S ⟨J, l'⟩ := by
  obtain ⟨hallowed, hdrawn, hunique, hwanted, hasker, hnode, hentered, hedge, hdeclared, hcomplete⟩ := h
  dsimp only at *
  rw [← hnodes] at hnode hentered hdeclared hcomplete
  rw [← hedges] at hedge
  rw [← htickets] at hdrawn
  exact ⟨hallowed, hdrawn, hunique, hwanted, hasker, hnode, hentered, hedge, hdeclared, hcomplete⟩

theorem same_place (h : Documented S ⟨J, l⟩) {j : Nat} {b : String} (hp : (i, .began t p) ∈ J) (hpa : p.LeadsTo a)
    (hq : (j, .began t q) ∈ J) (hqb : q.LeadsTo b) : a = b := by
  obtain ⟨-, rfl⟩ := h.unique hp hq
  exact hpa.unique hqb

theorem asks_eq_nil (h : Documented S ⟨J, l⟩) (ht : l.tickets ≤ t) : J.asks t = [] := by
  refine List.eq_nil_iff_forall_not_mem.mpr fun q hq => ?_
  obtain ⟨i, hi⟩ := Chronicle.mem_asks.mp hq
  obtain ⟨p, hp, -⟩ := h.asker hi
  exact absurd (h.drawn hp) (Nat.not_lt.mpr ht)

theorem asks (h : Documented S ⟨J, l⟩) (i : Nat) (hq : S.allows q.files q.registry) :
    Documented S ⟨J ++ [(i, .asked none q)], l⟩ := by
  have hasks (t : Nat) : Chronicle.asks (J ++ [(i, .asked none q)]) t = J.asks t := by simp [Chronicle.asks_append]
  constructor
  case allowed =>
    intro j asker d hd
    rcases List.mem_append.mp hd with hd | hd
    · exact h.allowed hd
    · cases List.mem_singleton.mp hd
      exact hq
  case drawn => exact fun hd => h.drawn (by simpa using hd)
  case unique => exact fun hd hd' => h.unique (by simpa using hd) (by simpa using hd')
  case wanted =>
    intro j t d hd
    obtain ⟨asker, hasker⟩ := h.wanted (by simpa using hd)
    exact ⟨asker, List.mem_append_left _ hasker⟩
  case asker =>
    intro j t d hd
    obtain ⟨p, hp, hmakes⟩ := h.asker (by simpa using hd)
    exact ⟨p, List.mem_append_left _ hp, hmakes⟩
  case node =>
    intro b n hn
    obtain ⟨j, p, hp, hrest⟩ := h.node hn
    exact ⟨j, p, List.mem_append_left _ hp, hrest⟩
  case entered => exact fun hd => h.entered (by simpa using hd)
  case edges =>
    intro b c
    simpa only [hasks, List.mem_append, List.mem_singleton, Prod.mk.injEq, reduceCtorEq, and_false, or_false]
      using h.edges
  case declared =>
    intro b n hn
    simpa only [hasks] using h.declared hn
  case complete =>
    intro b n hn hloaded
    simpa only [hasks] using h.complete hn hloaded

/-- A load asks: what it asks for is one of the dependencies of its node, and there is an edge to where that leads. -/
theorem asks_under (h : Documented S ⟨J, l⟩) (hq : S.allows q.files q.registry) (hp : (i, .began t p) ∈ J)
    (hpa : p.LeadsTo a) (hmakes : p.Makes q) (hn : l.nodes.get? a = some n) (ht : n.ticket = t)
    (hstatus : n.status = .loading) (hdeclared : (J.asks t).map Ask.identifier ++ [q.identifier] <+: n.dependencies)
    (hnodes : l'.nodes = l.nodes) (hedges : ∀ x y, Along l'.edges x y ↔ Along l.edges x y ∨ x = a ∧ q.LeadsTo y)
    (htickets : l'.tickets = l.tickets) : Documented S ⟨J ++ [(i, .asked (some t) q)], l'⟩ := by
  have hasks (t' : Nat) : Chronicle.asks (J ++ [(i, .asked (some t) q)]) t' = J.asks t' ++ if t = t' then [q] else [] := by
    simp [Chronicle.asks_append]
  -- a node of another location belongs to another load
  have hother {x : String} {n' : Node} (hx : x ≠ a) (hn' : l.nodes.get? x = some n') : t ≠ n'.ticket := by
    rintro rfl
    obtain ⟨j, p', hp', hx', -⟩ := h.node hn'
    exact hx (h.same_place hp' hx' hp hpa)
  constructor
  case allowed =>
    intro j asker d hd
    rcases List.mem_append.mp hd with hd | hd
    · exact h.allowed hd
    · cases List.mem_singleton.mp hd
      exact hq
  case drawn => exact fun hd => (h.drawn (by simpa using hd)).trans_eq htickets.symm
  case unique => exact fun hd hd' => h.unique (by simpa using hd) (by simpa using hd')
  case wanted =>
    intro j t d hd
    obtain ⟨asker, hasker⟩ := h.wanted (by simpa using hd)
    exact ⟨asker, List.mem_append_left _ hasker⟩
  case asker =>
    intro j t' d hd
    rcases List.mem_append.mp hd with hd | hd
    · obtain ⟨p', hp', hmakes'⟩ := h.asker hd
      exact ⟨p', List.mem_append_left _ hp', hmakes'⟩
    · cases List.mem_singleton.mp hd
      exact ⟨p, List.mem_append_left _ hp, hmakes⟩
  case node =>
    intro x n' hn'
    obtain ⟨j, p', hp', hrest⟩ := h.node (hnodes ▸ hn')
    exact ⟨j, p', List.mem_append_left _ hp', hrest⟩
  case entered =>
    intro j t' d x hd hx
    rw [hnodes]
    exact h.entered (by simpa using hd) hx
  case edges =>
    intro x y
    rw [hedges, h.edges]
    constructor
    · rintro (⟨j, t', p', d, hp', hx, hd, hy⟩ | ⟨rfl, hy⟩)
      · exact ⟨j, t', p', d, List.mem_append_left _ hp', hx, by rw [hasks]; exact List.mem_append_left _ hd, hy⟩
      · exact ⟨i, t, p, q, List.mem_append_left _ hp, hpa, by simp [hasks], hy⟩
    · rintro ⟨j, t', p', d, hp', hx, hd, hy⟩
      have hp' : (j, Event.began t' p') ∈ J := by simpa using hp'
      rw [hasks, List.mem_append] at hd
      rcases hd with hd | hd
      · exact .inl ⟨j, t', p', d, hp', hx, hd, hy⟩
      · split at hd
        · next heq =>
          subst heq
          cases List.mem_singleton.mp hd
          exact .inr ⟨h.same_place hp' hx hp hpa, hy⟩
        · cases hd
  case declared =>
    intro x n' hn'
    rw [hnodes] at hn'
    rw [hasks]
    by_cases hx : x = a
    · obtain rfl : n' = n := Option.some.inj (hn'.symm.trans (hx ▸ hn))
      simpa [ht] using hdeclared
    · simpa [hother hx hn'] using h.declared hn'
  case complete =>
    intro x n' hn' hloaded
    rw [hnodes] at hn'
    rw [hasks]
    by_cases hx : x = a
    · obtain rfl : n' = n := Option.some.inj (hn'.symm.trans (hx ▸ hn))
      simp [hstatus] at hloaded
    · simpa [hother hx hn'] using h.complete hn' hloaded

theorem begins (h : Documented S ⟨J, l⟩) (hq : (i, .asked asker q) ∈ J) (ha : q.LeadsTo a) :
    Documented S ⟨J ++ [(i, .began l.tickets q)], l.begun q.identifier a⟩ := by
  have hasks (t : Nat) : Chronicle.asks (J ++ [(i, .began l.tickets q)]) t = J.asks t := by simp [Chronicle.asks_append]
  have hfuture : J.asks l.tickets = [] := h.asks_eq_nil le_rfl
  have hnodes (x : String) : (l.begun q.identifier a).nodes.get? x =
      if x = a then some { identifier := q.identifier, location := a, status := .loading, ticket := l.tickets }
      else l.nodes.get? x := by
    by_cases hx : x = a
    · subst hx
      simp [Loader.begun, Table.get?_put_self]
    · simp [Loader.begun, Table.get?_put_of_ne hx, hx]
  have hold {j t : Nat} {p : Ask} (hp : (j, Event.began t p) ∈ J ++ [(i, Event.began l.tickets q)]) :
      (j, Event.began t p) ∈ J ∨ j = i ∧ t = l.tickets ∧ p = q := by simpa using hp
  constructor
  case allowed => exact fun hd => h.allowed (by simpa using hd)
  case drawn =>
    intro j t p hp
    rcases hold hp with hp | ⟨-, rfl, -⟩
    · exact (h.drawn hp).trans (Nat.lt_succ_self _)
    · exact Nat.lt_succ_self _
  case unique =>
    intro j k t p p' hp hp'
    rcases hold hp with hold₁ | ⟨hj, ht, hpq⟩ <;> rcases hold hp' with hold₂ | ⟨hk, ht', hpq'⟩
    · exact h.unique hold₁ hold₂
    · exact absurd (h.drawn hold₁) (Nat.not_lt.mpr ht'.ge)
    · exact absurd (h.drawn hold₂) (Nat.not_lt.mpr ht.ge)
    · exact ⟨hj.trans hk.symm, hpq.trans hpq'.symm⟩
  case wanted =>
    intro j t p hp
    rcases hold hp with hp | ⟨rfl, -, rfl⟩
    · obtain ⟨asker, hasker⟩ := h.wanted hp
      exact ⟨asker, List.mem_append_left _ hasker⟩
    · exact ⟨asker, List.mem_append_left _ hq⟩
  case asker =>
    intro j t d hd
    obtain ⟨p, hp, hmakes⟩ := h.asker (by simpa using hd)
    exact ⟨p, List.mem_append_left _ hp, hmakes⟩
  case node =>
    intro x n hn
    rw [hnodes] at hn
    split at hn
    · next hx =>
      subst hx
      cases hn
      exact ⟨i, q, List.mem_append_right _ (List.mem_singleton_self _), ha, rfl⟩
    · obtain ⟨j, p, hp, hrest⟩ := h.node hn
      exact ⟨j, p, List.mem_append_left _ hp, hrest⟩
  case entered =>
    intro j t p x hp hx
    rw [hnodes]
    split
    · exact Option.some_ne_none _
    · next hne =>
      rcases hold hp with hp | ⟨-, -, rfl⟩
      · exact h.entered hp hx
      · exact absurd (hx.unique ha) hne
  case edges =>
    intro x y
    refine h.edges.trans ?_
    simp only [hasks]
    constructor
    · rintro ⟨j, t, p, d, hp, hrest⟩
      exact ⟨j, t, p, d, List.mem_append_left _ hp, hrest⟩
    · rintro ⟨j, t, p, d, hp, hx, hd, hy⟩
      rcases hold hp with hp | ⟨-, rfl, -⟩
      · exact ⟨j, t, p, d, hp, hx, hd, hy⟩
      · rw [hfuture] at hd
        cases hd
  case declared =>
    intro x n hn
    rw [hnodes] at hn
    rw [hasks]
    split at hn
    · cases hn
      simp [hfuture]
    · exact h.declared hn
  case complete =>
    intro x n hn hloaded
    rw [hnodes] at hn
    rw [hasks]
    split at hn
    · cases hn
      cases hloaded
    · exact h.complete hn hloaded

theorem rewrites (h : Documented S ⟨J, l⟩) (hn : l.nodes.get? a = some n) {n' : Node} (hticket : n'.ticket = n.ticket)
    (hidentifier : n'.identifier = n.identifier)
    (hdeclared : (J.asks n.ticket).map Ask.identifier <+: n'.dependencies)
    (hcomplete : n'.status = .loaded → (J.asks n.ticket).map Ask.identifier = n'.dependencies)
    (hnodes : ∀ x, l'.nodes.get? x = if x = a then some n' else l.nodes.get? x) (hedges : l'.edges = l.edges)
    (htickets : l'.tickets = l.tickets) : Documented S ⟨J, l'⟩ := by
  constructor
  case allowed => exact h.allowed
  case drawn => exact fun hp => (h.drawn hp).trans_eq htickets.symm
  case unique => exact h.unique
  case wanted => exact h.wanted
  case asker => exact h.asker
  case node =>
    intro x m hm
    rw [hnodes] at hm
    split at hm
    · next hx =>
      subst hx
      cases hm
      rw [hticket, hidentifier]
      exact h.node hn
    · exact h.node hm
  case entered =>
    intro j t p x hp hx
    rw [hnodes]
    split
    · exact Option.some_ne_none _
    · exact h.entered hp hx
  case edges =>
    intro x y
    rw [hedges]
    exact h.edges
  case declared =>
    intro x m hm
    rw [hnodes] at hm
    split at hm
    · cases hm
      rw [hticket]
      exact hdeclared
    · exact h.declared hm
  case complete =>
    intro x m hm hloaded
    rw [hnodes] at hm
    split at hm
    · cases hm
      rw [hticket]
      exact hcomplete hloaded
    · exact h.complete hm hloaded

end Documented

/-! ## Closed walks -/

def Account.Knows (A : Account) (q : Ask) (a : String) : Prop := (∃ i asker, (i, .asked asker q) ∈ A.chronicle) ∧ q.LeadsTo a

/-- A walk along the edges of a loader from one location to another: the identifiers of its stations, each as it was
asked for. -/
inductive Walk (A : Account) : String → String → List String → Prop
  | here {q : Ask} {a : String} (hq : A.Knows q a) : Walk A a a [q.identifier]
  | step {q : Ask} {a b c : String} {ids : List String} (hq : A.Knows q a) (hab : Along A.loader.edges a b)
      (hbc : Walk A b c ids) : Walk A a c (q.identifier :: ids)

/-- Identifiers that name a closed walk in the graph: each was asked for and led to a location, there is an edge from each
location to the next, and the last location is the first. -/
def ClosedWalk (A : Account) (ids : List String) : Prop :=
  ∃ stations : List (Ask × String), ids = stations.map (·.1.identifier) ∧ 2 ≤ ids.length ∧
    (∀ e ∈ stations, A.Knows e.1 e.2) ∧ (stations.map Prod.snd).IsChain (Along A.loader.edges) ∧
    (stations.map Prod.snd).head? = (stations.map Prod.snd).getLast?

namespace Walk

variable {A : Account} {a b c : String} {ids : List String} {q : Ask}

theorem stations (h : Walk A a b ids) : ∃ stations : List (Ask × String), ids = stations.map (·.1.identifier) ∧
    (∀ e ∈ stations, A.Knows e.1 e.2) ∧ (stations.map Prod.snd).IsChain (Along A.loader.edges) ∧
    (stations.map Prod.snd).head? = some a ∧ (stations.map Prod.snd).getLast? = some b := by
  induction h with
  | @here q a hq => exact ⟨[(q, a)], rfl, by simpa using hq, List.isChain_singleton a, rfl, rfl⟩
  | @step q a b c ids hq hab _ ih =>
    obtain ⟨rest, hids, hknown, hchain, hhead, hlast⟩ := ih
    obtain ⟨b', hb, hrest⟩ : ∃ b' tail, rest.map Prod.snd = b' :: tail := by
      cases htail : rest.map Prod.snd with
      | nil => simp [htail] at hhead
      | cons b' tail => exact ⟨b', tail, rfl⟩
    rw [hrest, List.head?_cons, Option.some.injEq] at hhead
    subst hhead
    refine ⟨(q, a) :: rest, by simp [hids], ?_, ?_, rfl, ?_⟩
    · rintro e he
      rcases List.mem_cons.mp he with rfl | he
      · exact hq
      · exact hknown e he
    · rw [List.map_cons, hrest]
      exact List.isChain_cons_cons.mpr ⟨hab, hrest ▸ hchain⟩
    · rw [List.map_cons, hrest, List.getLast?_cons_cons, ← hrest]
      exact hlast

theorem closed (h : Walk A a a ids) (hlength : 2 ≤ ids.length) : ClosedWalk A ids := by
  obtain ⟨stations, hids, hknown, hchain, hhead, hlast⟩ := h.stations
  exact ⟨stations, hids, hlength, hknown, hchain, hhead.trans hlast.symm⟩

theorem snoc (h : Walk A a b ids) (hbc : Along A.loader.edges b c) (hq : A.Knows q c) :
    Walk A a c (ids ++ [q.identifier]) := by
  induction h with
  | here ha => exact .step ha hbc (.here hq)
  | step ha hab _ ih => exact .step ha hab (ih hbc)

theorem along (h : Walk A a b ids) {rest : List String} (hchain : (b :: rest).IsChain (Along A.loader.edges))
    (hknown : ∀ x ∈ rest, ∃ q, A.Knows q x ∧ q.identifier = A.loader.identifierOf x) :
    Walk A a ((b :: rest).getLast (List.cons_ne_nil _ _)) (ids ++ rest.map A.loader.identifierOf) := by
  induction rest generalizing b ids with
  | nil => simpa using h
  | cons x rest ih =>
    obtain ⟨hbx, hrest⟩ := List.isChain_cons_cons.mp hchain
    obtain ⟨q, hq, hid⟩ := hknown x List.mem_cons_self
    have hnext := ih (h.snoc hbx hq) hrest fun y hy => hknown y (List.mem_cons_of_mem _ hy)
    simpa [hid] using hnext

end Walk

/-- A stack that a task has come to by its loads: each of them was asked for by the one before. The asker is the last of
them. -/
inductive Line (J : Chronicle) (i : Nat) : Stack → Option Nat → Prop
  | nil : Line J i [] none
  | push {stack : Stack} {asker : Option Nat} {t : Nat} {q : Ask} {a : String} (hline : Line J i stack asker)
      (hasked : (i, .asked asker q) ∈ J) (hbegan : (i, .began t q) ∈ J) (ha : q.LeadsTo a) :
      Line J i (stack ++ [(q.identifier, a)]) (some t)

theorem Line.mono {J J' : Chronicle} {i : Nat} {stack : Stack} {asker : Option Nat} (h : Line J i stack asker)
    (hJ : ∀ e ∈ J, e ∈ J') : Line J' i stack asker := by
  induction h with
  | nil => exact .nil
  | push _ hasked hbegan ha ih => exact .push ih (hJ _ hasked) (hJ _ hbegan) ha

namespace Documented

variable {S : Surroundings} {J : Chronicle} {l : Loader} {i : Nat} {stack : Stack} {asker : Option Nat} {q : Ask}
  {a : String}

/-- From each load on a stack there is a walk to what the last of them asks for. -/
theorem walk_of_line (h : Documented S ⟨J, l⟩) (hline : Line J i stack asker) (hq : (i, .asked asker q) ∈ J)
    (ha : q.LeadsTo a) {before rest : Stack} {e : String × String} (hstack : stack = before ++ e :: rest) :
    Walk ⟨J, l⟩ e.2 a ((e :: rest).map Prod.fst ++ [q.identifier]) := by
  induction hline generalizing q a before rest e with
  | nil => simp at hstack
  | @push stack asker t p b _ hasked hbegan hb ih =>
    have hedge : Along l.edges b a := h.edges.mpr ⟨i, t, p, q, hbegan, hb, Chronicle.mem_asks.mpr ⟨i, hq⟩, ha⟩
    rcases List.eq_nil_or_concat rest with rfl | ⟨rest, last, rfl⟩
    · obtain ⟨-, heq⟩ := List.append_inj' hstack rfl
      cases heq
      exact .step ⟨⟨i, _, hasked⟩, hb⟩ hedge (.here ⟨⟨i, _, hq⟩, ha⟩)
    · have hsplit : stack ++ [(p.identifier, b)] = (before ++ e :: rest) ++ [last] := by simpa using hstack
      obtain ⟨hstack', heq⟩ := List.append_inj' hsplit rfl
      cases heq
      simpa using (ih hasked hb hstack').snoc hedge ⟨⟨i, _, hq⟩, ha⟩

theorem knows_of_began (h : Documented S ⟨J, l⟩) {t : Nat} (hq : (i, .began t q) ∈ J) (ha : q.LeadsTo a) :
    ∃ p, Account.Knows ⟨J, l⟩ p a ∧ p.identifier = l.identifierOf a := by
  obtain ⟨n, hn⟩ := Option.ne_none_iff_exists'.mp (h.entered hq ha)
  obtain ⟨j, p, hp, hpa, hid⟩ := h.node hn
  obtain ⟨asker, hasked⟩ := h.wanted hp
  exact ⟨p, ⟨⟨j, asker, hasked⟩, hpa⟩, by simp [Loader.identifierOf, hn, hid]⟩

theorem began_of_line (hline : Line J i stack asker) (ha : a ∈ stack.map Prod.snd) :
    ∃ t q, (i, .began t q) ∈ J ∧ q.LeadsTo a := by
  induction hline with
  | nil => simp at ha
  | @push stack asker t q b _ _ hbegan hb ih =>
    rw [List.map_append, List.mem_append] at ha
    rcases ha with ha | ha
    · exact ih ha
    · cases List.mem_singleton.mp ha
      exact ⟨t, q, hbegan, hb⟩

theorem knows_of_path (h : Documented S ⟨J, l⟩) (hline : Line J i stack asker) {path : List String}
    (hchain : path.IsChain (Along l.edges)) (hlast : ∀ b ∈ path.getLast?, b ∈ stack.map Prod.snd) :
    ∀ x ∈ path, ∃ q, Account.Knows ⟨J, l⟩ q x ∧ q.identifier = l.identifierOf x := by
  induction path with
  | nil => simp
  | cons b rest ih =>
    intro x hx
    cases rest with
    | nil =>
      obtain rfl : x = b := List.mem_singleton.mp hx
      obtain ⟨t, q, hq, ha⟩ := began_of_line hline (hlast x rfl)
      exact h.knows_of_began hq ha
    | cons c rest =>
      obtain ⟨hbc, hrest⟩ := List.isChain_cons_cons.mp hchain
      rcases List.mem_cons.mp hx with rfl | hx
      · obtain ⟨j, t, q, d, hq, hb, -⟩ := h.edges.mp hbc
        exact h.knows_of_began hq hb
      · exact ih hrest (by simpa using hlast) x hx

theorem dropWhile_ne_eq_cons {b : String} (hb : b ∈ stack.map Prod.snd) :
    ∃ before e rest, stack = before ++ e :: rest ∧ e.2 = b ∧ (stack.dropWhile fun e => e.2 != b) = e :: rest := by
  induction stack with
  | nil => simp at hb
  | cons e stack ih =>
    by_cases he : e.2 = b
    · exact ⟨[], e, stack, rfl, he, by simp [he]⟩
    · obtain ⟨before, e', rest, heq, he', hdrop⟩ := ih (by simpa [Ne.symm he] using hb)
      exact ⟨e :: before, e', rest, by rw [heq, List.cons_append], he', by simpa [he] using hdrop⟩

/-- A cycle that the loader reports to a task is a closed walk of the graph. -/
theorem closedWalk_of_circular (h : Documented S ⟨J, l⟩) (hline : Line J i stack asker) (hq : (i, .asked asker q) ∈ J)
    (ha : q.LeadsTo a) {ids : List String} (henter : l.enter stack q.identifier a = .circular ids) :
    ClosedWalk ⟨J, l⟩ ids := by
  -- the walk along the stack, from where the cycle closes
  have hown {b : String} (hb : b ∈ stack.map Prod.snd) : ∃ e rest, e.2 = b ∧
      (stack.dropWhile fun e => e.2 != b) = e :: rest ∧ Walk ⟨J, l⟩ b a ((e :: rest).map Prod.fst ++ [q.identifier]) := by
    obtain ⟨before, e, rest, hstack, rfl, hdrop⟩ := dropWhile_ne_eq_cons hb
    exact ⟨e, rest, rfl, hdrop, h.walk_of_line hline hq ha hstack⟩
  unfold Loader.enter at henter
  cases hcycle : Loader.stackCycle? stack q.identifier a with
  | some ids' =>
    obtain rfl : ids' = ids := by simpa [hcycle] using henter
    have hmem : a ∈ stack.map Prod.snd := by
      by_contra hmem
      rw [stackCycle?_eq_none_iff.mpr hmem] at hcycle
      cases hcycle
    obtain ⟨e, rest, -, hdrop, hwalk⟩ := hown hmem
    simp only [Loader.stackCycle?, hdrop, Option.some.injEq] at hcycle
    exact hcycle ▸ hwalk.closed (by simp)
  | none =>
    obtain ⟨n, hn, hshared⟩ : ∃ n, l.nodes.get? a = some n ∧ l.sharedCycle? stack q.identifier a = some ids := by
      cases hn : l.nodes.get? a with
      | none => simp [hcycle, hn] at henter
      | some n =>
        refine ⟨n, rfl, ?_⟩
        cases hstatus : n.status <;> simp only [hcycle, hn, hstatus, reduceCtorEq] at henter
        cases hpending : l.pending.get? a with
        | none => simp [hpending] at henter
        | some t =>
          cases hs : l.sharedCycle? stack q.identifier a with
          | some ids' => simpa [hpending, hs] using henter
          | none => simp [hpending, hs] at henter
    unfold Loader.sharedCycle? at hshared
    cases hpath : l.pathTo? a (stack.map Prod.snd) with
    | none => simp [hpath] at hshared
    | some path =>
      obtain ⟨hhead, hchain, b, hb, hlast⟩ := Loader.pathTo?_some hpath
      obtain ⟨e, rest, rfl, hdrop, hwalk⟩ := hown hb
      cases path with
      | nil => simp at hhead
      | cons x path =>
        obtain rfl : x = a := by simpa using hhead
        have hend : (x :: path).getLast (List.cons_ne_nil _ _) = e.2 := by
          rw [List.getLast?_eq_some_getLast (List.cons_ne_nil _ _)] at hlast
          exact Option.some.inj hlast
        have hknown := h.knows_of_path hline hchain fun c hc => by
          rw [hlast] at hc
          exact Option.some.inj hc ▸ hb
        have hround := hwalk.along hchain fun y hy => hknown y (List.mem_cons_of_mem _ hy)
        rw [hend] at hround
        have hlastD : (x :: path).getLastD x = e.2 := by
          rw [List.getLastD_eq_getLast?, hlast]
          rfl
        simp only [hpath, hlastD, hdrop, List.drop_one, List.tail_cons, Option.some.injEq] at hshared
        refine hshared ▸ hround.closed ?_
        simp only [List.length_append, List.length_map, List.length_cons, List.length_nil]
        omega

end Documented

end Module

end Conductor
