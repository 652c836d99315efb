import Conductor.Proofs.Memory.Tables
import Conductor.Proofs.Module.Request
import Conductor.Proofs.Module.Search

/-!
# Loads in progress

Several tasks load modules through one loader. What a task is doing is its stack, the
loads that it has begun and not settled, and the load that it waits for, if it waits.
The loader and the tasks are in order when exactly the loads on the stacks are under
way, each on one stack; when each stack, and each wait, runs along the edges of the
graph; and when no task waits, through others, for itself.

The part of the invariant that says what loaded and failed modules are like depends on
a `Judgment`: which requests there are, what a loaded location may hold, and which
locations cannot be loaded.
-/

set_option autoImplicit false

namespace Conductor.Module

open Relation (ReflTransGen TransGen)

/-- What is claimed of the modules of a world. -/
structure Judgment (w : World) where
  asked : Request → Prop
  /-- The dependencies that may be recorded. -/
  edge : String → String → Prop
  /-- What a loaded location holds. -/
  fine : String → Table String Entry → Prop
  /-- The locations that cannot be loaded. -/
  flawed : String → Prop
  /-- The locations that must be loaded with a location. -/
  needs : String → String → Prop
  closed : ∀ {r r' : Request}, asked r → Leads w r r' → asked r'
  host : ∀ {r : Request} {l : Location}, asked r → target w r = .ok l → l.language = .host
  edge_intro : ∀ {r r' : Request} {l l' : Location}, asked r → target w r = .ok l → Leads w r r' →
    target w r' = .ok l' → edge l.text l'.text
  flawed_back : ∀ {a b : String}, edge a b → flawed b → flawed a
  flawed_cycle : ∀ {a : String}, TransGen edge a a → flawed a
  flawed_self : ∀ {r : Request} {l : Location}, asked r → target w r = .ok l → ¬ WellFormed w r → flawed l.text
  flawed_astray : ∀ {r r' : Request} {l : Location} {c : Condition}, asked r → target w r = .ok l →
    Leads w r r' → target w r' = .error c → flawed l.text
  flawed_web : ∀ {r : Request} {l : Location}, asked r → target w r = .ok l → l.origin = .url →
    w.loader.sources = none → flawed l.text
  fine_intro : ∀ {r : Request} {l : Location} {m : HostModule} {exports : List Export} {es : Table String Entry},
    asked r → target w r = .ok l → WellFormed w r → moduleAt w l = .ok m → m.exports = .ok exports →
    m.entries exports r.1 l.text = .ok es →
    (∀ r', Leads w r r' → ∃ l' es', target w r' = .ok l' ∧ fine l'.text es') → fine l.text es
  needs_intro : ∀ {r : Request} {l : Location} {b : String}, asked r → target w r = .ok l → needs l.text b →
    ∃ r' l', Leads w r r' ∧ target w r' = .ok l' ∧ l'.text = b

/-- What a task is doing: the loads it has begun, the outermost first, each with its ticket, and the
load it waits for. -/
structure Activity where
  stack : List (String × Nat) := []
  waits : Option (String × Nat) := none

def Awaits (act : Nat → Activity) (i j : Nat) : Prop := ∃ e, (act i).waits = some e ∧ e ∈ (act j).stack

def Loaded (l : Loader) (location : String) (functions : Table String Entry) : Prop :=
  ∃ n, l.nodes.get? location = some n ∧ n.status = .loaded ∧ n.functions = functions

def Loading (l : Loader) (location : String) (ticket : Nat) : Prop :=
  ∃ n, l.nodes.get? location = some n ∧ n.status = .loading ∧ l.pending.get? location = some ticket

variable {w : World}

def Answered (T : Judgment w) (l : Loader) (location : String) (ticket : Nat) : Prop :=
  match l.outcomes.get? ticket with
  | some (.ok functions) => Loaded l location functions
  | some (.error _) => T.flawed location
  | none => False

structure Orderly (T : Judgment w) (l : Loader) (act : Nat → Activity) : Prop where
  future : ∀ t, l.tickets ≤ t → l.outcomes.get? t = none
  keys : (l.outcomes.map Prod.fst).Nodup
  opened : ∀ a t, Loading l a t → ∃ i, (a, t) ∈ (act i).stack
  held : ∀ i a t, (a, t) ∈ (act i).stack → t < l.tickets ∧ l.outcomes.get? t = none ∧ Loading l a t
  apart : ∀ i j a t t', (a, t) ∈ (act i).stack → (a, t') ∈ (act j).stack → i = j
  distinct : ∀ a b t, Loading l a t → Loading l b t → a = b
  once : ∀ i, ((act i).stack.map Prod.fst).Nodup
  chain : ∀ i, ((act i).stack.map Prod.fst).IsChain (Along l.edges)
  aimed : ∀ i a t, (act i).waits = some (a, t) → ∀ top ∈ (act i).stack.getLast?, Along l.edges top.1 a
  awaited : ∀ i a t, (act i).waits = some (a, t) → Answered T l a t ∨ ∃ j, (a, t) ∈ (act j).stack
  acyclic : ∀ i, ¬ TransGen (Awaits act) i i
  edges : ∀ a b, Along l.edges a b → T.edge a b
  loaded : ∀ a f, Loaded l a f → T.fine a f ∧ ∀ b, T.needs a b → ∃ f', Loaded l b f'

namespace Orderly

variable {T : Judgment w} {l : Loader} {act : Nat → Activity}

theorem ticket_lt (h : Orderly T l act) {i : Nat} {a : String} {t : Nat} (hw : (act i).waits = some (a, t)) :
    t < l.tickets := by
  rcases h.awaited i a t hw with ha | ⟨j, hj⟩
  · by_contra hlt
    rw [Answered, h.future t (by omega)] at ha
    exact ha
  · exact (h.held j a t hj).1

end Orderly

/-! ## Ways along the stacks -/

theorem chain_reaches {R : String → String → Prop} {xs : List String} {x y : String} (h : xs.IsChain R)
    (hx : x ∈ xs) (hy : xs.getLast? = some y) : ReflTransGen R x y := by
  induction xs generalizing x with
  | nil => simp at hx
  | cons z rest ih =>
    cases rest with
    | nil =>
      obtain rfl : x = z := by simpa using hx
      obtain rfl : x = y := by simpa using hy
      exact .refl
    | cons z' rest =>
      obtain ⟨hz, hrest⟩ := List.isChain_cons_cons.mp h
      have hy' : (z' :: rest).getLast? = some y := by rw [List.getLast?_cons_cons] at hy; exact hy
      rcases List.mem_cons.mp hx with rfl | hx
      · exact .head hz (ih hrest (by simp) hy')
      · exact ih hrest hx hy'

section Ways

variable {R : String → String → Prop} {act : Nat → Activity}

theorem reaches_wait (hchain : ∀ i, ((act i).stack.map Prod.fst).IsChain R)
    (haimed : ∀ i a t, (act i).waits = some (a, t) → ∀ top ∈ (act i).stack.getLast?, R top.1 a)
    {i : Nat} {s e : String × Nat} (hs : s ∈ (act i).stack) (he : (act i).waits = some e) :
    ReflTransGen R s.1 e.1 := by
  obtain ⟨top, htop⟩ := Option.isSome_iff_exists.mp (List.getLast?_isSome.mpr (List.ne_nil_of_mem hs))
  have hlast : ((act i).stack.map Prod.fst).getLast? = some top.1 := by simp [htop]
  exact (chain_reaches (hchain i) (List.mem_map_of_mem hs) hlast).tail (haimed i e.1 e.2 he top htop)

theorem reaches_stack (hchain : ∀ i, ((act i).stack.map Prod.fst).IsChain R)
    (haimed : ∀ i a t, (act i).waits = some (a, t) → ∀ top ∈ (act i).stack.getLast?, R top.1 a)
    {i j : Nat} (hij : TransGen (Awaits act) i j) :
    ∃ e s, (act i).waits = some e ∧ s ∈ (act j).stack ∧ ReflTransGen R e.1 s.1 := by
  induction hij with
  | single hk =>
    obtain ⟨e, he, hs⟩ := hk
    exact ⟨e, e, he, hs, .refl⟩
  | tail _ hk ih =>
    obtain ⟨e, s, he, hs, hreach⟩ := ih
    obtain ⟨e', he', hs'⟩ := hk
    exact ⟨e, e', he, hs', hreach.trans (reaches_wait hchain haimed hs he')⟩

end Ways

/-- A cycle that is new when one source gets new edges runs through that source. -/
theorem transGen_through {α : Type} {R S : α → α → Prop} {i : α} (hS : ∀ x y, S x y → x = i ∨ R x y) {a b : α}
    (h : TransGen S a b) : TransGen R a b ∨ ReflTransGen S a i ∧ TransGen S i b := by
  induction h with
  | single hab =>
    rcases hS _ _ hab with rfl | hr
    · exact Or.inr ⟨.refl, .single hab⟩
    · exact Or.inl (.single hr)
  | tail hab hbc ih =>
    rcases ih with hr | ⟨hai, hib⟩
    · rcases hS _ _ hbc with rfl | hr'
      · exact Or.inr ⟨hab.to_reflTransGen, .single hbc⟩
      · exact Or.inl (hr.tail hr')
    · exact Or.inr ⟨hai, hib.tail hbc⟩

theorem acyclic_of_le {α : Type} {R S : α → α → Prop} (hS : ∀ x y, S x y → R x y) (h : ∀ x, ¬ TransGen R x x) :
    ∀ x, ¬ TransGen S x x :=
  fun x hx => h x (TransGen.mono (fun a b hab => hS a b hab) x x hx)

/-! ## What the loader's operations do to the nodes -/

section Views

variable {l : Loader} {a x : String} {n : Node} {t : Nat} {f : Table String Entry}

theorem loaded_put :
    Loaded { l with nodes := l.nodes.put a n } x f ↔
      x = a ∧ n.status = .loaded ∧ n.functions = f ∨ x ≠ a ∧ Loaded l x f := by
  by_cases hx : x = a
  · subst hx
    simp [Loaded, Table.get?_put_self]
  · simp [Loaded, Table.get?_put_of_ne hx, hx]

theorem loading_put :
    Loading { l with nodes := l.nodes.put a n } x t ↔
      x = a ∧ n.status = .loading ∧ l.pending.get? a = some t ∨ x ≠ a ∧ Loading l x t := by
  by_cases hx : x = a
  · subst hx
    simp [Loading, Table.get?_put_self]
  · simp [Loading, Table.get?_put_of_ne hx, hx]

theorem Loading.unique {t' : Nat} (h : Loading l a t) (h' : Loading l a t') : t = t' := by
  obtain ⟨-, -, -, ht⟩ := h
  obtain ⟨-, -, -, ht'⟩ := h'
  exact Option.some.inj (ht.symm.trans ht')

theorem Loading.not_loaded (h : Loading l a t) : ¬ Loaded l a f := by
  obtain ⟨n, hn, hs, -⟩ := h
  rintro ⟨n', hn', hs', -⟩
  obtain rfl : n = n' := Option.some.inj (hn.symm.trans hn')
  simp [hs] at hs'

def Loader.begun (l : Loader) (identifier location : String) : Loader :=
  { l with
    nodes := l.nodes.put location { identifier, location, status := .loading, ticket := l.tickets }
    tickets := l.tickets + 1
    pending := l.pending.put location l.tickets }

theorem stackCycle?_eq_none_iff {stack : Stack} {identifier : String} :
    Loader.stackCycle? stack identifier a = none ↔ a ∉ stack.map Prod.snd := by
  induction stack with
  | nil => simp [Loader.stackCycle?]
  | cons e rest ih =>
    by_cases he : e.2 = a
    · simp [Loader.stackCycle?, he]
    · have hrest : Loader.stackCycle? (e :: rest) identifier a = Loader.stackCycle? rest identifier a := by
        simp [Loader.stackCycle?, he]
      rw [hrest, ih]
      simp [Ne.symm he]

theorem sharedCycle?_eq_none_iff {stack : Stack} {identifier : String} :
    l.sharedCycle? stack identifier a = none ↔ l.pathTo? a (stack.map Prod.snd) = none := by
  unfold Loader.sharedCycle?
  split <;> simp [*]

/-- All that asking for a module can come to. -/
theorem enter_cases (l : Loader) (stack : Stack) (identifier a : String) :
    (∃ ids, l.enter stack identifier a = .circular ids ∧ a ∈ stack.map Prod.snd) ∨
    a ∉ stack.map Prod.snd ∧
      ((∃ f, l.enter stack identifier a = .ready f ∧ Loaded l a f) ∨
      (∃ ids t, l.enter stack identifier a = .circular ids ∧ Loading l a t ∧
        l.pathTo? a (stack.map Prod.snd) ≠ none) ∨
      (∃ t, l.enter stack identifier a = .busy t ∧ Loading l a t ∧ l.pathTo? a (stack.map Prod.snd) = none) ∨
      (l.enter stack identifier a = .fresh l.tickets (l.begun identifier a) ∧
        (∀ f, ¬ Loaded l a f) ∧ ∀ t, ¬ Loading l a t)) := by
  unfold Loader.enter
  cases hstack : Loader.stackCycle? stack identifier a with
  | some ids =>
    have hmem : a ∈ stack.map Prod.snd := by
      by_contra hmem
      rw [stackCycle?_eq_none_iff.mpr hmem] at hstack
      cases hstack
    exact Or.inl ⟨ids, rfl, hmem⟩
  | none =>
    refine Or.inr ⟨stackCycle?_eq_none_iff.mp hstack, ?_⟩
    cases hnode : l.nodes.get? a with
    | none =>
      refine Or.inr (Or.inr (Or.inr ⟨rfl, ?_, ?_⟩)) <;> simp [Loaded, Loading, hnode]
    | some n =>
      cases hstatus : n.status with
      | loaded => exact Or.inl ⟨n.functions, by simp [hstatus], n, hnode, hstatus, rfl⟩
      | loading =>
        refine Or.inr ?_
        cases hpending : l.pending.get? a with
        | none =>
          refine Or.inr (Or.inr ⟨by simp [hstatus, Loader.begun], ?_, ?_⟩) <;>
            simp [Loaded, Loading, hnode, hstatus, hpending]
        | some t =>
          have hloading : Loading l a t := ⟨n, hnode, hstatus, hpending⟩
          cases hshared : l.sharedCycle? stack identifier a with
          | some ids =>
            refine Or.inl ⟨ids, t, by simp [hstatus], hloading, fun hpath => ?_⟩
            rw [sharedCycle?_eq_none_iff.mpr hpath] at hshared
            cases hshared
          | none =>
            exact Or.inr (Or.inl ⟨t, by simp [hstatus], hloading, sharedCycle?_eq_none_iff.mp hshared⟩)
      | pending =>
        refine Or.inr (Or.inr (Or.inr ⟨by simp [hstatus, Loader.begun], ?_, ?_⟩)) <;>
          simp [Loaded, Loading, hnode, hstatus]
      | failed =>
        refine Or.inr (Or.inr (Or.inr ⟨by simp [hstatus, Loader.begun], ?_, ?_⟩)) <;>
          simp [Loaded, Loading, hnode, hstatus]

theorem enter_of_loading {t : Nat} (identifier : String) (hloading : Loading l a t) :
    l.enter [] identifier a = .busy t := by
  rcases enter_cases l [] identifier a with ⟨_, -, hmem⟩ | ⟨-, h⟩
  · simp at hmem
  rcases h with ⟨f, -, hloaded⟩ | ⟨_, _, -, -, hpath⟩ | ⟨t', henter, ht', -⟩ | ⟨-, -, hfree⟩
  · exact absurd hloaded hloading.not_loaded
  · obtain ⟨path, hpath⟩ := Option.ne_none_iff_exists'.mp hpath
    obtain ⟨-, -, b, hb, -⟩ := Loader.pathTo?_some hpath
    simp at hb
  · rw [henter, Loading.unique hloading ht']
  · exact absurd hloading (hfree t)

theorem loaded_begun {identifier : String} (h : ∀ f, ¬ Loaded l a f) :
    Loaded (l.begun identifier a) x f ↔ Loaded l x f := by
  have hput := @loaded_put l a x { identifier, location := a, status := .loading, ticket := l.tickets } f
  change Loaded (l.begun identifier a) x f ↔ _ at hput
  rw [hput]
  constructor
  · rintro (⟨-, hs, -⟩ | ⟨-, hx⟩)
    · cases hs
    · exact hx
  · exact fun hx => Or.inr ⟨fun hxa => h f (hxa ▸ hx), hx⟩

theorem loading_begun {identifier : String} (h : ∀ t, ¬ Loading l a t) :
    Loading (l.begun identifier a) x t ↔ Loading l x t ∨ x = a ∧ t = l.tickets := by
  by_cases hx : x = a
  · subst hx
    have hfree := iff_false_intro (h t)
    rw [hfree]
    simp [Loading, Loader.begun, Table.get?_put_self, eq_comm]
  · simp [Loading, Loader.begun, Table.get?_put_of_ne hx, hx]

theorem note_eq (l : Loader) (c : Condition) : ∃ failures, l.note c = { l with failures := failures } := by
  unfold Loader.note
  split
  · exact ⟨_, rfl⟩
  · exact ⟨l.failures, rfl⟩

theorem settle_eq (h : Loading l a t) (ticket : Nat) (o : Outcome) :
    ∃ n failures, l.settle a ticket o = { l with
        nodes := l.nodes.put a n, outcomes := l.outcomes.put ticket o, pending := l.pending.erase a,
        failures := failures } ∧
      n.status ≠ .loading ∧ ∀ f, n.status = .loaded ∧ n.functions = f ↔ o = .ok f := by
  obtain ⟨n, hn, -, -⟩ := h
  cases o with
  | ok functions =>
    refine ⟨{ n with status := .loaded, functions := functions, error := none }, l.failures, ?_, ?_, ?_⟩
    · simp [Loader.settle, Loader.update, hn]
    · simp
    · simp
  | error c =>
    obtain ⟨failures, hnote⟩ := note_eq { l with
      nodes := l.nodes.put a { n with status := .failed, functions := [], error := some c }
      outcomes := l.outcomes.put ticket (.error c)
      pending := l.pending.erase a } c
    refine ⟨{ n with status := .failed, functions := [], error := some c }, failures, ?_, ?_, ?_⟩
    · simp [Loader.settle, Loader.update, hn, hnote]
    · simp
    · simp

theorem loaded_settle (h : Loading l a t) (ticket : Nat) (o : Outcome) :
    Loaded (l.settle a ticket o) x f ↔ x = a ∧ o = .ok f ∨ x ≠ a ∧ Loaded l x f := by
  obtain ⟨n, failures, heq, -, hloaded⟩ := settle_eq h ticket o
  rw [heq, ← hloaded f]
  exact loaded_put

theorem loading_settle (h : Loading l a t) (ticket : Nat) (o : Outcome) {t' : Nat} :
    Loading (l.settle a ticket o) x t' ↔ x ≠ a ∧ Loading l x t' := by
  obtain ⟨n, failures, heq, hstatus, -⟩ := settle_eq h ticket o
  rw [heq]
  by_cases hx : x = a
  · subst hx
    simp [Loading, Table.get?_erase_self]
  · simp [Loading, Table.get?_put_of_ne hx, Table.get?_erase_of_ne hx, hx]

theorem Loaded.settle (hx : Loaded l x f) (h : Loading l a t) (ticket : Nat) (o : Outcome) :
    Loaded (l.settle a ticket o) x f := by
  refine (loaded_settle h ticket o).mpr (Or.inr ⟨?_, hx⟩)
  rintro rfl
  exact h.not_loaded hx

theorem settle_rest (h : Loading l a t) (ticket : Nat) (o : Outcome) :
    (l.settle a ticket o).outcomes = l.outcomes.put ticket o ∧ (l.settle a ticket o).edges = l.edges ∧
      (l.settle a ticket o).tickets = l.tickets := by
  obtain ⟨n, failures, heq, -⟩ := settle_eq h ticket o
  rw [heq]
  exact ⟨rfl, rfl, rfl⟩

theorem along_addEdge {b y : String} :
    Along (l.addEdge a b).edges x y ↔ Along l.edges x y ∨ x = a ∧ y = b := by
  unfold Loader.addEdge
  by_cases hold : ((l.edges.get? a).getD []).contains b
  · simp only [hold, if_true, iff_self_or, and_imp]
    rintro rfl rfl
    simpa [Along] using hold
  · simp only [hold]
    by_cases hx : x = a
    · subst hx
      simp [Along, Table.get?_put_self]
    · simp [Along, Table.get?_put_of_ne hx, hx]

theorem addEdge_eq (l : Loader) (a b : String) : ∃ edges, l.addEdge a b = { l with edges := edges } := by
  unfold Loader.addEdge
  dsimp only
  split
  · exact ⟨l.edges, rfl⟩
  · exact ⟨_, rfl⟩

end Views

structure Alike (l l' : Loader) : Prop where
  edges : l'.edges = l.edges
  outcomes : l'.outcomes = l.outcomes
  tickets : l'.tickets = l.tickets
  loading : ∀ a t, Loading l' a t ↔ Loading l a t
  loaded : ∀ a f, Loaded l' a f ↔ Loaded l a f

theorem Alike.of_nodes {l l' : Loader} (hnodes : l'.nodes = l.nodes) (hpending : l'.pending = l.pending)
    (hedges : l'.edges = l.edges) (houtcomes : l'.outcomes = l.outcomes) (htickets : l'.tickets = l.tickets) :
    Alike l l' :=
  ⟨hedges, houtcomes, htickets, fun a t => by simp only [Loading, hnodes, hpending],
    fun a f => by simp only [Loaded, hnodes]⟩

theorem Alike.of_eq {l l' : Loader} (h : l' = l) : Alike l l' := h ▸ .of_nodes rfl rfl rfl rfl rfl

theorem Alike.trans {l l' l'' : Loader} (h : Alike l l') (h' : Alike l' l'') : Alike l l'' :=
  ⟨h'.edges.trans h.edges, h'.outcomes.trans h.outcomes, h'.tickets.trans h.tickets,
    fun a t => (h'.loading a t).trans (h.loading a t), fun a f => (h'.loaded a f).trans (h.loaded a f)⟩

theorem alike_count (l : Loader) (a : String) : Alike l (l.count a) := .of_nodes rfl rfl rfl rfl rfl

theorem alike_update (l : Loader) (a : String) (f : Node → Node) (hstatus : ∀ n, (f n).status = n.status)
    (hfunctions : ∀ n, (f n).functions = n.functions) : Alike l (l.update a f) := by
  unfold Loader.update
  cases hn : l.nodes.get? a with
  | none => exact .of_nodes rfl rfl rfl rfl rfl
  | some n =>
    refine ⟨rfl, rfl, rfl, fun x t => loading_put.trans ?_, fun x g => loaded_put.trans ?_⟩
    · by_cases hx : x = a
      · subst hx; simp [Loading, hn, hstatus]
      · simp [hx]
    · by_cases hx : x = a
      · subst hx; simp [Loaded, hn, hstatus, hfunctions]
      · simp [hx]

theorem alike_setDependencies (l : Loader) (a : String) (deps : List String) :
    Alike l (l.setDependencies a deps) :=
  alike_update l a _ (fun _ => rfl) fun _ => rfl

theorem alike_addDependency (l : Loader) (a dep : String) : Alike l (l.addDependency a dep) :=
  alike_update l a _ (fun _ => rfl) fun _ => rfl

/-! ## Steps of one task -/

theorem Answered.mono {T : Judgment w} {l l' : Loader} {a : String} {t : Nat}
    (houtcome : l'.outcomes.get? t = l.outcomes.get? t) (hloaded : ∀ f, Loaded l a f → Loaded l' a f)
    (h : Answered T l a t) : Answered T l' a t := by
  unfold Answered at h ⊢
  rw [houtcome]
  split at h
  · exact hloaded _ h
  · exact h
  · exact h

theorem mem_stack_snoc {act : Nat → Activity} {i j : Nat} {gs : List (String × Nat)} {e x : String × Nat} :
    x ∈ (Function.update act i ⟨gs ++ [e], none⟩ j).stack ↔
      x ∈ (Function.update act i ⟨gs, none⟩ j).stack ∨ j = i ∧ x = e := by
  by_cases hj : j = i
  · subst hj; simp
  · simp [hj]

theorem stack_begins {act : Nat → Activity} {i : Nat} {gs : List (String × Nat)} (e : String × Nat) (j : Nat) :
    (Function.update act i ⟨gs, none⟩ j).stack <+: (Function.update act i ⟨gs ++ [e], none⟩ j).stack := by
  by_cases hj : j = i
  · subst hj
    simp
  · simp [hj]

theorem waits_update {act : Nat → Activity} {i j : Nat} {gs gs' : List (String × Nat)}
    {u : Option (String × Nat)} :
    (Function.update act i ⟨gs, u⟩ j).waits = (Function.update act i ⟨gs', u⟩ j).waits := by
  by_cases hj : j = i
  · subst hj; simp
  · simp [hj]

namespace Orderly

variable {T : Judgment w} {l l' : Loader} {act : Nat → Activity} {i : Nat} {gs : List (String × Nat)} {a : String}
  {t : Nat}

theorem congr (h : Orderly T l act) (hl : Alike l l') : Orderly T l' act := by
  refine ⟨?_, ?_, ?_, ?_, h.apart, ?_, h.once, ?_, ?_, ?_, h.acyclic, ?_, ?_⟩
  · rw [hl.tickets, hl.outcomes]; exact h.future
  · rw [hl.outcomes]; exact h.keys
  · exact fun a t ha => h.opened a t ((hl.loading a t).mp ha)
  · intro i a t ha
    rw [hl.tickets, hl.outcomes, hl.loading]
    exact h.held i a t ha
  · intro a b t ha hb
    exact h.distinct a b t ((hl.loading a t).mp ha) ((hl.loading b t).mp hb)
  · rw [hl.edges]; exact h.chain
  · rw [hl.edges]; exact h.aimed
  · exact fun i a t ha => (h.awaited i a t ha).imp_left
      (Answered.mono (by rw [hl.outcomes]) fun f => (hl.loaded a f).mpr)
  · rw [hl.edges]; exact h.edges
  · intro a f ha
    obtain ⟨hfine, hneeds⟩ := h.loaded a f ((hl.loaded a f).mp ha)
    exact ⟨hfine, fun b hb => (hneeds b hb).imp fun f' hf' => (hl.loaded b f').mpr hf'⟩

theorem addEdge {b : String} (h : Orderly T l act) (hab : T.edge a b) : Orderly T (l.addEdge a b) act := by
  have hmono : ∀ x y, Along l.edges x y → Along (l.addEdge a b).edges x y :=
    fun x y hxy => along_addEdge.mpr (Or.inl hxy)
  have hedges : ∀ x y, Along (l.addEdge a b).edges x y → T.edge x y := by
    intro x y hxy
    rcases along_addEdge.mp hxy with hxy | ⟨rfl, rfl⟩
    · exact h.edges x y hxy
    · exact hab
  obtain ⟨edges, heq⟩ := addEdge_eq l a b
  rw [heq] at hmono hedges ⊢
  exact ⟨h.future, h.keys, h.opened, h.held, h.apart, h.distinct, h.once, fun i => (h.chain i).imp hmono,
    fun i a t ha top htop => hmono _ _ (h.aimed i a t ha top htop), h.awaited, h.acyclic, hedges, h.loaded⟩

theorem once_snoc (h : (gs.map Prod.fst).Nodup) (ha : ∀ t, (a, t) ∉ gs) :
    ((gs ++ [(a, t)]).map Prod.fst).Nodup := by
  rw [List.map_append]
  refine List.nodup_append.mpr ⟨h, by simp, ?_⟩
  intro x hx y hy hxy
  obtain ⟨e, he, rfl⟩ := List.mem_map.mp hx
  obtain rfl : y = a := by simpa using hy
  exact ha e.2 (by rw [← hxy]; exact he)

theorem chain_snoc {R : String → String → Prop} (h : (gs.map Prod.fst).IsChain R)
    (ha : ∀ top ∈ gs.getLast?, R top.1 a) : ((gs ++ [(a, t)]).map Prod.fst).IsChain R := by
  rw [List.map_append]
  refine List.isChain_append.mpr ⟨h, by simp, ?_⟩
  intro x hx y hy
  obtain ⟨e, he, rfl⟩ : ∃ e, gs.getLast? = some e ∧ e.1 = x := by simpa [List.getLast?_map] using hx
  obtain rfl : a = y := by simpa using hy
  exact ha e he

theorem aimed_update (h : Orderly T l (Function.update act i ⟨gs, none⟩)) (gs' : List (String × Nat)) {j : Nat}
    {x : String} {t : Nat} (hx : (Function.update act i ⟨gs', none⟩ j).waits = some (x, t)) :
    ∀ top ∈ (Function.update act i ⟨gs', none⟩ j).stack.getLast?, Along l.edges top.1 x := by
  intro top htop
  have haimed := h.aimed j x t
  by_cases hj : j = i
  · subst hj
    simp at hx
  · simp only [Function.update_of_ne hj] at hx htop haimed
    exact haimed hx top htop

/-- A load that begins goes on top of its task's stack. -/
theorem push {identifier : String} (h : Orderly T l (Function.update act i ⟨gs, none⟩))
    (hloaded : ∀ f, ¬ Loaded l a f) (hloading : ∀ t, ¬ Loading l a t)
    (hedge : ∀ top ∈ gs.getLast?, Along l.edges top.1 a) :
    Orderly T (l.begun identifier a) (Function.update act i ⟨gs ++ [(a, l.tickets)], none⟩) := by
  have hnew : ∀ j t, (a, t) ∉ (Function.update act i ⟨gs, none⟩ j).stack :=
    fun j t hj => hloading t (h.held j a t hj).2.2
  have hlt : ∀ x t, Loading l x t → t < l.tickets := by
    intro x t hx
    obtain ⟨j, hj⟩ := h.opened x t hx
    exact (h.held j x t hj).1
  constructor
  case future => exact fun t ht => h.future t (Nat.le_of_succ_le ht)
  case keys => exact h.keys
  case opened =>
    intro x t hx
    rcases (loading_begun hloading).mp hx with hx | ⟨rfl, rfl⟩
    · obtain ⟨j, hj⟩ := h.opened x t hx
      exact ⟨j, mem_stack_snoc.mpr (Or.inl hj)⟩
    · exact ⟨i, mem_stack_snoc.mpr (Or.inr ⟨rfl, rfl⟩)⟩
  case held =>
    intro j x t hx
    rw [loading_begun hloading]
    rcases mem_stack_snoc.mp hx with hx | ⟨-, hx⟩
    · obtain ⟨hlt, hnone, hl⟩ := h.held j x t hx
      exact ⟨Nat.lt_succ_of_lt hlt, hnone, Or.inl hl⟩
    · obtain ⟨rfl, rfl⟩ := Prod.mk.inj hx
      exact ⟨Nat.lt_succ_self _, h.future _ (le_refl _), Or.inr ⟨rfl, rfl⟩⟩
  case apart =>
    intro j k x t t' hj hk
    rcases mem_stack_snoc.mp hj with hj | ⟨hji, hj⟩ <;> rcases mem_stack_snoc.mp hk with hk | ⟨hki, hk⟩
    · exact h.apart j k x t t' hj hk
    · exact absurd ((Prod.mk.inj hk).1 ▸ hj) (hnew j t)
    · exact absurd ((Prod.mk.inj hj).1 ▸ hk) (hnew k t')
    · exact hji.trans hki.symm
  case distinct =>
    intro x y t hx hy
    rcases (loading_begun hloading).mp hx with hxl | ⟨hxa, hxt⟩ <;>
      rcases (loading_begun hloading).mp hy with hyl | ⟨hya, hyt⟩
    · exact h.distinct x y t hxl hyl
    · exact absurd (hlt x t hxl) (by omega)
    · exact absurd (hlt y t hyl) (by omega)
    · exact hxa.trans hya.symm
  case once =>
    intro j
    have honce := h.once j
    have hfresh := hnew j
    by_cases hj : j = i
    · subst hj
      simp only [Function.update_self] at honce hfresh ⊢
      exact once_snoc honce hfresh
    · simpa only [Function.update_of_ne hj] using honce
  case chain =>
    intro j
    have hchain := h.chain j
    by_cases hj : j = i
    · subst hj
      simp only [Function.update_self] at hchain ⊢
      exact chain_snoc hchain hedge
    · simp only [Function.update_of_ne hj] at hchain ⊢
      exact hchain
  case aimed => exact fun _ _ _ hx => h.aimed_update _ hx
  case awaited =>
    intro j x t hx
    rw [waits_update] at hx
    rcases h.awaited j x t hx with ha | ⟨k, hk⟩
    · have houtcome : (l.begun identifier a).outcomes.get? t = l.outcomes.get? t := rfl
      exact Or.inl (ha.mono houtcome fun f hf => (loaded_begun hloaded).mpr hf)
    · exact Or.inr ⟨k, mem_stack_snoc.mpr (Or.inl hk)⟩
  case acyclic =>
    refine acyclic_of_le ?_ h.acyclic
    rintro j k ⟨e, he, hk⟩
    rw [waits_update] at he
    refine ⟨e, he, (mem_stack_snoc.mp hk).resolve_right ?_⟩
    rintro ⟨-, rfl⟩
    exact absurd (h.ticket_lt he) (lt_irrefl _)
  case edges => exact h.edges
  case loaded =>
    intro x f hx
    rw [loaded_begun hloaded] at hx
    obtain ⟨hfine, hneeds⟩ := h.loaded x f hx
    exact ⟨hfine, fun b hb => (hneeds b hb).imp fun f' hf' => (loaded_begun hloaded).mpr hf'⟩

section Top

variable (h : Orderly T l (Function.update act i ⟨gs ++ [(a, t)], none⟩))

include h

theorem not_mem_of_top (j t' : Nat) : (a, t') ∉ (Function.update act i ⟨gs, none⟩ j).stack := by
  intro hj
  obtain rfl : j = i := h.apart j i a t' t (mem_stack_snoc.mpr (Or.inl hj)) (mem_stack_snoc.mpr (Or.inr ⟨rfl, rfl⟩))
  have honce := h.once j
  simp only [Function.update_self, List.map_append, List.map_cons, List.map_nil] at honce hj
  exact (List.nodup_append.mp honce).2.2 a (List.mem_map_of_mem hj) a (by simp) rfl

theorem ticket_ne_of_top {j t' : Nat} {x : String} (hx : (x, t') ∈ (Function.update act i ⟨gs, none⟩ j).stack) : t' ≠ t := by
  rintro rfl
  obtain ⟨-, -, htop⟩ := h.held i a t' (mem_stack_snoc.mpr (Or.inr ⟨rfl, rfl⟩))
  obtain ⟨-, -, hl⟩ := h.held j x t' (mem_stack_snoc.mpr (Or.inl hx))
  exact h.not_mem_of_top j t' (h.distinct x a t' hl htop ▸ hx)

theorem awaited_settle {o : Outcome} (herror : ∀ c, o = .error c → T.flawed a) (j : Nat) (x : String) (t' : Nat)
    (hx : (Function.update act i ⟨gs, none⟩ j).waits = some (x, t')) :
    Answered T (l.settle a t o) x t' ∨ ∃ k, (x, t') ∈ (Function.update act i ⟨gs, none⟩ k).stack := by
  obtain ⟨-, hnone, hla⟩ := h.held i a t (mem_stack_snoc.mpr (Or.inr ⟨rfl, rfl⟩))
  obtain ⟨houtcomes, -, -⟩ := settle_rest hla t o
  rw [waits_update] at hx
  rcases h.awaited j x t' hx with ha | ⟨k, hk⟩
  · have htt : t' ≠ t := by
      rintro rfl
      rw [Answered, hnone] at ha
      exact ha
    exact Or.inl (ha.mono (by rw [houtcomes, Table.get?_put_of_ne htt]) fun f hf => hf.settle hla t o)
  · rcases mem_stack_snoc.mp hk with hk | ⟨-, he⟩
    · exact Or.inr ⟨k, hk⟩
    · -- the load that the task waits for is the one that is settled here
      obtain ⟨rfl, rfl⟩ := Prod.mk.inj he
      refine Or.inl ?_
      rw [Answered, houtcomes, Table.get?_put_self]
      cases o with
      | ok f => exact (loaded_settle hla _ _).mpr (Or.inl ⟨rfl, rfl⟩)
      | error c => exact herror c rfl

/-- A load that is settled leaves its task's stack, and its outcome is there for those who wait. -/
theorem settle {o : Outcome} (hok : ∀ f, o = .ok f → T.fine a f ∧ ∀ b, T.needs a b → ∃ f', Loaded l b f')
    (herror : ∀ c, o = .error c → T.flawed a) :
    Orderly T (l.settle a t o) (Function.update act i ⟨gs, none⟩) := by
  obtain ⟨htlt, -, hla⟩ := h.held i a t (mem_stack_snoc.mpr (Or.inr ⟨rfl, rfl⟩))
  obtain ⟨houtcomes, hedges, htickets⟩ := settle_rest hla t o
  constructor
  case future =>
    intro t' ht'
    rw [htickets] at ht'
    rw [houtcomes, Table.get?_put_of_ne (by omega)]
    exact h.future t' ht'
  case keys => exact houtcomes ▸ Table.nodup_put h.keys t o
  case opened =>
    intro x t' hx
    obtain ⟨hxa, hx⟩ := (loading_settle hla t o).mp hx
    obtain ⟨j, hj⟩ := h.opened x t' hx
    exact ⟨j, (mem_stack_snoc.mp hj).resolve_right fun he => hxa (Prod.mk.inj he.2).1⟩
  case held =>
    intro j x t' hx
    obtain ⟨hlt, hn, hl⟩ := h.held j x t' (mem_stack_snoc.mpr (Or.inl hx))
    rw [htickets, houtcomes, Table.get?_put_of_ne (h.ticket_ne_of_top hx)]
    exact ⟨hlt, hn, (loading_settle hla t o).mpr ⟨fun hxa => h.not_mem_of_top j t' (hxa ▸ hx), hl⟩⟩
  case apart =>
    exact fun j k x t₁ t₂ hj hk => h.apart j k x t₁ t₂ (mem_stack_snoc.mpr (Or.inl hj))
      (mem_stack_snoc.mpr (Or.inl hk))
  case distinct =>
    intro x y t' hx hy
    exact h.distinct x y t' ((loading_settle hla t o).mp hx).2 ((loading_settle hla t o).mp hy).2
  case once => exact fun j => (h.once j).sublist ((stack_begins (a, t) j).map Prod.fst).sublist
  case chain => exact fun j => hedges ▸ List.IsChain.prefix (h.chain j) ((stack_begins (a, t) j).map Prod.fst)
  case aimed => exact fun _ _ _ hx => hedges ▸ h.aimed_update _ hx
  case awaited => exact h.awaited_settle herror
  case acyclic =>
    refine acyclic_of_le ?_ h.acyclic
    rintro j k ⟨e, he, hk⟩
    rw [waits_update] at he
    exact ⟨e, he, mem_stack_snoc.mpr (Or.inl hk)⟩
  case edges => exact hedges ▸ h.edges
  case loaded =>
    intro x f hx
    obtain ⟨hfine, hneeds⟩ : T.fine x f ∧ ∀ b, T.needs x b → ∃ f', Loaded l b f' := by
      rcases (loaded_settle hla t o).mp hx with ⟨rfl, ho⟩ | ⟨-, hx⟩
      · exact hok f ho
      · exact h.loaded x f hx
    exact ⟨hfine, fun b hb => (hneeds b hb).imp fun f' hf' => hf'.settle hla t o⟩

end Top

/-- A task that found no way back to its stack may wait: it would close a cycle of waits only through
edges that lead from what it waits for to its own stack. -/
theorem await (h : Orderly T l (Function.update act i ⟨gs, none⟩)) (hloading : Loading l a t)
    (hedge : ∀ top ∈ gs.getLast?, Along l.edges top.1 a) (hpath : l.pathTo? a (gs.map Prod.fst) = none) :
    Orderly T l (Function.update act i ⟨gs, some (a, t)⟩) := by
  have hstack : ∀ j, (Function.update act i ⟨gs, some (a, t)⟩ j).stack = (Function.update act i ⟨gs, none⟩ j).stack := by
    intro j
    by_cases hj : j = i
    · subst hj; simp
    · simp [hj]
  have hwaits : ∀ j e, (Function.update act i ⟨gs, some (a, t)⟩ j).waits = some e →
      j = i ∧ e = (a, t) ∨ (Function.update act i ⟨gs, none⟩ j).waits = some e := by
    intro j e he
    by_cases hj : j = i
    · subst hj
      exact Or.inl ⟨rfl, by simpa using he.symm⟩
    · simp only [Function.update_of_ne hj] at he ⊢
      exact Or.inr he
  have hchain : ∀ j, ((Function.update act i ⟨gs, some (a, t)⟩ j).stack.map Prod.fst).IsChain (Along l.edges) :=
    fun j => hstack j ▸ h.chain j
  have haimed : ∀ j x t', (Function.update act i ⟨gs, some (a, t)⟩ j).waits = some (x, t') →
      ∀ top ∈ (Function.update act i ⟨gs, some (a, t)⟩ j).stack.getLast?, Along l.edges top.1 x := by
    intro j x t' hx top htop
    rw [hstack j] at htop
    rcases hwaits j _ hx with ⟨rfl, he⟩ | hx
    · obtain ⟨rfl, rfl⟩ := Prod.mk.inj he
      exact hedge top (by simpa using htop)
    · exact h.aimed j x t' hx top htop
  refine ⟨h.future, h.keys, ?_, ?_, ?_, h.distinct, ?_, hchain, haimed, ?_, ?_, h.edges, h.loaded⟩
  · exact fun x t' hx => (h.opened x t' hx).imp fun j hj => (hstack j).symm ▸ hj
  · exact fun j x t' hx => h.held j x t' (hstack j ▸ hx)
  · exact fun j k x t₁ t₂ hj hk => h.apart j k x t₁ t₂ (hstack j ▸ hj) (hstack k ▸ hk)
  · exact fun j => (hstack j).symm ▸ h.once j
  · intro j x t' hx
    rcases hwaits j _ hx with ⟨-, he⟩ | hx
    · obtain ⟨rfl, rfl⟩ := Prod.mk.inj he
      exact Or.inr ((h.opened x t' hloading).imp fun k hk => (hstack k).symm ▸ hk)
    · exact (h.awaited j x t' hx).imp_right fun ⟨k, hk⟩ => ⟨k, (hstack k).symm ▸ hk⟩
  · have hback : ¬ TransGen (Awaits (Function.update act i ⟨gs, some (a, t)⟩)) i i := by
      intro hcycle
      obtain ⟨e, s, he, hs, hreach⟩ := reaches_stack hchain haimed hcycle
      obtain rfl : (a, t) = e := by simpa using he
      exact Loader.pathTo?_none hpath s.1 hreach (List.mem_map_of_mem (by simpa using hs))
    intro j hj
    have hthrough : ∀ x y, Awaits (Function.update act i ⟨gs, some (a, t)⟩) x y →
        x = i ∨ Awaits (Function.update act i ⟨gs, none⟩) x y := by
      rintro x y ⟨e, he, hy⟩
      exact (hwaits x e he).imp And.left fun he => ⟨e, he, hstack y ▸ hy⟩
    rcases transGen_through hthrough hj with hold | ⟨hji, hij⟩
    · exact h.acyclic j hold
    · exact hback (hij.trans_left hji)

theorem wake {u : Option (String × Nat)} (h : Orderly T l (Function.update act i ⟨gs, u⟩)) :
    Orderly T l (Function.update act i ⟨gs, none⟩) := by
  have hstack : ∀ j, (Function.update act i ⟨gs, none⟩ j).stack = (Function.update act i ⟨gs, u⟩ j).stack := by
    intro j
    by_cases hj : j = i
    · subst hj; simp
    · simp [hj]
  have hwaits : ∀ j e, (Function.update act i ⟨gs, none⟩ j).waits = some e →
      (Function.update act i ⟨gs, u⟩ j).waits = some e := by
    intro j e he
    by_cases hj : j = i
    · subst hj; simp at he
    · simpa [hj] using he
  refine ⟨h.future, h.keys, ?_, ?_, ?_, h.distinct, ?_, ?_, ?_, ?_, ?_, h.edges, h.loaded⟩
  · exact fun x t' hx => (h.opened x t' hx).imp fun j hj => (hstack j).symm ▸ hj
  · exact fun j x t' hx => h.held j x t' (hstack j ▸ hx)
  · exact fun j k x t₁ t₂ hj hk => h.apart j k x t₁ t₂ (hstack j ▸ hj) (hstack k ▸ hk)
  · exact fun j => (hstack j).symm ▸ h.once j
  · exact fun j => (hstack j).symm ▸ h.chain j
  · exact fun j x t' hx top htop => h.aimed j x t' (hwaits j _ hx) top (hstack j ▸ htop)
  · exact fun j x t' hx => (h.awaited j x t' (hwaits j _ hx)).imp_right fun ⟨k, hk⟩ => ⟨k, (hstack k).symm ▸ hk⟩
  · refine acyclic_of_le ?_ h.acyclic
    rintro j k ⟨e, he, hk⟩
    exact ⟨e, hwaits j e he, hstack k ▸ hk⟩

end Orderly

end Conductor.Module
