import Conductor.Proofs.Run.Abreast
import Conductor.Proofs.Run.Twins

/-!
# What programs enter in the chronicle

Two computations of one text go abreast, each in its surroundings, and while they do, all that
happens to the loader is entered in its chronicle. A task leaves the loads of the others alone,
and of its own loads it works on none but the one that it has its seat in. What holds of the
loads under way and of the place of the session lasts while others have their turns.
-/

set_option autoImplicit false

namespace Conductor

open Conductor.Module (Account Ask Beside Chronicle Documented Line Loading Location Stack Surroundings baseFor registryOf)

/-- How things stand in a turn of a task that began with an account. -/
structure Present (S : Surroundings) (i : Nat) (g : Account) (J : Chronicle) (m : Machine) : Prop where
  documented : Documented S ⟨J, m.world.loader⟩
  allowed : S.allows m.world.files (registryOf m.world)
  beside : Beside (fun j _ => j ≠ i) g ⟨J, m.world.loader⟩

/-- A wait between two turns of a task. Others have gone on with the chronicle, and left the loads of the task alone; the
task goes on as well if it was interrupted. -/
def Module.Account.pause (S : Surroundings) (i : Nat) : Pause Signal Account Machine := fun _ g m K =>
  ∃ J, Present S i g J m ∧ ∀ raised B m', m'.session = m.session → B.loader = m'.world.loader → Documented S B →
    S.allows m'.world.files (registryOf m'.world) → Beside (fun j _ => j = i) ⟨J, m.world.loader⟩ B → K raised B m'

theorem Module.Account.pause_monotone (S : Surroundings) (i : Nat) : (Account.pause S i).Monotone := by
  rintro wait g m K L hKL ⟨J, hpresent, hresume⟩
  exact ⟨J, hpresent, fun raised B m' hsession hloader hdoc hallowed hbeside =>
    hKL raised B m' (hresume raised B m' hsession hloader hdoc hallowed hbeside)⟩

/-- What has come of an account, in the turn that began with another. Of the loads of the task those under the tickets
that `P` spares are left alone. -/
def Onward (S : Surroundings) (i : Nat) (P : Nat → Prop) (A : Account) (T : Chronicle → Machine → Prop) (g : Account)
    (m : Machine) : Prop :=
  ∃ J, Present S i g J m ∧ Beside (fun j t => j = i ∧ P t) A ⟨J, m.world.loader⟩ ∧ T J m

/-- Two computations go abreast from where `pre` holds, and come to where `T` holds or, with a signal, `F`. -/
structure Alongside (S : Surroundings) (i : Nat) (P : Nat → Prop) {α : Type} (pre : Chronicle → Machine → Prop)
    (x x' : Play α) (T : α → Chronicle → Machine → Prop) (F : Chronicle → Machine → Prop) : Prop where
  abreast : ∀ {g J m}, Present S i g J m → pre J m → (x m).Abreast (Account.pause S i)
    (fun a => Onward S i P ⟨J, m.world.loader⟩ (T a)) (fun _ => Onward S i P ⟨J, m.world.loader⟩ F) (x' m) g

structure Enduring (i : Nat) (T : Chronicle → Machine → Prop) : Prop where
  endures : ∀ {J J' : Chronicle} {m m' : Machine}, m'.session.place = m.session.place →
    Beside (fun j _ => j = i) ⟨J, m.world.loader⟩ ⟨J', m'.world.loader⟩ → T J m → T J' m'

theorem Unaltered.beside {m m' : Machine} (h : Unaltered m m') (P : Nat → Nat → Prop) (J : Chronicle) :
    Beside P ⟨J, m.world.loader⟩ ⟨J, m'.world.loader⟩ :=
  ⟨List.prefix_refl _, fun {_ _ _ a} _ _ _ => ⟨congrArg (·.get? a) h.nodes, congrArg (·.get? a) h.pending, rfl⟩⟩

section

variable {S : Surroundings} {i : Nat} {P : Nat → Prop} {A B g : Account} {J : Chronicle} {m m' : Machine}
  {T T' : Chronicle → Machine → Prop}

theorem Present.unaltered (h : Present S i g J m) (hm : Unaltered m m') : Present S i g J m' where
  documented := h.documented.frame hm.nodes hm.edges hm.tickets
  allowed := by
    rw [hm.registry]
    exact S.allows_of_writes hm.files h.allowed
  beside := h.beside.trans (hm.beside _ J)

theorem Onward.after (hAB : Beside (fun j t => j = i ∧ P t) A B) (h : Onward S i P B T g m) : Onward S i P A T g m := by
  obtain ⟨J, hpresent, hbeside, ht⟩ := h
  exact ⟨J, hpresent, hAB.trans hbeside, ht⟩

theorem Onward.mono {P' : Nat → Prop} (h : Onward S i P A T g m) (hP : ∀ t, P' t → P t) (hT : ∀ J, T J m → T' J m) :
    Onward S i P' A T' g m := by
  obtain ⟨J, hpresent, hbeside, ht⟩ := h
  exact ⟨J, hpresent, hbeside.mono fun _ _ h => ⟨h.1, hP _ h.2⟩, hT J ht⟩

theorem Present.onward (h : Present S i g J m) (ht : T J m) : Onward S i P ⟨J, m.world.loader⟩ T g m :=
  ⟨J, h, .refl _ _, ht⟩

end

namespace Alongside

variable {S : Surroundings} {i : Nat} {P P' : Nat → Prop} {α β : Type} {pre pre' : Chronicle → Machine → Prop}
  {x x' : Play α} {T T' : α → Chronicle → Machine → Prop} {F F' : Chronicle → Machine → Prop}

theorem conseq (h : Alongside S i P pre x x' T F) (hP : ∀ t, P' t → P t) (hpre : ∀ J m, pre' J m → pre J m)
    (hT : ∀ a J m, T a J m → T' a J m) (hF : ∀ J m, F J m → F' J m) : Alongside S i P' pre' x x' T' F' :=
  ⟨fun hpresent hp => (h.abreast hpresent (hpre _ _ hp)).mono (Account.pause_monotone S i)
    (fun a _ _ h => h.mono hP fun J => hT a J _) fun _ _ _ h => h.mono hP fun J => hF J _⟩

theorem post (h : Alongside S i P pre x x' T F) (hT : ∀ a J m, T a J m → T' a J m) (hF : ∀ J m, F J m → F' J m) :
    Alongside S i P pre x x' T' F' :=
  h.conseq (fun _ => id) (fun _ _ => id) hT hF

theorem fails (h : Alongside S i P pre x x' T F) (hF : ∀ J m, F J m → F' J m) : Alongside S i P pre x x' T F' :=
  h.post (fun _ _ _ => id) hF

theorem frame (h : Alongside S i P pre x x' T F) (R : Account → Prop)
    (hR : ∀ A B, Beside (fun j t => j = i ∧ P t) A B → R A → R B) :
    Alongside S i P (fun J m => pre J m ∧ R ⟨J, m.world.loader⟩) x x' (fun a J m => T a J m ∧ R ⟨J, m.world.loader⟩)
      fun J m => F J m ∧ R ⟨J, m.world.loader⟩ := by
  refine ⟨fun {g J m} hpresent hp => (h.abreast hpresent hp.1).mono (Account.pause_monotone S i) ?_ ?_⟩
  · rintro a g' m' ⟨J', hpresent', hbeside, ht⟩
    exact ⟨J', hpresent', hbeside, ht, hR _ _ hbeside hp.2⟩
  · rintro e g' m' ⟨J', hpresent', hbeside, ht⟩
    exact ⟨J', hpresent', hbeside, ht, hR _ _ hbeside hp.2⟩

theorem bind {k k' : α → Play β} {U : β → Chronicle → Machine → Prop} (hx : Alongside S i P pre x x' T F)
    (hk : ∀ a, Alongside S i P (T a) (k a) (k' a) U F) : Alongside S i P pre (x >>= k) (x' >>= k') U F := by
  refine ⟨fun hpresent hp => Run.abreast_bind (Account.pause_monotone S i) (hx.abreast hpresent hp) ?_ fun _ _ _ => id⟩
  rintro a g m ⟨J, hpresent', hbeside, ht⟩
  exact ((hk a).abreast hpresent' ht).mono (Account.pause_monotone S i) (fun _ _ _ => .after hbeside)
    fun _ _ _ => .after hbeside

theorem recover {k k' : Signal → Play α} (hx : Alongside S i P pre x x' T F) (hk : ∀ e, Alongside S i P F (k e) (k' e) T F') :
    Alongside S i P pre (tryCatch x k) (tryCatch x' k') T F' := by
  refine ⟨fun hpresent hp => Run.abreast_tryCatch (Account.pause_monotone S i) (hx.abreast hpresent hp)
    (fun _ _ _ => id) ?_⟩
  rintro e g m ⟨J, hpresent', hbeside, ht⟩
  exact ((hk e).abreast hpresent' ht).mono (Account.pause_monotone S i) (fun _ _ _ => .after hbeside)
    fun _ _ _ => .after hbeside

theorem leaving {f : Machine → Machine} (hx : Alongside S i P pre x x' T F) (hf : ∀ m, (f m).world = m.world)
    (hT : ∀ a J m, T a J m → T' a J (f m)) (hF : ∀ J m, F J m → F' J (f m)) :
    Alongside S i P pre (x.leaving f) (x'.leaving f) T' F' := by
  have hleft {U U' : Chronicle → Machine → Prop} {A g : Account} {m : Machine} (hU : ∀ J, U J m → U' J (f m))
      (h : Onward S i P A U g m) : Onward S i P A U' g (f m) := by
    obtain ⟨J, ⟨hdoc, hallowed, hothers⟩, hbeside, ht⟩ := h
    refine ⟨J, ⟨?_, ?_, ?_⟩, ?_, hU J ht⟩ <;> rw [hf] <;> assumption
  exact ⟨fun hpresent hp => (hx.abreast hpresent hp).leave (Account.pause_monotone S i)
    (fun a _ _ => hleft fun J => hT a J _) fun _ _ _ => hleft fun J => hF J _⟩

theorem throw (e : Signal) (h : ∀ J m, pre J m → F J m) : Alongside S i P pre (throw e : Play α) (MonadExcept.throw e) T F :=
  ⟨fun hpresent hp => ⟨rfl, hpresent.onward (h _ _ hp)⟩⟩

theorem pure (a : α) (h : ∀ J m, pre J m → T a J m) : Alongside S i P pre (Pure.pure a : Play α) (Pure.pure a) T F :=
  ⟨fun hpresent hp => ⟨rfl, hpresent.onward (h _ _ hp)⟩⟩

theorem placid (x : Play α) [hx : Placid x] {T : Chronicle → Machine → Prop} (hT : Enduring i T) :
    Alongside S i P T x x (fun _ => T) T := by
  refine ⟨fun {g J m} hpresent ht => ?_⟩
  have honward {m' : Machine} (h : Unaltered m m') : Onward S i P ⟨J, m.world.loader⟩ T g m' :=
    ⟨J, hpresent.unaltered h, h.beside _ J, hT.endures h.place (h.beside _ J) ht⟩
  have hcalm := hx.calm m
  cases hrun : x m with
  | done a m' =>
    rw [hrun] at hcalm
    exact .done (honward hcalm)
  | fail e m' =>
    rw [hrun] at hcalm
    exact .fail (honward hcalm.2)
  | wait w m' resume =>
    rw [hrun] at hcalm
    exact hcalm.elim

theorem discarded {T : Chronicle → Machine → Prop} (hx : Alongside S i P pre x x' (fun _ => T) F) :
    Alongside S i P pre (discard x) (discard x') (fun _ => T) F := by
  show Alongside S i P pre (x >>= fun _ => Pure.pure PUnit.unit) (x' >>= fun _ => Pure.pure PUnit.unit) (fun _ => T) F
  exact hx.bind fun _ => .pure _ fun _ _ => id

theorem await (w : Wait) {T : Chronicle → Machine → Prop} (hT : Enduring i T) :
    Alongside S i P T (Run.await w : Play Unit) (Run.await w) (fun _ => T) T := by
  refine ⟨fun {g J m} hpresent ht => ⟨_, rfl, J, hpresent, fun raised B m' hsession hloader hdoc hallowed hbeside => ?_⟩⟩
  obtain ⟨J', l⟩ := B
  cases hloader
  have honward : Onward S i P ⟨J, m.world.loader⟩ T ⟨J', m'.world.loader⟩ m' :=
    ⟨J', ⟨hdoc, hallowed, .refl _ _⟩, hbeside.mono fun _ _ h => h.1,
      hT.endures (congrArg Session.place hsession) hbeside ht⟩
  cases raised with
  | none => exact .done honward
  | some e => exact .fail honward

theorem within {s : Session} {p : Purpose × Option String} {R : Account → Prop}
    (hx : Alongside S i P pre x x' (fun _ J m => R ⟨J, m.world.loader⟩) fun J m => R ⟨J, m.world.loader⟩)
    (hpre : ∀ J m, pre' J m → pre J { m with session := s }) (hp : ∀ J m, pre' J m → m.session.place = p) :
    Alongside S i P pre' (Play.within s x) (Play.within s x') (fun _ J m => R ⟨J, m.world.loader⟩ ∧ m.session.place = p)
      fun J m => R ⟨J, m.world.loader⟩ ∧ m.session.place = p := by
  refine ⟨fun {g J m} hpresent hpre' => ?_⟩
  have hinner : Alongside S i P pre (do let a ← x; return (a, ← Play.session)) (do let a ← x'; return (a, ← Play.session))
      (fun _ J m => R ⟨J, m.world.loader⟩) fun J m => R ⟨J, m.world.loader⟩ :=
    hx.bind fun a => ⟨fun hpresent hr => .done (hpresent.onward hr)⟩
  have hleft : Alongside S i P pre (Run.leaving _ fun m' => { m' with session := m.session })
      (Run.leaving _ fun m' => { m' with session := m.session })
      (fun _ J m' => R ⟨J, m'.world.loader⟩ ∧ m'.session.place = p)
      fun J m' => R ⟨J, m'.world.loader⟩ ∧ m'.session.place = p :=
    hinner.leaving (fun _ => rfl) (fun _ _ _ hr => ⟨hr, hp J m hpre'⟩) fun _ _ hr => ⟨hr, hp J m hpre'⟩
  exact hleft.abreast (m := { m with session := s }) ⟨hpresent.documented, hpresent.allowed, hpresent.beside⟩
    (hpre _ _ hpre')

end Alongside

/-! ## Seats -/

/-- A load: its ticket, what was asked for, where that is, and the stack that it ends. -/
structure Seat where
  ticket : Nat
  ask : Ask
  location : Location
  stack : Stack

def Seat.Bases (c : Seat) (base : Option String) : Prop := ∃ w, base = baseFor w c.location c.ask.base

theorem Seat.bases_parent {c : Seat} (h : c.location.origin ≠ .host) (w : World) :
    c.Bases (some (Module.parentOf w.files c.location)) := by
  refine ⟨w, ?_⟩
  cases horigin : c.location.origin with
  | host => exact absurd horigin h
  | url | file => simp only [baseFor, horigin]

/-- A task has a load under way. Of the dependencies of its node the rest is still to be asked for. -/
structure Engaged (i : Nat) (c : Seat) (rest : List String) (A : Account) : Prop where
  located : c.ask.located = .ok c.location
  line : Line A.chronicle i c.stack (some c.ticket)
  began : (i, .began c.ticket c.ask) ∈ A.chronicle
  node : ∃ n, A.loader.nodes.get? c.location.text = some n ∧ n.ticket = c.ticket ∧ n.status = .loading ∧
    n.dependencies = (A.chronicle.asks c.ticket).map Ask.identifier ++ rest
  pending : A.loader.pending.get? c.location.text = some c.ticket

namespace Engaged

variable {i : Nat} {c : Seat} {rest : List String} {A B : Account}

theorem leads (h : Engaged i c rest A) : c.ask.LeadsTo c.location.text := ⟨c.location, h.located, rfl⟩

theorem makes (h : Engaged i c rest A) {d : Ask} (hd : c.Bases d.base) : c.ask.Makes d :=
  hd.elim fun w hw => ⟨c.location, w, h.located, hw⟩

theorem loading (h : Engaged i c rest A) : Loading A.loader c.location.text c.ticket := by
  obtain ⟨n, hn, -, hstatus, -⟩ := h.node
  exact ⟨n, hn, hstatus, h.pending⟩

theorem beside {P : Nat → Nat → Prop} (h : Engaged i c rest A) (hAB : Beside P A B) (hP : P i c.ticket) :
    Engaged i c rest B := by
  obtain ⟨hnode, hpending, hasks⟩ := hAB.left h.began hP h.loading
  refine ⟨h.located, h.line.mono fun e => hAB.mem, hAB.mem h.began, ?_, hpending.trans h.pending⟩
  rw [hnode, hasks]
  exact h.node

end Engaged

theorem enduring_place (i : Nat) (p : Purpose × Option String) : Enduring i fun _ m => m.session.place = p :=
  ⟨fun hplace _ h => hplace.trans h⟩

theorem Enduring.and {i : Nat} {T T' : Chronicle → Machine → Prop} (h : Enduring i T) (h' : Enduring i T') :
    Enduring i fun J m => T J m ∧ T' J m :=
  ⟨fun hplace hbeside ht => ⟨h.endures hplace hbeside ht.1, h'.endures hplace hbeside ht.2⟩⟩

theorem enduring_engaged (i : Nat) (c : Seat) (rest : List String) :
    Enduring i fun J m => Engaged i c rest ⟨J, m.world.loader⟩ :=
  ⟨fun _ hbeside h => h.beside hbeside rfl⟩

def Sits (i : Nat) : Option Seat → Chronicle → Machine → Prop
  | none, _, m => m.session.purpose = .script
  | some c, J, m => Engaged i c [] ⟨J, m.world.loader⟩ ∧ c.Bases m.session.sourceDir ∧
      m.session.purpose = .module c.location.text c.stack

theorem Sits.of_place {i : Nat} {seat : Option Seat} {J J' : Chronicle} {m m' : Machine} (h : Sits i seat J m)
    (hplace : m'.session.place = m.session.place)
    (hheld : ∀ c, seat = some c → Engaged i c [] ⟨J, m.world.loader⟩ → Engaged i c [] ⟨J', m'.world.loader⟩) :
    Sits i seat J' m' := by
  obtain ⟨hpurpose, hdir⟩ := Prod.mk.inj hplace
  cases seat with
  | none => exact hpurpose.trans h
  | some c => exact ⟨hheld c rfl h.1, hdir ▸ h.2.1, hpurpose.trans h.2.2⟩

theorem enduring_sits (i : Nat) (seat : Option Seat) : Enduring i (Sits i seat) :=
  ⟨fun hplace hbeside h => h.of_place hplace fun _ _ hc => hc.beside hbeside rfl⟩

def OffSeat (seat : Option Seat) (t : Nat) : Prop := seat.map Seat.ticket ≠ some t

section

variable {S : Surroundings} {i : Nat} {c : Seat} {rest : List String} {g : Account} {J : Chronicle} {m : Machine}

theorem Present.at_seat (h : Present S i g J m) (m' : Machine) (J' : Chronicle)
    (hc : Engaged i c rest ⟨J, m.world.loader⟩) (hJ : J <+: J')
    (hnodes : ∀ x, x ≠ c.location.text → m'.world.loader.nodes.get? x = m.world.loader.nodes.get? x)
    (hpending : ∀ x, x ≠ c.location.text → m'.world.loader.pending.get? x = m.world.loader.pending.get? x)
    (hasks : ∀ t, t ≠ c.ticket → J'.asks t = J.asks t) (hdoc : Documented S ⟨J', m'.world.loader⟩)
    (hfiles : m'.world.files = m.world.files) (hregistry : registryOf m'.world = registryOf m.world) :
    Present S i g J' m' ∧
      Beside (fun j t => j = i ∧ OffSeat (some c) t) ⟨J, m.world.loader⟩ ⟨J', m'.world.loader⟩ := by
  have hbeside (P : Nat → Nat → Prop) (hP : ∀ {j t q}, (j, .began t q) ∈ J → P j t → t ≠ c.ticket) :
      Beside P ⟨J, m.world.loader⟩ ⟨J', m'.world.loader⟩ :=
    .of_elsewhere hJ hnodes hpending (fun hbegan hp hloading => hP hbegan hp (hloading.unique hc.loading))
      fun hbegan hp => hasks _ (hP hbegan hp)
  refine ⟨⟨hdoc, ?_, h.beside.trans (hbeside _ ?_)⟩, hbeside _ ?_⟩
  · rw [hfiles, hregistry]
    exact h.allowed
  · rintro j t q hbegan hj rfl
    exact hj (h.documented.unique hbegan hc.began).1
  · rintro j t q - ⟨-, ht⟩ rfl
    exact ht rfl

/-- A task writes at its seat what is still to be asked for. -/
theorem Present.writes (h : Present S i g J m) (m' : Machine) (rest' : List String) (hc : Engaged i c rest ⟨J, m.world.loader⟩)
    {f : Module.Node → Module.Node} (hbare : ∀ n, (f n).bare = n.bare)
    (hf : ∀ n, n.dependencies = (J.asks c.ticket).map Ask.identifier ++ rest →
      (f n).dependencies = (J.asks c.ticket).map Ask.identifier ++ rest')
    (hnodes : m'.world.loader.nodes = (m.world.loader.update c.location.text f).nodes)
    (hpending : m'.world.loader.pending = m.world.loader.pending)
    (hedges : m'.world.loader.edges = m.world.loader.edges) (htickets : m'.world.loader.tickets = m.world.loader.tickets)
    (hfiles : m'.world.files = m.world.files) (hregistry : registryOf m'.world = registryOf m.world) :
    Present S i g J m' ∧ Beside (fun j t => j = i ∧ OffSeat (some c) t) ⟨J, m.world.loader⟩ ⟨J, m'.world.loader⟩ ∧
      Engaged i c rest' ⟨J, m'.world.loader⟩ := by
  obtain ⟨n, hn, hticket, hstatus, hdependencies⟩ := hc.node
  dsimp only at hdependencies
  have hnode (x : String) : m'.world.loader.nodes.get? x =
      if x = c.location.text then some (f n) else m.world.loader.nodes.get? x := by
    rw [hnodes, Module.Loader.update, hn]
    by_cases hx : x = c.location.text
    · subst hx
      simp [Table.get?_put_self]
    · simp [Table.get?_put_of_ne hx, hx]
  have hkept : (f n).status = n.status ∧ (f n).ticket = n.ticket ∧ (f n).identifier = n.identifier := by
    have h := hbare n
    simp only [Module.Node.bare, Module.Node.mk.injEq] at h
    exact ⟨h.2.2.1, h.2.2.2.2.2.2, h.1⟩
  have hwritten := hf n hdependencies
  have hdoc : Documented S ⟨J, m'.world.loader⟩ :=
    h.documented.rewrites hn hkept.2.1 hkept.2.2 (by rw [hwritten, hticket]; exact List.prefix_append _ _)
      (by rw [hkept.1, hstatus]; intro h; cases h) hnode hedges htickets
  obtain ⟨hpresent, hbeside⟩ := h.at_seat m' J hc (List.prefix_refl J) (fun x hx => by rw [hnode, if_neg hx])
    (fun x _ => by rw [hpending]) (fun _ _ => rfl) hdoc hfiles hregistry
  exact ⟨hpresent, hbeside, hc.located, hc.line, hc.began, ⟨f n, by simp [hnode],
    hkept.2.1.trans hticket, hkept.1.trans hstatus, hwritten⟩, hpending ▸ hc.pending⟩

theorem Present.asks_next {d : Ask} (h : Present S i g J m) (m' : Machine) (hc : Engaged i c (d.identifier :: rest) ⟨J, m.world.loader⟩)
    (hbase : c.Bases d.base) (hallowed : S.allows d.files d.registry)
    (hnodes : m'.world.loader.nodes = m.world.loader.nodes)
    (hpending : m'.world.loader.pending = m.world.loader.pending)
    (hedges : ∀ x y, Module.Along m'.world.loader.edges x y ↔
      Module.Along m.world.loader.edges x y ∨ x = c.location.text ∧ d.LeadsTo y)
    (htickets : m'.world.loader.tickets = m.world.loader.tickets)
    (hfiles : m'.world.files = m.world.files) (hregistry : registryOf m'.world = registryOf m.world) :
    let J' := J ++ [(i, .asked (some c.ticket) d)]
    Present S i g J' m' ∧ Beside (fun j t => j = i ∧ OffSeat (some c) t) ⟨J, m.world.loader⟩ ⟨J', m'.world.loader⟩ ∧
      Engaged i c rest ⟨J', m'.world.loader⟩ := by
  intro J'
  obtain ⟨n, hn, hticket, hstatus, hdependencies⟩ := hc.node
  dsimp only at hdependencies
  have hasks (t : Nat) : J'.asks t = J.asks t ++ if c.ticket = t then [d] else [] := by
    simp [J', Chronicle.asks_append]
  have hdoc : Documented S ⟨J', m'.world.loader⟩ :=
    h.documented.asks_under hallowed hc.began hc.leads (hc.makes hbase) hn hticket hstatus
      (by rw [hdependencies]; exact ⟨rest, by simp⟩) hnodes hedges htickets
  obtain ⟨hpresent, hbeside⟩ := h.at_seat m' J' hc (List.prefix_append J _) (fun x _ => by rw [hnodes])
    (fun x _ => by rw [hpending]) (fun t ht => by simp [hasks, Ne.symm ht]) hdoc hfiles hregistry
  refine ⟨hpresent, hbeside, hc.located, hc.line.mono fun _ => hbeside.mem, hbeside.mem hc.began, ⟨n, ?_, hticket,
    hstatus, ?_⟩, hpending ▸ hc.pending⟩
  · rw [hnodes]
    exact hn
  · rw [hdependencies, hasks]
    simp

end

/-! ## Requirements -/

/-- Two computations of a program go abreast. -/
class Chronicled (S : Surroundings) {α : Type} (x x' : Play α) : Prop where
  goes : ∀ i seat, Alongside S i (OffSeat seat) (Sits i seat) x x' (fun _ => Sits i seat) (Sits i seat)

def Asks (i : Nat) (asker : Option Nat) (identifier : String) (base : Option String) (stack : Stack)
    (p : Purpose × Option String) (J : Chronicle) (m : Machine) : Prop :=
  Line J i stack asker ∧ (i, .asked asker ⟨identifier, base, m.world.files, registryOf m.world⟩) ∈ J ∧
    m.session.place = p

/-- Two loads of a module go abreast, from wherever it is asked for, and leave all other loads of the task alone. -/
def LoadsAbreast (S : Surroundings) (identifier : String) (base : Option String) (stack : Stack)
    (x x' : Play (Table String Entry)) : Prop :=
  ∀ i asker p, Alongside S i (fun _ => True) (Asks i asker identifier base stack p) x x' (fun _ _ m => m.session.place = p)
    fun _ m => m.session.place = p

/-- Two surroundings of programs that go abreast. -/
class Coupled (S : Surroundings) (o o' : Outer) : Prop where
  label : ∀ name a, Chronicled S (o.label name a) (o'.label name a)
  moduleLabel : ∀ index label a, Chronicled S (o.moduleLabel index label a) (o'.moduleLabel index label a)
  load : ∀ identifier base stack, LoadsAbreast S identifier base stack (o.load identifier base stack) (o'.load identifier base stack)
  rounds : o'.rounds = o.rounds

theorem LoadsAbreast.root {S : Surroundings} {identifier : String} {base : Option String} {x x' : Play (Table String Entry)}
    (h : LoadsAbreast S identifier base [] x x') (i : Nat) (p : Purpose × Option String) :
    Alongside S i (fun _ => True) (fun _ m => m.session.place = p) x x' (fun _ _ m => m.session.place = p)
      fun _ m => m.session.place = p := by
  refine ⟨fun {g J m} hpresent hplace => ?_⟩
  let q : Ask := ⟨identifier, base, m.world.files, registryOf m.world⟩
  have hasks : ∀ t, Chronicle.asks (J ++ [(i, .asked none q)]) t = J.asks t := fun t => by simp [Chronicle.asks_append]
  have hbeside (P : Nat → Nat → Prop) : Beside P ⟨J, m.world.loader⟩ ⟨J ++ [(i, .asked none q)], m.world.loader⟩ :=
    ⟨List.prefix_append _ _, fun _ _ _ => ⟨rfl, rfl, hasks _⟩⟩
  have hpresent' : Present S i g (J ++ [(i, .asked none q)]) m :=
    ⟨hpresent.documented.asks i hpresent.allowed, hpresent.allowed, hpresent.beside.trans (hbeside _)⟩
  exact ((h i none p).abreast hpresent' ⟨.nil, List.mem_append_right _ (List.mem_singleton_self _), hplace⟩).mono
    (Account.pause_monotone S i) (fun _ _ _ => .after (hbeside _)) fun _ _ _ => .after (hbeside _)

namespace Play

variable {S : Surroundings} (o o' : Outer) [ho : Coupled S o o'] {i : Nat} {c : Seat} {base : Option String}

/-- The next of the dependencies is asked for and loaded. -/
theorem requireDependency_alongside (hbase : c.Bases base) (dep : String) (rest : List String) (p : Purpose × Option String) :
    Alongside S i (OffSeat (some c)) (fun J m => Engaged i c (dep :: rest) ⟨J, m.world.loader⟩ ∧ m.session.place = p)
      (requireDependency o c.location.text dep base c.stack) (requireDependency o' c.location.text dep base c.stack)
      (fun _ J m => Engaged i c rest ⟨J, m.world.loader⟩ ∧ m.session.place = p)
      fun J m => Engaged i c rest ⟨J, m.world.loader⟩ ∧ m.session.place = p := by
  refine ⟨fun {g J m} hpresent ⟨hc, hplace⟩ => ?_⟩
  let d : Ask := ⟨dep, base, m.world.files, registryOf m.world⟩
  have hallowed : S.allows d.files d.registry := hpresent.allowed
  obtain ⟨sought, hlocate⟩ := Module.locate_apply m (dep, base)
  unfold requireDependency
  rw [Run.bind_apply, Run.bind_apply, hlocate]
  cases htarget : Module.target m.world (dep, base) with
  | error e =>
    have hnowhere (y : String) : ¬ d.LeadsTo y := by
      rintro ⟨l, hl, -⟩
      cases htarget.symm.trans hl
    obtain ⟨hpresent', hbeside, hc'⟩ := hpresent.asks_next m (d := d) hc hbase hallowed rfl rfl
      (fun x y => by simp [hnowhere]) rfl rfl rfl
    exact .fail ⟨_, hpresent', hbeside, hc', hplace⟩
  | ok l =>
    let m' : Machine := { m with world := { m.world with
      sought := sought, loader := m.world.loader.addEdge c.location.text l.text } }
    obtain ⟨edges, hl⟩ := Module.addEdge_eq m.world.loader c.location.text l.text
    have hleads (y : String) : d.LeadsTo y ↔ y = l.text := by
      constructor
      · exact fun hy => hy.unique ⟨l, htarget, rfl⟩
      · rintro rfl
        exact ⟨l, htarget, rfl⟩
    obtain ⟨hpresent', hbeside, hc'⟩ := hpresent.asks_next m' (d := d) hc hbase hallowed
      (by show (m.world.loader.addEdge _ _).nodes = _; rw [hl])
      (by show (m.world.loader.addEdge _ _).pending = _; rw [hl])
      (fun x y => by rw [hleads]; exact Module.along_addEdge)
      (by show (m.world.loader.addEdge _ _).tickets = _; rw [hl]) rfl
      (by simp only [registryOf, m', hl])
    have hload := (ho.load dep base c.stack i (some c.ticket) p).frame (fun A => Engaged i c rest A)
      fun A B hAB hc => hc.beside hAB ⟨rfl, trivial⟩
    have hasked : Asks i (some c.ticket) dep base c.stack p (J ++ [(i, .asked (some c.ticket) d)]) m' := by
      refine ⟨hc'.line, List.mem_append_right _ (List.mem_singleton.mpr ?_), hplace⟩
      have hregistry : registryOf m'.world = registryOf m.world := by simp only [registryOf, m', hl]
      rw [hregistry]
    exact (hload.abreast (m := m') hpresent' ⟨hasked, hc'⟩).mono (Account.pause_monotone S i)
      (fun _ _ _ h => (h.mono (fun _ _ => trivial) fun _ h => ⟨h.2, h.1⟩).after hbeside)
      fun _ _ _ h => (h.mono (fun _ _ => trivial) fun _ h => ⟨h.2, h.1⟩).after hbeside

theorem requireHere_chronicled (identifier : String) : Chronicled S (requireHere o identifier) (requireHere o' identifier) := by
  refine ⟨fun i seat => ⟨fun {g J m} hpresent hsits => ?_⟩⟩
  unfold requireHere
  simp only [Run.bind_apply, session_apply, Step.bind]
  cases seat with
  | none =>
    have hscript : m.session.purpose = .script := hsits
    simp only [hscript, Run.bind_apply, world_apply, Step.bind]
    refine (((ho.load _ _ _).root i m.session.place).abreast hpresent rfl).mono (Account.pause_monotone S i) ?_ ?_
    · exact fun _ _ _ h => h.mono (fun _ _ => trivial) fun _ hplace => hsits.of_place hplace fun _ h => by cases h
    · exact fun _ _ _ h => h.mono (fun _ _ => trivial) fun _ hplace => hsits.of_place hplace fun _ h => by cases h
  | some c =>
    have hc : Engaged i c [] ⟨J, m.world.loader⟩ := hsits.1
    have hbase : c.Bases m.session.sourceDir := hsits.2.1
    have hpurpose : m.session.purpose = .module c.location.text c.stack := hsits.2.2
    simp only [hpurpose]
    let m' : Machine := { m with world := { m.world with
      loader := m.world.loader.addDependency c.location.text identifier } }
    obtain ⟨nodes, hl⟩ := Module.update_eq m.world.loader c.location.text fun n =>
      { n with dependencies := n.dependencies ++ [identifier] }
    have hl : m'.world.loader = { m.world.loader with nodes := nodes } := hl
    obtain ⟨hpresent', hbeside, hc'⟩ := hpresent.writes m' [identifier] hc
      (f := fun n => { n with dependencies := n.dependencies ++ [identifier] }) (fun _ => rfl)
      (fun n hn => by simp [hn]) rfl (by rw [hl]) (by rw [hl]) (by rw [hl]) rfl (by simp only [registryOf, hl]; rfl)
    have hrequire := requireDependency_alongside o o' (S := S) (i := i) hbase identifier [] m.session.place
    refine (hrequire.abreast (m := m') hpresent' ⟨hc', rfl⟩).mono (Account.pause_monotone S i) ?_ ?_
    · refine fun _ _ m'' h => (h.mono (fun _ => id) fun _ h => ?_).after hbeside
      exact hsits.of_place h.2 fun _ heq _ => Option.some.inj heq ▸ h.1
    · refine fun _ _ m'' h => (h.mono (fun _ => id) fun _ h => ?_).after hbeside
      exact hsits.of_place h.2 fun _ heq _ => Option.some.inj heq ▸ h.1

end Play

theorem Twin.chronicled {S : Surroundings} {o o' : Outer} [ho : Coupled S o o'] {α : Type} {x x' : Play α}
    (hx : Twin o o' x x') : Chronicled S x x' := by
  induction hx with
  | placid x _ hp => exact ⟨fun i seat => .placid x (enduring_sits i seat)⟩
  | throw e => exact ⟨fun i seat => .throw e fun _ _ => id⟩
  | bind x x' k k' _ _ hx hk => exact ⟨fun i seat => (hx.goes i seat).bind fun a => (hk a).goes i seat⟩
  | recover x x' k k' _ _ hx hk => exact ⟨fun i seat => (hx.goes i seat).recover fun e => (hk e).goes i seat⟩
  | leaving x x' f _ hf hx =>
    exact ⟨fun i seat => (hx.goes i seat).leaving (fun _ => rfl)
      (fun _ _ m h => h.of_place (hf m.session) fun _ _ => id) fun _ m h => h.of_place (hf m.session) fun _ _ => id⟩
  | onSession f hf =>
    have := Placid.onSession f hf
    exact ⟨fun i seat => .placid _ (enduring_sits i seat)⟩
  | turn => exact ⟨fun i seat => .await _ (enduring_sits i seat)⟩
  | apart s x x' hs _ hx =>
    -- a session apart has no seat, and leaves that of the session around it alone
    refine ⟨fun i seat => ⟨fun {g J m} hpresent hsits => ?_⟩⟩
    have hinner : Alongside S i (OffSeat none) (Sits i none) x x' (fun _ _ _ => True) fun _ _ => True :=
      (hx.goes i none).post (fun _ _ _ _ => trivial) fun _ _ _ => trivial
    have hwithin : Alongside S i (OffSeat none) (fun _ m' => m'.session.place = m.session.place) (Play.within s x)
        (Play.within s x') (fun _ _ m' => True ∧ m'.session.place = m.session.place)
        fun _ m' => True ∧ m'.session.place = m.session.place :=
      hinner.within (R := fun _ => True) (fun _ _ _ => hs) fun _ _ => id
    have hback {J' : Chronicle} {m' : Machine}
        (hbeside : Beside (fun j t => j = i ∧ OffSeat none t) ⟨J, m.world.loader⟩ ⟨J', m'.world.loader⟩)
        (hplace : m'.session.place = m.session.place) : Sits i seat J' m' :=
      hsits.of_place hplace fun c _ hc => hc.beside hbeside ⟨rfl, nofun⟩
    have hspared : ∀ t, OffSeat seat t → OffSeat none t := fun _ _ => nofun
    refine (hwithin.abreast hpresent rfl).mono (Account.pause_monotone S i) ?_ ?_
    · rintro _ g' m' ⟨J', hpresent', hbeside, -, hplace⟩
      exact ⟨J', hpresent', hbeside.mono fun _ _ h => ⟨h.1, hspared _ h.2⟩, hback hbeside hplace⟩
    · rintro _ g' m' ⟨J', hpresent', hbeside, -, hplace⟩
      exact ⟨J', hpresent', hbeside.mono fun _ _ h => ⟨h.1, hspared _ h.2⟩, hback hbeside hplace⟩
  | label name a => exact ho.label name a
  | moduleLabel index label a => exact ho.moduleLabel index label a
  | requireHere identifier => exact Play.requireHere_chronicled o o' identifier

end Conductor
