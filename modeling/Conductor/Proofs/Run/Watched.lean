import Conductor.Proofs.Run.Chronicled

/-!
# Loads that are watched

A load enters in the chronicle that it begins and what it asks for, and its node is what the
chronicle makes it until it is settled. So wherever a module is asked for, a cycle that is
reported is a closed walk of the graph. To say so of every report in a run, each demand for a
module is watched: where the report would be no closed walk, an alarm is raised instead. A load
whose inner loads are all watched goes abreast of one where none is.
-/

set_option autoImplicit false

namespace Conductor

open Conductor.Module (Account Ask Beside Chronicle ClosedWalk Documented Line Loading Location Outcome Stack Surroundings
  registryOf target)

variable {S : Surroundings} {o o' : Outer} {i : Nat} {c : Seat} {base : Option String} {p : Purpose × Option String}
  {P : Nat → Prop}

/-! ## A load under way -/

def Asking (i : Nat) (c : Seat) (rest : List String) (p : Purpose × Option String) (J : Chronicle) (m : Machine) : Prop :=
  Engaged i c rest ⟨J, m.world.loader⟩ ∧ m.session.place = p

def Opening (i : Nat) (c : Seat) (p : Purpose × Option String) (J : Chronicle) (m : Machine) : Prop :=
  Engaged i c [] ⟨J, m.world.loader⟩ ∧ J.asks c.ticket = [] ∧ m.session.place = p

def Going (i : Nat) (c : Seat) (p : Purpose × Option String) (J : Chronicle) (m : Machine) : Prop :=
  ∃ rest, Asking i c rest p J m

theorem enduring_asking (i : Nat) (c : Seat) (rest : List String) (p : Purpose × Option String) :
    Enduring i (Asking i c rest p) := (enduring_engaged i c rest).and (enduring_place i p)

theorem enduring_opening (i : Nat) (c : Seat) (p : Purpose × Option String) : Enduring i (Opening i c p) :=
  ⟨fun hplace hbeside ⟨hc, hasks, hp⟩ =>
    ⟨hc.beside hbeside rfl, (hbeside.left hc.began rfl hc.loading).2.2.trans hasks, hplace.trans hp⟩⟩

theorem Asking.going {rest : List String} {J : Chronicle} {m : Machine} (h : Asking i c rest p J m) : Going i c p J m :=
  ⟨rest, h⟩

theorem Opening.going {J : Chronicle} {m : Machine} (h : Opening i c p J m) : Going i c p J m := ⟨[], h.1, h.2.2⟩

namespace Play

theorem placid_then {α β : Type} {T F : Chronicle → Machine → Prop} {U : β → Chronicle → Machine → Prop} (x : Play α)
    [Placid x] (hT : Enduring i T) (hF : ∀ J m, T J m → F J m) {k k' : α → Play β}
    (hk : ∀ a, Alongside S i P T (k a) (k' a) U F) : Alongside S i P T (x >>= k) (x >>= k') U F :=
  ((Alongside.placid x hT).fails hF).bind hk

instance (a : String) : Placid (onLoader fun l => l.count a) := ⟨fun _ => ⟨rfl, rfl, rfl, rfl, rfl, rfl, .refl⟩⟩

instance (text : String) : Placid (onLoader fun l => { l with fetched := l.fetched ++ [text] }) :=
  ⟨fun _ => ⟨rfl, rfl, rfl, rfl, rfl, rfl, .refl⟩⟩

theorem readSource_alongside (l : Location) {T : Chronicle → Machine → Prop} (hT : Enduring i T) :
    Alongside S i P T (readSource l) (readSource l) (fun _ => T) T := by
  unfold readSource
  split
  · refine (Alongside.placid _ hT).bind fun w => ?_
    split
    · refine (Alongside.placid _ hT).bind fun _ => (Alongside.await _ hT).bind fun _ => ?_
      split <;> exact .placid _ hT
    · refine (Alongside.placid _ hT).bind fun w' => Alongside.bind ?_ fun _ => .placid _ hT
      exact (Alongside.await .turn hT).bind fun _ => .placid _ hT
  · refine (Alongside.placid _ hT).bind fun w => ?_
    extract_lets files
    clear_value files
    split <;> exact .placid _ hT

theorem setDependencies_alongside (deps : List String) : Alongside S i (OffSeat (some c)) (Opening i c p)
    (onLoader fun l => l.setDependencies c.location.text deps) (onLoader fun l => l.setDependencies c.location.text deps)
    (fun _ => Asking i c deps p) (Going i c p) := by
  refine ⟨fun {g J m} hpresent ⟨hc, hasks, hp⟩ => ?_⟩
  let m' : Machine := { m with world := { m.world with loader := m.world.loader.setDependencies c.location.text deps } }
  obtain ⟨nodes, hl⟩ := Module.update_eq m.world.loader c.location.text fun n => { n with dependencies := deps }
  have hl : m'.world.loader = { m.world.loader with nodes := nodes } := hl
  obtain ⟨hpresent', hbeside, hc'⟩ := hpresent.writes m' deps hc
    (f := fun n => { n with dependencies := deps }) (fun _ => rfl) (fun _ _ => by simp [hasks]) rfl (by rw [hl])
    (by rw [hl]) (by rw [hl]) rfl (by simp only [registryOf, hl]; rfl)
  exact .done ⟨J, hpresent', hbeside, hc', hp⟩

section

variable [ho : Coupled S o o']

theorem requireAll_alongside (hbase : c.Bases base) (deps : List String) :
    Alongside S i (OffSeat (some c)) (Asking i c deps p) (requireAll o c.location.text base c.stack deps)
      (requireAll o' c.location.text base c.stack deps) (fun _ => Asking i c [] p) (Going i c p) := by
  induction deps with
  | nil =>
    rw [requireAll, requireAll]
    exact (Alongside.placid _ (enduring_asking i c [] p)).fails fun _ _ => Asking.going
  | cons dep rest ih =>
    rw [requireAll, requireAll]
    have hdep : Alongside S i (OffSeat (some c)) (Asking i c (dep :: rest) p)
        (requireDependency o c.location.text dep base c.stack) (requireDependency o' c.location.text dep base c.stack)
        (fun _ => Asking i c rest p) (Going i c p) :=
      (requireDependency_alongside o o' hbase dep rest p).fails fun _ _ => Asking.going
    exact hdep.discarded.bind fun _ => ih

theorem loadHost_alongside (hbase : c.Bases base) (module : HostModule) (identifier : String) :
    Alongside S i (OffSeat (some c)) (Opening i c p) (loadHost o module identifier c.location.text base c.stack)
      (loadHost o' module identifier c.location.text base c.stack) (fun _ => Asking i c [] p) (Going i c p) := by
  have hopening := enduring_opening i c p
  have hgoing : ∀ J m, Opening i c p J m → Going i c p J m := fun _ _ => Opening.going
  unfold loadHost
  extract_lets start start'
  have hstart (u : Unit) : Alongside S i (OffSeat (some c)) (Opening i c p) (start u) (start' u)
      (fun _ => Asking i c [] p) (Going i c p) := by
    unfold start start'
    refine placid_then _ hopening hgoing fun exports => placid_then _ hopening hgoing fun _ =>
      placid_then _ hopening hgoing fun deps => ?_
    refine (setDependencies_alongside deps).bind fun _ => (requireAll_alongside hbase deps).bind fun _ => ?_
    exact (Alongside.placid _ (enduring_asking i c [] p)).fails fun _ _ => Asking.going
  clear_value start start'
  split
  · exact placid_then _ hopening hgoing hstart
  · exact hstart ⟨⟩

theorem loadScript_alongside (horigin : c.location.origin ≠ .host) (source identifier : String) :
    Alongside S i (OffSeat (some c)) (Opening i c p) (loadScript o source identifier c.location c.stack)
      (loadScript o' source identifier c.location c.stack) (fun _ => Asking i c [] p) (Going i c p) := by
  have hopening := enduring_opening i c p
  have hgoing : ∀ J m, Opening i c p J m → Going i c p J m := fun _ _ => Opening.going
  have hasking : ∀ J m, Asking i c [] p J m → Going i c p J m := fun _ _ => Asking.going
  unfold loadScript
  refine placid_then _ hopening hgoing fun program => placid_then _ hopening hgoing fun w => ?_
  extract_lets dir
  have hbase : c.Bases (some dir) := Seat.bases_parent horigin w
  clear_value dir
  have hcount : Alongside S i (OffSeat (some c)) (Asking i c [] p) (onLoader fun l => l.count c.location.text)
      (onLoader fun l => l.count c.location.text) (fun _ => Asking i c [] p) (Going i c p) :=
    (Alongside.placid _ (enduring_asking i c [] p)).fails hasking
  have hstart := (setDependencies_alongside []).bind fun _ => hcount
  -- the program of the module runs in a session of its own, with its seat in the load
  have hrounds : Fact (o'.rounds = o.rounds) := ⟨ho.rounds⟩
  have htwin : Twin o o' (runProgram o program [] true false) (runProgram o' program [] true false) := inferInstance
  have hprogram := htwin.chronicled (S := S)
  have hseated : Alongside S i (OffSeat (some c)) (Sits i (some c)) (runProgram o program [] true false)
      (runProgram o' program [] true false) (fun _ J m => Engaged i c [] ⟨J, m.world.loader⟩)
      fun J m => Engaged i c [] ⟨J, m.world.loader⟩ :=
    (hprogram.goes i (some c)).post (fun _ _ _ h => h.1) fun _ _ h => h.1
  have hwithin : Alongside S i (OffSeat (some c)) (Asking i c [] p)
      (within (moduleSession dir [] (.module c.location.text c.stack)) (runProgram o program [] true false))
      (within (moduleSession dir [] (.module c.location.text c.stack)) (runProgram o' program [] true false))
      (fun _ => Asking i c [] p) (Asking i c [] p) :=
    hseated.within (fun _ _ h => ⟨h.1, hbase, rfl⟩) fun _ _ h => h.2
  refine hstart.bind fun _ => (hwithin.fails hasking).bind
    fun final => ?_
  have hpush (sm : ScriptModule) : Placid (modifyWorld fun w => { w with modules := w.modules.push sm }) :=
    ⟨fun _ => .of_world ⟨_, rfl⟩ rfl rfl⟩
  refine placid_then _ (enduring_asking i c [] p) hasking fun w => placid_then _ (enduring_asking i c [] p) hasking
    fun _ => ?_
  exact (Alongside.placid _ (enduring_asking i c [] p)).fails hasking

theorem loadFresh_alongside (identifier : String) : Alongside S i (OffSeat (some c)) (Opening i c p)
    (loadFresh o identifier c.location c.ask.base c.stack) (loadFresh o' identifier c.location c.ask.base c.stack)
    (fun _ => Asking i c [] p) (Going i c p) := by
  have hopening := enduring_opening i c p
  have hgoing : ∀ J m, Opening i c p J m → Going i c p J m := fun _ _ => Opening.going
  have hread := (readSource_alongside (S := S) (P := OffSeat (some c)) c.location hopening).fails hgoing
  unfold loadFresh
  split
  · next horigin =>
    have hbase : c.Bases c.ask.base := ⟨{}, by simp only [Module.baseFor, horigin]⟩
    exact placid_then _ hopening hgoing fun w => placid_then _ hopening hgoing fun module =>
      loadHost_alongside hbase module identifier
  · next horigin =>
    exact hread.bind fun source => placid_then _ hopening hgoing fun w =>
      loadHost_alongside (Seat.bases_parent horigin w) source.hostModule identifier
  · next horigin =>
    refine hread.bind fun source => ?_
    split
    · exact loadScript_alongside horigin _ identifier
    · exact loadScript_alongside horigin _ identifier

end

/-! ## How a load ends -/

def Closing {ε : Type} (i : Nat) (c : Seat) (p : Purpose × Option String) (ended : Except ε (Table String Entry))
    (J : Chronicle) (m : Machine) : Prop :=
  ∃ rest, Asking i c rest p J m ∧ ∀ f, ended = .ok f → rest = []

theorem outcome_alongside {pre : Chronicle → Machine → Prop} {x x' : Play (Table String Entry)}
    (hx : Alongside S i P pre x x' (fun _ => Asking i c [] p) (Going i c p)) :
    Alongside S i P pre (outcome x) (outcome x') (Closing i c p) fun _ m => m.session.place = p := by
  have hdone : Alongside S i P pre (do return (.ok (← x) : Except Problem _)) (do return .ok (← x')) (Closing i c p)
      (Going i c p) := hx.bind fun f => .pure _ fun _ _ ht => ⟨[], ht, fun _ _ => rfl⟩
  refine hdone.recover fun e => ⟨?_⟩
  rintro g J m hpresent ⟨rest, ht⟩
  match e with
  | .problem q => exact .done (hpresent.onward ⟨rest, ht, nofun⟩)
  | .leave | .iterate | .ret _ | .exit _ | .jump _ _ | .exhausted => exact .fail (hpresent.onward ht.2)

theorem settle_alongside (result : Outcome) : Alongside S i (OffSeat (some c)) (Closing i c p result)
    (onLoader fun l => l.settle c.location.text c.ticket result) (onLoader fun l => l.settle c.location.text c.ticket result)
    (fun _ _ m => m.session.place = p) fun _ m => m.session.place = p := by
  refine ⟨fun {g J m} hpresent ⟨rest, ⟨hc, hp⟩, hrest⟩ => ?_⟩
  obtain ⟨n, hn, hticket, hstatus, hdependencies⟩ := hc.node
  let m' : Machine :=
    { m with world := { m.world with loader := m.world.loader.settle c.location.text c.ticket result } }
  obtain ⟨outcomes, failures, hl⟩ := Module.settle_graph hn c.ticket result
  have hl : m'.world.loader = { m.world.loader with
    nodes := m.world.loader.nodes.put c.location.text (n.settled result)
    pending := m.world.loader.pending.erase c.location.text, outcomes := outcomes, failures := failures } := hl
  have hkept : (n.settled result).ticket = n.ticket ∧ (n.settled result).identifier = n.identifier ∧
      (n.settled result).dependencies = n.dependencies := by
    cases result <;> exact ⟨rfl, rfl, rfl⟩
  have hnodes (x : String) : m'.world.loader.nodes.get? x =
      if x = c.location.text then some (n.settled result) else m.world.loader.nodes.get? x := by
    rw [hl]
    by_cases hx : x = c.location.text
    · subst hx
      simp [Table.get?_put_self]
    · simp [Table.get?_put_of_ne hx, hx]
  have hcomplete (hloaded : (n.settled result).status = .loaded) :
      (J.asks n.ticket).map Ask.identifier = (n.settled result).dependencies := by
    cases result with
    | ok f => simp [hkept.2.2, hdependencies, hrest f rfl, hticket]
    | error e => cases hloaded
  have hdoc : Documented S ⟨J, m'.world.loader⟩ := by
    refine hpresent.documented.rewrites hn hkept.1 hkept.2.1 ?_ hcomplete hnodes (by rw [hl]) (by rw [hl])
    rw [hkept.2.2, hdependencies, hticket]
    exact List.prefix_append _ _
  obtain ⟨hpresent', hbeside⟩ := hpresent.at_seat m' J hc (List.prefix_refl J)
    (fun x hx => by rw [hnodes, if_neg hx]) (fun x hx => by rw [hl]; exact Table.get?_erase_of_ne hx _)
    (fun _ _ => rfl) hdoc rfl (by simp only [registryOf, hl]; rfl)
  exact .done ⟨J, hpresent', hbeside, hp⟩

/-! ## Loads -/

section

variable [ho : Coupled S o o']

/-- A load that has begun comes to its end. -/
theorem begun_alongside (identifier : String) (base : Option String) (hbase : c.ask.base = base) :
    Alongside S i (OffSeat (some c)) (Opening i c p)
      (do
        let ended ← outcome (loadFresh o identifier c.location base c.stack)
        let result := settlement identifier c.ticket ended
        onLoader fun loader => loader.settle c.location.text c.ticket result
        release ended result)
      (do
        let ended ← outcome (loadFresh o' identifier c.location base c.stack)
        let result := settlement identifier c.ticket ended
        onLoader fun loader => loader.settle c.location.text c.ticket result
        release ended result)
      (fun _ _ m => m.session.place = p) fun _ m => m.session.place = p := by
  subst hbase
  refine (outcome_alongside (loadFresh_alongside identifier)).bind fun ended => ?_
  refine Alongside.bind ?_ fun _ => .placid _ (enduring_place i p)
  refine (settle_alongside _).conseq (fun _ => id) ?_ (fun _ _ _ => id) fun _ _ => id
  rintro J m ⟨rest, ht, hrest⟩
  refine ⟨rest, ht, fun f hf => ?_⟩
  cases ended with
  | ok f' => exact hrest f' rfl
  | error e => cases hf

/-- A load begins: it is entered in the chronicle and opens at a seat of its own. Whoever goes on from there has left all
the loads of before alone, for none of them has the ticket that is drawn now. -/
theorem begins_load {J : Chronicle} {m : Machine} (m' : Machine) {g : Account} {q : Ask} {stack : Stack}
    {asker : Option Nat} {l : Location} (hpresent : Present S i g J m) (hline : Line J i stack asker)
    (hasked : (i, .asked asker q) ∈ J)
    (htarget : q.located = .ok l) (hloading : ∀ t, ¬ Loading m.world.loader l.text t) (hplace : m.session.place = p)
    (hsession : m'.session = m.session) (hloader : m'.world.loader = m.world.loader.begun q.identifier l.text)
    (hfiles : m'.world.files = m.world.files) (hregistry : registryOf m'.world = registryOf m.world) :
    let c : Seat := ⟨m.world.loader.tickets, q, l, stack ++ [(q.identifier, l.text)]⟩
    let J' : Chronicle := J ++ [(i, .began c.ticket q)]
    Present S i g J' m' ∧ Opening i c p J' m' ∧
      ∀ {T : Chronicle → Machine → Prop} {g' : Account} {m₁ : Machine},
        Onward S i (OffSeat (some c)) ⟨J', m'.world.loader⟩ T g' m₁ →
        Onward S i (fun _ => True) ⟨J, m.world.loader⟩ T g' m₁ := by
  intro c J'
  have hleads : q.LeadsTo l.text := ⟨l, htarget, rfl⟩
  have hbegan : (i, .began c.ticket q) ∈ J' := List.mem_append_right _ (List.mem_singleton_self _)
  have hold {j t : Nat} {d : Ask} (hd : (j, .began t d) ∈ J) : t ≠ c.ticket := (hpresent.documented.drawn hd).ne
  have hnodes (x : String) (hx : x ≠ l.text) : m'.world.loader.nodes.get? x = m.world.loader.nodes.get? x := by
    rw [hloader]
    exact Table.get?_put_of_ne hx _ _
  have hpending (x : String) (hx : x ≠ l.text) : m'.world.loader.pending.get? x = m.world.loader.pending.get? x := by
    rw [hloader]
    exact Table.get?_put_of_ne hx _ _
  have hbeside (P : Nat → Nat → Prop) : Beside P ⟨J, m.world.loader⟩ ⟨J', m'.world.loader⟩ :=
    .of_elsewhere (List.prefix_append _ _) hnodes hpending (fun _ _ => hloading _) fun _ _ => by simp [J', Chronicle.asks_append]
  have hasks : Chronicle.asks J' c.ticket = [] := by
    simp [J', Chronicle.asks_append, hpresent.documented.asks_eq_nil (le_refl m.world.loader.tickets), c]
  refine ⟨⟨?_, ?_, hpresent.beside.trans (hbeside _)⟩, ⟨⟨htarget, ?_, hbegan, ?_, ?_⟩, hasks, ?_⟩, ?_⟩
  · rw [hloader]
    exact hpresent.documented.begins hasked hleads
  · rw [hfiles, hregistry]
    exact hpresent.allowed
  · exact .push (hline.mono fun _ => List.mem_append_left _) (List.mem_append_left _ hasked) hbegan hleads
  · rw [hloader, hasks]
    exact ⟨_, Table.get?_put_self _ _ _, rfl, rfl, rfl⟩
  · rw [hloader]
    exact Table.get?_put_self _ _ _
  · rw [hsession]
    exact hplace
  · rintro T g' m₁ ⟨K, hpresent', hafter, ht⟩
    have hown := (hbeside fun j t => j = i ∧ OffSeat (some c) t).trans hafter
    exact ⟨K, hpresent', ⟨hown.chronicle, fun hbegan hj hloading => hown.left hbegan ⟨hj.1, fun heq =>
      hold hbegan (Option.some.inj heq).symm⟩ hloading⟩, ht⟩

theorem load_alongside (identifier : String) (base : Option String) (stack : Stack) :
    LoadsAbreast S identifier base stack (load o identifier base stack) (load o' identifier base stack) := by
  refine fun i asker p => ⟨fun {g J m} hpresent ⟨hline, hasked, hp⟩ => ?_⟩
  obtain ⟨sought, hlocate⟩ := Module.locate_apply m (identifier, base)
  unfold load
  rw [Run.bind_apply, Run.bind_apply, hlocate]
  cases htarget : target m.world (identifier, base) with
  | error e => exact .fail (hpresent.onward hp)
  | ok l =>
    let m₁ : Machine := { m with world := { m.world with sought := sought } }
    have hpresent₁ : Present S i g J m₁ := ⟨hpresent.documented, hpresent.allowed, hpresent.beside⟩
    have hplacid (x : Play (Table String Entry)) [Placid x] := (Alongside.placid (S := S) (P := fun _ => True) x
      (enduring_place i p)).abreast hpresent₁ hp
    simp only [Step.bind, Run.bind_apply, world_apply]
    rcases Module.enter_cases m.world.loader stack identifier l.text with ⟨ids, henter, -⟩ | ⟨-, hcases⟩
    · rw [henter]
      exact hplacid _
    rcases hcases with ⟨f, henter, -⟩ | ⟨ids, -, henter, -⟩ | ⟨t, henter, -, -⟩ | ⟨henter, -, hloading⟩
    · rw [henter]
      exact hplacid _
    · rw [henter]
      exact hplacid _
    · rw [henter]
      refine (Alongside.bind (Alongside.await (.load t) (enduring_place i p)) fun _ => ?_).abreast hpresent₁ hp
      refine (Alongside.placid _ (enduring_place i p)).bind fun w => ?_
      split
      · exact (Alongside.placid _ (enduring_place i p)).bind fun w => .placid _ (enduring_place i p)
      · exact .throw _ fun _ _ => id
    · rw [henter]
      let m₂ : Machine := { m₁ with world := { m₁.world with loader := m.world.loader.begun identifier l.text } }
      obtain ⟨hpresent₂, hopening, hback⟩ :=
        begins_load m₂ hpresent hline hasked htarget hloading hp rfl rfl rfl rfl
      exact ((begun_alongside identifier base rfl).abreast hpresent₂ hopening).mono (Account.pause_monotone S i)
        (fun _ _ _ => hback) fun _ _ _ => hback

instance : Coupled S (outer 0) (outer 0) := by
  have hthrow {α : Type} : Chronicled S (throw .exhausted : Play α) (throw .exhausted) :=
    ⟨fun i seat => .throw _ fun _ _ => id⟩
  exact ⟨fun _ _ => hthrow, fun _ _ _ => hthrow, fun _ _ _ _ _ _ => .throw _ fun _ _ h => h.2.2, rfl⟩

end

instance coupled_outer (S : Surroundings) (n : Nat) : Coupled S (outer n) (outer n) := by
  induction n with
  | zero => infer_instance
  | succ n ih =>
    have hlabel (name : String) (a : Arguments) :
        Twin (outer n) (outer n) (callLabel (outer n) name a) (callLabel (outer n) name a) := inferInstance
    have hmodule (index : Nat) (label : String) (a : Arguments) :
        Twin (outer n) (outer n) (callModule (outer n) index label a) (callModule (outer n) index label a) := inferInstance
    exact ⟨fun name a => (hlabel name a).chronicled, fun index label a => (hmodule index label a).chronicled,
      fun identifier base stack => load_alongside identifier base stack, rfl⟩

/-! ## Watching -/

/-- What is reported where a module is asked for, if a cycle is, is a closed walk in the graph. It was asked for at the
end of a stack, by the last of the loads on it. -/
def Justified (S : Surroundings) (w : World) (identifier : String) (base : Option String) (stack : Stack) : Prop :=
  ∀ l ids, target w (identifier, base) = .ok l → w.loader.enter stack identifier l.text = .circular ids →
    ∃ J i asker, Documented S ⟨J, w.loader⟩ ∧ Line J i stack asker ∧
      (i, .asked asker ⟨identifier, base, w.files, registryOf w⟩) ∈ J ∧ ClosedWalk ⟨J, w.loader⟩ ids

open Classical in
/-- A load, but that an alarm is raised where what is reported would be no closed walk. -/
noncomputable def watchedLoad (S : Surroundings) (alarm : Play (Table String Entry)) (o : Outer) (identifier : String)
    (base : Option String) (stack : Stack) : Play (Table String Entry) := fun m =>
  if Justified S m.world identifier base stack then load o identifier base stack m else alarm m

noncomputable def watched (S : Surroundings) (alarm : Play (Table String Entry)) : Nat → Outer
  | 0 => outer 0
  | n + 1 =>
    { label := fun name a => callLabel (watched S alarm n) name a
      moduleLabel := fun index label a => callModule (watched S alarm n) index label a
      load := fun identifier base stack => watchedLoad S alarm (watched S alarm n) identifier base stack
      rounds := n }

theorem watchedLoad_alongside [Coupled S o o'] (alarm : Play (Table String Entry)) (identifier : String)
    (base : Option String) (stack : Stack) :
    LoadsAbreast S identifier base stack (load o identifier base stack) (watchedLoad S alarm o' identifier base stack) := by
  refine fun i asker p => ⟨fun {g J m} hpresent hasks => ?_⟩
  have hjustified : Justified S m.world identifier base stack := by
    intro l ids htarget henter
    have hwalk := hpresent.documented.closedWalk_of_circular hasks.1 hasks.2.1 ⟨l, htarget, rfl⟩ henter
    exact ⟨J, i, asker, hpresent.documented, hasks.1, hasks.2.1, hwalk⟩
  rw [watchedLoad, if_pos hjustified]
  exact (load_alongside identifier base stack i asker p).abreast hpresent hasks

instance coupled_watched (S : Surroundings) (alarm : Play (Table String Entry)) (n : Nat) :
    Coupled S (outer n) (watched S alarm n) := by
  induction n with
  | zero => exact inferInstanceAs (Coupled S (outer 0) (outer 0))
  | succ n ih =>
    have hrounds : Fact ((watched S alarm n).rounds = (outer n).rounds) := ⟨ih.rounds⟩
    have hlabel (name : String) (a : Arguments) :
        Twin (outer n) (watched S alarm n) (callLabel (outer n) name a) (callLabel (watched S alarm n) name a) :=
      inferInstance
    have hmodule (index : Nat) (label : String) (a : Arguments) : Twin (outer n) (watched S alarm n)
        (callModule (outer n) index label a) (callModule (watched S alarm n) index label a) := inferInstance
    exact ⟨fun name a => (hlabel name a).chronicled, fun index label a => (hmodule index label a).chronicled,
      fun identifier base stack => watchedLoad_alongside alarm identifier base stack, rfl⟩

end Play

end Conductor
