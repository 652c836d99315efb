import Conductor.Proofs.Module.Exports
import Conductor.Proofs.Module.Orderly
import Conductor.Proofs.Run.Meets
import Mathlib.Data.List.Perm.Subperm

/-!
# What a task does to the loader

A task that loads modules keeps the loader and the tasks in order through all of its
turns, whatever the other tasks do between them. It ends with its stack as it was,
and with the functions of a module that is loaded or with a module condition about a
location that cannot be loaded.
-/

set_option autoImplicit false

namespace Conductor.Module

open Relation (ReflTransGen TransGen)
open Play (outer)

structure Later (l l' : Loader) : Prop where
  outcomes : ∃ new, l'.outcomes = l.outcomes ++ new
  tickets : l.tickets ≤ l'.tickets
  loaded : ∀ a f, Loaded l a f → Loaded l' a f

namespace Later

theorem refl (l : Loader) : Later l l := ⟨⟨[], by simp⟩, le_refl _, fun _ _ h => h⟩

theorem trans {l l' l'' : Loader} (h : Later l l') (h' : Later l' l'') : Later l l'' := by
  obtain ⟨new, hnew⟩ := h.outcomes
  obtain ⟨new', hnew'⟩ := h'.outcomes
  exact ⟨⟨new ++ new', by rw [hnew', hnew, List.append_assoc]⟩, h.tickets.trans h'.tickets,
    fun a f hf => h'.loaded a f (h.loaded a f hf)⟩

theorem of_alike {l l' : Loader} (h : Alike l l') : Later l l' :=
  ⟨⟨[], by simp [h.outcomes]⟩, h.tickets.ge, fun a f => (h.loaded a f).mpr⟩

end Later

/-- What the other tasks are doing during a turn, and the loader as the turn found it. -/
structure Ghost where
  activity : Nat → Activity
  start : Loader

variable {w₀ : World}

/-- How things stand during a turn of a task. A load on its stack was there at the start of the turn, or
its ticket was drawn since. -/
structure During (T : Judgment w₀) (i : Nat) (g : Ghost) (w : World) (own : Activity) : Prop where
  setting : SameSetting w₀ w
  orderly : Orderly T w.loader (Function.update g.activity i own)
  later : Later g.start w.loader
  drawn : ∀ e ∈ own.stack, e ∈ (g.activity i).stack ∨ g.start.tickets ≤ e.2

def Fits (l : Loader) : Wait → Option (String × Nat) → Prop
  | .turn, u => u = none
  | .load t, u => l.outcomes.get? t = none ∧ ∃ a, u = some (a, t)

structure Resumed (T : Judgment w₀) (i : Nat) (own : Activity) (wait : Wait) (m : Machine) (g' : Ghost)
    (m' : Machine) : Prop where
  own : g'.activity i = own
  start : g'.start = m'.world.loader
  session : m'.session = m.session
  setting : SameSetting w₀ m'.world
  orderly : Orderly T m'.world.loader g'.activity
  later : Later m.world.loader m'.world.loader
  answer : ∀ t, wait = .load t → m'.world.loader.outcomes.get? t ≠ none

def between (T : Judgment w₀) (i : Nat) : Pause Signal Ghost Machine := fun wait g m K =>
  ∃ own, During T i g m.world own ∧ Fits m.world.loader wait own.waits ∧ ∀ g' m', Resumed T i own wait m g' m' → K none g' m'

theorem between_monotone (T : Judgment w₀) (i : Nat) : (between T i).Monotone := by
  rintro wait g m K L hKL ⟨own, hduring, hfits, hK⟩
  exact ⟨own, hduring, hfits, fun g' m' h => hKL none g' m' (hK g' m' h)⟩

def Gives (T : Judgment w₀) (i : Nat) (gs : List (String × Nat)) (l₀ : Loader) (r : Request)
    (es : Table String Entry) (g : Ghost) (m : Machine) : Prop :=
  During T i g m.world ⟨gs, none⟩ ∧ Later l₀ m.world.loader ∧
    ∃ l, target w₀ r = .ok l ∧ Loaded m.world.loader l.text es

def Refuses (T : Judgment w₀) (i : Nat) (gs : List (String × Nat)) (r : Request) (e : Signal) (g : Ghost)
    (m : Machine) : Prop :=
  During T i g m.world ⟨gs, none⟩ ∧ (∃ p, e = .problem p) ∧ ∀ l, target w₀ r = .ok l → T.flawed l.text

section Walk

variable {T : Judgment w₀} {i : Nat} {g : Ghost} {w : World} {own : Activity} {gs : List (String × Nat)}
  {stack : Stack} {a : String} {t : Nat} {r : Request} {m : Machine}

theorem During.same {w' : World} (h : During T i g w own) (hsetting : SameSetting w w')
    (halike : Alike w.loader w'.loader) : During T i g w' own :=
  ⟨h.setting.trans hsetting, h.orderly.congr halike, h.later.trans (.of_alike halike), h.drawn⟩

theorem later_addEdge (l : Loader) (a b : String) : Later l (l.addEdge a b) := by
  obtain ⟨edges, heq⟩ := addEdge_eq l a b
  rw [heq]
  exact ⟨⟨[], by simp⟩, le_refl _, fun _ _ h => h⟩

theorem During.addEdge {a b : String} (h : During T i g w own) (hedge : T.edge a b) :
    During T i g { w with loader := w.loader.addEdge a b } own := by
  refine ⟨h.setting.trans ?_, h.orderly.addEdge hedge, h.later.trans (later_addEdge _ a b), h.drawn⟩
  obtain ⟨edges, heq⟩ := addEdge_eq w.loader a b
  rw [heq]
  exact ⟨rfl, rfl, rfl, rfl, rfl⟩

theorem later_begun {l : Loader} {identifier : String} (h : ∀ f, ¬ Loaded l a f) : Later l (l.begun identifier a) :=
  ⟨⟨[], by simp [Loader.begun]⟩, Nat.le_succ _, fun _ _ hf => (loaded_begun h).mpr hf⟩

theorem later_settle {l : Loader} (hloading : Loading l a t) (hnone : l.outcomes.get? t = none) (o : Outcome) :
    Later l (l.settle a t o) := by
  obtain ⟨n, failures, heq, -⟩ := settle_eq hloading t o
  refine ⟨⟨[(t, o)], ?_⟩, ?_, ?_⟩
  · rw [heq]
    exact Table.put_of_get?_none hnone
  · rw [heq]
  · intro x f hx
    refine (loaded_settle hloading t o).mpr (Or.inr ⟨?_, hx⟩)
    rintro rfl
    exact hloading.not_loaded hx

theorem During.push (identifier : String) (h : During T i g w ⟨gs, none⟩) (hloaded : ∀ f, ¬ Loaded w.loader a f)
    (hloading : ∀ t, ¬ Loading w.loader a t) (hedge : ∀ top ∈ gs.getLast?, Along w.loader.edges top.1 a) :
    During T i g { w with loader := w.loader.begun identifier a } ⟨gs ++ [(a, w.loader.tickets)], none⟩ := by
  refine ⟨h.setting.trans ⟨rfl, rfl, rfl, rfl, rfl⟩, h.orderly.push hloaded hloading hedge,
    h.later.trans (later_begun hloaded), ?_⟩
  intro e he
  rcases List.mem_append.mp he with he | he
  · exact h.drawn e he
  · obtain rfl : e = (a, w.loader.tickets) := by simpa using he
    exact Or.inr h.later.tickets

theorem During.settle {o : Outcome} (h : During T i g w ⟨gs ++ [(a, t)], none⟩)
    (hok : ∀ f, o = .ok f → T.fine a f ∧ ∀ b, T.needs a b → ∃ f', Loaded w.loader b f')
    (herror : ∀ c, o = .error c → T.flawed a) :
    During T i g { w with loader := w.loader.settle a t o } ⟨gs, none⟩ := by
  obtain ⟨-, hnone, hloading⟩ := h.orderly.held i a t (mem_stack_snoc.mpr (Or.inr ⟨rfl, rfl⟩))
  refine ⟨h.setting.trans ?_, h.orderly.settle hok herror, h.later.trans (later_settle hloading hnone o), ?_⟩
  · obtain ⟨n, failures, heq, -⟩ := settle_eq hloading t o
    rw [heq]
    exact ⟨rfl, rfl, rfl, rfl, rfl⟩
  · exact fun e he => h.drawn e (List.mem_append_left _ he)

theorem Resumed.during {wait : Wait} {u : Option (String × Nat)} {g' : Ghost} {m' : Machine}
    (h : Resumed T i ⟨gs, u⟩ wait m g' m') : During T i g' m'.world ⟨gs, none⟩ := by
  refine ⟨h.setting, ?_, h.start ▸ .refl _, fun e he => Or.inl ?_⟩
  · refine Orderly.wake (u := u) ?_
    rw [← h.own, Function.update_eq_self]
    exact h.orderly
  · rw [h.own]
    exact he

/-! ## Finding and reading a module -/

theorem meets_locate {P : Pause Signal Ghost Machine} {d : Location → Ghost → Machine → Prop}
    {f : Signal → Ghost → Machine → Prop} (hsetting : SameSetting w₀ m.world)
    (hok : ∀ l m', target w₀ r = .ok l → SameSetting m.world m'.world → m'.world.loader = m.world.loader → d l g m')
    (herror : ∀ c, target w₀ r = .error c → f (.problem (.condition c)) g m) :
    (Play.locate r.1 r.2 m).Meets P d f g := by
  obtain ⟨sought, hlocate⟩ := locate_apply m r
  rw [hlocate, hsetting.target_eq r]
  cases hl : target w₀ r with
  | error c => exact herror c hl
  | ok l => exact hok l _ hl ⟨rfl, rfl, rfl, rfl, rfl⟩ rfl

theorem readSource_meets {l : Location} (hr : T.asked r) (hl : target w₀ r = .ok l) (horigin : l.origin ≠ .host)
    (h : During T i g m.world ⟨gs, none⟩) :
    (Play.readSource l m).Meets (between T i)
      (fun source g' m' => During T i g' m'.world ⟨gs, none⟩ ∧ Later m.world.loader m'.world.loader ∧
        moduleAt w₀ l = .ok source.hostModule)
      (fun e g' m' => During T i g' m'.world ⟨gs, none⟩ ∧ (∃ p, e = .problem p) ∧ T.flawed l.text) g := by
  have hflaw : ∀ failure, moduleAt w₀ l = .error failure → T.flawed l.text := by
    intro failure hmodule
    refine T.flawed_self hr hl ?_
    rintro ⟨l', m', exports, deps, hl', hm', -⟩
    obtain rfl : l = l' := Except.ok.inj (hl.symm.trans hl')
    simp [hmodule] at hm'
  unfold Play.readSource
  cases hkind : l.origin with
  | host => exact absurd hkind horigin
  | url =>
    simp only [Run.bind_apply, Play.world_apply, Step.bind]
    cases hsources : m.world.loader.sources with
    | none =>
      have hweb : T.flawed l.text := T.flawed_web hr hl hkind (h.setting.sources ▸ hsources)
      simp only [Play.awaited, Run.bind_apply]
      refine ⟨⟨gs, none⟩, h, rfl, fun g' m' hresumed => ?_⟩
      simp only [Play.onHttp, Run.bind_apply, Play.world_apply, Step.bind]
      have hsame : During T i g'
          { m'.world with http := (Http.fetchText l.text m.world.loader.httpConfig m'.world.http).2 } ⟨gs, none⟩ :=
        hresumed.during.same ⟨rfl, rfl, rfl, rfl, rfl⟩ (.of_nodes rfl rfl rfl rfl rfl)
      cases (Http.fetchText l.text m.world.loader.httpConfig m'.world.http).1 with
      | error failure => exact ⟨hsame, ⟨_, rfl⟩, hweb⟩
      | ok text =>
        refine ⟨hsame, hresumed.later, ?_⟩
        simp only [moduleAt, hkind, h.setting.sources ▸ hsources, Source.hostModule]
    | some table =>
      have hsources₀ : w₀.loader.sources = some table := h.setting.sources ▸ hsources
      have hfetched : Alike m.world.loader
          { m.world.loader with fetched := m.world.loader.fetched ++ [l.text] } := .of_nodes rfl rfl rfl rfl rfl
      simp only [Play.onLoader, Run.bind_apply, Play.modifyWorld_apply, Run.await_apply, Step.bind, Step.meets_wait]
      refine ⟨⟨gs, none⟩, ?_, rfl, ?_⟩
      · exact h.same ⟨rfl, rfl, rfl, rfl, rfl⟩ hfetched
      · intro g' m' hresumed
        cases hsource : table.get? l.text with
        | none =>
          refine ⟨hresumed.during, ⟨_, rfl⟩, hflaw (.raised "RuntimeError" ("no such module: " ++ l.text)) ?_⟩
          simp only [moduleAt, hkind, hsources₀, hsource]
        | some source =>
          refine ⟨hresumed.during, (Later.of_alike hfetched).trans hresumed.later, ?_⟩
          simp only [moduleAt, hkind, hsources₀, hsource]
  | file =>
    simp only [Run.bind_apply, Play.world_apply, Step.bind]
    have hfiles := h.setting.files
    rw [hfiles]
    have hread : (w₀.files.readText none l.text).map (fun _ => ({} : HostModule)) = moduleAt w₀ l →
        ((do return Source.text (← Play.liftE (w₀.files.readText none l.text)) : Play Source) m).Meets (between T i)
          (fun source g' m' => During T i g' m'.world ⟨gs, none⟩ ∧ Later m.world.loader m'.world.loader ∧
            moduleAt w₀ l = .ok source.hostModule)
          (fun e g' m' => During T i g' m'.world ⟨gs, none⟩ ∧ (∃ p, e = .problem p) ∧ T.flawed l.text) g := by
      intro hmodule
      cases htext : w₀.files.readText none l.text with
      | error failure => exact ⟨h, ⟨_, rfl⟩, hflaw failure (by rw [← hmodule, htext]; rfl)⟩
      | ok text => exact ⟨h, .refl _, by rw [← hmodule, htext]; rfl⟩
    rcases hcontent : w₀.files.content? l.text with _ | (data | module)
    · exact hread (by simp only [moduleAt, hkind, hcontent])
    · exact hread (by simp only [moduleAt, hkind, hcontent])
    · exact ⟨h, .refl _, by simp only [moduleAt, hkind, hcontent, Source.hostModule]⟩

/-! ## Asking for dependencies -/

def Loads (T : Judgment w₀) (load : String → Option String → Stack → Play (Table String Entry))
    (gs : List (String × Nat)) : Prop :=
  ∀ (i : Nat) (g : Ghost) (m : Machine) (r : Request) (stack : Stack), T.asked r →
    stack.map Prod.snd = gs.map Prod.fst → During T i g m.world ⟨gs, none⟩ →
    (∀ l, target w₀ r = .ok l → ∀ top ∈ gs.getLast?, Along m.world.loader.edges top.1 l.text) →
    (load r.1 r.2 stack m).Meets (between T i) (Gives T i gs m.world.loader r) (Refuses T i gs r) g

def Fails (T : Judgment w₀) (i : Nat) (gs : List (String × Nat)) (a : String) (e : Signal) (g : Ghost)
    (m : Machine) : Prop :=
  During T i g m.world ⟨gs, none⟩ ∧ (∃ p, e = .problem p) ∧ T.flawed a

variable {o : Outer} {l : Location}

theorem requireDependency_meets {r' : Request} (hload : Loads T o.load gs) (hstack : stack.map Prod.snd = gs.map Prod.fst)
    (htop : gs.getLast? = some (l.text, t)) (hr : T.asked r) (hl : target w₀ r = .ok l) (hleads : Leads w₀ r r')
    (h : During T i g m.world ⟨gs, none⟩) :
    (Play.requireDependency o l.text r'.1 r'.2 stack m).Meets (between T i) (Gives T i gs m.world.loader r')
      (Fails T i gs l.text) g := by
  refine Run.meets_bind.mpr (meets_locate h.setting ?_ fun c hc => ⟨h, ⟨_, rfl⟩, T.flawed_astray hr hl hleads hc⟩)
  intro l' m' hl' hsetting hloader
  have hsought : During T i g m'.world ⟨gs, none⟩ := h.same hsetting (.of_eq hloader)
  have hedge : T.edge l.text l'.text := T.edge_intro hr hl hleads hl'
  have hlater : Later m.world.loader (m'.world.loader.addEdge l.text l'.text) :=
    hloader ▸ later_addEdge m'.world.loader l.text l'.text
  refine (hload i g _ r' stack (T.closed hr hleads) hstack (hsought.addEdge hedge) ?_).mono (between_monotone T i) ?_ ?_
  · intro l'' hl'' top hmem
    obtain rfl : l' = l'' := Except.ok.inj (hl'.symm.trans hl'')
    obtain rfl : top = (l.text, t) := Option.some.inj (hmem.symm.trans htop)
    exact along_addEdge.mpr (Or.inr ⟨rfl, rfl⟩)
  · rintro es g'' m'' ⟨hduring, hlater', hloaded⟩
    exact ⟨hduring, hlater.trans hlater', hloaded⟩
  · rintro e g'' m'' ⟨hduring, hproblem, hflawed⟩
    exact ⟨hduring, hproblem, T.flawed_back hedge (hflawed l' hl')⟩

theorem requireAll_meets {base : Option String} (deps : List String) (hload : Loads T o.load gs)
    (hstack : stack.map Prod.snd = gs.map Prod.fst) (htop : gs.getLast? = some (l.text, t)) (hr : T.asked r)
    (hl : target w₀ r = .ok l) (hleads : ∀ dep ∈ deps, Leads w₀ r (dep, base)) (h : During T i g m.world ⟨gs, none⟩) :
    (Play.requireAll o l.text base stack deps m).Meets (between T i)
      (fun _ g' m' => During T i g' m'.world ⟨gs, none⟩ ∧ Later m.world.loader m'.world.loader ∧
        ∀ dep ∈ deps, ∃ l' es, target w₀ (dep, base) = .ok l' ∧ Loaded m'.world.loader l'.text es)
      (Fails T i gs l.text) g := by
  induction deps generalizing g m with
  | nil => exact ⟨h, .refl _, by simp⟩
  | cons dep rest ih =>
    refine Run.meets_bind.mpr (Run.meets_bind.mpr ?_)
    have hdep := requireDependency_meets hload hstack htop hr hl (hleads dep (by simp)) h
    refine hdep.mono (between_monotone T i) ?_ fun e g' m' he => he
    rintro es g' m' ⟨hduring, hlater, l', hl', hloaded⟩
    refine (ih (fun d hd => hleads d (by simp [hd])) hduring).mono (between_monotone T i) ?_ fun e g' m' he => he
    rintro - g'' m'' ⟨hduring', hlater', hrest⟩
    refine ⟨hduring', hlater.trans hlater', fun d hd => ?_⟩
    rcases List.mem_cons.mp hd with rfl | hd
    · exact ⟨l', es, hl', hlater'.loaded _ _ hloaded⟩
    · exact hrest d hd

/-! ## Loading a module -/

def Completes (T : Judgment w₀) (i : Nat) (gs : List (String × Nat)) (l₀ : Loader) (a : String)
    (es : Table String Entry) (g : Ghost) (m : Machine) : Prop :=
  During T i g m.world ⟨gs, none⟩ ∧ Later l₀ m.world.loader ∧ T.fine a es ∧
    ∀ b, T.needs a b → ∃ f, Loaded m.world.loader b f

theorem not_wellFormed {module : HostModule} (hl : target w₀ r = .ok l) (hmodule : moduleAt w₀ l = .ok module)
    (h : module.raises = none → ∀ exports deps, module.exports = .ok exports → module.requirements = .ok deps →
      ¬ ∃ es, module.entries exports r.1 l.text = .ok es) : ¬ WellFormed w₀ r := by
  rintro ⟨l', module', exports, deps, hl', hmodule', hraises, hexports, hdeps, hall⟩
  obtain rfl : l = l' := Except.ok.inj (hl.symm.trans hl')
  obtain rfl : module = module' := Except.ok.inj (hmodule.symm.trans hmodule')
  exact h hraises exports deps hexports hdeps (HostModule.entries_isOk_iff.mpr hall)

theorem dep_of_leads {r' : Request} {module : HostModule} {deps : List String} (hl : target w₀ r = .ok l)
    (hmodule : moduleAt w₀ l = .ok module) (hdeps : module.requirements = .ok deps) (h : Leads w₀ r r') :
    r'.1 ∈ deps ∧ r' = (r'.1, baseFor w₀ l r.2) := by
  obtain ⟨l', module', deps', hl', hmodule', hdeps', hmem, hbase⟩ := h
  obtain rfl : l = l' := Except.ok.inj (hl.symm.trans hl')
  obtain rfl : module = module' := Except.ok.inj (hmodule.symm.trans hmodule')
  obtain rfl : deps = deps' := Except.ok.inj (hdeps.symm.trans hdeps')
  exact ⟨hmem, Prod.ext rfl hbase⟩

theorem sameSetting_setDependencies (w : World) (a : String) (deps : List String) :
    SameSetting w { w with loader := (w.loader.count a).setDependencies a deps } := by
  unfold Loader.setDependencies Loader.update
  split <;> exact ⟨rfl, rfl, rfl, rfl, rfl⟩

theorem loadHost_meets {module : HostModule} (hload : Loads T o.load gs)
    (hstack : stack.map Prod.snd = gs.map Prod.fst) (htop : gs.getLast? = some (l.text, t)) (hr : T.asked r)
    (hl : target w₀ r = .ok l) (hmodule : moduleAt w₀ l = .ok module) (h : During T i g m.world ⟨gs, none⟩) :
    (Play.loadHost o module r.1 l.text (baseFor w₀ l r.2) stack m).Meets (between T i)
      (Completes T i gs m.world.loader l.text) (Fails T i gs l.text) g := by
  unfold Play.loadHost
  cases hraises : module.raises with
  | some e => exact ⟨h, ⟨e.problem, rfl⟩, T.flawed_self hr hl (not_wellFormed hl hmodule (by simp [hraises]))⟩
  | none =>
    cases hexports : module.exports with
    | error e => exact ⟨h, ⟨_, rfl⟩, T.flawed_self hr hl (not_wellFormed hl hmodule (by simp [hexports]))⟩
    | ok exports =>
      have hcount := alike_count m.world.loader l.text
      cases hdeps : module.requirements with
      | error e =>
        exact ⟨h.same ⟨rfl, rfl, rfl, rfl, rfl⟩ hcount, ⟨_, rfl⟩,
          T.flawed_self hr hl (not_wellFormed hl hmodule (by simp [hdeps]))⟩
      | ok deps =>
        have halike : Alike m.world.loader ((m.world.loader.count l.text).setDependencies l.text deps) :=
          hcount.trans (alike_setDependencies _ l.text deps)
        have hsame : During T i g { m.world with loader := (m.world.loader.count l.text).setDependencies l.text deps }
            ⟨gs, none⟩ := h.same (sameSetting_setDependencies _ l.text deps) halike
        have hleads : ∀ dep ∈ deps, Leads w₀ r (dep, baseFor w₀ l r.2) :=
          fun dep hdep => ⟨l, module, deps, hl, hmodule, hdeps, hdep, rfl⟩
        show Step.Meets _ _ _ ((Play.requireAll o l.text (baseFor w₀ l r.2) stack deps >>= fun _ =>
          Play.liftP (module.entries exports r.1 l.text)) ⟨m.session, _⟩) g
        refine Run.meets_bind.mpr ((requireAll_meets deps hload hstack htop hr hl hleads hsame).mono
          (between_monotone T i) ?_ fun e g' m' he => he)
        rintro - g' m' ⟨hduring, hlater, hloaded⟩
        cases hentries : module.entries exports r.1 l.text with
        | error p =>
          refine ⟨hduring, ⟨p, rfl⟩, T.flawed_self hr hl (not_wellFormed hl hmodule ?_)⟩
          intro _ exports' _ hexports' _
          obtain rfl : exports = exports' := Except.ok.inj (hexports.symm.trans hexports')
          simp [hentries]
        | ok es =>
          refine ⟨hduring, (Later.of_alike halike).trans hlater, ?_, ?_⟩
          · refine T.fine_intro hr hl ?_ hmodule hexports hentries ?_
            · exact ⟨l, module, exports, deps, hl, hmodule, hraises, hexports, hdeps,
                HostModule.entries_isOk_iff.mp ⟨es, hentries⟩⟩
            · intro r' hr'
              obtain ⟨l', es', hl', hloaded'⟩ := hloaded r'.1 (dep_of_leads hl hmodule hdeps hr').1
              rw [← (dep_of_leads hl hmodule hdeps hr').2] at hl'
              exact ⟨l', es', hl', (hduring.orderly.loaded _ _ hloaded').1⟩
          · intro b hb
            obtain ⟨r', l', hr', hl', rfl⟩ := T.needs_intro hr hl hb
            obtain ⟨l'', es', hl'', hloaded'⟩ := hloaded r'.1 (dep_of_leads hl hmodule hdeps hr').1
            rw [← (dep_of_leads hl hmodule hdeps hr').2] at hl''
            obtain rfl : l' = l'' := Except.ok.inj (hl'.symm.trans hl'')
            exact ⟨es', hloaded'⟩

theorem loadFresh_meets (hload : Loads T o.load gs) (hstack : stack.map Prod.snd = gs.map Prod.fst)
    (htop : gs.getLast? = some (l.text, t)) (hr : T.asked r) (hl : target w₀ r = .ok l)
    (h : During T i g m.world ⟨gs, none⟩) :
    (Play.loadFresh o r.1 l r.2 stack m).Meets (between T i) (Completes T i gs m.world.loader l.text)
      (Fails T i gs l.text) g := by
  have hhost : ∀ {module : HostModule} {base : Option String} {g' : Ghost} {m' : Machine},
      moduleAt w₀ l = .ok module → base = baseFor w₀ l r.2 → During T i g' m'.world ⟨gs, none⟩ →
      Later m.world.loader m'.world.loader →
      (Play.loadHost o module r.1 l.text base stack m').Meets (between T i)
        (Completes T i gs m.world.loader l.text) (Fails T i gs l.text) g' := by
    rintro module base g' m' hmodule rfl h' hlater
    refine (loadHost_meets hload hstack htop hr hl hmodule h').mono (between_monotone T i) ?_ fun e g m he => he
    rintro es g'' m'' ⟨hduring, hlater', hrest⟩
    exact ⟨hduring, hlater.trans hlater', hrest⟩
  have hsource : l.origin ≠ .host → ((do
      let source ← Play.readSource l
      Play.loadHost o source.hostModule r.1 l.text (some (Module.parentOf (← Play.world).files l)) stack) m).Meets
      (between T i) (Completes T i gs m.world.loader l.text) (Fails T i gs l.text) g := by
    intro horigin
    refine Run.meets_bind.mpr ((readSource_meets hr hl horigin h).mono (between_monotone T i) ?_ fun e g m he => he)
    rintro source g' m' ⟨hduring, hlater, hmodule⟩
    have hbase : some (Module.parentOf m'.world.files l) = baseFor w₀ l r.2 := by
      rw [hduring.setting.files, baseFor]
      split
      · exact absurd ‹_› horigin
      · rfl
    exact hhost hmodule hbase hduring hlater
  have hlanguage := T.host hr hl
  unfold Play.loadFresh
  cases horigin : l.origin with
  | host =>
    have hmodule : moduleAt w₀ l = m.world.loader.hostModule (Text.dropChars 3 l.text) := by
      rw [← h.setting.moduleAt_eq]
      simp only [moduleAt, horigin]
    have hbase : r.2 = baseFor w₀ l r.2 := by simp only [baseFor, horigin]
    simp only [Run.bind_apply, Play.world_apply, Step.bind]
    cases hfound : m.world.loader.hostModule (Text.dropChars 3 l.text) with
    | error f =>
      refine ⟨h, ⟨_, rfl⟩, T.flawed_self hr hl ?_⟩
      rintro ⟨l', module, exports, deps, hl', hmodule', -⟩
      obtain rfl : l = l' := Except.ok.inj (hl.symm.trans hl')
      simp [hmodule, hfound] at hmodule'
    | ok module => exact hhost (hmodule.trans hfound) hbase h (.refl _)
  | url =>
    simp only [hlanguage]
    exact hsource (by simp [horigin])
  | file =>
    simp only [hlanguage]
    exact hsource (by simp [horigin])

def Ends (T : Judgment w₀) (i : Nat) (gs : List (String × Nat)) (l₀ : Loader) (a : String)
    (ended : Except Problem (Table String Entry)) (g : Ghost) (m : Machine) : Prop :=
  During T i g m.world ⟨gs, none⟩ ∧ match ended with
    | .ok es => Later l₀ m.world.loader ∧ T.fine a es ∧ ∀ b, T.needs a b → ∃ f, Loaded m.world.loader b f
    | .error _ => T.flawed a

theorem outcome_meets {x : Play (Table String Entry)} {l₀ : Loader}
    (h : (x m).Meets (between T i) (Completes T i gs l₀ a) (Fails T i gs a) g) :
    (Play.outcome x m).Meets (between T i) (Ends T i gs l₀ a) (fun _ _ _ => False) g := by
  refine Run.meets_tryCatch.mpr (Run.meets_bind.mpr (h.mono (between_monotone T i) ?_ ?_))
  · exact fun es g' m' hes => hes
  · rintro e g' m' ⟨hduring, ⟨p, rfl⟩, hflawed⟩
    exact ⟨hduring, hflawed⟩

/-- The location of a request lies on a cycle when an edge leads to it from a stack that it leads to. -/
theorem cycle_of_reaches (h : During T i g m.world ⟨gs, none⟩)
    (hedge : ∀ top ∈ gs.getLast?, Along m.world.loader.edges top.1 a) {b : String} (hb : b ∈ gs.map Prod.fst)
    (hreach : ReflTransGen (Along m.world.loader.edges) a b) : T.flawed a := by
  obtain ⟨top, htop⟩ := Option.isSome_iff_exists.mp
    (List.getLast?_isSome.mpr (List.ne_nil_of_mem hb))
  obtain ⟨e, he, rfl⟩ : ∃ e, gs.getLast? = some e ∧ e.1 = top := by simpa [List.getLast?_map] using htop
  have hchain : (gs.map Prod.fst).IsChain (Along m.world.loader.edges) := by
    have := h.orderly.chain i
    simpa using this
  have hcycle : TransGen (Along m.world.loader.edges) a a :=
    .tail' (hreach.trans (chain_reaches hchain hb htop)) (hedge e he)
  exact T.flawed_cycle (TransGen.mono h.orderly.edges _ _ hcycle)

theorem awaitLoad_meets (hl : target w₀ r = .ok l) (h : During T i g m.world ⟨gs, none⟩)
    (hedge : ∀ top ∈ gs.getLast?, Along m.world.loader.edges top.1 l.text) (hloading : Loading m.world.loader l.text t)
    (hpath : m.world.loader.pathTo? l.text (gs.map Prod.fst) = none) :
    ((do
      Run.await (.load t)
      match (← Play.world).loader.outcomes.get? t with
      | some result => Play.liftC (result.mapError (← Play.world).loader.latest)
      | none => throw .exhausted : Play (Table String Entry)) m).Meets (between T i)
      (Gives T i gs m.world.loader r) (Refuses T i gs r) g := by
  have hpending : m.world.loader.outcomes.get? t = none := by
    obtain ⟨j, hj⟩ := h.orderly.opened l.text t hloading
    exact (h.orderly.held j l.text t hj).2.1
  refine Run.meets_bind.mpr ⟨⟨gs, some (l.text, t)⟩, ?_, ⟨hpending, l.text, rfl⟩, ?_⟩
  · exact ⟨h.setting, h.orderly.await hloading hedge hpath, h.later, h.drawn⟩
  · intro g' m' hresumed
    have hanswer : Answered T m'.world.loader l.text t := by
      refine (hresumed.orderly.awaited i l.text t (by rw [hresumed.own])).resolve_right ?_
      rintro ⟨j, hj⟩
      exact hresumed.answer t rfl (hresumed.orderly.held j _ _ hj).2.1
    unfold Answered at hanswer
    simp only [Run.bind_apply, Play.world_apply, Step.bind, Step.meets_done]
    split at hanswer
    · rename_i f houtcome
      simp only [houtcome]
      exact ⟨hresumed.during, hresumed.later, l, hl, hanswer⟩
    · rename_i c houtcome
      simp only [houtcome]
      refine ⟨hresumed.during, ⟨_, rfl⟩, fun l' hl' => ?_⟩
      obtain rfl : l = l' := Except.ok.inj (hl.symm.trans hl')
      exact hanswer
    · exact hanswer.elim

theorem release_error_apply (p : Problem) (c : Condition) (m : Machine) :
    ∃ p', Play.release (.error p) (.error c) m = .fail (.problem p') m := by
  cases p with
  | condition c' => exact ⟨_, rfl⟩
  | failure f =>
    rw [Play.release]
    split <;> exact ⟨_, rfl⟩

theorem beginLoad_meets (hload : Loads T o.load (gs ++ [(l.text, m.world.loader.tickets)]))
    (hstack : stack.map Prod.snd = gs.map Prod.fst) (hr : T.asked r) (hl : target w₀ r = .ok l)
    (h : During T i g m.world ⟨gs, none⟩) (hedge : ∀ top ∈ gs.getLast?, Along m.world.loader.edges top.1 l.text)
    (hloaded : ∀ f, ¬ Loaded m.world.loader l.text f) (hloading : ∀ t, ¬ Loading m.world.loader l.text t) :
    ((do
      Play.modifyWorld fun w => { w with loader := m.world.loader.begun r.1 l.text }
      let ended ← Play.outcome (Play.loadFresh o r.1 l r.2 (stack ++ [(r.1, l.text)]))
      let result := Play.settlement r.1 m.world.loader.tickets ended
      Play.onLoader fun loader => loader.settle l.text m.world.loader.tickets result
      Play.release ended result : Play (Table String Entry)) m).Meets (between T i)
      (Gives T i gs m.world.loader r) (Refuses T i gs r) g := by
  have hstack' : (stack ++ [(r.1, l.text)]).map Prod.snd = (gs ++ [(l.text, m.world.loader.tickets)]).map Prod.fst := by
    simp [hstack]
  have hfresh := loadFresh_meets (m := ⟨m.session, { m.world with loader := m.world.loader.begun r.1 l.text }⟩)
    hload hstack' List.getLast?_concat hr hl (h.push r.1 hloaded hloading hedge)
  refine Run.meets_bind.mpr (Run.meets_bind.mpr ((outcome_meets hfresh).mono (between_monotone T i) ?_ ?_))
  swap
  · exact fun e g' m' hfalse => hfalse.elim
  rintro (p | es) g' m' ⟨hduring, hend⟩
  · have hsettled := hduring.settle (o := Play.settlement r.1 m.world.loader.tickets (.error p)) nofun fun _ _ => hend
    refine Run.meets_bind.mpr ?_
    simp only [Play.onLoader, Play.modifyWorld_apply, Step.meets_done]
    obtain ⟨p', hreleased⟩ := release_error_apply p _ _
    rw [Play.settlement, Except.mapError, hreleased]
    refine ⟨hsettled, ⟨p', rfl⟩, fun l' hl' => ?_⟩
    obtain rfl : l = l' := Except.ok.inj (hl.symm.trans hl')
    exact hend
  · obtain ⟨hlater, hfine, hneeds⟩ := hend
    obtain ⟨-, hnone, hmine⟩ := hduring.orderly.held i l.text m.world.loader.tickets
      (mem_stack_snoc.mpr (Or.inr ⟨rfl, rfl⟩))
    have hsettled : Later m.world.loader (m'.world.loader.settle l.text m.world.loader.tickets (.ok es)) :=
      ((later_begun hloaded).trans hlater).trans (later_settle hmine hnone _)
    refine ⟨hduring.settle ?_ (by simp [Play.settlement, Except.mapError]), hsettled, l, hl, ?_⟩
    · intro f hf
      obtain rfl : es = f := by simpa [Play.settlement, Except.mapError] using hf
      exact ⟨hfine, hneeds⟩
    · exact (loaded_settle hmine _ _).mpr (Or.inl ⟨rfl, rfl⟩)

/-- One level of loading: what is loaded on top of a stack is loaded as the level below loads. -/
theorem load_meets_of (hnext : ∀ a t, (∃ r l, T.asked r ∧ target w₀ r = .ok l ∧ l.text = a) →
    ((gs ++ [(a, t)]).map Prod.fst).Nodup → Loads T o.load (gs ++ [(a, t)])) : Loads T (Play.load o) gs := by
  intro i g m r stack hr hstack h hedge
  refine Run.meets_bind.mpr (meets_locate h.setting ?_ ?_)
  swap
  · intro c hc
    exact ⟨h, ⟨_, rfl⟩, fun l hl => by simp [hc] at hl⟩
  intro l m' hl hsetting hloader
  have hsought : During T i g m'.world ⟨gs, none⟩ := h.same hsetting (.of_eq hloader)
  have hedge := hedge l hl
  rw [← hloader] at hedge ⊢
  have hflawed : T.flawed l.text → ∀ l', target w₀ r = .ok l' → T.flawed l'.text := by
    intro hf l' hl'
    obtain rfl : l = l' := Except.ok.inj (hl.symm.trans hl')
    exact hf
  simp only [Run.bind_apply, Play.world_apply, Step.bind]
  rcases enter_cases m'.world.loader stack r.1 l.text with
    ⟨ids, henter, hmem⟩ | ⟨-, ⟨f, henter, hloaded⟩ | ⟨ids, t, henter, hloading, hpath⟩ |
      ⟨t, henter, hloading, hpath⟩ | ⟨henter, hloaded, hloading⟩⟩
  · -- The stack closes a cycle by itself.
    simp only [henter]
    rw [hstack] at hmem
    exact ⟨hsought, ⟨_, rfl⟩, hflawed (cycle_of_reaches hsought hedge hmem .refl)⟩
  · simp only [henter]
    exact ⟨hsought, .refl _, l, hl, hloaded⟩
  · -- The cycle runs through loads of other tasks.
    simp only [henter]
    rw [hstack] at hpath
    obtain ⟨b, hb, hreach⟩ := Loader.pathTo?_isSome_iff.mp (Option.isSome_iff_ne_none.mpr hpath)
    exact ⟨hsought, ⟨_, rfl⟩, hflawed (cycle_of_reaches hsought hedge hb hreach)⟩
  · simp only [henter]
    rw [hstack] at hpath
    exact awaitLoad_meets hl hsought hedge hloading hpath
  · simp only [henter]
    have honce : ((gs ++ [(l.text, m'.world.loader.tickets)]).map Prod.fst).Nodup := by
      simpa using (hsought.push r.1 hloaded hloading hedge).orderly.once i
    exact beginLoad_meets (hnext _ _ ⟨r, l, hr, hl, rfl⟩ honce) hstack hr hl hsought hedge hloaded hloading

/-- Loading keeps the order of loads, and its result is right: the functions of a loaded module, or a
condition about a location that cannot be loaded. A depth of as many loads as there are locations is enough. -/
theorem load_meets {texts : List String} (htexts : ∀ r l, T.asked r → target w₀ r = .ok l → l.text ∈ texts) (n : Nat)
    (hgs : ∀ e ∈ gs, e.1 ∈ texts) (hdepth : texts.length ≤ n + gs.length) : Loads T (Play.load (outer n)) gs := by
  have hmem : ∀ {gs : List (String × Nat)} {a : String} {t : Nat}, (∀ e ∈ gs, e.1 ∈ texts) →
      (∃ r l, T.asked r ∧ target w₀ r = .ok l ∧ l.text = a) → ∀ e ∈ gs ++ [(a, t)], e.1 ∈ texts := by
    rintro gs a t hgs ⟨r, l, hr, hl, rfl⟩ e he
    rcases List.mem_append.mp he with he | he
    · exact hgs e he
    · obtain rfl : e = (l.text, t) := by simpa using he
      exact htexts r l hr hl
  induction n generalizing gs with
  | zero =>
    -- The stack already holds every location, so no load is ever begun on top of it.
    refine load_meets_of fun a t ha honce => ?_
    have hsub : (gs ++ [(a, t)]).map Prod.fst ⊆ texts := by
      intro x hx
      obtain ⟨e, he, rfl⟩ := List.mem_map.mp hx
      exact hmem hgs ha e he
    have hlen := (List.subperm_of_subset honce hsub).length_le
    simp only [List.length_map, List.length_append, List.length_cons, List.length_nil] at hlen
    omega
  | succ n ih =>
    refine load_meets_of fun a t ha honce => ih (hmem hgs ha) ?_
    simp only [List.length_append, List.length_cons, List.length_nil]
    omega

end Walk

end Conductor.Module
