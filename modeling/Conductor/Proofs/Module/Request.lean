import Conductor.Proofs.Run.Meets
import Conductor.Run.Load
import Mathlib.Logic.Relation

/-!
# The graph of requests

What modules ask for is fixed by the world: where an identifier leads to, which
module stands there, and which identifiers that module lists. A request is an
identifier together with the place it is read from, because the same words can mean
different modules in different places. The graph of requests is read off the world
alone, without running a load.
-/

set_option autoImplicit false

namespace Conductor.Module

open Relation (ReflTransGen TransGen)

/-- An identifier and the base against which it is resolved. -/
abbrev Request := String × Option String

def registryOf (w : World) : Option String :=
  match w.loader.registry with
  | some "" | none => w.environ.get? "REXA_REGISTRY_URL"
  | some template => some template

/-- Where a request leads to. -/
def target (w : World) (r : Request) : Except Condition Location :=
  Module.locate w.files (registryOf w) r.1 r.2

theorem registry_apply (m : Machine) : Play.registry m = .done (registryOf m.world) m := by
  unfold Play.registry registryOf
  simp only [Run.bind_apply, Play.world_apply, Step.bind]
  cases m.world.loader.registry with
  | none => rfl
  | some template =>
    by_cases ht : template = ""
    · subst ht; rfl
    · simp

/-- Locating a module tells where the request leads to, and notes nothing but the files looked for. -/
theorem locate_apply (m : Machine) (r : Request) : ∃ sought, Play.locate r.1 r.2 m =
    match target m.world r with
    | .ok l => .done l { m with world := { m.world with sought := sought } }
    | .error c => .fail (.problem (.condition c)) m := by
  unfold Play.locate target
  simp only [Run.bind_apply, Play.world_apply, registry_apply, Step.bind]
  cases Module.locate m.world.files (registryOf m.world) r.1 r.2 with
  | error c => exact ⟨m.world.sought, rfl⟩
  | ok l =>
    simp only [Play.liftC_ok, Step.bind]
    split
    · simp only [Play.seek, Run.bind_apply, Play.modifyWorld_apply, Step.bind]
      split
      · exact ⟨_, rfl⟩
      · exact ⟨_, rfl⟩
    · exact ⟨m.world.sought, rfl⟩

theorem load_reports (o : Outer) {identifier : String} {base : Option String} {stack : Stack} {m : Machine} {l : Location}
    {ids : List String} (htarget : target m.world (identifier, base) = .ok l)
    (henter : m.world.loader.enter stack identifier l.text = .circular ids) : ∃ sought,
      Play.load o identifier base stack m = .fail (.problem (.condition { cause := .cycle ids }))
        { m with world := { m.world with sought := sought } } := by
  obtain ⟨sought, hlocate⟩ := locate_apply m (identifier, base)
  refine ⟨sought, ?_⟩
  rw [Play.load, Run.bind_apply, hlocate, htarget]
  simp only [Step.bind, Run.bind_apply, Play.world_apply, henter]
  rfl

/-- The module of the host that stands at a location. -/
def moduleAt (w : World) (l : Location) : Except Failure HostModule :=
  match l.origin with
  | .host => w.loader.hostModule (Text.dropChars 3 l.text)
  | .url =>
    match w.loader.sources with
    | some table =>
      match table.get? l.text with
      | some source => .ok source.hostModule
      | none => .error (.raised "RuntimeError" ("no such module: " ++ l.text))
    | none => .ok {}
  | .file =>
    match w.files.content? l.text with
    | some (.module m) => .ok m
    | _ => (w.files.readText none l.text).map fun _ => {}

/-- The base of what a module asks for: a module of the host passes on the base it was asked from. -/
def baseFor (w : World) (l : Location) (base : Option String) : Option String :=
  match l.origin with
  | .host => base
  | _ => some (Module.parentOf w.files l)

/-- One request makes another: the module that it leads to lists it. -/
def Leads (w : World) (r r' : Request) : Prop :=
  ∃ l m deps, target w r = .ok l ∧ moduleAt w l = .ok m ∧ m.requirements = .ok deps ∧
    r'.1 ∈ deps ∧ r'.2 = baseFor w l r.2

/-- The requests that a request makes. -/
def following (w : World) (r : Request) : List Request :=
  match target w r with
  | .error _ => []
  | .ok l =>
    match (moduleAt w l).bind HostModule.requirements with
    | .error _ => []
    | .ok deps => deps.map fun dep => (dep, baseFor w l r.2)

theorem leads_iff_mem_following {w : World} {r r' : Request} : Leads w r r' ↔ r' ∈ following w r := by
  cases hl : target w r with
  | error c => simp [Leads, following, hl]
  | ok l =>
    cases hm : moduleAt w l with
    | error f => simp [Leads, following, hl, hm, Except.bind]
    | ok m =>
      cases hdeps : m.requirements with
      | error f => simp [Leads, following, hl, hm, hdeps, Except.bind]
      | ok deps =>
        simp only [Leads, following, hl, hm, hdeps, Except.bind, List.mem_map, Except.ok.injEq, exists_eq_left',
          exists_and_left, Prod.ext_iff]
        constructor
        · exact fun ⟨hmem, hbase⟩ => ⟨r'.1, hmem, rfl, hbase.symm⟩
        · rintro ⟨dep, hmem, rfl, hbase⟩
          exact ⟨hmem, hbase.symm⟩

instance (w : World) (r r' : Request) : Decidable (Leads w r r') := decidable_of_iff _ leads_iff_mem_following.symm

/-- What is asked for, sooner or later, when the roots are. -/
def Asked (w : World) (roots : List Request) (r : Request) : Prop :=
  ∃ root ∈ roots, ReflTransGen (Leads w) root r

theorem Asked.root {w : World} {roots : List Request} {r : Request} (h : r ∈ roots) : Asked w roots r :=
  ⟨r, h, .refl⟩

theorem Asked.next {w : World} {roots : List Request} {r r' : Request} (h : Asked w roots r)
    (hr : Leads w r r') : Asked w roots r' := by
  obtain ⟨root, hroot, hreach⟩ := h
  exact ⟨root, hroot, hreach.tail hr⟩

theorem Asked.mem_of_closed {w : World} {roots all : List Request} (hroots : ∀ r ∈ roots, r ∈ all)
    (hclosed : ∀ r ∈ all, ∀ r' ∈ following w r, r' ∈ all) {r : Request} (h : Asked w roots r) : r ∈ all := by
  obtain ⟨root, hroot, hreach⟩ := h
  induction hreach with
  | refl => exact hroots root hroot
  | tail _ hr ih => exact hclosed _ ih _ (leads_iff_mem_following.mp hr)

/-- What a module has to be for its load to succeed once its dependencies are there: it is found, it
can be read and run, and each of its exports can be called and described. -/
def WellFormed (w : World) (r : Request) : Prop :=
  ∃ l m exports deps, target w r = .ok l ∧ moduleAt w l = .ok m ∧ m.raises = none ∧
    m.exports = .ok exports ∧ m.requirements = .ok deps ∧
    ∀ e ∈ exports, e.2.isSome ∧ ∃ d, Metadata.ofTree (m.about e.1) "" = .ok d

def Together (w : World) (r r' : Request) : Prop :=
  ∃ l l', target w r = .ok l ∧ target w r' = .ok l' ∧ l.text = l'.text

/-- A request that nothing stands against: all that it leads to is well formed, and none of it leads
back to its own location. -/
def Sound (w : World) (r : Request) : Prop :=
  (∀ r', ReflTransGen (Leads w) r r' → WellFormed w r') ∧
    ¬ ∃ r₁ r₂, ReflTransGen (Leads w) r r₁ ∧ TransGen (Leads w) r₁ r₂ ∧ Together w r₁ r₂

theorem Sound.next {w : World} {r r' : Request} (h : Sound w r) (hr : Leads w r r') : Sound w r' := by
  refine ⟨fun r₁ h₁ => h.1 r₁ (h₁.head hr), ?_⟩
  rintro ⟨r₁, r₂, h₁, h₂⟩
  exact h.2 ⟨r₁, r₂, h₁.head hr, h₂⟩

theorem Sound.not_together {w : World} {r r' : Request} (h : Sound w r) (hr : TransGen (Leads w) r r') :
    ¬ Together w r r' :=
  fun ht => h.2 ⟨r, r', .refl, hr, ht⟩

structure SameSetting (w w' : World) : Prop where
  files : w'.files = w.files
  environ : w'.environ = w.environ
  registry : w'.loader.registry = w.loader.registry
  sources : w'.loader.sources = w.loader.sources
  hostModules : w'.loader.hostModules = w.loader.hostModules

namespace SameSetting

variable {w w' w'' : World}

theorem refl (w : World) : SameSetting w w := ⟨rfl, rfl, rfl, rfl, rfl⟩

theorem trans (h : SameSetting w w') (h' : SameSetting w' w'') : SameSetting w w'' :=
  ⟨h'.files.trans h.files, h'.environ.trans h.environ, h'.registry.trans h.registry,
    h'.sources.trans h.sources, h'.hostModules.trans h.hostModules⟩

theorem registryOf_eq (h : SameSetting w w') : registryOf w' = registryOf w := by
  simp only [registryOf, h.registry, h.environ]

theorem target_eq (h : SameSetting w w') (r : Request) : target w' r = target w r := by
  simp only [target, h.files, h.registryOf_eq]

theorem moduleAt_eq (h : SameSetting w w') (l : Location) : moduleAt w' l = moduleAt w l := by
  simp only [moduleAt, h.files, h.sources, Loader.hostModule, h.hostModules]

end SameSetting

end Conductor.Module
