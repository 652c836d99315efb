import Conductor.Proofs.Module.Chronicle
import Conductor.Proofs.Run.Quiet

/-!
# Placid computations

A quiet computation may still have its way with the edges of the module graph, and with what
modules are located by. A placid one leaves these alone too: the nodes, the edges and the
tickets, the registry, and the place that a session stands at; to the files it does no more
than write them. It never waits, and it ends in nothing but a value or a problem.
-/

set_option autoImplicit false

namespace Conductor

open Conductor.Module (registryOf)
open Relation (ReflTransGen)

def Session.place (s : Session) : Purpose × Option String := (s.purpose, s.sourceDir)

/-- Two states between which nothing has happened to the graph of modules, nor to what modules are located by but that
files were written. -/
structure Unaltered (m m' : Machine) : Prop where
  place : m'.session.place = m.session.place
  nodes : m'.world.loader.nodes = m.world.loader.nodes
  pending : m'.world.loader.pending = m.world.loader.pending
  edges : m'.world.loader.edges = m.world.loader.edges
  tickets : m'.world.loader.tickets = m.world.loader.tickets
  registry : registryOf m'.world = registryOf m.world
  files : ReflTransGen Files.Writes m.world.files m'.world.files

namespace Unaltered

theorem refl (m : Machine) : Unaltered m m := ⟨rfl, rfl, rfl, rfl, rfl, rfl, .refl⟩

theorem trans {m m' m'' : Machine} (h : Unaltered m m') (h' : Unaltered m' m'') : Unaltered m m'' where
  place := h'.place.trans h.place
  nodes := h'.nodes.trans h.nodes
  pending := h'.pending.trans h.pending
  edges := h'.edges.trans h.edges
  tickets := h'.tickets.trans h.tickets
  registry := h'.registry.trans h.registry
  files := h.files.trans h'.files

theorem of_world {m : Machine} {w : World} (hloader : ∃ failures, w.loader = { m.world.loader with failures := failures })
    (hfiles : w.files = m.world.files) (henviron : w.environ = m.world.environ) : Unaltered m { m with world := w } := by
  obtain ⟨failures, hloader⟩ := hloader
  refine ⟨rfl, ?_, ?_, ?_, ?_, ?_, ?_⟩
  · rw [hloader]
  · rw [hloader]
  · rw [hloader]
  · rw [hloader]
  · simp only [registryOf, hloader, henviron]
  · exact hfiles ▸ .refl

end Unaltered

class Placid {α : Type} (x : Play α) : Prop where
  calm : ∀ m, Calm Unaltered m (x m)

namespace Placid

variable {α β : Type}

instance (priority := low) (x : Play α) [hx : Plain x] : Placid x := by
  refine ⟨fun m => ?_⟩
  induction hx generalizing m with
  | pure a => exact Unaltered.refl m
  | problem p => exact ⟨⟨p, rfl⟩, .refl m⟩
  | bind x k _ _ ihx ihk => exact (ihx m).bind (fun _ _ _ => .trans) ihk
  | recover x k _ _ ihx ihk => exact (ihx m).recover (fun _ _ _ => .trans) ihk
  | reading k _ _ ihk => exact ihk m.session m
  | world => exact Unaltered.refl m
  | memory act =>
    simp only [Play.memory]
    split
    · exact ⟨rfl, rfl, rfl, rfl, rfl, rfl, .refl⟩
    · exact ⟨⟨_, rfl⟩, rfl, rfl, rfl, rfl, rfl, rfl, .refl⟩
  | onSession f hf hdir => exact ⟨Prod.ext (hf.purpose _) (hdir _), rfl, rfl, rfl, rfl, rfl, .refl⟩
  | onWorld f hf => exact .of_world (hf.loader _) (hf.files _) (hf.environ _)

theorem andThen {x : Play α} {k : α → Play β} [hx : Placid x] (hk : ∀ a, Placid (k a)) : Placid (x >>= k) :=
  ⟨fun m => (hx.calm m).bind (fun _ _ _ => .trans) fun a => (hk a).calm⟩

instance (x : Play α) (k : α → Play β) [Placid x] [hk : ∀ a, Placid (k a)] : Placid (x >>= k) := andThen hk

instance (f : α → β) (x : Play α) [Placid x] : Placid (f <$> x) :=
  inferInstanceAs (Placid (x >>= fun a => pure (f a)))

instance (c : Prop) [Decidable c] (x y : Play α) [Placid x] [Placid y] : Placid (if c then x else y) := by
  split <;> infer_instance

instance : Placid (get : Play Machine) := ⟨Unaltered.refl⟩

theorem onSession (f : Session → Session) (h : ∀ s, (f s).place = s.place) : Placid (Play.modifySession f) :=
  ⟨fun m => ⟨h m.session, rfl, rfl, rfl, rfl, rfl, .refl⟩⟩

end Placid

namespace Play

instance : Placid session := by unfold session; infer_instance

instance : Placid isPaused := by unfold isPaused; infer_instance
instance : Placid isCancelled := by unfold isCancelled; infer_instance
instance : Placid isDue := by unfold isDue; infer_instance

instance (p : Syntax.Place) : Placid (withhold p) := by
  unfold withhold
  have hwithheld : Placid (modifySession fun s => { s with withheld := s.withheld + 1 }) := .onSession _ fun _ => rfl
  infer_instance

instance (c : Condition) : Placid (describe c) := by
  unfold describe
  have h : Placid (modifySession fun s => { s with context := some ⟨c.line, c.function, c.domain⟩ }) :=
    .onSession _ fun _ => rfl
  extract_lets line
  refine .andThen fun _ => .andThen fun _ => .andThen fun _ => ?_
  infer_instance

instance (g : Given) : Placid (fileWrite g) := by
  unfold fileWrite
  refine .andThen fun path => .andThen fun data => ⟨fun m => ?_⟩
  simp only [Run.bind_apply, world_apply, session_apply, modifyWorld_apply, Step.bind]
  generalize hwrite : m.world.files.write m.session.sourceDir path data = written
  have hwritten : Unaltered m { m with world := { m.world with files := written.2 } } :=
    ⟨rfl, rfl, rfl, rfl, rfl, rfl, .single ⟨m.session.sourceDir, path, data, by rw [hwrite]⟩⟩
  cases hresult : written.1 with
  | ok path => exact hwritten
  | error f => exact ⟨⟨_, rfl⟩, hwritten⟩

instance (b : Builtin) (a : Arguments) : Placid (builtin b a) := by
  by_cases hb : b = .fileWrite
  · subst hb
    unfold builtin
    infer_instance
  · have := builtin_plain hb a
    infer_instance

end Play

end Conductor
