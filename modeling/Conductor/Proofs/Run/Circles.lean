import Conductor.Proofs.Memory.Layers
import Conductor.Proofs.Run.Working

/-!
# How stems come to contain themselves

Nothing refuses to put a value into a stem that it leads to. A stem that holds what leads back to it contains itself from
then on, and what follows all of it comes to no end. The store notes when a stem is made to hold what leads back to it, and
nothing that is done to a store makes a stem contain itself in any other way. So wherever a run waits and where it ends,
all values are finite, unless that has been noted: in runs of scripts, of programs, of statements, of expressions and of
loads, at every depth.

Of the operations on a memory only writes and pushes tie such a knot, and they do so where the value leads to the stem
that it is put into.
-/

set_option autoImplicit false

namespace Conductor

/-- All values are finite, unless it is noted that a stem was made to hold what led back to it. -/
def Store.Sparing (store : Store) : Prop := ¬ store.knotted → ∀ v, store.Finite v

namespace Memory

variable {mem mem' : Memory}

/-- Which operations on a memory make a stem hold what leads back to it: a write whose value leads to the stem that it is
put into, and a push of such values. -/
structure Tying (mem : Memory) : Prop where
  written : ∀ name v tail, mem.store.Covers v.addresses → ¬ mem.Closing name v tail →
    (left (write name v tail mem)).Grounded ∧ mem.store.Untied (left (write name v tail mem)).store
  closed : ∀ name v tail mem', mem.Closing name v tail → write name v tail mem = .ok () mem' →
    mem'.store.knotted ∧ ∃ c, mem'.store.Reaches v c ∧ mem'.store.SelfContaining c
  pushed : ∀ a vs, mem.store.Covers (Value.addressesAll vs) → ¬ mem.store.Reaches (.list vs) a →
    mem.store.Untied (mem.store.pushed a vs)
  looped : ∀ a vs, a < mem.store.stems.size → mem.store.Reaches (.list vs) a →
    (mem.store.pushed a vs).knotted ∧ (mem.store.pushed a vs).SelfContaining a
  deleted : ∀ name tail, (left (delete name tail mem)).Grounded ∧ mem.store.Untied (left (delete name tail mem)).store
  planted : ∀ t, mem.store.Untied (Store.plant t mem.store).2
  normalized : ∀ v w store', mem.store.Covers v.addresses → Store.normalize v mem.store = .ok (w, store') →
    mem.store.Untied store'
  copied : ∀ v w store', mem.store.Covers v.addresses → Store.copy v mem.store = .ok (w, store') → mem.store.Untied store'

theorem Grounded.tying (h : mem.Grounded) : mem.Tying where
  written name v tail hv hopen := h.written hv hopen
  closed name v tail mem' hclosing hwrite := by
    obtain ⟨c, hc, hreach⟩ := write_closes h.layered.closed h.scope hclosing hwrite
    have hworked : mem.store.Worked (left (write name v tail mem)).store := Works.worked mem
    rw [hwrite] at hworked
    exact ⟨h.layered.noted.worked hworked c hc, c, hreach, hc⟩
  pushed a vs hvs hopen := h.layered.pushed hvs hopen
  looped a vs ha hreach := by
    have hc := Store.pushed_closes ha hreach
    exact ⟨h.layered.noted.worked (mem.store.worked_set a _) a hc, hc⟩
  deleted name tail := h.deleted name tail
  planted t := (Store.plant_brings t mem.store).builds.untied h.layered
  normalized v w store' hv hw := (Store.normalize_brings v hv hw).builds.untied h.layered
  copied v w store' hv hw := (Store.copy_brings h.layered.closed hv hw).builds.untied h.layered

end Memory

namespace Play

theorem sparing_throughout {α : Type} (x : Play α) [hx : Working x] {m : Machine} (h : m.world.store.Noted) :
    Throughout Store.Sparing m.world.store (x m) := by
  have hnoted : Throughout Store.Noted m.world.store (x m) :=
    (hx.works m.world.store m .refl).kept (fun _ _ hworked hn => hn.worked hworked) h
  exact hnoted.mono fun _ hn => hn.finite

theorem knotted_of_done {α : Type} {before : Store} {x : Step Machine Signal α} {a : α} {m : Machine} {c : Address}
    (hx : Throughout Store.Sparing before x) (hend : x = .done a m) (hc : m.world.store.SelfContaining c) :
    m.world.store.knotted := by
  subst hend
  by_contra hk
  exact (hx.2 hk (.stem c)).apart c ⟨c, by simp [Value.addresses], .refl⟩ hc

def knot : Syntax.Program :=
  [.assign ⟨"S", ["X"], ⟨1, 1⟩⟩ (.expr (.literal (.text "a" false) ⟨1, 7⟩)) "'a'" ⟨1, "S.X = 'a'"⟩,
    .assign ⟨"S", ["SELF"], ⟨2, 1⟩⟩ (.expr (.ref ⟨"S", [], ⟨2, 10⟩⟩)) "S" ⟨2, "S.SELF = S"⟩]

def isKnotted : Step Machine Signal Unit → Bool
  | .done _ m =>
    match m.session.scope.get? "S", (m.world.store.get 0).named.get? "SELF" with
    | some (.stem 0), some (.stem 0) => true
    | _, _ => false
  | _ => false

theorem eq_done_of_isKnotted {x : Step Machine Signal Unit} (h : isKnotted x = true) : ∃ m, x = .done ⟨⟩ m ∧
    m.session.scope.get? "S" = some (.stem 0) ∧ m.world.store.Leads 0 0 := by
  cases x with
  | done u m =>
    simp only [isKnotted] at h
    split at h
    · next hvar hentry => exact ⟨m, rfl, hvar, Stem.addresses_get? (k := .name "SELF") hentry (List.mem_singleton_self 0)⟩
    · cases h
  | fail e m => cases h
  | wait w m resume => cases h

theorem knot_ends : ∃ m, execAll (outer 1) knot {} = .done ⟨⟩ m ∧ m.session.scope.get? "S" = some (.stem 0) ∧
    m.world.store.SelfContaining 0 := by
  have hend : isKnotted (execAll (outer 1) knot {}) = true := by decide +kernel
  obtain ⟨m, heq, hvar, hself⟩ := eq_done_of_isKnotted hend
  exact ⟨m, heq, hvar, .single hself⟩

def simple : Memory := Memory.left (Memory.write "S" (.text "a") [.text "X"] {})

def nested : Memory := Memory.left (Memory.write "T" (.stem 0) [.text "P"] simple)

end Play

end Conductor
