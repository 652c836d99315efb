import Conductor.Interpolation
import Conductor.Proofs.Memory.Traversal
import Mathlib.Logic.Relation

/-!
# Work on a store

All that is done to a store is done in pieces of two kinds: a stem is made, or the stem at an address becomes another
one. To plant data, to bring it into the language and to copy is to make stems. Writes, deletions and pushes make stems
and change them, and whatever is only read leaves the store as it is. Work that is refused on its way is work as far as
it went.
-/

set_option autoImplicit false

namespace Conductor

namespace Store

/-- One piece of work on a store. -/
inductive Work (store : Store) : Store → Prop
  | alloc (s : Stem Value) : Work store (store.alloc s).2
  | set (a : Address) (s : Stem Value) : Work store (store.set a s)

abbrev Worked : Store → Store → Prop := Relation.ReflTransGen Work

section

variable {store store' : Store}

theorem worked_alloc (store : Store) (s : Stem Value) : store.Worked (store.alloc s).2 := .single (.alloc s)

theorem worked_set (store : Store) (a : Address) (s : Stem Value) : store.Worked (store.set a s) := .single (.set a s)

/-! ## Stems that are made -/

mutual
theorem plant_worked (t : Tree) (store : Store) : store.Worked (plant t store).2 := by
  match t with
  | .scalar s => exact .refl
  | .stem items named => exact ((plantAll_worked items store).trans (plantNamed_worked named _)).tail (.alloc _)
  | .list items => exact plantAll_worked items store
  | .dict entries => exact plantEntries_worked entries store

theorem plantAll_worked (ts : List Tree) (store : Store) : store.Worked (plantAll ts store).2 := by
  match ts with
  | [] => exact .refl
  | t :: rest => exact (plant_worked t store).trans (plantAll_worked rest _)

theorem plantNamed_worked (ts : List (String × Tree)) (store : Store) : store.Worked (plantNamed ts store).2 := by
  match ts with
  | [] => exact .refl
  | (k, t) :: rest => exact (plant_worked t store).trans (plantNamed_worked rest _)

theorem plantEntries_worked (ts : List (Tree × Tree)) (store : Store) : store.Worked (plantEntries ts store).2 := by
  match ts with
  | [] => exact .refl
  | (k, t) :: rest => exact ((plant_worked k store).trans (plant_worked t _)).trans (plantEntries_worked rest _)
end

mutual
theorem normalize_worked (v : Value) {w : Value} {store store' : Store} (h : normalize v store = .ok (w, store')) :
    store.Worked store' := by
  match v with
  | .scalar s | .stem a =>
    cases h
    exact .refl
  | .list items =>
    obtain ⟨⟨items', store₁⟩, hitems, heq⟩ := bind_eq_ok_iff.mp h
    cases heq
    exact (normalizeAll_worked items hitems).tail (.alloc _)
  | .dict entries =>
    obtain ⟨⟨named, store₁⟩, hnamed, heq⟩ := bind_eq_ok_iff.mp h
    cases heq
    exact (normalizeEntries_worked entries hnamed).tail (.alloc _)

theorem normalizeAll_worked (vs : List Value) {ws : List Value} {store store' : Store}
    (h : normalizeAll vs store = .ok (ws, store')) : store.Worked store' := by
  match vs with
  | [] =>
    cases h
    exact .refl
  | v :: rest =>
    obtain ⟨⟨w, store₁⟩, hw, h⟩ := bind_eq_ok_iff.mp h
    obtain ⟨⟨ws, store₂⟩, hws, heq⟩ := bind_eq_ok_iff.mp h
    cases heq
    exact (normalize_worked v hw).trans (normalizeAll_worked rest hws)

theorem normalizeEntries_worked (es : List (Value × Value)) {named : List (String × Value)} {store store' : Store}
    (h : normalizeEntries es store = .ok (named, store')) : store.Worked store' := by
  match es with
  | [] =>
    cases h
    exact .refl
  | (k, v) :: rest =>
    obtain ⟨t, -, h⟩ := bind_eq_ok_iff.mp h
    obtain ⟨name, -, h⟩ := bind_eq_ok_iff.mp h
    obtain ⟨⟨w, store₁⟩, hw, h⟩ := bind_eq_ok_iff.mp h
    obtain ⟨⟨ws, store₂⟩, hws, heq⟩ := bind_eq_ok_iff.mp h
    cases heq
    exact (normalize_worked v hw).trans (normalizeEntries_worked rest hws)
end

section

variable {f : Value → Store → Except Failure (Value × Store)}

theorem each_worked (hf : ∀ v w store store', f v store = .ok (w, store') → store.Worked store') (vs : List Value)
    {ws : List Value} (h : copyTo.each f vs store = .ok (ws, store')) : store.Worked store' := by
  induction vs generalizing ws store with
  | nil =>
    cases h
    exact .refl
  | cons v rest ih =>
    rw [copyTo.each] at h
    obtain ⟨⟨w, store₁⟩, hw, h⟩ := bind_eq_ok_iff.mp h
    obtain ⟨⟨ws, store₂⟩, hws, heq⟩ := bind_eq_ok_iff.mp h
    cases heq
    exact (hf v w store store₁ hw).trans (ih hws)

theorem eachNamed_worked (hf : ∀ v w store store', f v store = .ok (w, store') → store.Worked store')
    (es : List (String × Value)) {named : List (String × Value)} (h : copyTo.eachNamed f es store = .ok (named, store')) :
    store.Worked store' := by
  induction es generalizing named store with
  | nil =>
    cases h
    exact .refl
  | cons e rest ih =>
    rw [copyTo.eachNamed] at h
    obtain ⟨⟨w, store₁⟩, hw, h⟩ := bind_eq_ok_iff.mp h
    obtain ⟨⟨ws, store₂⟩, hws, heq⟩ := bind_eq_ok_iff.mp h
    cases heq
    exact (hf e.2 w store store₁ hw).trans (ih hws)

end

theorem copyTo_worked {source : Store} {depth : Nat} (v w : Value) (store store' : Store)
    (h : source.copyTo depth v store = .ok (w, store')) : store.Worked store' := by
  induction depth generalizing v w store store' with
  | zero =>
    cases v with
    | stem a => cases h
    | scalar _ | list _ | dict _ =>
      cases h
      exact .refl
  | succ depth ih =>
    cases v with
    | scalar _ | list _ | dict _ =>
      cases h
      exact .refl
    | stem a =>
      rw [copyTo] at h
      obtain ⟨⟨items, store₁⟩, hitems, h⟩ := bind_eq_ok_iff.mp h
      obtain ⟨⟨named, store₂⟩, hnamed, heq⟩ := bind_eq_ok_iff.mp h
      cases heq
      exact ((each_worked ih _ hitems).trans (eachNamed_worked ih _ hnamed)).tail (.alloc _)

end

end Store

/-! ## Work on a memory -/

namespace Memory

variable {α β : Type}

def left {α : Type} : EStateM.Result Problem Memory α → Memory
  | .ok _ mem => mem
  | .error _ mem => mem

theorem get_apply (mem : Memory) : (get : Act Memory) mem = .ok mem mem := rfl

theorem left_bind (x : Act α) (k : α → Act β) (mem : Memory) : left ((x >>= k) mem) =
    match x mem with
    | .ok a mem' => left (k a mem')
    | .error _ mem' => mem' := by
  change left (EStateM.bind x k mem) = _
  rw [EStateM.bind]
  cases x mem <;> rfl

theorem withStore_apply (f : Store → Except Failure (α × Store)) (mem : Memory) : withStore f mem =
    match f mem.store with
    | .ok (a, store) => .ok a { mem with store := store }
    | .error e => .error (.failure e) mem := by
  simp only [withStore, Bind.bind, EStateM.bind, get_apply]
  cases f mem.store <;> rfl

/-- What an act does to the store is work. -/
class Works (act : Act α) : Prop where
  worked : ∀ mem : Memory, mem.store.Worked (left (act mem)).store

namespace Works

instance (a : α) : Works (pure a : Act α) := ⟨fun _ => .refl⟩

instance : Works (get : Act Memory) := ⟨fun _ => .refl⟩

instance (f : Failure) : Works (fail f : Act α) := ⟨fun _ => .refl⟩

instance (x : Act α) (k : α → Act β) [hx : Works x] [hk : ∀ a, Works (k a)] : Works (x >>= k) := by
  refine ⟨fun mem => ?_⟩
  have hfirst := hx.worked mem
  rw [left_bind]
  cases hend : x mem with
  | ok a mem' =>
    rw [hend] at hfirst
    exact hfirst.trans ((hk a).worked mem')
  | error p mem' =>
    rw [hend] at hfirst
    exact hfirst

theorem andThen {x : Act α} {k : α → Act β} [Works x] (hk : ∀ a, Works (k a)) : Works (x >>= k) := inferInstance

theorem onMemory {f : Memory → Memory} (hf : ∀ mem : Memory, mem.store.Worked (f mem).store) :
    Works (modify f : Act PUnit) := ⟨hf⟩

instance (f : Scope → Scope) : Works (modify fun mem : Memory => { mem with scope := f mem.scope }) := .onMemory fun _ => .refl

instance (c : Prop) [Decidable c] (x y : Act α) [Works x] [Works y] : Works (if c then x else y) := by
  split <;> infer_instance

instance mapM (f : α → Act β) [hf : ∀ a, Works (f a)] (l : List α) : Works (l.mapM f) := by
  induction l with
  | nil => rw [List.mapM_nil]; infer_instance
  | cons a l ih => rw [List.mapM_cons]; infer_instance

end Works

theorem works_withStore {f : Store → Except Failure (α × Store)}
    (hf : ∀ store a store', f store = .ok (a, store') → store.Worked store') : Works (withStore f) := by
  refine ⟨fun mem => ?_⟩
  rw [withStore_apply]
  cases hend : f mem.store with
  | ok p => exact hf _ _ _ hend
  | error e => exact .refl

instance (x : Except Failure α) : Works (liftE x) := by cases x <;> unfold liftE <;> infer_instance

instance (x : Except Problem α) : Works (liftP x) := by
  cases x with
  | ok a => exact inferInstanceAs (Works (pure a))
  | error p => exact ⟨fun _ => .refl⟩

instance (v : Value) : Works (tree v) := by unfold tree; infer_instance

instance (s : Stem Value) : Works (alloc s) := works_withStore fun store _ _ h => by
  cases h
  exact store.worked_alloc s

instance (t : Tree) : Works (plant t) := works_withStore fun store _ _ h => by
  have hworked := Store.plant_worked t store
  rw [Except.ok.inj h] at hworked
  exact hworked

instance (v : Value) : Works (normalize v) := works_withStore fun _ _ _ h => Store.normalize_worked v h

instance (v : Value) : Works (copy v) := works_withStore fun _ _ _ h => Store.copyTo_worked v _ _ _ h

instance (a : Address) : Works (stem a) := by unfold stem; infer_instance

instance (key : Tree) : Works (keyed key) := by unfold keyed; infer_instance

instance (a : Address) (key : Key) : Works (stemGet a key) := by unfold stemGet; infer_instance

theorem works_put (a : Address) (s : Memory → Stem Value) :
    Works (modify fun mem : Memory => { mem with store := mem.store.set a (s mem) }) :=
  .onMemory fun mem => mem.store.worked_set a (s mem)

instance (a : Address) (key : Key) (v : Value) : Works (stemSet a key v) := by
  have hput (s : Stem Value) := works_put a fun _ => s
  unfold stemSet
  infer_instance

/-! ### Along a tail -/

instance works_descend (v : Value) (tail : List Tree) : Works (descend v tail) := by
  induction tail generalizing v with
  | nil => cases v <;> exact inferInstanceAs (Works (pure _))
  | cons t rest ih =>
    cases v with
    | scalar _ | list _ | dict _ => exact inferInstanceAs (Works (pure _))
    | stem a =>
      rw [descend]
      infer_instance

instance (name : String) (tail : List Tree) : Works (read name tail) := by unfold read; infer_instance

instance (key : String) (v : Value) : Works (bind key v) := by unfold Memory.bind; infer_instance

instance (a : Address) (key : Tree) : Works (childStem a key) := by
  unfold childStem
  refine .andThen fun k => .andThen fun v => ?_
  split
  · infer_instance
  · refine .andThen fun w => ?_
    split <;> infer_instance

instance works_writeBelow (v : Value) (a : Address) (tail : List Tree) : Works (writeBelow v a tail) := by
  induction tail generalizing a with
  | nil => exact inferInstanceAs (Works (pure ()))
  | cons t rest ih =>
    cases rest with
    | nil => exact inferInstanceAs (Works (keyed t >>= fun k => stemSet a k v))
    | cons t' rest => exact .andThen fun b => ih b

instance (name : String) (v : Value) (tail : List Tree) : Works (write name v tail) := by
  unfold write
  refine .andThen fun key => ?_
  split
  · infer_instance
  · refine .andThen fun mem => ?_
    split
    · infer_instance
    · refine .andThen fun w => ?_
      split <;> infer_instance

instance works_deleteBelow (v : Value) (tail : List Tree) : Works (deleteBelow v tail) := by
  have hdelete (a : Address) (k : Key) := works_put a fun mem => (mem.store.get a).delete k
  induction tail generalizing v with
  | nil => cases v <;> exact inferInstanceAs (Works (pure ()))
  | cons t rest ih =>
    match v, rest with
    | .scalar _, _ | .list _, _ | .dict _, _ => exact inferInstanceAs (Works (pure ()))
    | .stem a, [] => exact .andThen fun k => hdelete a k
    | .stem a, t' :: rest => exact .andThen fun k => .andThen fun w => ih w

instance (name : String) (tail : List Tree) : Works (delete name tail) := by unfold delete; infer_instance

instance (name : String) : Works (has name) := by unfold has; infer_instance

instance (bindings : List (String × Value)) : Works (seed bindings) := by
  unfold seed
  refine @Works.andThen _ _ _ _ (.onMemory fun _ => .refl) fun _ => ?_
  induction bindings with
  | nil => exact inferInstanceAs (Works (pure PUnit.unit))
  | cons e rest ih => exact .andThen fun _ => ih

instance (reference : String) : Works (readPath reference) := by
  unfold readPath
  split <;> infer_instance

end Memory

instance (p : Interpolation.Pattern) (part : Interpolation.Part) : Memory.Works (part.filled p Memory.readPath) := by
  unfold Interpolation.Part.filled
  split
  · infer_instance
  · split <;> infer_instance

instance (p : Interpolation.Pattern) (text : String) : Memory.Works (Interpolation.apply p text) := by
  unfold Interpolation.apply Interpolation.fill
  infer_instance

end Conductor
