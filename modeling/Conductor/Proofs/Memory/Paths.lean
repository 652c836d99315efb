import Conductor.Proofs.Memory.Intact
import Conductor.Proofs.Memory.Rows

/-!
# Paths through a memory

A path is a variable and the keys that lead from its value through stems. What a compound name
reads is what stands at the end of its path, once its keys are told apart from their spellings:
behind what is no stem nothing is bound. Stores that agree on the stems along a path agree on
what stands at its end.

No stem is shared if no two paths lead to the same one; then no stem is part of itself either.
-/

set_option autoImplicit false

namespace Conductor

theorem Value.isStem_eq_false_iff {v : Value} : v.isStem = false ↔ ∀ a, v ≠ .stem a := by
  cases v <;> simp [isStem]

namespace Store

def next (store : Store) (v : Value) (k : Key) : Value :=
  match v with
  | .stem a => ((store.get a).get? .ofNat k).getD .unbound
  | _ => .unbound

def walk (store : Store) (v : Value) (ks : List Key) : Value := ks.foldl store.next v

section

variable {store store' : Store} {v w : Value} {k : Key} {ks pre post : List Key} {a b : Address}

@[simp] theorem walk_nil : store.walk v [] = v := rfl

@[simp] theorem walk_cons : store.walk v (k :: ks) = store.walk (store.next v k) ks := rfl

@[simp] theorem walk_append : store.walk v (pre ++ post) = store.walk (store.walk v pre) post := List.foldl_append

theorem next_of_not_stem (h : v.isStem = false) : store.next v k = .unbound := by
  cases v with
  | stem a => cases h
  | scalar _ | list _ | dict _ => rfl

theorem next_stem_iff : store.next (.stem a) k = .stem b ↔ (store.get a).get? .ofNat k = some (.stem b) := by
  rw [next]
  cases (store.get a).get? .ofNat k with
  | none => exact ⟨fun h => (by cases h), fun h => (by cases h)⟩
  | some w => exact ⟨congrArg some, Option.some.inj⟩

theorem walk_unbound : store.walk .unbound ks = .unbound := by
  induction ks with
  | nil => rfl
  | cons k rest ih => exact ih

theorem walk_of_not_stem (h : v.isStem = false) (hne : ks ≠ []) : store.walk v ks = .unbound := by
  cases ks with
  | nil => exact absurd rfl hne
  | cons k rest => rw [walk_cons, next_of_not_stem h, walk_unbound]

theorem walk_ne_stem (h : v.isStem = false) : store.walk v ks ≠ .stem a := by
  cases ks with
  | nil => exact Value.isStem_eq_false_iff.mp h a
  | cons k rest =>
    rw [walk_of_not_stem h (List.cons_ne_nil k rest)]
    exact fun heq => by cases heq

theorem next_count : (store.next v (.index 0)).isStem = false := by
  cases v <;> rfl

theorem next_empty (h : store.get a = {}) : (store.next (.stem a) k).isStem = false := by
  have hget : store.next (.stem a) k = ((({} : Stem Value)).get? .ofNat k).getD .unbound := by rw [next, h]
  rw [hget]
  cases k with
  | name _ => rfl
  | index i => cases i <;> rfl

theorem walk_empty (h : store.get a = {}) (hw : store.walk (.stem a) ks = .stem b) : ks = [] ∧ b = a := by
  cases ks with
  | nil => exact ⟨rfl, (Value.stem.inj hw).symm⟩
  | cons k rest =>
    rw [walk_cons] at hw
    exact absurd hw (walk_ne_stem (next_empty h))

theorem walk_congr (h : ∀ pre a, pre <+: ks → store.walk v pre = .stem a → store'.get a = store.get a) :
    store'.walk v ks = store.walk v ks := by
  induction ks generalizing v with
  | nil => rfl
  | cons k rest ih =>
    have hnext : store'.next v k = store.next v k := by
      cases v with
      | stem a => rw [next, h [] a List.nil_prefix rfl, next]
      | scalar _ | list _ | dict _ => rfl
    rw [walk_cons, walk_cons, hnext]
    exact ih fun pre a hpre hw => h (k :: pre) a ((List.prefix_cons_inj k).mpr hpre) hw

def Rooted (store : Store) (v : Value) : Prop := ∀ ks a, store.walk v ks = .stem a → a < store.stems.size

theorem Rooted.walk (h : store.Rooted v) (ks : List Key) : store.Rooted (store.walk v ks) :=
  fun ks' a hw => h (ks ++ ks') a (by rw [walk_append, hw])

def Acyclic (store : Store) (v : Value) : Prop :=
  ∀ pre k post a, store.walk v pre = .stem a → store.walk (.stem a) (k :: post) ≠ .stem a

theorem Acyclic.walk (h : store.Acyclic v) (ks : List Key) : store.Acyclic (store.walk v ks) :=
  fun pre k post a hw => h (ks ++ pre) k post a (by rw [walk_append, hw])

end

end Store

namespace Memory

/-- What stands at the end of a path. -/
def found (mem : Memory) (var : String) (ks : List Key) : Value :=
  mem.store.walk ((mem.scope.get? var).getD .unbound) ks

/-- All stems that variables lead to are in the store. -/
def Rooted (mem : Memory) : Prop := ∀ var ks a, mem.found var ks = .stem a → a < mem.store.stems.size

/-- No two paths lead to one stem. -/
def Unshared (mem : Memory) : Prop :=
  ∀ var ks var' ks' a, mem.found var ks = .stem a → mem.found var' ks' = .stem a → var = var' ∧ ks = ks'

/-- Keys as they are spelled in a tail. -/
def Spells (tail : List Tree) (ks : List Key) : Prop := List.Forall₂ (fun t k => Key.ofTree t = .ok k) tail ks

theorem Spells.unique {tail : List Tree} {ks ks' : List Key} (h : Spells tail ks) (h' : Spells tail ks') : ks = ks' := by
  induction h generalizing ks' with
  | nil =>
    cases h'
    rfl
  | cons ht _ ih =>
    cases h' with
    | cons ht' hs' =>
      cases ht.symm.trans ht'
      rw [ih hs']

def given {α : Type} : EStateM.Result Problem Memory α → Except Problem α
  | .ok a _ => .ok a
  | .error p _ => .error p

theorem given_eq_ok_iff {α : Type} {r : EStateM.Result Problem Memory α} {a : α} : given r = .ok a ↔ ∃ mem, r = .ok a mem := by
  cases r <;> simp [given]

/-- What a program reads under a compound name. -/
def reads (mem : Memory) (name : String) (tail : List Tree) : Except Problem Value := given (read name tail mem)

section

variable {mem mem' : Memory} {name var : String} {tail : List Tree} {ks pre post : List Key} {v w : Value} {a : Address}

theorem found_append : mem.found var (pre ++ post) = mem.store.walk (mem.found var pre) post := Store.walk_append

theorem Rooted.store (h : mem.Rooted) (var : String) (ks : List Key) : mem.store.Rooted (mem.found var ks) :=
  Store.Rooted.walk (fun ks a hw => h var ks a hw) ks

theorem Unshared.acyclic (h : mem.Unshared) (var : String) (ks : List Key) : mem.store.Acyclic (mem.found var ks) := by
  intro pre k post a hw hloop
  have hfirst : mem.found var (ks ++ pre) = .stem a := by rw [found_append, hw]
  have hsecond : mem.found var (ks ++ pre ++ k :: post) = .stem a := by rw [found_append, hfirst, hloop]
  have hlength := congrArg List.length (h _ _ _ _ a hfirst hsecond).2
  simp at hlength

theorem descend_cons (a : Address) (t : Tree) (rest : List Tree) (mem : Memory) : descend (.stem a) (t :: rest) mem =
    match Key.ofTree t with
    | .ok k => descend (mem.store.next (.stem a) k) rest mem
    | .error f => .error (.failure f) mem := by
  change EStateM.bind (keyed t) _ mem = _
  rw [EStateM.bind, keyed_apply]
  cases Key.ofTree t <;> rfl

theorem descend_apply (hs : Spells tail ks) : descend v tail mem = .ok (mem.store.walk v ks) mem := by
  induction hs generalizing v with
  | nil => cases v <;> rfl
  | @cons t k tail ks ht _ ih =>
    cases v with
    | stem a =>
      rw [descend_cons, ht]
      exact ih
    | scalar _ | list _ | dict _ =>
      rw [Store.walk_of_not_stem rfl (List.cons_ne_nil _ _)]
      rfl

theorem read_eq : read name tail mem = match binding name with
    | .ok var => descend (mem.found var []) tail mem
    | .error f => .error (.failure f) mem := by
  change EStateM.bind (liftE (binding name)) _ mem = _
  cases binding name <;> rfl

theorem reads_spelled (hname : binding name = .ok var) (hs : Spells tail ks) :
    mem.reads name tail = .ok (mem.found var ks) := by
  rw [reads, read_eq, hname]
  simp only [descend_apply hs]
  rfl

theorem descend_bound (h : descend v tail mem = .ok w mem') (hw : w.isUnbound = false) :
    ∃ ks, Spells tail ks ∧ w = mem.store.walk v ks := by
  induction tail generalizing v with
  | nil =>
    refine ⟨[], .nil, ?_⟩
    cases v <;> cases h <;> rfl
  | cons t rest ih =>
    cases v with
    | stem a =>
      rw [descend_cons] at h
      cases ht : Key.ofTree t with
      | error f => simp [ht] at h
      | ok k =>
        simp only [ht] at h
        obtain ⟨ks, hs, heq⟩ := ih (v := mem.store.next (.stem a) k) h
        exact ⟨k :: ks, .cons ht hs, heq⟩
    | scalar _ | list _ | dict _ =>
      cases h
      cases hw

theorem reads_bound (h : mem.reads name tail = .ok w) (hw : w.isUnbound = false) :
    ∃ var ks, binding name = .ok var ∧ Spells tail ks ∧ mem.found var ks = w := by
  obtain ⟨mem', hread⟩ := given_eq_ok_iff.mp h
  rw [read_eq] at hread
  cases hname : binding name with
  | error f => simp [hname] at hread
  | ok var =>
    simp only [hname] at hread
    obtain ⟨ks, hs, heq⟩ := descend_bound hread hw
    exact ⟨var, ks, rfl, hs, heq.symm⟩

theorem given_descend (h : ∀ ks a, mem.store.walk v ks = .stem a → mem'.store.get a = mem.store.get a) :
    given (descend v tail mem') = given (descend v tail mem) := by
  induction tail generalizing v with
  | nil => cases v <;> rfl
  | cons t rest ih =>
    cases v with
    | scalar _ | list _ | dict _ => rfl
    | stem a =>
      rw [descend_cons, descend_cons]
      cases Key.ofTree t with
      | error f => rfl
      | ok k =>
        have hnext : mem'.store.next (.stem a) k = mem.store.next (.stem a) k := by
          rw [Store.next, h [] a rfl, Store.next]
        simp only [hnext]
        exact ih fun ks b hw => h (k :: ks) b hw

theorem reads_congr (hscope : mem'.scope = mem.scope)
    (h : ∀ var ks a, mem.found var ks = .stem a → mem'.store.get a = mem.store.get a) :
    mem'.reads name tail = mem.reads name tail := by
  rw [reads, reads, read_eq, read_eq]
  cases binding name with
  | error f => rfl
  | ok var =>
    have hstart : mem'.found var [] = mem.found var [] := by
      change (mem'.scope.get? var).getD .unbound = (mem.scope.get? var).getD .unbound
      rw [hscope]
    simp only [hstart]
    exact given_descend fun ks a hw => h var ks a hw

end

end Memory

end Conductor
