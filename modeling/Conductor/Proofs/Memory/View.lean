import Conductor.Proofs.Memory.Traversal
import Conductor.Store

/-!
# What values show

The tree of a value has the form of the value, with every stem in place of its address. New
stems lie behind the old ones, so a value shows the same while the store grows. A chain of
stems is never longer than the store, hence a depth of as many stems as there are shows all
of a value that is made of new ones.
-/

set_option autoImplicit false

namespace Conductor

namespace Store

theorem get_alloc {store : Store} (s : Stem Value) (a : Address) :
    (store.alloc s).2.get a = if a = store.stems.size then s else store.get a := by
  simp only [alloc, get, Array.getD_eq_getD_getElem?, Array.getElem?_push]
  split <;> simp_all

theorem size_alloc (store : Store) (s : Stem Value) : (store.alloc s).2.stems.size = store.stems.size + 1 := by
  simp [alloc]

/-! ## The form of a view -/

theorem treesWith_eq (f : Address → Except Failure Tree) (vs : List Value) : treesWith f vs = traverse (treeWith f) vs := by
  induction vs with
  | nil => rfl
  | cons v rest ih =>
    rw [treesWith, traverse, ih]
    cases treeWith f v with
    | error e => rfl
    | ok t => cases traverse (treeWith f) rest <;> rfl

def entryWith (f : Address → Except Failure Tree) (e : Value × Value) : Except Failure (Tree × Tree) := do
  let key ← treeWith f e.1
  return (key, ← treeWith f e.2)

theorem entriesWith_eq (f : Address → Except Failure Tree) (es : List (Value × Value)) :
    entriesWith f es = traverse (entryWith f) es := by
  induction es with
  | nil => rfl
  | cons e rest ih =>
    rw [entriesWith, traverse, entryWith, ih]
    cases treeWith f e.1 with
    | error e => rfl
    | ok k =>
      cases treeWith f e.2 with
      | error e => rfl
      | ok t => cases traverse (entryWith f) rest <;> rfl

theorem entryWith_ok {f : Address → Except Failure Tree} {e : Value × Value} {e' : Tree × Tree} :
    entryWith f e = .ok e' ↔ treeWith f e.1 = .ok e'.1 ∧ treeWith f e.2 = .ok e'.2 := by
  rw [entryWith, bind_eq_ok_iff]
  constructor
  · rintro ⟨k, hk, hrest⟩
    obtain ⟨t, ht, heq⟩ := bind_eq_ok_iff.mp hrest
    cases heq
    exact ⟨hk, ht⟩
  · rintro ⟨hk, ht⟩
    exact ⟨_, hk, bind_eq_ok_iff.mpr ⟨_, ht, rfl⟩⟩

/-- The form of a value is the form of its tree. -/
inductive Reads (f : Address → Except Failure Tree) : Value → Tree → Prop
  | scalar (s : Scalar) : Reads f (.scalar s) (.scalar s)
  | stem {a : Address} {t : Tree} : f a = .ok t → Reads f (.stem a) t
  | list {vs : List Value} {ts : List Tree} : List.Forall₂ (fun v t => treeWith f v = .ok t) vs ts →
      Reads f (.list vs) (.list ts)
  | dict {es : List (Value × Value)} {ts : List (Tree × Tree)} :
      List.Forall₂ (fun e t => entryWith f e = .ok t) es ts → Reads f (.dict es) (.dict ts)

theorem treeWith_ok {f : Address → Except Failure Tree} {v : Value} {t : Tree} :
    treeWith f v = .ok t ↔ Reads f v t := by
  constructor
  · intro h
    match v with
    | .scalar s =>
      cases h
      exact .scalar s
    | .stem a => exact .stem h
    | .list vs =>
      rw [treeWith, bind_eq_ok_iff] at h
      obtain ⟨ts, hts, heq⟩ := h
      cases heq
      rw [treesWith_eq, traverse_eq_ok_iff] at hts
      exact .list hts
    | .dict es =>
      rw [treeWith, bind_eq_ok_iff] at h
      obtain ⟨ts, hts, heq⟩ := h
      cases heq
      rw [entriesWith_eq, traverse_eq_ok_iff] at hts
      exact .dict hts
  · intro h
    cases h with
    | scalar s => rfl
    | stem h => exact h
    | list h =>
      rw [treeWith, treesWith_eq, traverse_eq_ok_iff.mpr h]
      rfl
    | dict h =>
      rw [treeWith, entriesWith_eq, traverse_eq_ok_iff.mpr h]
      rfl

theorem follow_ok {store : Store} {depth : Nat} {a : Address} {t : Tree} :
    store.follow (depth + 1) a = .ok t ↔ ∃ items named, t = .stem items named ∧
      List.Forall₂ (fun v t => treeWith (store.follow depth) v = .ok t) (store.get a).items items ∧
      List.Forall₂ (fun e e' => e.1 = e'.1 ∧ treeWith (store.follow depth) e.2 = .ok e'.2) (store.get a).named named := by
  have hentry (e : String × Value) (e' : String × Tree) :
      (treeWith (store.follow depth) e.2).map (fun t => (e.1, t)) = .ok e' ↔
        e.1 = e'.1 ∧ treeWith (store.follow depth) e.2 = .ok e'.2 := by
    cases treeWith (store.follow depth) e.2 <;> simp [Except.map, Prod.ext_iff]
  rw [follow, bind_eq_ok_iff]
  simp only [bind_eq_ok_iff, treesWith_eq, namedWith, traverse_eq_ok_iff, hentry]
  constructor
  · rintro ⟨items, hitems, named, hnamed, heq⟩
    cases heq
    exact ⟨items, named, rfl, hitems, hnamed⟩
  · rintro ⟨items, named, rfl, hitems, hnamed⟩
    exact ⟨items, hitems, named, hnamed, rfl⟩

theorem follow_stem {store : Store} {depth : Nat} {a : Address} {t : Tree} (h : store.follow depth a = .ok t) :
    ∃ items named, t = .stem items named := by
  cases depth with
  | zero => cases h
  | succ d =>
    obtain ⟨items, named, heq, -⟩ := follow_ok.mp h
    exact ⟨items, named, heq⟩

theorem eq_of_shows_scalar {store : Store} {depth : Nat} {v : Value} {s : Scalar}
    (h : treeWith (store.follow depth) v = .ok (.scalar s)) : v = .scalar s := by
  cases treeWith_ok.mp h with
  | scalar => rfl
  | stem ha =>
    obtain ⟨_, _, heq⟩ := follow_stem ha
    cases heq

theorem eq_of_shows_stem {store : Store} {depth : Nat} {v : Value} {items : List Tree} {named : List (String × Tree)}
    (h : treeWith (store.follow depth) v = .ok (.stem items named)) : ∃ a d, v = .stem a ∧ depth = d + 1 ∧
      List.Forall₂ (fun v t => treeWith (store.follow d) v = .ok t) (store.get a).items items ∧
      List.Forall₂ (fun e e' => e.1 = e'.1 ∧ treeWith (store.follow d) e.2 = .ok e'.2) (store.get a).named named := by
  cases treeWith_ok.mp h with
  | @stem a _ ha =>
    cases depth with
    | zero => cases ha
    | succ d =>
      obtain ⟨_, _, heq, hitems, hnamed⟩ := follow_ok.mp ha
      cases heq
      exact ⟨a, d, rfl, rfl, hitems, hnamed⟩

/-! ## Stores that grow -/

structure Grows (store store' : Store) : Prop where
  size : store.stems.size ≤ store'.stems.size
  get : ∀ a < store.stems.size, store'.get a = store.get a

theorem Grows.refl (store : Store) : store.Grows store := ⟨Nat.le_refl _, fun _ _ => rfl⟩

theorem Grows.trans {store store' store'' : Store} (h : store.Grows store') (h' : store'.Grows store'') :
    store.Grows store'' where
  size := Nat.le_trans h.size h'.size
  get a ha := (h'.get a (Nat.lt_of_lt_of_le ha h.size)).trans (h.get a ha)

theorem grows_alloc (store : Store) (s : Stem Value) : store.Grows (store.alloc s).2 where
  size := by simp [size_alloc]
  get a ha := by rw [get_alloc, if_neg (Nat.ne_of_lt ha)]

def Shows (store : Store) (v : Value) (t : Tree) : Prop :=
  ∀ store', store.Grows store' → ∀ depth, store.stems.size ≤ depth → treeWith (store'.follow depth) v = .ok t

theorem Shows.grows {store store' : Store} {v : Value} {t : Tree} (h : store.Shows v t) (hg : store.Grows store') :
    store'.Shows v t :=
  fun store'' hg' depth hd => h store'' (hg.trans hg') depth (Nat.le_trans hg.size hd)

theorem Shows.tree {store : Store} {v : Value} {t : Tree} (h : store.Shows v t) : store.tree v = .ok t :=
  h store (.refl store) _ (Nat.le_succ _)

theorem shows_alloc {store : Store} {items : List Value} {named : List (String × Value)} {ts : List Tree}
    {nts : List (String × Tree)} (hitems : List.Forall₂ store.Shows items ts)
    (hnamed : List.Forall₂ (fun e e' => e.1 = e'.1 ∧ store.Shows e.2 e'.2) named nts) :
    (store.alloc ⟨items, named⟩).2.Shows (store.alloc ⟨items, named⟩).1 (.stem ts nts) := by
  intro store' hg depth hd
  rw [size_alloc] at hd
  obtain ⟨d, rfl⟩ := Nat.exists_eq_add_of_lt hd
  have hgrown : store.Grows store' := (grows_alloc store _).trans hg
  have hget : store'.get store.stems.size = ⟨items, named⟩ :=
    (hg.get _ (by rw [size_alloc]; exact Nat.lt_succ_self _)).trans (by rw [get_alloc, if_pos rfl])
  refine follow_ok.mpr ⟨ts, nts, rfl, ?_, ?_⟩
  · rw [hget]
    exact hitems.imp fun v t hv => hv store' hgrown _ (Nat.le_add_right _ _)
  · rw [hget]
    exact hnamed.imp fun e e' he => ⟨he.1, he.2 store' hgrown _ (Nat.le_add_right _ _)⟩

end Store

end Conductor
