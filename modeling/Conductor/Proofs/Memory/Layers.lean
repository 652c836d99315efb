import Conductor.Proofs.Memory.Conversion
import Conductor.Proofs.Memory.Frame
import Conductor.Proofs.Memory.Nesting
import Conductor.Proofs.Memory.Oversized

/-!
# What keeps a store layered

Planting, normalizing and copying add new stems to a store, one after the other, and each of them holds what was there
before it. So do writes on the way along a tail. What a write changes of the stems that were there is one of them: the
last that it meets, its anchor. A write closes a circle if its value leads to its anchor, and then, if it is not refused,
the anchor contains itself. All other writes keep a layered store layered.
-/

set_option autoImplicit false

namespace Conductor

open Relation

namespace Store

/-- A layered store, made of another one without that a stem came to hold what led back to it. -/
structure Untied (store store' : Store) : Prop where
  layered : store'.Layered
  size : store.stems.size ≤ store'.stems.size
  knotted : store'.knotted → store.knotted

section

variable {store store' store'' : Store} {s : Stem Value} {a : Address} {l : List Address}

theorem Untied.refl (h : store.Layered) : store.Untied store := ⟨h, Nat.le_refl _, id⟩

theorem Untied.trans (h : store.Untied store') (h' : store'.Untied store'') : store.Untied store'' :=
  ⟨h'.layered, Nat.le_trans h.size h'.size, h.knotted ∘ h'.knotted⟩

theorem Layered.untied_alloc (h : store.Layered) (hs : store.Covers s.addresses) : store.Untied (store.alloc s).2 where
  layered := h.alloc hs
  size := by simp [size_alloc]
  knotted hk := hk.resolve_right (h.closed.unknotted hs)

theorem Layered.untied_set (h : store.Layered) (hs : ∀ b ∈ s.addresses, b ∈ (store.get a).addresses ∨ b ∈ l)
    (hl : store.Covers l) (hback : ∀ y ∈ l, ¬ ReflTransGen store.Leads y a) : store.Untied (store.set a s) where
  layered := h.set hs hl hback
  size := by simp [Store.set]
  knotted hk := hk.resolve_right fun hknots => h.unknotted hs hback hknots.2

end

/-! ## New stems -/

/-- A store made of another one by new stems. -/
inductive Builds (store : Store) : Store → Prop
  | refl : Builds store store
  | alloc {store' : Store} {s : Stem Value} : Builds store store' → store'.Covers s.addresses →
      Builds store (store'.alloc s).2

structure Brings (store store' : Store) (l : List Address) : Prop where
  builds : store.Builds store'
  covers : store'.Covers l

section

variable {store store' store'' : Store} {l l' : List Address} {s : Stem Value}

theorem Closed.alloc (h : store.Closed) (hs : store.Covers s.addresses) : (store.alloc s).2.Closed := by
  have hsize : store.stems.size ≤ (store.alloc s).2.stems.size := by simp [size_alloc]
  intro a
  rw [get_alloc]
  split
  · exact hs.mono hsize
  · exact (h a).mono hsize

namespace Builds

theorem trans (h : store.Builds store') (h' : store'.Builds store'') : store.Builds store'' := by
  induction h' with
  | refl => exact h
  | alloc _ hs ih => exact .alloc ih hs

theorem grows (h : store.Builds store') : store.Grows store' := by
  induction h with
  | refl => exact .refl store
  | alloc _ _ ih => exact ih.trans (grows_alloc _ _)

theorem untied (h : store.Builds store') (hl : store.Layered) : store.Untied store' := by
  induction h with
  | refl => exact .refl hl
  | alloc _ hs ih => exact ih.trans (ih.layered.untied_alloc hs)

end Builds

namespace Brings

theorem refl (h : store.Covers l) : store.Brings store l := ⟨.refl, h⟩

theorem nil (store : Store) : store.Brings store [] := .refl fun _ h => nomatch h

theorem trans (h : store.Brings store' l) (h' : store'.Brings store'' l') : store.Brings store'' (l ++ l') :=
  ⟨h.builds.trans h'.builds, covers_append.mpr ⟨h.covers.mono h'.builds.grows.size, h'.covers⟩⟩

theorem alloc {items : List Value} {named : Table String Value}
    (h : store.Brings store' (Value.addressesAll items ++ Value.addressesAll named.values)) :
    store.Brings (store'.alloc ⟨items, named⟩).2 (store'.alloc ⟨items, named⟩).1.addresses :=
  ⟨.alloc h.builds (Stem.addresses_eq _ ▸ h.covers), covers_stem.mpr (by simp [size_alloc])⟩

theorem subset (h : store.Brings store' l) (hl : ∀ b ∈ l', b ∈ l) : store.Brings store' l' :=
  ⟨h.builds, fun b hb => h.covers b (hl b hb)⟩

end Brings

end

/-! ### Planting -/

mutual
theorem plant_brings (t : Tree) (store : Store) : store.Brings (plant t store).2 (plant t store).1.addresses := by
  match t with
  | .scalar s => exact .nil store
  | .stem items named =>
    exact .alloc ((plantAll_brings items store).trans (plantNamed_brings named _))
  | .list items => exact plantAll_brings items store
  | .dict entries => exact plantEntries_brings entries store

theorem plantAll_brings (ts : List Tree) (store : Store) :
    store.Brings (plantAll ts store).2 (Value.addressesAll (plantAll ts store).1) := by
  match ts with
  | [] => exact .nil store
  | t :: rest => exact (plant_brings t store).trans (plantAll_brings rest _)

theorem plantNamed_brings (ts : List (String × Tree)) (store : Store) :
    store.Brings (plantNamed ts store).2 (Value.addressesAll (Table.values (plantNamed ts store).1)) := by
  match ts with
  | [] => exact .nil store
  | (k, t) :: rest => exact (plant_brings t store).trans (plantNamed_brings rest _)

theorem plantEntries_brings (ts : List (Tree × Tree)) (store : Store) :
    store.Brings (plantEntries ts store).2 (Value.addressesEntries (plantEntries ts store).1) := by
  match ts with
  | [] => exact .nil store
  | (k, t) :: rest => exact ((plant_brings k store).trans (plant_brings t _)).trans (plantEntries_brings rest _)
end

/-! ### Bringing data into the language -/

mutual
theorem normalize_brings (v : Value) {w : Value} {store store' : Store} (hv : store.Covers v.addresses)
    (h : normalize v store = .ok (w, store')) : store.Brings store' w.addresses := by
  match v with
  | .scalar s =>
    cases h
    exact .nil store
  | .stem a =>
    cases h
    exact .refl hv
  | .list items =>
    obtain ⟨⟨items', store₁⟩, hitems, heq⟩ := bind_eq_ok_iff.mp h
    cases heq
    have hbrings := normalizeAll_brings items hv hitems
    rw [← List.append_nil (Value.addressesAll items')] at hbrings
    exact hbrings.alloc
  | .dict entries =>
    obtain ⟨⟨named, store₁⟩, hnamed, heq⟩ := bind_eq_ok_iff.mp h
    cases heq
    exact .alloc ((normalizeEntries_brings entries hv hnamed).subset fun b hb => Table.addresses_ofEntries hb)

theorem normalizeAll_brings (vs : List Value) {ws : List Value} {store store' : Store} (hv : store.Covers (Value.addressesAll vs))
    (h : normalizeAll vs store = .ok (ws, store')) : store.Brings store' (Value.addressesAll ws) := by
  match vs with
  | [] =>
    cases h
    exact .nil store
  | v :: rest =>
    obtain ⟨⟨w, store₁⟩, hw, h⟩ := bind_eq_ok_iff.mp h
    obtain ⟨⟨ws, store₂⟩, hws, heq⟩ := bind_eq_ok_iff.mp h
    cases heq
    obtain ⟨hv, hrest⟩ := covers_append.mp hv
    have hfirst := normalize_brings v hv hw
    exact hfirst.trans (normalizeAll_brings rest (hrest.mono hfirst.builds.grows.size) hws)

theorem normalizeEntries_brings (es : List (Value × Value)) {named : List (String × Value)} {store store' : Store}
    (hv : store.Covers (Value.addressesEntries es)) (h : normalizeEntries es store = .ok (named, store')) :
    store.Brings store' (Value.addressesAll (Table.values named)) := by
  match es with
  | [] =>
    cases h
    exact .nil store
  | (k, v) :: rest =>
    obtain ⟨t, -, h⟩ := bind_eq_ok_iff.mp h
    obtain ⟨name, -, h⟩ := bind_eq_ok_iff.mp h
    obtain ⟨⟨w, store₁⟩, hw, h⟩ := bind_eq_ok_iff.mp h
    obtain ⟨⟨ws, store₂⟩, hws, heq⟩ := bind_eq_ok_iff.mp h
    cases heq
    obtain ⟨hv, hrest⟩ := covers_append.mp hv
    have hfirst := normalize_brings v (covers_append.mp hv).2 hw
    exact hfirst.trans (normalizeEntries_brings rest (hrest.mono hfirst.builds.grows.size) hws)
end

/-! ### Copies -/

section

variable {store store' : Store} {a : Address} {v : Value} {depth : Nat}

section

variable {source : Store} {f : Value → Store → Except Failure (Value × Store)}

theorem each_fails {P : Value → Prop} (hf : ∀ v store, Fails (f v store) → P v) (vs : List Value) (store : Store)
    (h : Fails (copyTo.each f vs store)) : ∃ v ∈ vs, P v := by
  induction vs generalizing store with
  | nil => exact absurd h (Fails.not_ok _)
  | cons v rest ih =>
    rw [copyTo.each] at h
    cases hv : f v store with
    | error e => exact ⟨v, List.mem_cons_self, hf v store ⟨e, hv⟩⟩
    | ok p =>
      rw [hv] at h
      obtain ⟨w, hw, hP⟩ := ih p.2 ((Fails.then_pure _).mp h)
      exact ⟨w, List.mem_cons_of_mem v hw, hP⟩

theorem eachNamed_eq (f : Value → Store → Except Failure (Value × Store)) (es : List (String × Value)) (store : Store) :
    copyTo.eachNamed f es store =
      (copyTo.each f (Table.values es) store).map fun p => ((es.map Prod.fst).zip p.1, p.2) := by
  induction es generalizing store with
  | nil => rfl
  | cons e rest ih =>
    simp only [copyTo.eachNamed, Table.values, List.map_cons, copyTo.each]
    cases f e.2 store with
    | error _ => rfl
    | ok p =>
      simp only [ok_bind, ih, Table.values]
      cases copyTo.each f (rest.map Prod.snd) p.2 <;> rfl

/-- To copy a value is refused only where to follow it comes to no end. -/
theorem copyTo_fails {depth : Nat} {v : Value} {store : Store} (h : Fails (source.copyTo depth v store)) :
    ∃ a ∈ v.addresses, Fails (source.follow depth a) := by
  induction depth generalizing v store with
  | zero =>
    cases v with
    | stem a => exact ⟨a, by simp [Value.addresses], _, rfl⟩
    | scalar _ | list _ | dict _ => exact absurd h (Fails.not_ok _)
  | succ depth ih =>
    cases v with
    | scalar _ | list _ | dict _ => exact absurd h (Fails.not_ok _)
    | stem a =>
      -- where the copies of the parts fail, one of the parts cannot be followed
      have hpart (vs : List Value) (store : Store) (hsub : ∀ b ∈ Value.addressesAll vs, source.Leads a b)
          (h : Fails (copyTo.each (source.copyTo depth) vs store)) :
          ∃ b ∈ (Value.stem a).addresses, Fails (source.follow (depth + 1) b) := by
        obtain ⟨v, hv, b, hb, hfails⟩ := each_fails (fun v store hfails => ih hfails) vs store h
        have hab : source.Leads a b := hsub b (Value.mem_addressesAll.mpr ⟨v, hv, hb⟩)
        exact ⟨a, by simp [Value.addresses], (follow_fails _ _ _).mpr ⟨b, hab, hfails⟩⟩
      have hleads (b : Address) : source.Leads a b ↔
          b ∈ Value.addressesAll (source.get a).items ∨ b ∈ Value.addressesAll (source.get a).named.values := by
        rw [Leads, Stem.addresses_eq, List.mem_append]
      rw [copyTo] at h
      cases hitems : copyTo.each (source.copyTo depth) (source.get a).items store with
      | error e =>
        exact hpart _ _ (fun b hb => (hleads b).mpr (.inl hb)) ⟨e, hitems⟩
      | ok p =>
        rw [hitems, ok_bind, Fails.then_pure, eachNamed_eq, Fails.map_iff] at h
        exact hpart _ _ (fun b hb => (hleads b).mpr (.inr hb)) h

theorem each_brings (hf : ∀ v w store store', source.stems.size ≤ store.stems.size → source.Covers v.addresses →
      f v store = .ok (w, store') → store.Brings store' w.addresses)
    (vs : List Value) {ws : List Value} {store store' : Store} (hsize : source.stems.size ≤ store.stems.size)
    (hv : source.Covers (Value.addressesAll vs)) (h : copyTo.each f vs store = .ok (ws, store')) :
    store.Brings store' (Value.addressesAll ws) := by
  induction vs generalizing ws store with
  | nil =>
    cases h
    exact .nil _
  | cons v rest ih =>
    rw [copyTo.each] at h
    obtain ⟨⟨w, store₁⟩, hw, h⟩ := bind_eq_ok_iff.mp h
    obtain ⟨⟨ws, store₂⟩, hws, heq⟩ := bind_eq_ok_iff.mp h
    cases heq
    obtain ⟨hv, hrest⟩ := covers_append.mp hv
    have hfirst := hf v w store store₁ hsize hv hw
    exact hfirst.trans (ih (Nat.le_trans hsize hfirst.builds.grows.size) hrest hws)

theorem copyTo_brings (hc : source.Closed) {depth : Nat} (v w : Value) (store store' : Store)
    (hsize : source.stems.size ≤ store.stems.size) (hv : source.Covers v.addresses)
    (h : source.copyTo depth v store = .ok (w, store')) : store.Brings store' w.addresses := by
  induction depth generalizing v w store store' with
  | zero =>
    cases v with
    | stem a => cases h
    | scalar _ | list _ | dict _ =>
      cases h
      exact .refl (hv.mono hsize)
  | succ depth ih =>
    cases v with
    | scalar _ | list _ | dict _ =>
      cases h
      exact .refl (hv.mono hsize)
    | stem a =>
      rw [copyTo] at h
      obtain ⟨⟨items, store₁⟩, hitems, h⟩ := bind_eq_ok_iff.mp h
      obtain ⟨⟨named, store₂⟩, hnamed, heq⟩ := bind_eq_ok_iff.mp h
      cases heq
      rw [eachNamed_eq] at hnamed
      obtain ⟨⟨ws, store₂⟩, hws, heq⟩ := map_eq_ok_iff.mp hnamed
      cases heq
      obtain ⟨hcitems, hcnamed⟩ := covers_append.mp (Stem.addresses_eq (source.get a) ▸ hc a)
      have hfirst := each_brings ih (source.get a).items hsize hcitems hitems
      have hbrings := hfirst.trans
        (each_brings ih (source.get a).named.values (Nat.le_trans hsize hfirst.builds.grows.size) hcnamed hws)
      refine (hbrings.subset fun b hb => (List.mem_append.mp hb).elim (List.mem_append_left _) fun hb => ?_).alloc
      obtain ⟨e, he, hb⟩ := Value.mem_addressesAll_values.mp hb
      exact List.mem_append_right _ (Value.mem_addressesAll.mpr ⟨e.2, (List.of_mem_zip he).2, hb⟩)

end

theorem copy_brings {w : Value} (hc : store.Closed) (hv : store.Covers v.addresses)
    (h : copy v store = .ok (w, store')) : store.Brings store' w.addresses :=
  copyTo_brings hc v w store store' (Nat.le_refl _) hv h

theorem copy_fails (h : Fails (copy v store)) : Fails (store.tree v) := (treeWith_fails _ v).mpr (copyTo_fails h)

/-- All that follows a value comes to an end: it has a tree, whose text and whose layout are refused only for what is in
the tree, it can be taken out as plain data, and it can be copied. -/
structure Followed (store : Store) (v : Value) : Prop where
  tree : ∃ t, store.tree v = .ok t ∧ (∀ f, t.shown = .error f → f.OfText) ∧
    ∀ config level, Fails (t.printed config level) ↔ t.Oversized
  plain : ∃ w, store.plain v = .ok w
  copy : ∃ w store', Store.copy v store = .ok (w, store')

theorem followed_of_tree (h : ¬ Fails (store.tree v)) : store.Followed v where
  tree := by
    obtain ⟨t, ht⟩ := Fails.not_iff.mp h
    have hshown : Conductor.Only Failure.OfText t.shown := inferInstance
    exact ⟨t, ht, fun f hf => hshown.holds f hf f rfl, fun config level => t.printed_fails config level⟩
  plain := Fails.not_iff.mp fun hplain => h (plain_fails hplain)
  copy := by
    obtain ⟨⟨w, store'⟩, hcopy⟩ := Fails.not_iff.mp fun hcopy => h (copy_fails hcopy)
    exact ⟨w, store', hcopy⟩

/-- A value that leads to no stem which contains itself, and is followed to its end. -/
structure Finite (store : Store) (v : Value) : Prop where
  apart : ∀ c, store.Reaches v c → ¬ store.SelfContaining c
  followed : store.Followed v

theorem Noted.finite (h : store.Noted) (hk : ¬ store.knotted) (v : Value) : store.Finite v where
  apart c _ hc := hk (h c hc)
  followed := by
    refine followed_of_tree fun hfails => ?_
    obtain ⟨c, -, hc⟩ := (tree_fails store v).mp hfails
    exact hk (h c hc)

theorem Layered.noted (h : store.Layered) : store.Noted := fun a ha => absurd ha (h.apart a)

end

/-! ## Values put into a stem -/

def anchor (store : Store) : Address → List Tree → Address
  | a, t :: t' :: rest =>
    match Key.ofTree t with
    | .error _ => a
    | .ok k =>
      match store.next (.stem a) k with
      | .stem b => anchor store b (t' :: rest)
      | _ => a
  | a, _ => a

section

variable {store : Store} {a b c x y : Address} {t t' : Tree} {tail rest : List Tree} {k : Key} {s : Stem Value}
  {l : List Address} {v : Value} {vs : List Value}

theorem anchor_through (ht : Key.ofTree t = .ok k) (hnext : store.next (.stem a) k = .stem b) :
    store.anchor a (t :: t' :: rest) = store.anchor b (t' :: rest) := by
  rw [anchor, ht]
  simp only [hnext]

theorem anchor_gap (ht : Key.ofTree t = .ok k) (hnot : (store.next (.stem a) k).isStem = false) :
    store.anchor a (t :: rest) = a := by
  cases rest with
  | nil => rfl
  | cons t' rest =>
    rw [anchor, ht]
    cases hnext : store.next (.stem a) k with
    | stem b => exact absurd hnext (Value.isStem_eq_false_iff.mp hnot b)
    | scalar _ | list _ | dict _ => simp only [hnext]

theorem anchor_empty (h : store.get a = {}) : store.anchor a tail = a := by
  match tail with
  | [] | [_] => rfl
  | t :: t' :: rest =>
    cases ht : Key.ofTree t with
    | error f => rw [anchor, ht]
    | ok k => exact anchor_gap ht (next_empty h)

theorem size_set : (store.set a s).stems.size = store.stems.size := by simp [Store.set]

theorem covers_set (h : store.Covers l) : (store.set a s).Covers l := h.mono (Nat.le_of_eq size_set.symm)

theorem leads_set_self (ha : a < store.stems.size) : (store.set a s).Leads a y ↔ y ∈ s.addresses := by
  rw [Leads, get_set, if_pos ⟨rfl, ha⟩]

theorem leads_set_of_ne (hx : x ≠ a) : (store.set a s).Leads x y ↔ store.Leads x y := by
  rw [Leads, get_set, if_neg fun h => hx h.1, Leads]

theorem Closed.set (h : store.Closed) (hs : ∀ b ∈ s.addresses, b ∈ (store.get a).addresses ∨ b ∈ l) (hl : store.Covers l) :
    (store.set a s).Closed := by
  intro x
  rw [get_set]
  intro y hy
  rw [size_set]
  split at hy
  · exact (hs y hy).elim (h a y) (hl y)
  · exact h x y hy

/-- A circle through the stem that comes to hold a value which leads to it. -/
theorem circle_put {R : Address → Address → Prop} (hv : store.Reaches v c) (hleads : ∀ x y, x ≠ c → store.Leads x y → R x y)
    (hput : ∀ y ∈ v.addresses, TransGen R c y) : TransGen R c c := by
  obtain ⟨x, hx, hway⟩ := hv
  exact (hput x hx).trans_left (way_to hleads hway)

/-! ### Pushes -/

theorem Layered.pushed (h : store.Layered) (hvs : store.Covers (Value.addressesAll vs))
    (hopen : ¬ store.Reaches (.list vs) a) : store.Untied (store.pushed a vs) :=
  h.untied_set (fun _ hb => Stem.mem_addresses_pushed.mp hb) hvs fun y hy hway => hopen ⟨y, hy, hway⟩

theorem pushed_closes (ha : a < store.stems.size) (h : store.Reaches (.list vs) a) : (store.pushed a vs).SelfContaining a := by
  refine circle_put h (fun x y hx hxy => (leads_set_of_ne hx).mpr hxy) fun y hy => .single ?_
  exact (leads_set_self ha).mpr (Stem.mem_addresses_pushed.mpr (.inr hy))

end

end Store

namespace Memory

/-- A memory with a layered store, whose variables hold stems of the store. -/
structure Grounded (mem : Memory) : Prop where
  layered : mem.store.Layered
  scope : mem.store.Covers (Value.addressesAll mem.scope.values)

/-- A write closes a circle if its value leads to the stem that it is put into, or below which it is put. -/
def Closing (mem : Memory) (name : String) (v : Value) (tail : List Tree) : Prop :=
  ∃ var a, tail ≠ [] ∧ binding name = .ok var ∧ mem.found var [] = .stem a ∧ mem.store.Reaches v (mem.store.anchor a tail)

section

variable {mem mem' mem₁ : Memory} {name var : String} {v : Value} {tail : List Tree} {a : Address}
  {r : EStateM.Result Problem Memory Unit}

theorem leads_grown {x y : Address} : mem.grown.store.Leads x y ↔ mem.store.Leads x y := by
  rw [Store.Leads, get_grown, Store.Leads]

theorem untied_grown (h : mem.store.Layered) : mem.store.Untied mem.grown.store := h.untied_alloc fun _ h => nomatch h

theorem found_lt (h : mem.store.Covers (Value.addressesAll mem.scope.values)) (hfound : mem.found var [] = .stem a) :
    a < mem.store.stems.size := by
  change (mem.scope.get? var).getD .unbound = .stem a at hfound
  cases hget : mem.scope.get? var with
  | none =>
    rw [hget] at hfound
    cases hfound
  | some w =>
    rw [hget] at hfound
    cases hfound
    exact h a (Table.addresses_get? hget (by simp [Value.addresses]))

/-! ### On the way along a tail -/

theorem reaches_made {s : Stem Value} (hc : mem.store.Closed) (hv : mem.store.Covers v.addresses)
    (h : (mem.grown.store.set a s).Reaches v mem.store.stems.size) : mem.store.Reaches v a := by
  obtain ⟨x, hx, hway⟩ := h
  refine ⟨x, hx, ?_⟩
  rcases ReflTransGen.cases_tail hway with heq | ⟨y, hway, hy⟩
  · exact absurd (heq ▸ hv x hx) (Nat.lt_irrefl _)
  · have hya : y = a := by
      by_contra hya
      exact Nat.lt_irrefl _ (hc y _ (leads_grown.mp ((Store.leads_set_of_ne hya).mp hy)))
    subst hya
    exact Store.way_to (fun z w hz hzw => leads_grown.mp ((Store.leads_set_of_ne hz).mp hzw)) hway

/-- A write below a stem keeps a layered store layered unless it closes a circle. -/
theorem Course.untied (h : Course v mem a tail r) (hl : mem.store.Layered) (ha : a < mem.store.stems.size)
    (hv : mem.store.Covers v.addresses) (hopen : ¬ mem.store.Reaches v (mem.store.anchor a tail)) :
    mem.store.Untied (left r).store := by
  induction h with
  | refused | unread => exact .refl hl
  | unmade => exact untied_grown hl
  | put hs =>
    obtain ⟨k, -, hset⟩ := bind_eq_ok_iff.mp hs
    exact hl.untied_set (fun b => Stem.addresses_set hset) hv fun y hy hway => hopen ⟨y, hy, hway⟩
  | through ht hnext _ ih =>
    rw [Store.anchor_through ht hnext] at hopen
    exact ih hl (hl.closed _ _ (Store.leads_next hnext)) hv hopen
  | @made mem a t t' rest k s r ht hnot hs _ ih =>
    rw [Store.anchor_gap ht hnot] at hopen
    obtain ⟨hempty, -⟩ := get_made (s := s) ha
    -- the new stem is empty where it is put, so nothing leads back from it
    have hback (y : Address) (hy : y ∈ [mem.store.stems.size]) : ¬ ReflTransGen mem.grown.store.Leads y a := by
      obtain rfl := List.mem_singleton.mp hy
      intro hway
      rcases ReflTransGen.cases_head hway with heq | ⟨z, hz, -⟩
      · exact absurd (heq ▸ ha) (Nat.lt_irrefl _)
      · exact absurd (Store.leads_lt (leads_grown.mp hz)) (Nat.lt_irrefl _)
    have hmade : mem.store.Untied (mem.grown.store.set a s) := by
      refine (untied_grown hl).trans ((untied_grown hl).layered.untied_set (fun b hb => ?_) (fun b hb => ?_) hback)
      · rw [get_grown]
        exact (Stem.addresses_set hs hb).imp_right fun hb => by simpa [Value.addresses] using hb
      · rw [List.mem_singleton.mp hb, size_grown]
        exact Nat.lt_succ_self _
    refine hmade.trans (ih hmade.layered (lt_made ha) (hv.mono hmade.size) fun hway => ?_)
    rw [Store.anchor_empty hempty] at hway
    exact hopen (reaches_made hl.closed hv hway)

theorem scalar_of_count {store : Store} {n : Nat} (h : store.countOf v = .ok n) : ∃ x, v = .scalar x := by
  obtain ⟨t, ht, hcount⟩ := bind_eq_ok_iff.mp h
  obtain ⟨number, hnumber, -⟩ := bind_eq_ok_iff.mp hcount
  cases t with
  | scalar x => exact ⟨x, Store.eq_of_shows_scalar (Stem.mapError_eq_ok ht)⟩
  | stem items named | list items | dict entries =>
    unfold Tree.number at hnumber
    dsimp only at hnumber
    split at hnumber <;> cases hnumber

theorem addresses_put {s s' : Stem Value} {k : Key} {store : Store} {y : Address}
    (hs : s.set (.text "") store.countOf k v = .ok s') (hy : y ∈ v.addresses) : y ∈ s'.addresses := by
  by_cases hk : k = .index 0
  · subst hk
    obtain ⟨n, hn, -⟩ := bind_eq_ok_iff.mp hs
    obtain ⟨x, rfl⟩ := scalar_of_count hn
    cases hy
  · exact Stem.addresses_get? (Stem.get?_set _ hk hs) hy

theorem Course.puts (h : Course v mem a tail r) (hr : r = .ok () mem') (hc : mem.store.Closed)
    (ha : a < mem.store.stems.size) :
    (∀ y ∈ v.addresses, TransGen mem'.store.Leads (mem.store.anchor a tail) y) ∧
      ∀ x y, x ≠ mem.store.anchor a tail → mem.store.Leads x y → mem'.store.Leads x y := by
  induction h with
  | refused | unread | unmade => cases hr
  | put hs =>
    cases hr
    obtain ⟨k, -, hset⟩ := bind_eq_ok_iff.mp hs
    exact ⟨fun y hy => .single ((Store.leads_set_self ha).mpr (addresses_put hset hy)),
      fun x y hx hxy => (Store.leads_set_of_ne hx).mpr hxy⟩
  | through ht hnext _ ih =>
    rw [Store.anchor_through ht hnext]
    exact ih hr hc (hc _ _ (Store.leads_next hnext))
  | @made mem a t t' rest k s r ht hnot hs _ ih =>
    rw [Store.anchor_gap ht hnot]
    obtain ⟨hempty, -⟩ := get_made (s := s) ha
    have hgrown : a < mem.grown.store.stems.size := by rw [size_grown]; exact Nat.lt_succ_of_lt ha
    have hclosed : (mem.grown.store.set a s).Closed := by
      refine Store.Closed.set (l := [mem.store.stems.size]) (Store.Closed.alloc hc fun _ h => nomatch h) (fun b hb => ?_) fun b hb => ?_
      · rw [get_grown]
        exact (Stem.addresses_set hs hb).imp_right fun hb => by simpa [Value.addresses] using hb
      · rw [List.mem_singleton.mp hb, size_grown]
        exact Nat.lt_succ_self _
    obtain ⟨hput, hkept⟩ := ih hr hclosed (lt_made ha)
    rw [Store.anchor_empty hempty] at hput hkept
    have hmade : (mem.grown.store.set a s).Leads a mem.store.stems.size :=
      (Store.leads_set_self hgrown).mpr (addresses_put hs (by simp [Value.addresses]))
    refine ⟨fun y hy => .head (hkept a _ (Nat.ne_of_lt ha) hmade) (hput y hy), fun x y hx hxy => ?_⟩
    exact hkept x y (Nat.ne_of_lt (Store.leads_lt hxy)) ((Store.leads_set_of_ne hx).mpr (leads_grown.mpr hxy))

/-! ### Writes -/

theorem Base.untied (h : Base mem var a mem₁) (hl : mem.store.Layered) : mem.store.Untied mem₁.store := by
  cases h with
  | held _ => exact .refl hl
  | new _ => exact untied_grown hl

theorem Base.grounded (h : Base mem var a mem₁) (hg : mem.Grounded) : mem₁.Grounded := by
  have huntied := h.untied hg.layered
  refine ⟨huntied.layered, ?_⟩
  cases h with
  | held _ => exact hg.scope
  | new _ =>
    intro b hb
    rcases Table.addresses_put hb with hb | hb
    · rw [Value.addresses, List.mem_singleton] at hb
      rw [hb, size_opened]
      exact Nat.lt_succ_self _
    · exact Nat.lt_of_lt_of_le (hg.scope b hb) huntied.size

theorem Base.open (h : Base mem var a mem₁) (hg : mem.Grounded) (hname : binding name = .ok var) (htail : tail ≠ [])
    (hv : mem.store.Covers v.addresses) (hopen : ¬ mem.Closing name v tail) :
    ¬ mem₁.store.Reaches v (mem₁.store.anchor a tail) := by
  cases h with
  | held hfound => exact fun hway => hopen ⟨var, a, htail, hname, hfound, hway⟩
  | new _ =>
    rw [Store.anchor_empty get_opened_new]
    rintro ⟨x, hx, hway⟩
    have hway : ReflTransGen mem.store.Leads x mem.store.stems.size :=
      Store.way_to (fun _ _ _ hzw => leads_grown.mp hzw) hway
    exact Nat.lt_irrefl _ (hg.layered.closed.reaches hv ⟨x, hx, hway⟩)

/-- A write that closes no circle keeps a memory grounded, whether it is refused or not. -/
theorem Grounded.written (h : mem.Grounded) (hv : mem.store.Covers v.addresses) (hopen : ¬ mem.Closing name v tail) :
    (left (write name v tail mem)).Grounded ∧ mem.store.Untied (left (write name v tail mem)).store := by
  cases hname : binding name with
  | error f =>
    rw [write_nameless hname]
    exact ⟨h, .refl h.layered⟩
  | ok var =>
    cases tail with
    | nil =>
      rw [write_variable hname]
      exact ⟨⟨h.layered, fun b hb => (Table.addresses_put hb).elim (hv b) (h.scope b)⟩, .refl h.layered⟩
    | cons t rest =>
      obtain ⟨a, mem₁, hbase, hwrite⟩ := write_base hname mem v t rest
      rw [hwrite]
      have hg := hbase.grounded h
      have hfirst := hbase.untied h.layered
      have hcourse := course v mem₁ a t rest
      have hrest := hcourse.untied hg.layered (found_lt hg.scope hbase.found) (hv.mono hfirst.size)
        (hbase.open h hname (List.cons_ne_nil _ _) hv hopen)
      refine ⟨⟨hrest.layered, ?_⟩, hfirst.trans hrest⟩
      rw [hcourse.scope]
      exact hg.scope.mono hrest.size

/-- A write that closes a circle and is not refused leaves a stem that contains itself, and its value leads there. -/
theorem write_closes (hc : mem.store.Closed) (hscope : mem.store.Covers (Value.addressesAll mem.scope.values))
    (h : mem.Closing name v tail) (hw : write name v tail mem = .ok () mem') :
    ∃ c, mem'.store.SelfContaining c ∧ mem'.store.Reaches v c := by
  obtain ⟨var, a, htail, hname, hfound, hreach⟩ := h
  obtain ⟨t, rest, rfl⟩ := List.exists_cons_of_ne_nil htail
  obtain ⟨a', mem₁, hbase, hwrite⟩ := write_base hname mem v t rest
  cases hbase with
  | new hnot =>
    rw [hfound] at hnot
    cases hnot
  | held hfound' =>
    cases hfound.symm.trans hfound'
    obtain ⟨hput, hkept⟩ := (course v mem a t rest).puts (hwrite.symm.trans hw) hc (found_lt hscope hfound)
    obtain ⟨x, hx, hway⟩ := id hreach
    exact ⟨_, Store.circle_put hreach hkept hput, x, hx, Store.way_to hkept hway⟩

/-! ### Deletions -/

theorem deleteBelow_left (v : Value) (tail : List Tree) (mem : Memory) : left (deleteBelow v tail mem) = mem ∨
    ∃ a k, left (deleteBelow v tail mem) = { mem with store := mem.store.set a ((mem.store.get a).delete k) } := by
  induction tail generalizing v with
  | nil => cases v <;> exact .inl rfl
  | cons t rest ih =>
    match v with
    | .scalar _ | .list _ | .dict _ => exact .inl rfl
    | .stem a =>
      have hkeyed (f : Key → Act Unit) (hf : ∀ k, left (f k mem) = mem ∨
          ∃ a k', left (f k mem) = { mem with store := mem.store.set a ((mem.store.get a).delete k') }) :
          left ((keyed t >>= f) mem) = mem ∨
            ∃ a k', left ((keyed t >>= f) mem) = { mem with store := mem.store.set a ((mem.store.get a).delete k') } := by
        rw [left_bind, keyed_apply]
        cases Key.ofTree t with
        | error f => exact .inl rfl
        | ok k => exact hf k
      cases rest with
      | nil => exact hkeyed _ fun k => .inr ⟨a, k, rfl⟩
      | cons t' rest => exact hkeyed _ fun k => ih (mem.store.next (.stem a) k)

theorem Grounded.deleted (h : mem.Grounded) (name : String) (tail : List Tree) :
    (left (delete name tail mem)).Grounded ∧ mem.store.Untied (left (delete name tail mem)).store := by
  cases hname : binding name with
  | error f =>
    have hleft : left (delete name tail mem) = mem := by
      change left (EStateM.bind (liftE (binding name)) _ mem) = mem
      rw [hname]
      rfl
    rw [hleft]
    exact ⟨h, .refl h.layered⟩
  | ok var =>
    have hdelete : delete name tail mem = if tail.isEmpty then .ok () { mem with scope := mem.scope.erase var }
        else deleteBelow (mem.found var []) tail mem := by
      change EStateM.bind (liftE (binding name)) _ mem = _
      rw [hname]
      cases tail <;> rfl
    rw [hdelete]
    split
    · exact ⟨⟨h.layered, fun b hb => h.scope b (Table.addresses_erase hb)⟩, .refl h.layered⟩
    · rcases deleteBelow_left (mem.found var []) tail mem with heq | ⟨a, k, heq⟩
      · rw [heq]
        exact ⟨h, .refl h.layered⟩
      · rw [heq]
        have huntied : mem.store.Untied (mem.store.set a ((mem.store.get a).delete k)) :=
          h.layered.untied_set (l := []) (fun b hb => .inl (Stem.addresses_delete hb)) (fun _ h => nomatch h)
            fun _ h => nomatch h
        exact ⟨⟨huntied.layered, Store.covers_set h.scope⟩, huntied⟩

end

end Memory

end Conductor
