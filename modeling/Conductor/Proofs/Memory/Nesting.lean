import Conductor.Proofs.Memory.Paths
import Mathlib.Data.List.Perm.Subperm
import Mathlib.Logic.Relation

/-!
# Stems in stems

A stem leads to the stems that it holds, those in lists and dictionaries among them, to the stems that these hold, and
so on. What follows all of a value comes to an end exactly if the value leads to no stem that contains itself: a way that
is longer than the store has stems runs in a circle, and a circle is a way without an end.

A store is layered if its stems hold only stems of the store and none contains itself. A store in which one stem is
changed stays layered as long as nothing that is put into that stem leads back to it; new stems lead to old ones, and no
old one leads to them.
-/

set_option autoImplicit false

namespace Conductor

open Relation

theorem Fails.map_iff {ε α β : Type} (f : α → β) (x : Except ε α) : Fails (x.map f) ↔ Fails x := by
  cases x <;> simp [Except.map]

/-! ## Addresses -/

def Guard.outside (l : List Address) : Guard := ⟨(· ∉ l), fun _ => {}, False⟩

theorem Value.clear_outside {v : Value} {l : List Address} : Clear (.outside l) v ↔ ∀ b ∈ v.addresses, b ∈ l :=
  ⟨fun h b hb => Classical.not_not.mp (h.out b hb), fun h => ⟨fun b hb => not_not_intro (h b hb)⟩⟩

theorem Value.addressesAll_append (vs ws : List Value) :
    Value.addressesAll (vs ++ ws) = Value.addressesAll vs ++ Value.addressesAll ws := by
  induction vs with
  | nil => rfl
  | cons v rest ih => rw [List.cons_append, addressesAll, addressesAll, ih, List.append_assoc]

theorem Value.mem_addressesAll_values {named : Table String Value} {b : Address} :
    b ∈ Value.addressesAll named.values ↔ ∃ e ∈ named, b ∈ e.2.addresses := by
  simp only [mem_addressesAll, Table.values, List.mem_map, exists_exists_and_eq_and]

namespace Table

variable {t : Table String Value} {key : String} {v : Value} {b : Address} {l : List Address}

theorem clear_outside : Clear (.outside l) t ↔ ∀ b ∈ Value.addressesAll t.values, b ∈ l := by
  constructor
  · intro h b hb
    obtain ⟨e, he, hb⟩ := Value.mem_addressesAll_values.mp hb
    exact Value.clear_outside.mp (clear_entry.mp (h.of_mem he)) b hb
  · intro h
    exact .of_forall fun e he => clear_entry.mpr <|
      Value.clear_outside.mpr fun b hb => h b (Value.mem_addressesAll_values.mpr ⟨e, he, hb⟩)

theorem addresses_get? (h : t.get? key = some v) (hb : b ∈ v.addresses) : b ∈ Value.addressesAll t.values := by
  obtain ⟨k, hk⟩ := mem_of_get? h
  exact Value.mem_addressesAll_values.mpr ⟨_, hk, hb⟩

theorem addresses_put (hb : b ∈ Value.addressesAll (t.put key v).values) :
    b ∈ v.addresses ∨ b ∈ Value.addressesAll t.values := by
  have hv : Clear (.outside (v.addresses ++ Value.addressesAll t.values)) v :=
    Value.clear_outside.mpr fun b hb => List.mem_append_left _ hb
  have ht : Clear (.outside (v.addresses ++ Value.addressesAll t.values)) t :=
    clear_outside.mpr fun b hb => List.mem_append_right _ hb
  exact List.mem_append.mp (clear_outside.mp (inferInstanceAs (Clear _ (t.put key v))) b hb)

theorem addresses_erase (hb : b ∈ Value.addressesAll (t.erase key).values) : b ∈ Value.addressesAll t.values := by
  have ht : Clear (.outside (Value.addressesAll t.values)) t := clear_outside.mpr fun _ hb => hb
  exact clear_outside.mp (inferInstanceAs (Clear _ (t.erase key))) b hb

theorem addresses_ofEntries {es : List (String × Value)} (hb : b ∈ Value.addressesAll (ofEntries es).values) :
    b ∈ Value.addressesAll (values es) := by
  have hes : Clear (.outside (Value.addressesAll (values es))) es := clear_outside.mpr fun _ hb => hb
  exact clear_outside.mp (inferInstanceAs (Clear _ (ofEntries es))) b hb

end Table

theorem Stem.clear_iff {G : Guard} {s : Stem Value} : Clear G s ↔ ∀ b ∈ s.addresses, ¬ G.guarded b := by
  simp only [Stem.addresses, Value.mem_addressesAll, List.mem_append, Table.values, List.mem_map]
  constructor
  · rintro h b ⟨v, hv | ⟨e, he, rfl⟩, hb⟩
    · exact h.out.1 v hv b hb
    · exact (h.out.2 e he).2 b hb
  · refine fun h => ⟨fun v hv b hb => h b ⟨v, Or.inl hv, hb⟩, fun e he => ⟨trivial, fun b hb => ?_⟩⟩
    exact h b ⟨e.2, Or.inr ⟨e, he, rfl⟩, hb⟩

namespace Stem

theorem addresses_eq (s : Stem Value) :
    s.addresses = Value.addressesAll s.items ++ Value.addressesAll s.named.values := Value.addressesAll_append _ _

theorem mem_addresses {s : Stem Value} {b : Address} :
    b ∈ s.addresses ↔ (∃ v ∈ s.items, b ∈ v.addresses) ∨ ∃ e ∈ s.named, b ∈ e.2.addresses := by
  rw [addresses_eq, List.mem_append, Value.mem_addressesAll, Value.mem_addressesAll_values]

theorem clear_outside {s : Stem Value} {l : List Address} : Clear (.outside l) s ↔ ∀ b ∈ s.addresses, b ∈ l := by
  simp only [clear_iff, Guard.outside, Classical.not_not]

variable {s s' : Stem Value} {v w : Value} {k : Key} {b : Address} {asCount : Value → Except Problem Nat}

theorem addresses_set (h : s.set (.text "") asCount k v = .ok s') (hb : b ∈ s'.addresses) :
    b ∈ s.addresses ∨ b ∈ v.addresses := by
  have hs : Clear (.outside (s.addresses ++ v.addresses)) s := clear_outside.mpr fun b hb => List.mem_append_left _ hb
  have hv : Clear (.outside (s.addresses ++ v.addresses)) v :=
    Value.clear_outside.mpr fun b hb => List.mem_append_right _ hb
  have hset : Clear (.outside (s.addresses ++ v.addresses)) (s.set (.text "") asCount k v) := by
    unfold Stem.set
    split <;> infer_instance
  rw [h] at hset
  exact List.mem_append.mp (clear_outside.mp hset.of_ok b hb)

theorem addresses_delete (hb : b ∈ (s.delete k).addresses) : b ∈ s.addresses := by
  have hs : Clear (.outside s.addresses) s := clear_outside.mpr fun _ hb => hb
  exact clear_outside.mp (inferInstanceAs (Clear _ (s.delete k))) b hb

theorem addresses_get? (h : s.get? .ofNat k = some v) (hb : b ∈ v.addresses) : b ∈ s.addresses := by
  have hs : Clear (.outside s.addresses) s := clear_outside.mpr fun _ hb => hb
  have hget : Clear (.outside s.addresses) (s.get? .ofNat k) := inferInstance
  rw [h] at hget
  exact Value.clear_outside.mp hget.of_some b hb

theorem mem_addresses_append : b ∈ (s.append v).addresses ↔ b ∈ s.addresses ∨ b ∈ v.addresses := by
  simp only [mem_addresses, append, List.mem_append, List.mem_singleton]
  grind

theorem mem_addresses_pushed {vs : List Value} :
    b ∈ (vs.foldl (fun s v => s.append v) s).addresses ↔ b ∈ s.addresses ∨ b ∈ Value.addressesAll vs := by
  induction vs generalizing s with
  | nil => simp [Value.addressesAll]
  | cons v rest ih => rw [List.foldl_cons, ih, mem_addresses_append, Value.addressesAll, List.mem_append, or_assoc]

end Stem

/-! ## Ways through a store -/

namespace Store

def Reaches (store : Store) (v : Value) (b : Address) : Prop := ∃ a ∈ v.addresses, ReflTransGen store.Leads a b

/-- A stem that contains itself, directly or through other stems. -/
def SelfContaining (store : Store) (a : Address) : Prop := TransGen store.Leads a a

def Covers (store : Store) (l : List Address) : Prop := ∀ b ∈ l, b < store.stems.size

section

variable {store store' : Store} {a b c : Address} {v : Value} {l l' : List Address} {s : Stem Value}

theorem leads_lt (h : store.Leads a b) : a < store.stems.size := by
  by_contra hge
  have hempty : store.get a = {} := by
    simp [Store.get, Array.getD_eq_getD_getElem?, Array.getElem?_eq_none (Nat.not_lt.mp hge)]
  rw [Store.Leads, hempty] at h
  simp [Stem.addresses, Table.values, Value.addressesAll] at h

theorem leads_next {k : Key} (h : store.next (.stem a) k = .stem b) : store.Leads a b :=
  Stem.addresses_get? (next_stem_iff.mp h) (by simp [Value.addresses])

theorem covers_append : store.Covers (l ++ l') ↔ store.Covers l ∧ store.Covers l' := List.forall_mem_append

theorem Covers.mono (h : store.Covers l) (hsize : store.stems.size ≤ store'.stems.size) : store'.Covers l :=
  fun b hb => Nat.lt_of_lt_of_le (h b hb) hsize

theorem covers_stem : store.Covers (Value.stem a).addresses ↔ a < store.stems.size := by
  simp [Covers, Value.addresses]

/-! ### What has no end -/

mutual
theorem treeWith_fails (f : Address → Except Failure Tree) (v : Value) :
    Fails (treeWith f v) ↔ ∃ a ∈ v.addresses, Fails (f a) := by
  match v with
  | .scalar s => simp [treeWith, Value.addresses]
  | .stem a => simp [treeWith, Value.addresses]
  | .list items =>
    rw [treeWith, Value.addresses, ← treesWith_fails f items]
    exact Fails.then_pure _
  | .dict entries =>
    rw [treeWith, Value.addresses, ← entriesWith_fails f entries]
    exact Fails.then_pure _

theorem treesWith_fails (f : Address → Except Failure Tree) (vs : List Value) :
    Fails (treesWith f vs) ↔ ∃ a ∈ Value.addressesAll vs, Fails (f a) := by
  match vs with
  | [] => simp [treesWith, Value.addressesAll]
  | v :: rest =>
    simp only [Value.addressesAll, List.mem_append, or_and_right, exists_or]
    rw [treesWith, ← treeWith_fails f v, ← treesWith_fails f rest]
    exact Fails.bind_iff fun _ => Fails.then_pure _

theorem entriesWith_fails (f : Address → Except Failure Tree) (es : List (Value × Value)) :
    Fails (entriesWith f es) ↔ ∃ a ∈ Value.addressesEntries es, Fails (f a) := by
  match es with
  | [] => simp [entriesWith, Value.addressesEntries]
  | (k, v) :: rest =>
    simp only [Value.addressesEntries, List.mem_append, or_and_right, exists_or, or_assoc]
    rw [entriesWith, ← treeWith_fails f k, ← treeWith_fails f v, ← entriesWith_fails f rest]
    exact Fails.bind_iff fun _ => Fails.bind_iff fun _ => Fails.then_pure _
end

theorem namedWith_fails (f : Address → Except Failure Tree) (named : Table String Value) :
    Fails (namedWith f named) ↔ ∃ a ∈ Value.addressesAll named.values, Fails (f a) := by
  have hentry (e : String × Value) : Fails ((treeWith f e.2).map fun t => (e.1, t)) ↔ Fails (treeWith f e.2) :=
    Fails.map_iff _ _
  simp only [namedWith, Fails.traverse_iff, hentry, treeWith_fails, Value.mem_addressesAll_values]
  constructor
  · rintro ⟨e, he, a, ha, h⟩
    exact ⟨a, ⟨e, he, ha⟩, h⟩
  · rintro ⟨a, ⟨e, he, ha⟩, h⟩
    exact ⟨e, he, a, ha, h⟩

theorem follow_fails (store : Store) (depth : Nat) (a : Address) :
    Fails (store.follow (depth + 1) a) ↔ ∃ b, store.Leads a b ∧ Fails (store.follow depth b) := by
  rw [follow]
  simp only [Leads, Stem.addresses_eq, List.mem_append, or_and_right, exists_or]
  rw [← treesWith_fails, ← namedWith_fails]
  exact Fails.bind_iff fun _ => Fails.then_pure _

theorem follow_circle (h : ReflTransGen store.Leads a c) (hc : store.SelfContaining c) (depth : Nat) :
    Fails (store.follow depth a) := by
  induction depth generalizing a with
  | zero => exact ⟨_, rfl⟩
  | succ depth ih =>
    rw [follow_fails]
    rcases ReflTransGen.cases_head h with rfl | ⟨b, hab, hbc⟩
    · obtain ⟨b, hab, hba⟩ := TransGen.head'_iff.mp hc
      exact ⟨b, hab, ih hba⟩
    · exact ⟨b, hab, ih hbc⟩

/-- A way that is longer than the store has stems runs in a circle. The stems seen on it are all different so far. -/
theorem circle_of_follow {start : Address} {seen : List Address} (hseen : seen.Nodup)
    (hway : ∀ s ∈ seen, s < store.stems.size ∧ ReflTransGen store.Leads start s ∧ TransGen store.Leads s a)
    (hstart : ReflTransGen store.Leads start a) {depth : Nat} (hlong : store.stems.size < seen.length + depth)
    (h : Fails (store.follow depth a)) : ∃ c, ReflTransGen store.Leads start c ∧ store.SelfContaining c := by
  -- the stems that are seen on the way are different ones, until one of them comes again
  induction depth generalizing a seen with
  | zero =>
    have hsub : seen ⊆ List.range store.stems.size := fun s hs => List.mem_range.mpr (hway s hs).1
    have hle := (hseen.subperm hsub).length_le
    rw [List.length_range] at hle
    exact absurd hlong (Nat.not_lt.mpr hle)
  | succ depth ih =>
    obtain ⟨b, hab, hb⟩ := (follow_fails store depth a).mp h
    by_cases ha : a ∈ seen
    · exact ⟨a, hstart, (hway a ha).2.2⟩
    · refine ih (List.nodup_cons.mpr ⟨ha, hseen⟩) (fun s hs => ?_) (hstart.tail hab) ?_ hb
      · rcases List.mem_cons.mp hs with rfl | hs
        · exact ⟨leads_lt hab, hstart, .single hab⟩
        · exact ⟨(hway s hs).1, (hway s hs).2.1, (hway s hs).2.2.tail hab⟩
      · rw [List.length_cons]
        omega

/-- A value has no tree exactly if it leads to a stem that contains itself. -/
theorem tree_fails (store : Store) (v : Value) :
    Fails (store.tree v) ↔ ∃ c, store.Reaches v c ∧ store.SelfContaining c := by
  rw [tree, treeWith_fails]
  constructor
  · rintro ⟨a, ha, h⟩
    obtain ⟨c, hac, hc⟩ := circle_of_follow List.nodup_nil (by simp) .refl (by simp) h
    exact ⟨c, ⟨a, ha, hac⟩, hc⟩
  · rintro ⟨c, ⟨a, ha, hac⟩, hc⟩
    exact ⟨a, ha, follow_circle hac hc _⟩

theorem unstem_fails {depth : Nat} (h : Fails (unstem store depth v)) :
    ∃ a ∈ v.addresses, Fails (store.follow depth a) := by
  induction depth generalizing v with
  | zero =>
    cases v with
    | stem a => exact ⟨a, by simp [Value.addresses], _, rfl⟩
    | scalar _ | list _ | dict _ => exact absurd h (Fails.not_ok _)
  | succ depth ih =>
    cases v with
    | stem a =>
      refine ⟨a, by simp [Value.addresses], (follow_fails _ _ _).mpr ?_⟩
      have hentry (e : String × Value) :
          Fails ((unstem store depth e.2).map fun v => (e.1, v)) ↔ Fails (unstem store depth e.2) := Fails.map_iff _ _
      have hparts : (∃ w ∈ (store.get a).items, Fails (unstem store depth w)) ∨
          ∃ e ∈ (store.get a).named, Fails (unstem store depth e.2) := by
        simp only [← hentry, ← Fails.traverse_iff]
        exact (Fails.bind_iff fun _ => Fails.then_pure _).mp h
      rcases hparts with ⟨w, hw, hfails⟩ | ⟨e, he, hfails⟩
      · obtain ⟨b, hb, hfollow⟩ := ih hfails
        exact ⟨b, Stem.mem_addresses.mpr (.inl ⟨w, hw, hb⟩), hfollow⟩
      · obtain ⟨b, hb, hfollow⟩ := ih hfails
        exact ⟨b, Stem.mem_addresses.mpr (.inr ⟨e, he, hb⟩), hfollow⟩
    | scalar _ | list _ | dict _ => exact absurd h (Fails.not_ok _)

theorem plain_fails (h : Fails (store.plain v)) : Fails (store.tree v) := (treeWith_fails _ v).mpr (unstem_fails h)

/-! ### Layered stores -/

def Closed (store : Store) : Prop := ∀ a, store.Covers (store.get a).addresses

/-- A store whose stems lie in layers: they hold only stems of the store, and none contains itself. -/
structure Layered (store : Store) : Prop where
  closed : store.Closed
  apart : ∀ a, ¬ store.SelfContaining a

theorem layered_empty : Layered {} := by
  have hleads (a b : Address) : ¬ Store.Leads {} a b := fun hab => Nat.not_lt_zero _ (leads_lt hab)
  refine ⟨fun a b hab => absurd hab (hleads a b), fun a ha => ?_⟩
  obtain ⟨b, hab, -⟩ := TransGen.head'_iff.mp ha
  exact hleads a b hab

theorem Closed.reaches (h : store.Closed) (hv : store.Covers v.addresses) (hb : store.Reaches v b) : b < store.stems.size := by
  obtain ⟨a, ha, hab⟩ := hb
  rcases ReflTransGen.cases_tail hab with rfl | ⟨c, -, hcb⟩
  · exact hv _ ha
  · exact h c b hcb

theorem way_to {R R' : Address → Address → Prop} (h : ∀ x y, x ≠ c → R' x y → R x y) (ha : ReflTransGen R' a c) :
    ReflTransGen R a c := by
  induction ha using ReflTransGen.head_induction_on with
  | refl => exact .refl
  | @head x y hxy _ ih =>
    by_cases hx : x = c
    · exact hx ▸ .refl
    · exact ih.head (h x y hx hxy)

theorem way_with {R R' : Address → Address → Prop} {S : Address → Prop} (h : ∀ x y, R' x y → R x y ∨ x = c ∧ S y)
    (hab : TransGen R' a b) : TransGen R a b ∨ ReflTransGen R' a c ∧ ∃ y, S y ∧ ReflTransGen R' y b := by
  induction hab with
  | @single b hb =>
    rcases h _ _ hb with hb | ⟨rfl, hS⟩
    · exact .inl (.single hb)
    · exact .inr ⟨.refl, b, hS, .refl⟩
  | @tail b d hab hbd ih =>
    rcases ih with ih | ⟨hac, y, hy, hyb⟩
    · rcases h _ _ hbd with hbd | ⟨rfl, hS⟩
      · exact .inl (ih.tail hbd)
      · exact .inr ⟨hab.to_reflTransGen, d, hS, .refl⟩
    · exact .inr ⟨hac, y, hy, hyb.tail hbd⟩

theorem circle_with {R R' : Address → Address → Prop} {S : Address → Prop} (h : ∀ x y, R' x y → R x y ∨ x = c ∧ S y)
    (ha : TransGen R' a a) : TransGen R a a ∨ ∃ y, S y ∧ ReflTransGen R y c := by
  rcases way_with h ha with ha | ⟨hac, y, hy, hya⟩
  · exact .inl ha
  · -- a way to `c` that is cut where it first gets there takes no new step
    have hbefore (x y : Address) (hx : x ≠ c) (hxy : R' x y) : R x y := (h x y hxy).resolve_right fun h => hx h.1
    exact .inr ⟨y, hy, way_to hbefore (hya.trans hac)⟩

/-- A store stays layered if what one stem comes to hold does not lead back to it. -/
theorem Layered.edit (h : store.Layered) (hsize : store.stems.size ≤ store'.stems.size)
    (hleads : ∀ x y, store'.Leads x y → store.Leads x y ∨ x = c ∧ y ∈ l) (hl : store'.Covers l)
    (hback : ∀ y ∈ l, ¬ ReflTransGen store.Leads y c) : store'.Layered := by
  refine ⟨fun x y hxy => ?_, fun a ha => ?_⟩
  · rcases hleads x y hxy with hxy | ⟨-, hy⟩
    · exact Nat.lt_of_lt_of_le (h.closed x y hxy) hsize
    · exact hl y hy
  · rcases circle_with hleads ha with ha | ⟨y, hy, hway⟩
    · exact h.apart a ha
    · exact hback y hy hway

theorem leads_alloc (h : (store.alloc s).2.Leads a b) : store.Leads a b ∨ a = store.stems.size ∧ b ∈ s.addresses := by
  rw [Leads, get_alloc] at h
  split at h
  · next ha => exact .inr ⟨ha, h⟩
  · exact .inl h

theorem leads_set (h : (store.set c s).Leads a b) : store.Leads a b ∨ a = c ∧ c < store.stems.size ∧ b ∈ s.addresses := by
  rw [Leads, get_set] at h
  split at h
  · next ha => exact .inr ⟨ha.1, ha.2, h⟩
  · exact .inl h

theorem knots_iff : store.Knots a s ↔ ∃ b ∈ s.addresses, ReflTransGen store.Leads b a := by
  simp only [Knots, reflTransGen_iff_eq_or_transGen, eq_comm]

theorem Closed.unknotted (h : store.Closed) (hs : store.Covers s.addresses) : ¬ store.Knots store.stems.size s := by
  rw [knots_iff]
  rintro ⟨b, hb, hway⟩
  exact Nat.lt_irrefl _ (h.reaches (v := .stem b) (covers_stem.mpr (hs b hb)) ⟨b, by simp [Value.addresses], hway⟩)

theorem Layered.alloc (h : store.Layered) (hs : store.Covers s.addresses) : (store.alloc s).2.Layered := by
  refine h.edit (c := store.stems.size) (l := s.addresses) (by simp [size_alloc]) (fun x y hxy => ?_)
    (hs.mono (by simp [size_alloc])) fun y hy hway => ?_
  · exact leads_alloc hxy
  · exact h.closed.unknotted hs (knots_iff.mpr ⟨y, hy, hway⟩)

theorem Layered.set (h : store.Layered) (hs : ∀ b ∈ s.addresses, b ∈ (store.get a).addresses ∨ b ∈ l)
    (hl : store.Covers l) (hback : ∀ y ∈ l, ¬ ReflTransGen store.Leads y a) : (store.set a s).Layered := by
  have hsize : (store.set a s).stems.size = store.stems.size := by simp [Store.set]
  refine h.edit (c := a) (l := l) (Nat.le_of_eq hsize.symm) (fun x y hxy => ?_) (hl.mono (Nat.le_of_eq hsize.symm)) hback
  rcases leads_set hxy with hxy | ⟨rfl, -, hy⟩
  · exact .inl hxy
  · exact (hs y hy).imp_right fun hy => ⟨rfl, hy⟩

theorem Layered.unknotted (h : store.Layered) (hs : ∀ b ∈ s.addresses, b ∈ (store.get a).addresses ∨ b ∈ l)
    (hback : ∀ y ∈ l, ¬ ReflTransGen store.Leads y a) : ¬ store.Knots a s := by
  rw [knots_iff]
  rintro ⟨b, hb, hway⟩
  rcases hs b hb with hb | hb
  · exact h.apart a (.head' hb hway)
  · exact hback b hb hway

/-! ### Knots -/

/-- Where a stem contains itself, it has been noted that one was made to hold what leads back to it. -/
def Noted (store : Store) : Prop := ∀ a, store.SelfContaining a → store.knotted

theorem noted_empty : Noted {} := fun a ha => absurd ha (layered_empty.apart a)

/-- One piece of work makes a stem contain itself only if what the stem comes to hold leads back to it. -/
theorem Noted.work (h : store.Noted) (hw : store.Work store') : store'.Noted := by
  intro a ha
  cases hw with
  | alloc s =>
    rcases circle_with (R := store.Leads) (S := (· ∈ s.addresses)) (fun _ _ => leads_alloc) ha with ha | hback
    · exact .inl (h a ha)
    · exact .inr (knots_iff.mpr hback)
  | set c s =>
    rcases circle_with (R := store.Leads) (S := fun y => c < store.stems.size ∧ y ∈ s.addresses) (fun _ _ => leads_set) ha
      with ha | ⟨y, ⟨hc, hy⟩, hway⟩
    · exact .inl (h a ha)
    · exact .inr ⟨hc, knots_iff.mpr ⟨y, hy, hway⟩⟩

theorem Noted.worked (h : store.Noted) (hw : store.Worked store') : store'.Noted := by
  induction hw with
  | refl => exact h
  | tail _ hw ih => exact ih.work hw

end

end Store

end Conductor
