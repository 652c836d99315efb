import Conductor.Proofs.Memory.Paths

/-!
# Writing along a tail

What a write below a stem does, said once: it goes through the stems that are there, makes the
ones that are missing and puts the value under the last key, and each step can be refused. So of
the stems that were there it changes one at most, and of that one the entry under one key: where
the first missing stem is put, or the value if none is missing. All other stems that it changes
are new.
-/

set_option autoImplicit false

namespace Conductor

namespace Store

/-! ## A new stem -/

theorem get_grown (store : Store) (a : Address) : (store.alloc {}).2.get a = store.get a := by
  rw [get_alloc]
  split
  · next h =>
    subst h
    simp [get]
  · rfl

theorem countOf_grown (store : Store) : Fails ((store.alloc {}).2.countOf (.stem store.stems.size)) := by
  have hget : (store.alloc {}).2.get store.stems.size = {} := by rw [get_alloc, if_pos rfl]
  have htree : (store.alloc {}).2.tree (.stem store.stems.size) = .ok (.stem [] []) := by
    rw [tree, treeWith, follow, hget]
    rfl
  rw [countOf, htree]
  exact ⟨_, rfl⟩

theorem ne_count_of_set {store : Store} {s s' : Stem Value} {k : Key}
    (h : s.set (.text "") (store.alloc {}).2.countOf k (.stem store.stems.size) = .ok s') : k ≠ .index 0 := by
  rintro rfl
  obtain ⟨n, hn, -⟩ := bind_eq_ok_iff.mp h
  obtain ⟨p, hp⟩ := countOf_grown store
  cases hp.symm.trans hn

/-! ## Stores that differ in one entry -/

/-- A store in which one stem at most of those that were there is changed. -/
structure Only (b : Address) (store store' : Store) : Prop where
  size : store.stems.size ≤ store'.stems.size
  get : ∀ c, c < store.stems.size → c ≠ b → store'.get c = store.get c

/-- A store in which that one keeps its entries under other keys, and leads to no other stems there. -/
structure Edits (b : Address) (k : Key) (store store' : Store) : Prop extends Only b store store' where
  kept : ∀ k' w, k' ≠ .index 0 → k' ≠ k → (store.get b).get? .ofNat k' = some w → (store'.get b).get? .ofNat k' = some w
  stems : ∀ k' c, k' ≠ k → (store'.get b).get? .ofNat k' = some (.stem c) → (store.get b).get? .ofNat k' = some (.stem c)

end Store

namespace Stem

variable {s s' : Stem Value} {asCount : Value → Except Problem Nat} {v w : Value} {k k' : Key} {i j n : Nat} {c : Address}

theorem mem_keys_of_get? (hk : k ≠ .index 0) (h : s.get? .ofNat k = some w) : k ∈ s.keys := by
  match k with
  | .name n =>
    refine List.mem_append_right _ (List.mem_map_of_mem ?_)
    exact List.mem_map_of_mem (Table.entry_mem_of_get? h)
  | .index 0 => exact absurd rfl hk
  | .index (i + 1) =>
    refine List.mem_append_left _ (List.mem_map.mpr ⟨i, List.mem_range.mpr ?_, rfl⟩)
    exact (List.getElem?_eq_some_iff.mp h).1

theorem get?_set_kept (hk : k ≠ .index 0) (hs : s.set (.text "") asCount k v = .ok s') (hcount : k' ≠ .index 0)
    (hne : k' ≠ k) (h : s.get? .ofNat k' = some w) : s'.get? .ofNat k' = some w := by
  rw [get?_set_of_ne _ hk hne (mem_keys_of_get? hcount h) hs, h]

theorem item?_placed (h : Placed (.text "") v i s s') (hj : j ≠ i) (hc : s'.item? j = some (.stem c)) :
    s.item? j = some (.stem c) := by
  by_cases hgap : s.count < j ∧ j < i
  · rw [h.filled j hgap.1 hgap.2] at hc
    cases hc
  · rw [← h.others j hj hgap, hc]

theorem item?_resized (h : Resized (.text "") n s s') (hc : s'.item? j = some (.stem c)) : s.item? j = some (.stem c) := by
  have hn : j ≤ n := by
    by_contra hn
    rw [item?_eq_none (by rw [h.count]; exact Nat.not_le.mp hn)] at hc
    cases hc
  by_cases hj : j ≤ s.count
  · rw [← h.kept j (Nat.le_min.mpr ⟨hn, hj⟩), hc]
  · rw [h.padded j (Nat.not_le.mp hj) hn] at hc
    cases hc

theorem stem_of_set (hs : s.set (.text "") asCount k v = .ok s') (hne : k' ≠ k)
    (h : s'.get? .ofNat k' = some (.stem c)) : s.get? .ofNat k' = some (.stem c) := by
  match k with
  | .name n =>
    cases hs
    match k' with
    | .name n' => exact (Table.get?_put_of_ne (fun heq => hne (congrArg Key.name heq)) v s.named).symm.trans h
    | .index 0 => cases h
    | .index (j + 1) => exact h
  | .index 0 =>
    obtain ⟨n, -, hn⟩ := bind_eq_ok_iff.mp hs
    have hresized := resize_resized (mapError_eq_ok hn)
    match k' with
    | .name n' =>
      change s'.named.get? n' = _ at h
      rwa [hresized.named] at h
    | .index 0 => exact absurd rfl hne
    | .index (j + 1) => exact item?_resized (j := j + 1) hresized h
  | .index (i + 1) =>
    have hplaced := place_placed (mapError_eq_ok hs)
    match k' with
    | .name n' =>
      change s'.named.get? n' = _ at h
      rwa [hplaced.named] at h
    | .index 0 => cases h
    | .index (j + 1) => exact item?_placed (j := j + 1) hplaced (fun heq => hne (congrArg Key.index heq)) h

end Stem

namespace Store

variable {store store' : Store} {a b : Address} {k : Key} {s : Stem Value} {asCount : Value → Except Problem Nat} {v : Value}

theorem only_set (store : Store) (a : Address) (s : Stem Value) : store.Only a (store.set a s) where
  size := by simp [set]
  get c _ hne := by rw [get_set, if_neg fun h => hne h.1]

theorem edits_set (hk : k ≠ .index 0) (hs : (store.get a).set (.text "") asCount k v = .ok s) :
    store.Edits a k (store.set a s) where
  toOnly := only_set store a s
  kept k' w hcount hne h := by
    rw [get_set]
    split
    · exact Stem.get?_set_kept hk hs hcount hne h
    · exact h
  stems k' c hne h := by
    rw [get_set] at h
    split at h
    · exact Stem.stem_of_set hs hne h
    · exact h

end Store

namespace Memory

/-! ## The way of a write -/

def grown (mem : Memory) : Memory := { mem with store := (mem.store.alloc {}).2 }

/-- The way of a write below a stem: through stems that are there, making those that are not. -/
inductive Course (v : Value) : Memory → Address → List Tree → EStateM.Result Problem Memory Unit → Prop
  | put {mem : Memory} {a : Address} {t : Tree} {s : Stem Value} : (mem.store.get a).write mem.store t v = .ok s →
      Course v mem a [t] (.ok () { mem with store := mem.store.set a s })
  | refused {mem : Memory} {a : Address} {t : Tree} {p : Problem} :
      (mem.store.get a).write mem.store t v = .error p → Course v mem a [t] (.error p mem)
  | unread {mem : Memory} {a : Address} {t t' : Tree} {rest : List Tree} {f : Failure} : Key.ofTree t = .error f →
      Course v mem a (t :: t' :: rest) (.error (.failure f) mem)
  | through {mem : Memory} {a b : Address} {t t' : Tree} {rest : List Tree} {k : Key} {r : EStateM.Result Problem Memory Unit} :
      Key.ofTree t = .ok k → mem.store.next (.stem a) k = .stem b → Course v mem b (t' :: rest) r →
      Course v mem a (t :: t' :: rest) r
  | made {mem : Memory} {a : Address} {t t' : Tree} {rest : List Tree} {k : Key} {s : Stem Value}
      {r : EStateM.Result Problem Memory Unit} :
      Key.ofTree t = .ok k → (mem.store.next (.stem a) k).isStem = false →
      (mem.store.get a).set (.text "") mem.grown.store.countOf k (.stem mem.store.stems.size) = .ok s →
      Course v { mem.grown with store := mem.grown.store.set a s } mem.store.stems.size (t' :: rest) r →
      Course v mem a (t :: t' :: rest) r
  | unmade {mem : Memory} {a : Address} {t t' : Tree} {rest : List Tree} {k : Key} {p : Problem} :
      Key.ofTree t = .ok k → (mem.store.next (.stem a) k).isStem = false →
      (mem.store.get a).set (.text "") mem.grown.store.countOf k (.stem mem.store.stems.size) = .error p →
      Course v mem a (t :: t' :: rest) (.error p mem.grown)

theorem childStem_apply (a : Address) (t : Tree) (mem : Memory) : childStem a t mem =
    match Key.ofTree t with
    | .error f => .error (.failure f) mem
    | .ok k =>
      match mem.store.next (.stem a) k with
      | .stem b => .ok b mem
      | _ =>
        match (mem.store.get a).set (.text "") mem.grown.store.countOf k (.stem mem.store.stems.size) with
        | .ok s => .ok mem.store.stems.size { mem.grown with store := mem.grown.store.set a s }
        | .error p => .error p mem.grown := by
  change EStateM.bind (keyed t) _ mem = _
  rw [EStateM.bind, keyed_apply]
  cases Key.ofTree t with
  | error f => rfl
  | ok k =>
    have hmake : (do
        match ← alloc {} with
        | .stem b =>
          stemSet a k (.stem b)
          return b
        | _ => return a : Act Address) mem =
        match (mem.store.get a).set (.text "") mem.grown.store.countOf k (.stem mem.store.stems.size) with
        | .ok s => .ok mem.store.stems.size { mem.grown with store := mem.grown.store.set a s }
        | .error p => .error p mem.grown := by
      change EStateM.bind (stemSet a k (.stem mem.store.stems.size)) (fun _ => pure mem.store.stems.size) mem.grown = _
      rw [EStateM.bind, stemSet_apply, show mem.grown.store.get a = mem.store.get a from Store.get_grown mem.store a]
      cases (mem.store.get a).set (.text "") mem.grown.store.countOf k (.stem mem.store.stems.size) <;> rfl
    change (match mem.store.next (.stem a) k with
      | .stem b => (pure b : Act Address)
      | _ => do
        match ← alloc {} with
        | .stem b =>
          stemSet a k (.stem b)
          return b
        | _ => return a) mem = _
    dsimp only
    cases mem.store.next (.stem a) k with
    | stem b => rfl
    | scalar _ | list _ | dict _ => exact hmake

theorem writeBelow_single (v : Value) (a : Address) (t : Tree) (mem : Memory) : writeBelow v a [t] mem =
    match (mem.store.get a).write mem.store t v with
    | .ok s => .ok () { mem with store := mem.store.set a s }
    | .error p => .error p mem := by
  change EStateM.bind (keyed t) (fun k => stemSet a k v) mem = _
  rw [EStateM.bind, keyed_apply, Stem.write]
  cases Key.ofTree t with
  | error f => rfl
  | ok k => exact stemSet_apply a k v mem

theorem writeBelow_cons (v : Value) (a : Address) (t t' : Tree) (rest : List Tree) (mem : Memory) :
    writeBelow v a (t :: t' :: rest) mem = match childStem a t mem with
      | .ok b mem' => writeBelow v b (t' :: rest) mem'
      | .error p mem' => .error p mem' := by
  change EStateM.bind (childStem a t) (fun b => writeBelow v b (t' :: rest)) mem = _
  rw [EStateM.bind]
  cases childStem a t mem <;> rfl

/-- Every write below a stem takes its way. -/
theorem course (v : Value) (mem : Memory) (a : Address) (t : Tree) (rest : List Tree) :
    Course v mem a (t :: rest) (writeBelow v a (t :: rest) mem) := by
  induction rest generalizing mem a t with
  | nil =>
    rw [writeBelow_single]
    cases hs : (mem.store.get a).write mem.store t v with
    | ok s => exact .put hs
    | error p => exact .refused hs
  | cons t' rest ih =>
    rw [writeBelow_cons, childStem_apply]
    cases ht : Key.ofTree t with
    | error f => exact .unread ht
    | ok k =>
      have hmake : (mem.store.next (.stem a) k).isStem = false → Course v mem a (t :: t' :: rest)
          (match (match (mem.store.get a).set (.text "") mem.grown.store.countOf k (.stem mem.store.stems.size) with
            | .ok s => .ok mem.store.stems.size { mem.grown with store := mem.grown.store.set a s }
            | .error p => .error p mem.grown : EStateM.Result Problem Memory Address) with
          | .ok b mem' => writeBelow v b (t' :: rest) mem'
          | .error p mem' => .error p mem') := by
        intro hnot
        cases hs : (mem.store.get a).set (.text "") mem.grown.store.countOf k (.stem mem.store.stems.size) with
        | ok s => exact .made ht hnot hs (ih _ _ _)
        | error p => exact .unmade ht hnot hs
      dsimp only
      cases hnext : mem.store.next (.stem a) k with
      | stem b => exact .through ht hnext (ih _ _ _)
      | scalar _ | list _ | dict _ => exact hmake (by rw [hnext]; rfl)

/-! ## What a write changes -/

def Along (store : Store) (v : Value) (tail : List Tree) (b : Address) (k : Key) (post : List Tree) : Prop :=
  ∃ pre t ks, tail = pre ++ t :: post ∧ Spells pre ks ∧ Key.ofTree t = .ok k ∧ store.walk v ks = .stem b

section

variable {mem mem' : Memory} {a b : Address} {t : Tree} {tail rest post : List Tree} {k k' : Key} {ks : List Key} {v w : Value}
  {store : Store} {r : EStateM.Result Problem Memory Unit} {s : Stem Value} {p : Problem}

theorem Along.here (ht : Key.ofTree t = .ok k) : Along store (.stem a) (t :: post) a k post :=
  ⟨[], t, [], rfl, .nil, ht, rfl⟩

theorem Along.cons (ht : Key.ofTree t = .ok k') (h : Along store (store.next w k') rest b k post) :
    Along store w (t :: rest) b k post := by
  obtain ⟨pre, t', ks, rfl, hs, ht', hw⟩ := h
  exact ⟨t :: pre, t', k' :: ks, rfl, .cons ht hs, ht', hw⟩

theorem Along.split (h : Along store w tail b k post) (hs : Spells tail ks) :
    ∃ pre rest, ks = pre ++ k :: rest ∧ Spells post rest ∧ store.walk w pre = .stem b := by
  obtain ⟨front, t, pre, rfl, hfront, ht, hw⟩ := h
  induction hfront generalizing w ks with
  | nil =>
    cases hs with
    | cons ht' hrest =>
      cases ht.symm.trans ht'
      exact ⟨[], _, rfl, hrest, hw⟩
  | @cons t₀ k₀ front pre ht₀ _ ih =>
    cases hs with
    | cons ht' hrest =>
      cases ht₀.symm.trans ht'
      obtain ⟨pre', rest, rfl, hpost, hw'⟩ := ih hrest hw
      exact ⟨k₀ :: pre', rest, rfl, hpost, hw'⟩

/-- What a write below a stem leaves: what it found; or the value, put where the tail ends; or, where it met what is no
stem, a new stem that nothing leads to or that is put there. -/
inductive Mark (v : Value) (mem : Memory) (a : Address) (tail : List Tree) : EStateM.Result Problem Memory Unit → Prop
  | none (p : Problem) : Mark v mem a tail (.error p mem)
  | loose {b : Address} {k : Key} {post : List Tree} (p : Problem) : Along mem.store (.stem a) tail b k post → post ≠ [] →
      (mem.store.next (.stem b) k).isStem = false → Mark v mem a tail (.error p mem.grown)
  | value {b : Address} {k : Key} {s : Stem Value} : Along mem.store (.stem a) tail b k [] →
      (mem.store.get b).set (.text "") mem.store.countOf k v = .ok s →
      Mark v mem a tail (.ok () { mem with store := mem.store.set b s })
  | stem {b : Address} {k : Key} {post : List Tree} {m : Memory} {r : EStateM.Result Problem Memory Unit} :
      Along mem.store (.stem a) tail b k post → post ≠ [] → (mem.store.next (.stem b) k).isStem = false →
      (left r).store.next (.stem b) k = .stem mem.store.stems.size → mem.store.Edits b k (left r).store →
      m.store.get mem.store.stems.size = {} → m.store.stems.size = mem.store.stems.size + 1 →
      Course v m mem.store.stems.size post r → Mark v mem a tail r

theorem Course.scope (h : Course v mem a tail r) : (left r).scope = mem.scope := by
  induction h with
  | put | refused | unread | unmade => rfl
  | through _ _ _ ih => exact ih
  | made _ _ _ _ ih => exact ih

theorem size_grown : mem.grown.store.stems.size = mem.store.stems.size + 1 := Store.size_alloc mem.store {}

theorem get_grown (c : Address) : mem.grown.store.get c = mem.store.get c := Store.get_grown mem.store c

/-- A store with a new stem under a key of a stem. -/
theorem edits_made (ha : a < mem.store.stems.size)
    (hs : (mem.store.get a).set (.text "") mem.grown.store.countOf k (.stem mem.store.stems.size) = .ok s) {store' : Store}
    (h : (mem.grown.store.set a s).Only mem.store.stems.size store') :
    mem.store.Edits a k store' ∧ store'.next (.stem a) k = .stem mem.store.stems.size := by
  have hk := Store.ne_count_of_set hs
  have hsize : (mem.grown.store.set a s).stems.size = mem.store.stems.size + 1 := by
    rw [← size_grown]
    simp [Store.set]
  have hput : store'.get a = s := by
    rw [h.get a (by rw [hsize]; exact Nat.lt_succ_of_lt ha) (Nat.ne_of_lt ha), Store.get_set,
      if_pos ⟨rfl, by rw [size_grown]; exact Nat.lt_succ_of_lt ha⟩]
  refine ⟨⟨⟨?_, fun c hc hne => ?_⟩, fun k' w hcount hne hw => ?_, fun k' c hne hc => ?_⟩, ?_⟩
  · have hle := h.size
    rw [hsize] at hle
    exact Nat.le_of_succ_le hle
  · rw [h.get c (by rw [hsize]; exact Nat.lt_succ_of_lt hc) (Nat.ne_of_lt hc), Store.get_set, if_neg fun h => hne h.1,
      get_grown]
  · rw [hput]
    exact Stem.get?_set_kept hk hs hcount hne hw
  · rw [hput] at hc
    exact Stem.stem_of_set hs hne hc
  · rw [Store.next, hput, Stem.get?_set _ hk hs]
    rfl

theorem get_made (ha : a < mem.store.stems.size) :
    (mem.grown.store.set a s).get mem.store.stems.size = {} ∧
      (mem.grown.store.set a s).stems.size = mem.store.stems.size + 1 := by
  constructor
  · rw [Store.get_set, if_neg fun h => absurd h.1.symm (Nat.ne_of_lt ha), get_grown]
    simp [Store.get]
  · rw [← size_grown]
    simp [Store.set]

theorem lt_made (ha : a < mem.store.stems.size) : mem.store.stems.size < (mem.grown.store.set a s).stems.size :=
  (get_made ha).2 ▸ Nat.lt_succ_self _

theorem Course.only (h : Course v mem a tail r) (hempty : mem.store.get a = {}) (ha : a < mem.store.stems.size) :
    mem.store.Only a (left r).store := by
  induction h with
  | refused | unread => exact ⟨Nat.le_refl _, fun _ _ _ => rfl⟩
  | put _ => exact Store.only_set _ _ _
  | through _ hnext _ => exact absurd hnext (Value.isStem_eq_false_iff.mp (Store.next_empty hempty) _)
  | unmade => exact ⟨by simp [left, size_grown], fun c _ _ => get_grown c⟩
  | @made mem a _ _ _ _ s _ _ _ hs _ ih =>
    exact (edits_made ha hs (ih (get_made (s := s) ha).1 (lt_made ha))).1.toOnly

theorem Course.mark (h : Course v mem a tail r) (hr : mem.store.Rooted (.stem a)) : Mark v mem a tail r := by
  induction h with
  | refused | unread => exact .none _
  | unmade ht hnot _ => exact .loose _ (.here ht) (List.cons_ne_nil _ _) hnot
  | put hs =>
    obtain ⟨k, hkey, hset⟩ := bind_eq_ok_iff.mp hs
    exact .value (.here (Stem.mapError_eq_ok hkey)) hset
  | @through mem a b t t' rest k r ht hnext _ ih =>
    have hb : mem.store.Rooted (.stem b) := hnext ▸ hr.walk [k]
    cases ih hb with
    | none p => exact .none p
    | loose p hplace hpost hnot => exact .loose p (.cons ht (hnext ▸ hplace)) hpost hnot
    | value hplace hset => exact .value (.cons ht (hnext ▸ hplace)) hset
    | stem hplace hpost hnot hnew hedits hempty hsize hrest =>
      exact .stem (.cons ht (hnext ▸ hplace)) hpost hnot hnew hedits hempty hsize hrest
  | @made mem a t t' rest k s r ht hnot hs hrest _ =>
    have ha := hr [] a rfl
    have hmade := get_made (s := s) ha
    obtain ⟨hedits, hnew⟩ := edits_made ha hs (hrest.only hmade.1 (lt_made ha))
    exact .stem (.here ht) (List.cons_ne_nil _ _) hnot hnew hedits hmade.1 hmade.2 hrest

end

end Memory

end Conductor
