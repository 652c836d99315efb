import Conductor.Proofs.Memory.Frame

/-!
# No sharing

A write of what is no stem shares none: the stems that it makes hang below each other in one chain, and the
stems that were there hang where they hung. So in a memory that is made by such writes alone, refused ones
among them, every stem has one path that leads to it.
-/

set_option autoImplicit false

namespace Conductor

namespace Store

section

variable {store store' : Store} {v w : Value} {k q : Key} {qs : List Key} {a b c : Address} {s : Stem Value}
  {asCount : Value → Except Problem Nat}

theorem walk_cons_stem_iff :
    store.walk v (q :: qs) = .stem c ↔ ∃ d, store.next v q = .stem d ∧ store.walk (.stem d) qs = .stem c := by
  rw [walk_cons]
  constructor
  · intro h
    cases hnext : store.next v q with
    | stem d => exact ⟨d, rfl, hnext ▸ h⟩
    | scalar _ | list _ | dict _ =>
      rw [hnext] at h
      exact absurd h (walk_ne_stem rfl)
  · rintro ⟨d, hnext, hw⟩
    rw [hnext, hw]

theorem walk_back (h : ∀ w q c, store'.next w q = .stem c → store.next w q = .stem c) (hw : store'.walk v qs = .stem c) :
    store.walk v qs = .stem c := by
  induction qs generalizing v with
  | nil => exact hw
  | cons q qs ih =>
    obtain ⟨d, hnext, hrest⟩ := walk_cons_stem_iff.mp hw
    exact walk_cons_stem_iff.mpr ⟨d, h v q d hnext, ih hrest⟩

theorem next_set (hs : (store.get a).set (.text "") asCount k v = .ok s) (hv : v.isStem = false)
    (h : (store.set a s).next w q = .stem c) : store.next w q = .stem c := by
  cases w with
  | scalar _ | list _ | dict _ => cases h
  | stem d =>
    rw [next_stem_iff, get_set] at h
    rw [next_stem_iff]
    split at h
    · next hd =>
      obtain ⟨rfl, -⟩ := hd
      refine Stem.stem_of_set hs (fun hq => ?_) h
      subst hq
      by_cases hcount : q = .index 0
      · subst hcount
        cases h
      · rw [Stem.get?_set _ hcount hs] at h
        cases h
        cases hv
    · exact h

theorem Edits.walk_back (h : store.Edits b k store') (hr : store.Rooted v) (hw : store'.walk v qs = .stem c) :
    store.walk v qs = .stem c ∨
      ∃ pre post, qs = pre ++ k :: post ∧ store.walk v pre = .stem b ∧ store'.walk (store'.next (.stem b) k) post = .stem c := by
  induction qs generalizing v with
  | nil => exact .inl hw
  | cons q qs ih =>
    cases v with
    | scalar _ | list _ | dict _ => exact absurd hw (walk_ne_stem rfl)
    | stem a =>
      by_cases hentry : a = b ∧ q = k
      · obtain ⟨rfl, rfl⟩ := hentry
        exact .inr ⟨[], qs, rfl, rfl, hw⟩
      · obtain ⟨d, hnext, hrest⟩ := walk_cons_stem_iff.mp hw
        have hbefore : store.next (.stem a) q = .stem d := by
          rw [next_stem_iff] at hnext ⊢
          by_cases hab : a = b
          · subst hab
            exact h.stems q d (fun hq => hentry ⟨rfl, hq⟩) hnext
          · rw [← h.get a (hr [] a rfl) hab, hnext]
        obtain hw | ⟨pre, post, rfl, hpre, hpost⟩ := ih (hbefore ▸ hr.walk [q]) hrest
        · exact .inl (walk_cons_stem_iff.mpr ⟨d, hbefore, hw⟩)
        · exact .inr ⟨q :: pre, post, rfl, by rw [walk_cons, hbefore, hpre], hpost⟩

end

end Store

namespace Memory

section

variable {mem mem' : Memory} {name var var' : String} {tail : List Tree} {ks qs : List Key} {v : Value} {a b c : Address}
  {r : EStateM.Result Problem Memory Unit}

theorem Course.chain (h : Course v mem a tail r) (hempty : mem.store.get a = {}) (hsize : mem.store.stems.size = a + 1)
    (hv : v.isStem = false) :
    ∃ ks, ∀ qs c, (left r).store.walk (.stem a) qs = .stem c → qs <+: ks ∧ c = a + qs.length ∧ c < (left r).store.stems.size := by
  have halone {a : Address} {store : Store} (hw : ∀ qs c, store.walk (.stem a) qs = .stem c → qs = [] ∧ c = a)
      (ha : a < store.stems.size) :
      ∃ ks, ∀ qs c, store.walk (.stem a) qs = .stem c → qs <+: ks ∧ c = a + qs.length ∧ c < store.stems.size := by
    refine ⟨[], fun qs c hc => ?_⟩
    obtain ⟨rfl, rfl⟩ := hw qs c hc
    exact ⟨List.nil_prefix, rfl, ha⟩
  induction h with
  | refused | unread => exact halone (fun _ _ => Store.walk_empty hempty) (hsize ▸ Nat.lt_succ_self _)
  | unmade =>
    refine halone (fun _ _ => Store.walk_empty ((get_grown _).trans hempty)) ?_
    rw [left, size_grown, hsize]
    exact Nat.lt_succ_of_lt (Nat.lt_succ_self _)
  | through _ hnext _ => exact absurd hnext (Value.isStem_eq_false_iff.mp (Store.next_empty hempty) _)
  | @put mem a t s hs =>
    obtain ⟨k, -, hset⟩ := bind_eq_ok_iff.mp hs
    refine halone (fun qs c hc => Store.walk_empty hempty (Store.walk_back (fun _ _ _ => Store.next_set hset hv) hc)) ?_
    simp [left, Store.set, hsize]
  | @made mem a t t' rest k s r ht hnot hs hrest ih =>
    have ha : a < mem.store.stems.size := hsize ▸ Nat.lt_succ_self _
    have hmade := get_made (s := s) ha
    have honly := hrest.only hmade.1 (lt_made ha)
    obtain ⟨hedits, hnew⟩ := edits_made ha hs honly
    obtain ⟨ks, hks⟩ := ih hmade.1 hmade.2
    refine ⟨k :: ks, fun qs c hc => ?_⟩
    cases qs with
    | nil =>
      cases hc
      exact ⟨List.nil_prefix, rfl, Nat.lt_of_lt_of_le ha hedits.size⟩
    | cons q qs =>
      obtain ⟨d, hnext, hw⟩ := Store.walk_cons_stem_iff.mp hc
      have hq : q = k := by
        by_contra hq
        exact Value.isStem_eq_false_iff.mp (Store.next_empty hempty) d
          (Store.next_stem_iff.mpr (hedits.stems q d hq (Store.next_stem_iff.mp hnext)))
      subst hq
      cases hnew.symm.trans hnext
      obtain ⟨hfront, hlength, hlt⟩ := hks qs c hw
      refine ⟨(List.prefix_cons_inj q).mpr hfront, ?_, hlt⟩
      rw [hlength, hsize, List.length_cons, Nat.add_assoc, Nat.add_comm 1]

theorem rooted_unshared_of_paths (hr : mem.Rooted) (hu : mem.Unshared) (hsize : mem.store.stems.size ≤ mem'.store.stems.size)
    (h : ∀ var qs c, mem'.found var qs = .stem c → mem.found var qs = .stem c) : mem'.Rooted ∧ mem'.Unshared :=
  ⟨fun var qs c hc => Nat.lt_of_lt_of_le (hr var qs c (h var qs c hc)) hsize,
    fun var₁ qs₁ var₂ qs₂ c h₁ h₂ => hu _ _ _ _ c (h var₁ qs₁ c h₁) (h var₂ qs₂ c h₂)⟩

theorem Course.unshared (h : Course v mem a tail r) (ha : mem.found var [] = .stem a) (hr : mem.Rooted) (hu : mem.Unshared)
    (hv : v.isStem = false) : (left r).Rooted ∧ (left r).Unshared := by
  have hscope : (left r).scope = mem.scope := h.scope
  cases h.mark (ha ▸ hr.store var []) with
  | none p => exact ⟨hr, hu⟩
  | loose p =>
    refine rooted_unshared_of_paths hr hu (by simp [left, size_grown]) fun var qs c hc => ?_
    rw [← hc, found_of_scope hscope]
    exact (Store.walk_congr fun _ c _ _ => get_grown c).symm
  | value halong hset =>
    refine rooted_unshared_of_paths hr hu (by simp [left, Store.set]) fun var qs c hc => ?_
    rw [found_of_scope hscope] at hc
    exact Store.walk_back (fun _ _ _ => Store.next_set hset hv) hc
  | @stem b k post m r halong hpost hgap hnew hedits hempty hsize hrest =>
    obtain ⟨_, _, pre, -, -, -, hb⟩ := halong
    have hb : mem.found var pre = .stem b := by rw [← hb, ← ha]; rfl
    obtain ⟨ks, hks⟩ := hrest.chain hempty hsize hv
    have hpath (var' : String) (qs : List Key) (c : Address) (hc : (left r).found var' qs = .stem c) :
        mem.found var' qs = .stem c ∨ ∃ post, var' = var ∧ qs = pre ++ k :: post ∧
          post <+: ks ∧ c = mem.store.stems.size + post.length ∧ c < (left r).store.stems.size := by
      rw [found_of_scope hscope] at hc
      obtain hc | ⟨pre', post, rfl, hpre, hpost⟩ := hedits.walk_back (hr.store var' []) hc
      · exact .inl hc
      · obtain ⟨rfl, rfl⟩ := hu _ _ _ _ b hpre hb
        exact .inr ⟨post, rfl, rfl, hks post c (hnew ▸ hpost)⟩
    constructor
    · intro var' qs c hc
      obtain hold | ⟨_, -, -, -, -, hlt⟩ := hpath var' qs c hc
      · exact Nat.lt_of_lt_of_le (hr _ _ c hold) hedits.size
      · exact hlt
    · intro var₁ qs₁ var₂ qs₂ c h₁ h₂
      obtain hold₁ | ⟨post₁, hvar₁, hqs₁, hpre₁, hc₁, -⟩ := hpath var₁ qs₁ c h₁ <;>
        obtain hold₂ | ⟨post₂, hvar₂, hqs₂, hpre₂, hc₂, -⟩ := hpath var₂ qs₂ c h₂
      · exact hu _ _ _ _ c hold₁ hold₂
      · exact absurd (hc₂ ▸ hr _ _ c hold₁) (Nat.not_lt.mpr (Nat.le_add_right _ _))
      · exact absurd (hc₁ ▸ hr _ _ c hold₂) (Nat.not_lt.mpr (Nat.le_add_right _ _))
      · have hlength : post₁.length = post₂.length := Nat.add_left_cancel (hc₁.symm.trans hc₂)
        have hpost := (List.prefix_of_prefix_length_le hpre₁ hpre₂ (Nat.le_of_eq hlength)).eq_of_length hlength
        exact ⟨hvar₁.trans hvar₂.symm, by rw [hqs₁, hqs₂, hpost]⟩

theorem write_unshared (hr : mem.Rooted) (hu : mem.Unshared) (name : String) (hv : v.isStem = false) (tail : List Tree) :
    (left (write name v tail mem)).Rooted ∧ (left (write name v tail mem)).Unshared := by
  cases hname : binding name with
  | error f =>
    rw [write_nameless hname]
    exact ⟨hr, hu⟩
  | ok var =>
    cases tail with
    | nil =>
      rw [write_variable hname]
      refine rooted_unshared_of_paths hr hu (Nat.le_refl _) fun var' qs c hc => ?_
      by_cases hvar : var' = var
      · subst hvar
        rw [left, found, Table.get?_put_self] at hc
        exact absurd hc (Store.walk_ne_stem hv)
      · rw [left, found, Table.get?_put_of_ne hvar] at hc
        exact hc
    | cons t rest =>
      obtain ⟨a, mem₁, hbase, hwrite⟩ := write_base hname mem v t rest
      rw [hwrite]
      exact (course v mem₁ a t rest).unshared hbase.found (hbase.rooted hr) (hbase.unshared hr hu) hv

end

/-- A memory that is made by writes of what is no stem, whether they are refused or not. -/
inductive Written : Memory → Prop
  | empty : Written {}
  | write (name : String) {v : Value} (tail : List Tree) {mem : Memory} : Written mem → v.isStem = false →
      Written (left (write name v tail mem))

/-- In such a memory all stems are in the store, and none is shared. -/
theorem Written.unshared {mem : Memory} (h : Written mem) : mem.Rooted ∧ mem.Unshared := by
  induction h with
  | empty =>
    have hnone (var : String) (ks : List Key) (c : Address) : found {} var ks ≠ .stem c := Store.walk_ne_stem rfl
    exact ⟨fun var ks c hc => absurd hc (hnone var ks c), fun var ks _ _ c hc _ => absurd hc (hnone var ks c)⟩
  | write name tail _ hv ih => exact write_unshared ih.1 ih.2 name hv tail

end Memory

end Conductor
