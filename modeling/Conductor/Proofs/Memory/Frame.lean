import Conductor.Proofs.Memory.Writing

/-!
# What a write leaves of all paths

A write that changes one entry of the stems that were there changes no path but those through that entry. The write
of a variable along a tail is one below a stem, after the variable was given one if it held none.

So a refused write is not undone, but it does not reach far either. If stems stand all along the way nothing is
changed. If not, the first thing on the way that is no stem may be replaced by a new stem, and a variable that holds
no stem always is; all else that was bound is read as before.
-/

set_option autoImplicit false

namespace Conductor

namespace Store

section

variable {store store' : Store} {v : Value} {k : Key} {ks qs pre post : List Key} {b c : Address}

theorem countless_of_walk (h : store.walk v ks = .stem c) : Key.index 0 ∉ ks := by
  intro hmem
  obtain ⟨pre, post, rfl⟩ := List.append_of_mem hmem
  rw [walk_append, walk_cons] at h
  exact walk_ne_stem next_count h

/-- What stands at the end of a path stays unless the path runs through the entry that is changed. -/
theorem Edits.walk (h : store.Edits b k store') (hr : store.Rooted v) (hcount : .index 0 ∉ qs)
    (hbound : (store.walk v qs).isUnbound = false) :
    store'.walk v qs = store.walk v qs ∨ ∃ pre post, qs = pre ++ k :: post ∧ store.walk v pre = .stem b := by
  induction qs generalizing v with
  | nil => exact .inl rfl
  | cons q qs ih =>
    simp only [List.mem_cons, not_or] at hcount
    have hstep (hnext : store'.next v q = store.next v q) : store'.walk v (q :: qs) = store.walk v (q :: qs) ∨
        ∃ pre post, q :: qs = pre ++ k :: post ∧ store.walk v pre = .stem b := by
      rw [walk_cons, walk_cons, hnext]
      obtain heq | ⟨pre, post, rfl, hw⟩ := ih (hr.walk [q]) hcount.2 hbound
      · exact .inl heq
      · exact .inr ⟨q :: pre, post, rfl, hw⟩
    by_cases hv : v = .stem b
    · subst hv
      by_cases hq : q = k
      · exact .inr ⟨[], qs, by rw [hq]; rfl, rfl⟩
      · cases hget : (store.get b).get? .ofNat q with
        | none =>
          have hnone : store.next (.stem b) q = .unbound := by rw [next, hget]; rfl
          rw [walk_cons, hnone, walk_unbound] at hbound
          cases hbound
        | some w =>
          refine hstep ?_
          rw [next, next, hget, h.kept q w (Ne.symm hcount.1) hq hget]
    · refine hstep ?_
      cases v with
      | stem c => rw [next, next, h.get c (hr [] c rfl) fun heq => hv (heq ▸ rfl)]
      | scalar _ | list _ | dict _ => rfl

theorem Edits.walk_stem (h : store.Edits b k store') (hgap : (store.next (.stem b) k).isStem = false) (hr : store.Rooted v)
    (hw : store.walk v qs = .stem c) : store'.walk v qs = .stem c := by
  obtain heq | ⟨pre, post, rfl, hpre⟩ := h.walk hr (countless_of_walk hw) (by rw [hw]; rfl)
  · rw [heq, hw]
  · rw [walk_append, hpre, walk_cons] at hw
    exact absurd hw (walk_ne_stem hgap)

theorem Edits.walk_gap (h : store.Edits b k store') (hgap : (store.next (.stem b) k).isStem = false) (hr : store.Rooted v)
    (hcount : .index 0 ∉ qs) (hbound : (store.walk v qs).isUnbound = false) :
    store'.walk v qs = store.walk v qs ∨
      ∃ pre, qs = pre ++ [k] ∧ store.walk v pre = .stem b ∧ store'.walk v qs = store'.next (.stem b) k := by
  obtain heq | ⟨pre, post, hqs, hw⟩ := h.walk hr hcount hbound
  · exact .inl heq
  · obtain rfl : post = [] := by
      by_contra hpost
      rw [hqs, walk_append, hw, walk_cons, walk_of_not_stem hgap hpost] at hbound
      cases hbound
    refine .inr ⟨pre, hqs, hw, ?_⟩
    rw [hqs, walk_append, h.walk_stem hgap hr hw]
    rfl

end

end Store

namespace Memory

section

variable {mem mem' mem₁ : Memory} {name var var' : String} {tail rest : List Tree} {t : Tree} {ks qs : List Key} {v w : Value}
  {a b c : Address} {k : Key} {post : List Tree} {p : Problem}

/-! ## Where a write starts -/

def opened (var : String) (mem : Memory) : Memory :=
  { mem.grown with scope := mem.scope.put var (.stem mem.store.stems.size) }

/-- The stem below which a write along a tail goes on: the one that its variable holds, or a new one. -/
inductive Base (mem : Memory) (var : String) : Address → Memory → Prop
  | held {a : Address} : mem.found var [] = .stem a → Base mem var a mem
  | new : (mem.found var []).isStem = false → Base mem var mem.store.stems.size (mem.opened var)

theorem write_nameless {f : Failure} (hname : binding name = .error f) : write name v tail mem = .error (.failure f) mem := by
  change EStateM.bind (liftE (binding name)) _ mem = _
  rw [hname]
  rfl

theorem write_variable (hname : binding name = .ok var) (v : Value) :
    write name v [] mem = .ok () { mem with scope := mem.scope.put var v } := by
  change EStateM.bind (liftE (binding name)) _ mem = _
  rw [hname]
  rfl

theorem get_bind {α : Type} (f : Memory → Act α) (mem : Memory) : (get >>= f) mem = f mem mem := rfl

theorem write_along (hname : binding name = .ok var) (v : Value) (t : Tree) (rest : List Tree) : write name v (t :: rest) mem =
    match mem.scope.get? var with
    | some (.stem a) => writeBelow v a (t :: rest) mem
    | _ => writeBelow v mem.store.stems.size (t :: rest) (mem.opened var) := by
  simp only [write, hname, liftE, pure_bind, List.isEmpty_cons, Bool.false_eq_true, if_false]
  rw [get_bind]
  cases mem.scope.get? var with
  | none => rfl
  | some w => cases w <;> rfl

theorem write_base (hname : binding name = .ok var) (mem : Memory) (v : Value) (t : Tree) (rest : List Tree) :
    ∃ a mem₁, Base mem var a mem₁ ∧ write name v (t :: rest) mem = writeBelow v a (t :: rest) mem₁ := by
  have hfound : mem.found var [] = (mem.scope.get? var).getD .unbound := rfl
  rw [write_along hname]
  cases hget : mem.scope.get? var with
  | none => exact ⟨_, _, .new (by rw [hfound, hget]; rfl), rfl⟩
  | some w =>
    cases w with
    | stem a => exact ⟨a, mem, .held (by rw [hfound, hget]; rfl), rfl⟩
    | scalar _ | list _ | dict _ => exact ⟨_, _, .new (by rw [hfound, hget]; rfl), rfl⟩

theorem get_opened : (mem.opened var).store.get c = mem.store.get c := get_grown c

theorem size_opened : (mem.opened var).store.stems.size = mem.store.stems.size + 1 := size_grown

theorem found_opened_self : (mem.opened var).found var ks = (mem.opened var).store.walk (.stem mem.store.stems.size) ks := by
  rw [found, opened, Table.get?_put_self]
  rfl

theorem found_opened_of_ne (hne : var' ≠ var) : (mem.opened var).found var' ks = mem.found var' ks := by
  rw [found, opened, Table.get?_put_of_ne hne]
  exact Store.walk_congr fun _ _ _ _ => get_opened

theorem get_opened_new : (mem.opened var).store.get mem.store.stems.size = {} := by
  rw [get_opened]
  simp [Store.get]

theorem found_opened_stem (h : (mem.opened var).found var' ks = .stem c) :
    (var' = var ∧ ks = [] ∧ c = mem.store.stems.size) ∨ (var' ≠ var ∧ mem.found var' ks = .stem c) := by
  by_cases hvar : var' = var
  · subst hvar
    rw [found_opened_self] at h
    obtain ⟨hks, hc⟩ := Store.walk_empty get_opened_new h
    exact .inl ⟨rfl, hks, hc⟩
  · rw [found_opened_of_ne hvar] at h
    exact .inr ⟨hvar, h⟩

theorem Base.found (h : Base mem var a mem₁) : mem₁.found var [] = .stem a := by
  cases h with
  | held h => exact h
  | new _ => exact found_opened_self

theorem Base.get (h : Base mem var a mem₁) : mem₁.store.get c = mem.store.get c := by
  cases h with
  | held _ => rfl
  | new _ => exact get_opened

theorem Base.rooted (h : Base mem var a mem₁) (hr : mem.Rooted) : mem₁.Rooted := by
  cases h with
  | held _ => exact hr
  | new _ =>
    intro var' ks c hc
    rw [size_opened, Nat.lt_succ_iff]
    obtain ⟨-, -, rfl⟩ | ⟨-, hc⟩ := found_opened_stem hc
    · exact Nat.le_refl _
    · exact Nat.le_of_lt (hr var' ks c hc)

theorem Base.unshared (h : Base mem var a mem₁) (hr : mem.Rooted) (hu : mem.Unshared) : mem₁.Unshared := by
  cases h with
  | held _ => exact hu
  | new _ =>
    intro var₁ ks₁ var₂ ks₂ c h₁ h₂
    obtain ⟨hvar₁, hks₁, hc₁⟩ | ⟨-, hold₁⟩ := found_opened_stem h₁ <;>
      obtain ⟨hvar₂, hks₂, hc₂⟩ | ⟨-, hold₂⟩ := found_opened_stem h₂
    · exact ⟨hvar₁.trans hvar₂.symm, hks₁.trans hks₂.symm⟩
    · exact absurd (hc₁ ▸ hr _ _ _ hold₂) (Nat.lt_irrefl _)
    · exact absurd (hc₂ ▸ hr _ _ _ hold₁) (Nat.lt_irrefl _)
    · exact hu _ _ _ _ c hold₁ hold₂

theorem path_of_bound (hnot : (mem.found var []).isStem = false) (hbound : (mem.found var' qs).isUnbound = false) :
    (var' = var ∧ qs = []) ∨ var' ≠ var := by
  by_cases hvar : var' = var
  · subst hvar
    by_cases hqs : qs = []
    · exact .inl ⟨rfl, hqs⟩
    · change (mem.store.walk (mem.found var' []) qs).isUnbound = false at hbound
      rw [Store.walk_of_not_stem hnot hqs] at hbound
      cases hbound
  · exact .inr hvar

theorem Base.found_of_bound (h : Base mem var a mem₁) (hne : ¬ (var' = var ∧ qs = []))
    (hbound : (mem.found var' qs).isUnbound = false) : mem₁.found var' qs = mem.found var' qs := by
  cases h with
  | held _ => rfl
  | new hnot => exact found_opened_of_ne ((path_of_bound hnot hbound).resolve_left hne)

/-! ## A write that is refused -/

/-- What a refused write may leave. -/
structure Halfway (name : String) (tail : List Tree) (mem mem' : Memory) : Prop where
  /-- Where stems stand all along the way nothing is changed. -/
  intact : (∀ pre post, tail = pre ++ post → post ≠ [] → ∃ a, mem.reads name pre = .ok (.stem a)) → mem' = mem
  /-- A variable that holds no stem holds one afterwards. -/
  lost : ∀ w, mem.reads name [] = .ok w → w.isStem = false → ∃ a, mem'.reads name [] = .ok (.stem a)
  /-- At most one thing on the way that was no stem is replaced by a new stem. -/
  replaced : (∀ name' tail', mem'.reads name' tail' = mem.reads name' tail') ∨
    ∃ pre post n, tail = pre ++ post ∧ post ≠ [] ∧ mem.store.stems.size ≤ n ∧
      (∀ a, mem.reads name pre ≠ .ok (.stem a)) ∧ mem'.reads name pre = .ok (.stem n) ∧
      ∀ name' tail' qs w, Spells tail' qs → .index 0 ∉ qs → mem.reads name' tail' = .ok w → w.isUnbound = false →
        mem'.reads name' tail' = .ok w ∨ (w.isStem = false ∧ mem'.reads name' tail' = .ok (.stem n))

theorem Along.reads (hname : binding name = .ok var) (h : Along mem.store (mem.found var []) tail b k post) :
    ∃ pre ks, tail = pre ++ post ∧ mem.found var ks = .stem b ∧ Spells pre (ks ++ [k]) ∧
      mem.reads name pre = .ok (mem.store.next (.stem b) k) := by
  obtain ⟨front, t, ks, rfl, hs, ht, hw⟩ := h
  have hspell : Spells (front ++ [t]) (ks ++ [k]) := List.rel_append hs (.cons ht .nil)
  refine ⟨front ++ [t], ks, by simp, hw, hspell, ?_⟩
  rw [reads_spelled hname hspell, found_append, show mem.found var ks = .stem b from hw]
  rfl

theorem found_of_scope (hscope : mem'.scope = mem.scope) : mem'.found var ks = mem'.store.walk (mem.found var []) ks := by
  rw [found, hscope]
  rfl

theorem replaced_gap (hname : binding name = .ok var) (hr : mem.Rooted) (hscope : mem'.scope = mem.scope)
    (halong : Along mem.store (mem.found var []) tail b k post) (hgap : (mem.store.next (.stem b) k).isStem = false)
    (hnew : mem'.store.next (.stem b) k = .stem c) (hedits : mem.store.Edits b k mem'.store) :
    ∃ pre, tail = pre ++ post ∧ (∀ a, mem.reads name pre ≠ .ok (.stem a)) ∧ mem'.reads name pre = .ok (.stem c) ∧
      ∀ name' tail' qs w, Spells tail' qs → .index 0 ∉ qs → mem.reads name' tail' = .ok w → w.isUnbound = false →
        mem'.reads name' tail' = .ok w ∨ (w.isStem = false ∧ mem'.reads name' tail' = .ok (.stem c)) := by
  obtain ⟨pre, ks, htail, hb, hspell, hread⟩ := halong.reads hname
  refine ⟨pre, htail, fun a ha => ?_, ?_, fun name' tail' qs w hqs hcount hw hbound => ?_⟩
  · rw [hread] at ha
    exact Value.isStem_eq_false_iff.mp hgap a (Except.ok.inj ha)
  · have hks : mem'.store.walk (mem.found var []) ks = .stem b := hedits.walk_stem hgap (hr.store var []) hb
    rw [reads_spelled hname hspell, found_of_scope hscope, Store.walk_append, hks, Store.walk_cons, hnew]
    rfl
  · obtain ⟨var', qs', hname', hqs', rfl⟩ := reads_bound hw hbound
    obtain rfl := hqs.unique hqs'
    rw [reads_spelled hname' hqs, found_of_scope hscope]
    obtain heq | ⟨pre', rfl, hpre, heq⟩ := hedits.walk_gap hgap (hr.store var' []) hcount hbound
    · exact .inl (congrArg Except.ok heq)
    · refine .inr ⟨?_, by rw [heq, hnew]⟩
      rw [found_append, show mem.found var' pre' = .stem b from hpre]
      exact hgap

theorem halfway_held (hname : binding name = .ok var) (hr : mem.Rooted) (ha : mem.found var [] = .stem a)
    (h : Course v mem a tail (.error p mem')) : Halfway name tail mem mem' := by
  have hscope : mem'.scope = mem.scope := h.scope
  have hlost (w : Value) (hw : mem.reads name [] = .ok w) (hnot : w.isStem = false) : ∃ a, mem'.reads name [] = .ok (.stem a) := by
    rw [reads_spelled hname .nil, ha] at hw
    cases hw
    cases hnot
  have hblocked {b : Address} {k : Key} {post : List Tree} (hplace : Along mem.store (.stem a) tail b k post) (hpost : post ≠ [])
      (hnot : (mem.store.next (.stem b) k).isStem = false) :
      ¬ ∀ pre post, tail = pre ++ post → post ≠ [] → ∃ a, mem.reads name pre = .ok (.stem a) := by
    intro hall
    obtain ⟨pre, ks, htail, -, -, hread⟩ := (ha ▸ hplace).reads hname
    obtain ⟨c, hc⟩ := hall pre post htail hpost
    rw [hread] at hc
    exact Value.isStem_eq_false_iff.mp hnot c (Except.ok.inj hc)
  generalize hr' : (EStateM.Result.error p mem' : EStateM.Result Problem Memory Unit) = r at h
  cases h.mark (ha ▸ hr.store var []) with
  | none p =>
    cases hr'
    exact ⟨fun _ => rfl, hlost, .inl fun _ _ => rfl⟩
  | loose p halong hpost hnot =>
    cases hr'
    exact ⟨fun hall => absurd hall (hblocked halong hpost hnot), hlost, .inl fun _ _ => reads_congr rfl fun _ _ c _ => get_grown c⟩
  | value => cases hr'
  | @stem b k post m r halong hpost hnot hnew hedits _ _ _ =>
    cases hr'
    obtain ⟨pre, htail, hreads⟩ := replaced_gap hname hr hscope (ha ▸ halong) hnot hnew hedits
    exact ⟨fun hall => absurd hall (hblocked halong hpost hnot), hlost,
      .inr ⟨pre, post, _, htail, hpost, Nat.le_refl _, hreads⟩⟩

theorem halfway_new (hname : binding name = .ok var) (hr : mem.Rooted) (hnot : (mem.found var []).isStem = false)
    (h : Course v (mem.opened var) mem.store.stems.size (t :: rest) (.error p mem')) : Halfway name (t :: rest) mem mem' := by
  have hscope : mem'.scope = (mem.opened var).scope := h.scope
  have hvalue : mem.reads name [] = .ok (mem.found var []) := reads_spelled hname .nil
  have hstem (a : Address) : mem.reads name [] ≠ .ok (.stem a) := fun ha =>
    Value.isStem_eq_false_iff.mp hnot a (Except.ok.inj (hvalue.symm.trans ha))
  have hnow : mem'.reads name [] = .ok (.stem mem.store.stems.size) := by
    rw [reads_spelled hname .nil, found_of_scope hscope, found_opened_self]
    rfl
  refine ⟨fun hall => ?_, fun _ _ _ => ⟨_, hnow⟩,
    .inr ⟨[], t :: rest, _, rfl, List.cons_ne_nil _ _, Nat.le_refl _, hstem, hnow, fun name' tail' qs w hqs hcount hw hbound => ?_⟩⟩
  · obtain ⟨a, ha⟩ := hall [] (t :: rest) rfl (List.cons_ne_nil _ _)
    exact absurd ha (hstem a)
  · obtain ⟨var', qs', hname', hqs', rfl⟩ := reads_bound hw hbound
    obtain rfl := hqs.unique hqs'
    rw [reads_spelled hname' hqs]
    obtain ⟨rfl, rfl⟩ | hvar := path_of_bound hnot hbound
    · exact .inr ⟨hnot, by rw [← hnow, reads_spelled hname .nil]⟩
    · have honly := h.only get_opened_new (by rw [size_opened]; exact Nat.lt_succ_self _)
      rw [found_of_scope hscope, found_opened_of_ne hvar]
      refine .inl (congrArg Except.ok (Store.walk_congr fun ks c _ hc => ?_))
      have hlt : c < mem.store.stems.size := hr var' ks c hc
      exact (honly.get c (by rw [size_opened]; exact Nat.lt_succ_of_lt hlt) (Nat.ne_of_lt hlt)).trans get_opened

/-- A refused write leaves at most a new stem where it met what is no stem. -/
theorem refused_write_halfway (hr : mem.Rooted) (h : write name v tail mem = .error p mem') : Halfway name tail mem mem' := by
  cases hname : binding name with
  | error f =>
    have hread (tail : List Tree) : mem.reads name tail = .error (.failure f) := by
      rw [reads, read_eq, hname]
      rfl
    cases h.symm.trans (write_nameless hname)
    refine ⟨fun _ => rfl, fun w hw => ?_, .inl fun _ _ => rfl⟩
    rw [hread] at hw
    cases hw
  | ok var =>
    cases tail with
    | nil =>
      rw [write_variable hname] at h
      cases h
    | cons t rest =>
      obtain ⟨a, mem₁, hbase, hwrite⟩ := write_base hname mem v t rest
      have hcourse := course v mem₁ a t rest
      rw [← hwrite, h] at hcourse
      cases hbase with
      | held ha => exact halfway_held hname hr ha hcourse
      | new hnot => exact halfway_new hname hr hnot hcourse

end

theorem rooted_of_stemless {mem : Memory} (h : ∀ var, (mem.found var []).isStem = false) : mem.Rooted :=
  fun var _ _ hc => absurd hc (Store.walk_ne_stem (h var))

/-- A count that cannot be written: the scalar is lost, and what the variable holds instead stays. -/
theorem refused_write_halfway_count :
    ∃ p mem', Rooted { scope := [("X", .int 5)] } ∧
      write "x" (.int (-1)) [.text "a", .int 0] { scope := [("X", .int 5)] } = .error p mem' ∧
      Halfway "x" [.text "a", .int 0] { scope := [("X", .int 5)] } mem' ∧
      reads { scope := [("X", .int 5)] } "x" [] = .ok (.int 5) ∧ mem'.reads "x" [] = .ok (.stem 0) := by
  have hr : Rooted { scope := [("X", .int 5)] } := rooted_of_stemless fun var => by
    change ((Table.get? var [("X", Value.int 5)]).getD .unbound).isStem = false
    rw [Table.get?]
    split <;> rfl
  obtain ⟨mem', hw, hscope⟩ : ∃ mem', write "x" (.int (-1)) [.text "a", .int 0] { scope := [("X", .int 5)] } =
      .error (.ofCause (.negativeCount "-1")) mem' ∧ mem'.scope = [("X", .stem 0)] := ⟨_, rfl, rfl⟩
  refine ⟨_, mem', hr, hw, refused_write_halfway hr hw, rfl, ?_⟩
  rw [show mem'.reads "x" [] = .ok (mem'.found "X" []) from rfl]
  change Except.ok ((mem'.scope.get? "X").getD .unbound) = _
  rw [hscope]
  rfl

end Memory

end Conductor
