import Conductor.Proofs.Function.Binding
import Mathlib.Algebra.Order.Group.Multiset

/-!
# When a call is refused

A call is refused exactly if it does not fit, and it lacks an argument exactly if it fits and a
required parameter has nothing. Two calls fit that the description of binding refuses: one whose
piped value goes to a pipe parameter that the entry does not have, and one that gives an extra
name twice. The first is bound as if nothing had been piped, of the second the last value stays.
Any other call that is bound keeps every value.
-/

set_option autoImplicit false

namespace Conductor.Entry

variable {e : Entry} {supplied : List Supplied} {piped : Option Value} {asStatement : Bool}

section Described

variable (e : Entry) (supplied : List Supplied) (piped : Option Value)

/-- The calls that are to be refused by the description of binding. -/
inductive Unbindable (asStatement : Bool) : Prop
  | value (operation : e.isOperation = true) (inside : asStatement = false)
  | place (operation : e.isOperation = true) (placed : Supplied.placed supplied ≠ [])
  | pipe (operation : e.isOperation = true) (piped : piped ≠ none)
  | unknown (closed : e.extraNamed = false) (name : String) (given : name ∈ (Supplied.named supplied).map Prod.fst)
      (no : ∀ p ∈ e.params, Text.upper p ≠ Text.upper name)
  | twice (again : ¬ ((Supplied.named supplied).map fun s => Text.upper s.1).Nodup)
  | slotless (piped : piped ≠ none) (fixed : e.variadic = false)
      (full : (e.openPlaces supplied).length ≤ (Supplied.placed supplied).length)
      (no : ∀ p ∈ e.pipeParam, p = "" ∨ p ∉ e.params ∨ p ∈ (e.matched supplied).keys)
  | beyond (fixed : e.variadic = false) (left : e.surplus supplied piped ≠ [])

/-- A piped value whose pipe parameter the entry does not have. -/
def Astray : Prop := piped ≠ none ∧ e.pipesFirst supplied = false ∧ ∃ p ∈ e.pipeParam, p ≠ "" ∧ p ∉ e.params

/-- An extra name that is given twice, in whatever case. -/
def Repeats : Prop := ¬ ((e.unmatched supplied).map fun s => Text.upper s.1).Nodup

end Described

/-! ## The description -/

theorem nodup_upper_iff (named : List (String × Value)) :
    (named.map fun s => Text.upper s.1).Nodup ↔
      (named.filterMap fun s => e.paramNamed? s.1).Nodup ∧
      ((named.filter fun s => (e.paramNamed? s.1).isNone).map fun s => Text.upper s.1).Nodup := by
  induction named with
  | nil => simp
  | cons s rest ih =>
    rw [List.map_cons, List.nodup_cons, ih]
    cases hp : e.paramNamed? s.1 with
    | none =>
      have hnew : Text.upper s.1 ∈ rest.map (fun s => Text.upper s.1) ↔
          Text.upper s.1 ∈ (rest.filter fun s => (e.paramNamed? s.1).isNone).map fun s => Text.upper s.1 := by
        simp only [List.mem_map, List.mem_filter]
        constructor
        · rintro ⟨s', hmem, heq⟩
          exact ⟨s', ⟨hmem, by rw [paramNamed?_congr heq, hp]; rfl⟩, heq⟩
        · rintro ⟨s', ⟨hmem, -⟩, heq⟩
          exact ⟨s', hmem, heq⟩
      rw [hnew, List.filterMap_cons, hp, List.filter_cons_of_pos (by rw [hp]; rfl), List.map_cons, List.nodup_cons]
      tauto
    | some p =>
      have hnew : Text.upper s.1 ∈ rest.map (fun s => Text.upper s.1) ↔
          p ∈ rest.filterMap fun s => e.paramNamed? s.1 := by
        simp only [List.mem_map, List.mem_filterMap]
        constructor
        · rintro ⟨s', hmem, heq⟩
          exact ⟨s', hmem, by rw [paramNamed?_congr heq, hp]⟩
        · rintro ⟨s', hmem, hp'⟩
          exact ⟨s', hmem, (paramNamed?_mem hp').2.symm.trans (paramNamed?_mem hp).2⟩
      rw [hnew, List.filterMap_cons, hp, List.filter_cons_of_neg (by simp [hp]), List.nodup_cons]
      tauto

theorem nodup_named_iff : ((Supplied.named supplied).map fun s => Text.upper s.1).Nodup ↔
    (e.matched supplied).keys.Nodup ∧ ((e.unmatched supplied).map fun s => Text.upper s.1).Nodup := by
  have hkeys : (e.matched supplied).keys = (Supplied.named supplied).filterMap fun s => e.paramNamed? s.1 := by
    simp [matched, Table.keys, List.map_filterMap, Option.map_map, Function.comp_def]
  rw [hkeys]
  exact nodup_upper_iff _

theorem unbindable_iff : e.Unbindable supplied piped asStatement ↔
    e.Misfit supplied piped asStatement ∨ e.Astray supplied piped ∨ e.Repeats supplied := by
  constructor
  · intro h
    cases h with
    | value ho hinside => exact .inl (.value ho hinside)
    | place ho hplaced => exact .inl (.place ho hplaced)
    | pipe ho hpiped => exact .inl (.pipe ho hpiped)
    | unknown hclosed name hgiven hno => exact .inl (.unknown hclosed name hgiven hno)
    | twice hagain =>
      rw [nodup_named_iff (e := e), not_and_or] at hagain
      exact hagain.imp .twice .inr
    | slotless hpiped hfixed hfull hno =>
      have hfirst := pipesFirst_eq_false_iff.mpr ⟨hfixed, hfull⟩
      by_cases hslot : ∃ p ∈ e.pipeParam, p ≠ "" ∧ p ∉ e.params
      · exact .inr (.inl ⟨hpiped, hfirst, hslot⟩)
      · refine .inl (.slotless hpiped hfirst fun p hp => ?_)
        rcases hno p hp with hempty | hnone | hbound
        · exact .inl hempty
        · exact .inl (by_contra fun hname => hslot ⟨p, hp, hname, hnone⟩)
        · exact .inr hbound
    | beyond hfixed hleft => exact .inl (.beyond hfixed hleft)
  · rintro (h | ⟨hpiped, hfirst, p, hp, -, hnone⟩ | h)
    · cases h with
      | value ho hinside => exact .value ho hinside
      | place ho hplaced => exact .place ho hplaced
      | pipe ho hpiped => exact .pipe ho hpiped
      | unknown hclosed name hgiven hno => exact .unknown hclosed name hgiven hno
      | twice hagain => exact .twice fun hnodup => hagain (nodup_named_iff.mp hnodup).1
      | slotless hpiped hfirst hno =>
        obtain ⟨hfixed, hfull⟩ := pipesFirst_eq_false_iff.mp hfirst
        exact .slotless hpiped hfixed hfull fun p hp => (hno p hp).imp_right .inr
      | beyond hfixed hleft => exact .beyond hfixed hleft
    · obtain ⟨hfixed, hfull⟩ := pipesFirst_eq_false_iff.mp hfirst
      refine .slotless hpiped hfixed hfull fun p' hp' => .inr (.inl ?_)
      rwa [← Option.some.inj ((Option.mem_def.mp hp).symm.trans hp')]
    · exact .twice fun hnodup => h (nodup_named_iff.mp hnodup).2

/-! ## What becomes of the values -/

theorem named_perm (e : Entry) (supplied : List Supplied) :
    ((e.matched supplied).values ++ (e.unmatched supplied).map Prod.snd).Perm
    ((Supplied.named supplied).map Prod.snd) := by
  have hsplit := List.filter_append_perm (fun s : String × Value => (e.paramNamed? s.1).isSome) (Supplied.named supplied)
  have hmatched : (e.matched supplied).values =
      ((Supplied.named supplied).filter fun s => (e.paramNamed? s.1).isSome).map Prod.snd := by
    simp only [matched, Table.values]
    induction Supplied.named supplied with
    | nil => rfl
    | cons s rest ih => cases hp : e.paramNamed? s.1 <;> simp [hp, ih]
  have hunmatched : e.unmatched supplied =
      (Supplied.named supplied).filter fun s => !(e.paramNamed? s.1).isSome := by
    simp [unmatched]
  rw [hmatched, hunmatched, ← List.map_append]
  exact hsplit.map Prod.snd

theorem supplied_perm (supplied : List Supplied) :
    ((Supplied.named supplied).map Prod.snd ++ Supplied.placed supplied).Perm (supplied.map Prod.snd) := by
  induction supplied with
  | nil => exact .refl []
  | cons s rest ih =>
    obtain ⟨name, v⟩ := s
    cases name with
    | none => exact (List.perm_middle).trans (ih.cons v)
    | some name => exact ih.cons v

theorem Seated.values_perm (h : e.Seated supplied piped) :
    ((e.given supplied piped).values ++ (e.unmatched supplied).map Prod.snd ++ e.surplus supplied piped).Perm
      (supplied.map Prod.snd ++ piped.toList) := by
  have hqueue : Table.values ((e.takers supplied piped).zip (e.queue supplied piped)) ++ e.surplus supplied piped =
      e.queue supplied piped := by
    rw [Table.values_zip, surplus, List.take_append_drop]
  have hpiped : ((e.pipedInto supplied piped).values ++ e.queue supplied piped).Perm
      (piped.toList ++ Supplied.placed supplied) := by
    cases piped with
    | none => exact .refl _
    | some v =>
      cases hfirst : e.pipesFirst supplied with
      | true =>
        rw [pipedInto_of_first hfirst, queue, hfirst]
        exact .refl _
      | false =>
        obtain ⟨p, hp, -⟩ := h.slot (by simp) hfirst
        rw [pipedInto_of_slot hfirst hp, queue, hfirst]
        exact .refl _
  have hnamed := named_perm e supplied
  have hsupplied := supplied_perm supplied
  rw [← hqueue] at hpiped
  rw [given, Table.values, List.map_append, List.map_append, ← Table.values, ← Table.values, ← Table.values]
  simp only [← Multiset.coe_eq_coe, ← Multiset.coe_add] at hnamed hsupplied hpiped ⊢
  calc
    _ = ((e.matched supplied).values + (e.unmatched supplied).map Prod.snd : Multiset Value) +
        ((e.pipedInto supplied piped).values +
          (Table.values ((e.takers supplied piped).zip (e.queue supplied piped)) + e.surplus supplied piped)) := by ac_rfl
    _ = (Supplied.named supplied).map Prod.snd + (piped.toList + Supplied.placed supplied) := by rw [hnamed, hpiped]
    _ = (Supplied.named supplied).map Prod.snd + Supplied.placed supplied + piped.toList := by ac_rfl
    _ = _ := by rw [hsupplied]

theorem given_subset (hastray : ¬ e.Astray supplied piped) (hseated : e.Seated supplied piped) :
    (e.given supplied piped).keys ⊆ e.params := by
  intro p hp
  rcases mem_keys_given.mp hp with (hp | hp) | hp
  · exact mem_params_of_matched hp
  · rcases pipedInto_eq_nil_or e supplied piped with hnil | ⟨v, q, rfl, hq, hfirst, hone⟩
    · simp [hnil, Table.keys] at hp
    · obtain rfl : p = q := by simpa [hone, Table.keys] using hp
      obtain ⟨q', hq', hname, -⟩ := hseated.slot (by simp) hfirst
      obtain rfl : p = q' := Option.some.inj (hq.symm.trans hq')
      exact by_contra fun hno => hastray ⟨by simp, hfirst, p, hq, hname, hno⟩
  · exact (mem_openPlaces.mp (mem_takers.mp (List.mem_of_mem_take hp)).1).1

theorem given_subperm (hastray : ¬ e.Astray supplied piped) (hseated : e.Seated supplied piped) :
    (e.given supplied piped).values.Subperm
      ((e.arrange (e.given supplied piped) true e.params).placed ++
        Table.values (Table.ofEntries (e.arrange (e.given supplied piped) true e.params).named)) := by
  set bound := e.given supplied piped with hbound
  have hnodup : bound.keys.Nodup := hseated.nodup_given
  have hcovered : bound.keys ⊆
      e.byPlace bound true e.params ++ Table.keys (Table.ofEntries (e.arrange bound true e.params).named) := by
    intro p hp
    obtain ⟨⟨p, v⟩, hmem, rfl⟩ := List.mem_map.mp hp
    have hparam : p ∈ e.params := given_subset hastray hseated hp
    refine List.mem_append.mpr ((arrange_covers hparam (Table.get?_of_mem hnodup hmem)).imp_right ?_)
    exact fun hmem => Table.mem_keys_ofEntries.mpr (List.mem_map_of_mem hmem)
  obtain ⟨keys, hperm, hsub⟩ := hnodup.subperm hcovered
  rw [arrange_placed, ← Table.filterMap_keys (f := bound.get?) fun q hq => Table.get?_of_mem hnodup hq,
    ← Table.filterMap_keys (f := bound.get?) (t := Table.ofEntries _) ?_, ← List.filterMap_append]
  · exact ⟨keys.filterMap bound.get?, hperm.filterMap _, hsub.filterMap _⟩
  · exact fun q hq => (mem_arrange_named (Table.mem_of_mem_ofEntries hq)).2

theorem supplied_subperm (hseated : e.Seated supplied piped) (hastray : ¬ e.Astray supplied piped)
    (hextra : ((e.unmatched supplied).map Prod.fst).Nodup) :
    (supplied.map Prod.snd ++ piped.toList).Subperm (e.settled supplied piped).all := by
  refine hseated.values_perm.symm.subperm.trans ?_
  rw [List.append_assoc]
  refine ((given_subperm hastray hseated).append (.refl _)).trans (List.Perm.subperm ?_)
  simp only [settled, Arguments.all, extras_behind _ _ hextra, Table.values, List.map_append, ← Multiset.coe_eq_coe,
    ← Multiset.coe_add]
  ac_rfl

theorem extra_last {name : String} (h : e.paramNamed? name = none) :
    (e.settled supplied piped).named.get? name = Table.get? name (e.unmatched supplied).reverse := by
  have hnone : Table.get? name (Table.ofEntries (e.arrange (e.given supplied piped) true e.params).named) = none := by
    refine Table.get?_eq_none_iff.mpr fun hmem => ?_
    obtain ⟨⟨p, v⟩, hnamed, rfl⟩ := List.mem_map.mp (Table.mem_keys_ofEntries.mp hmem)
    exact paramNamed?_eq_none_iff.mp h _ (mem_arrange_named hnamed).1 rfl
  rw [settled, Table.get?_putAll, hnone, Option.or_none, Table.get?_reverse (Table.nodup_ofEntries _),
    Table.get?_ofEntries]

/-! ## Values that go astray -/

section Astray

variable {p : String} {v : Value}

theorem Astray.pipedInto (h : e.Astray supplied piped) :
    ∃ v p, piped = some v ∧ e.pipedInto supplied piped = [(p, v)] ∧ p ≠ "" ∧ p ∉ e.params ∧ p ∈ e.pipeParam := by
  obtain ⟨hpiped, hfirst, p, hp, hname, hno⟩ := h
  obtain ⟨v, rfl⟩ := Option.ne_none_iff_exists'.mp hpiped
  exact ⟨v, p, rfl, pipedInto_of_slot hfirst hp v, hname, hno, hp⟩

theorem Astray.queue (h : e.Astray supplied piped) : e.queue supplied piped = e.queue supplied none := by
  obtain ⟨hpiped, hfirst, -⟩ := h
  obtain ⟨v, rfl⟩ := Option.ne_none_iff_exists'.mp hpiped
  simp [Entry.queue, hfirst]

theorem Astray.takers (h : e.Astray supplied piped) : e.takers supplied piped = e.takers supplied none := by
  obtain ⟨v, p, rfl, hinto, -, hno, -⟩ := h.pipedInto
  rw [Entry.takers, Entry.takers, hinto]
  congr 1
  refine List.filter_congr fun q hq => ?_
  have hne : p ≠ q := fun heq => hno (heq ▸ (mem_openPlaces.mp hq).1)
  simp [Entry.pipedInto, Table.contains, Table.get?, hne]

theorem Astray.surplus (h : e.Astray supplied piped) : e.surplus supplied piped = e.surplus supplied none := by
  rw [Entry.surplus, Entry.surplus, h.takers, h.queue]

theorem Astray.given (h : e.Astray supplied piped) {q : String} (hq : q ∈ e.params) :
    (e.given supplied piped).get? q = (e.given supplied none).get? q := by
  have htakers := h.takers
  have hqueue := h.queue
  obtain ⟨v, p, rfl, hinto, -, hno, -⟩ := h.pipedInto
  have hne : p ≠ q := fun heq => hno (heq ▸ hq)
  rw [Entry.given, Entry.given, htakers, hqueue, hinto, Table.get?_append, Table.get?_append, Table.get?_append,
    Table.get?_append]
  simp [Entry.pipedInto, Table.get?, hne]

theorem Astray.conclude (h : e.Astray supplied piped) : e.conclude supplied piped = e.conclude supplied none := by
  have hfind : (e.params.find? fun p => !(e.given supplied piped).contains p && !e.optional.contains p) =
      e.params.find? fun p => !(e.given supplied none).contains p && !e.optional.contains p := by
    rw [← List.head?_filter, ← List.head?_filter]
    exact congrArg List.head? (List.filter_congr fun q hq => by simp only [Table.contains, h.given hq])
  rw [Entry.conclude, Entry.conclude, settled, settled, h.surplus, hfind, arrange_congr fun q hq => h.given hq]

/-- A piped value that goes astray makes no difference. -/
theorem Astray.bind (h : e.Astray supplied piped) (hstyle : e.isOperation = false) :
    e.bind supplied piped asStatement = e.bind supplied none asStatement := by
  have hready (piped : Option Value) : e.checkStyle (Supplied.placed supplied) piped asStatement = .ok () :=
    checkStyle_ok (by simp [hstyle]) (by simp [hstyle]) (by simp [hstyle])
  rcases bindNamed_cases e supplied with ⟨c, hc, -⟩ | ⟨hknown, honce⟩
  · rw [Entry.bind, Entry.bind, ← Supplied.placed, hready, hready, ok_bind, ok_bind, hc]
    rfl
  · have hseated : e.Seated supplied piped := by
      obtain ⟨-, -, p, hp, hname, hno⟩ := h
      exact ⟨hknown, honce, fun _ _ => ⟨p, hp, hname, fun hmem => hno (mem_params_of_matched hmem)⟩⟩
    rw [bind_of_seated (hready piped) hseated, bind_of_seated (hready none) ⟨hknown, honce, by simp⟩, h.surplus,
      h.conclude]

end Astray

/-! ## The outcomes of binding -/

/-- A call is refused exactly if it does not fit, and lacks an argument exactly if it fits and a required parameter has
nothing; otherwise it is bound. The calls that are to be refused are those, the ones whose piped value goes astray, and the
ones that repeat an extra name. No other call that is bound loses a value; in these the piped value, and all but the last
value for an extra name, are lost. -/
theorem binding_outcomes (e : Entry) (supplied : List Supplied) (piped : Option Value) (asStatement : Bool) :
    (Refused (e.bind supplied piped asStatement) ↔ e.Misfit supplied piped asStatement) ∧
    ((∃ c, e.bind supplied piped asStatement = .error c ∧ c.kind = .missingArgument) ↔
      ¬ e.Misfit supplied piped asStatement ∧ e.Lacks supplied piped) ∧
    ((∃ a, e.bind supplied piped asStatement = .ok a) ↔
      ¬ e.Misfit supplied piped asStatement ∧ ¬ e.Lacks supplied piped) ∧
    (e.Unbindable supplied piped asStatement ↔
      e.Misfit supplied piped asStatement ∨ e.Astray supplied piped ∨ e.Repeats supplied) ∧
    (∀ a, e.bind supplied piped asStatement = .ok a → ¬ e.Astray supplied piped →
      ((e.unmatched supplied).map Prod.fst).Nodup → (supplied.map Prod.snd ++ piped.toList).Subperm a.all) ∧
    (e.Astray supplied piped → e.isOperation = false →
      e.bind supplied piped asStatement = e.bind supplied none asStatement) ∧
    ∀ a, e.bind supplied piped asStatement = .ok a → ∀ name, e.paramNamed? name = none →
      a.named.get? name = Table.get? name (e.unmatched supplied).reverse := by
  refine ⟨refused_iff, lacking_iff, ?_, unbindable_iff, ?_, Astray.bind, ?_⟩
  · simp [bound_iff]
  · intro a ha hastray hextra
    obtain ⟨hfits, -, rfl⟩ := bound_iff.mp ha
    exact supplied_subperm (.of_fits hfits) hastray hextra
  · intro a ha name hname
    obtain ⟨-, -, rfl⟩ := bound_iff.mp ha
    exact extra_last hname

/-- One place, and a pipe parameter that the entry does not have. -/
def piper : Entry := { name := "F", tier := .builtin, routine := .cancelRuns, params := ["a"], pipeParam := some "nope" }

def taker : Entry := { name := "F", tier := .builtin, routine := .cancelRuns, params := ["a"], extraNamed := true }

/-- Two calls that are to be refused, and what is lost of them. -/
theorem binding_outcomes_lost :
    (piper.Unbindable [(none, .int 1)] (some (.int 2)) false ∧
      piper.bind [(none, .int 1)] (some (.int 2)) false = .ok { placed := [.int 1] }) ∧
    taker.Unbindable [(none, .int 1), (some "z", .int 2), (some "z", .int 3)] none false ∧
      ∃ a, taker.bind [(none, .int 1), (some "z", .int 2), (some "z", .int 3)] none false = .ok a ∧
        a.named.get? "z" = some (.int 3) ∧ a.all.length = 2 := by
  obtain ⟨-, -, -, hunbindable, -, hastray, -⟩ := binding_outcomes piper [(none, .int 1)] (some (.int 2)) false
  have h : piper.Astray [(none, .int 1)] (some (.int 2)) := ⟨by simp, rfl, "nope", rfl, by decide, by decide⟩
  refine ⟨⟨hunbindable.mpr (.inr (.inl h)), (hastray h rfl).trans rfl⟩, ?_⟩
  obtain ⟨-, -, -, hunbindable, -, -, hlast⟩ :=
    binding_outcomes taker [(none, .int 1), (some "z", .int 2), (some "z", .int 3)] none false
  exact ⟨hunbindable.mpr (.inr (.inr (by unfold Repeats; decide))), _, rfl, hlast _ rfl "z" rfl, rfl⟩

end Conductor.Entry
