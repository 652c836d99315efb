import Conductor.Proofs.Function.Binding
import Mathlib.Data.List.TakeWhile

/-!
# Calls of bound functions

Arguments that an entry has bound go to a function with the entry's parameters. The function
does not refuse them, and its frame has each value where the call meant it: a named one at its
parameter, those by place at the places that were open, one after the other and the rest in the
variadic slot, and the names of no parameter in the slot for extra ones. What has no value is
optional, and has the function's own.
-/

set_option autoImplicit false

namespace Conductor

/-- A function that has the parameters of an entry. -/
structure Signature.Fits (s : Signature) (e : Entry) : Prop where
  places : s.names = e.params.filter fun p => !e.namedOnly.contains p
  asides : s.namedOnly.map Prod.fst = e.params.filter fun p => e.namedOnly.contains p
  own : ∀ p ∈ s.params ++ s.namedOnly, p.2.isSome = true ↔ p.1 ∈ e.optional
  variadic : s.variadic.isSome = e.variadic
  extra : s.extra.isSome = e.extraNamed

namespace Signature

/-- A frame: the parameters with their values or else their own, and what is more by place and by name. -/
def filled (s : Signature) (values : Table String Value) (rest : List Value) (more : List (String × Value)) :
    Table String Value :=
  (s.params ++ s.namedOnly).map (settle values) ++
    (match s.variadic with
      | some name => [(name, .list rest)]
      | none => []) ++
    match s.extra with
      | some name => [(name, .dict (more.map fun e => (.text e.1, e.2)))]
      | none => []

variable {s : Signature} {function : String}

theorem Fits.mem_params {e : Entry} (h : s.Fits e) {p : String} :
    p ∈ (s.params ++ s.namedOnly).map Prod.fst ↔ p ∈ e.params := by
  rw [List.map_append, List.mem_append, ← names, h.places, h.asides, List.mem_filter, List.mem_filter]
  cases e.namedOnly.contains p <;> simp

theorem fits_ofHost (f : HostFunction) (h : ((f.signature.params ++ f.signature.namedOnly).map Prod.fst).Nodup)
    (name : String) (tier : Tier) (metadata : Option Metadata) (source : Option String) :
    f.signature.Fits (Entry.ofHost name tier f metadata source) := by
  rw [List.map_append] at h
  obtain ⟨hplaces, hasides, hapart⟩ := List.nodup_append.mp h
  have hplace : ∀ p ∈ f.signature.params.map Prod.fst, (f.signature.namedOnly.map Prod.fst).contains p = false := by
    intro p hp
    rw [← Bool.not_eq_true, List.contains_iff_mem]
    exact fun hmem => hapart p hp p hmem rfl
  refine ⟨?_, ?_, fun p hp => ?_, rfl, rfl⟩
  · simp only [Entry.ofHost, List.map_append, List.filter_append]
    rw [List.filter_eq_self.mpr fun p hp => by rw [hplace p hp]; rfl, List.filter_eq_nil_iff.mpr fun p hp => ?_,
      List.append_nil, names]
    rw [List.contains_iff_mem.mpr hp]
    decide
  · simp only [Entry.ofHost, List.map_append, List.filter_append]
    rw [List.filter_eq_nil_iff.mpr fun p hp => by rw [hplace p hp]; decide, List.nil_append,
      List.filter_eq_self.mpr fun p hp => List.contains_iff_mem.mpr hp]
  · simp only [Entry.ofHost, List.mem_map, List.mem_filter]
    refine ⟨fun hown => ⟨p, ⟨hp, hown⟩, rfl⟩, ?_⟩
    rintro ⟨q, ⟨hq, hown⟩, heq⟩
    rwa [← List.inj_on_of_nodup_map (List.map_append ▸ h) hq hp heq]

/-! ## Arguments by name -/

theorem takeNamed_params {named : Table String Value}
    (hparams : ∀ p ∈ named.keys, p ∈ (s.params ++ s.namedOnly).map Prod.fst)
    (rest frame extra : Table String Value) (hkeys : (Table.keys (frame ++ named)).Nodup) :
    s.takeNamed function (named ++ rest) frame extra = s.takeNamed function rest (frame ++ named) extra := by
  induction named generalizing frame with
  | nil => simp
  | cons entry named ih =>
    obtain ⟨p, v⟩ := entry
    have hparam : ((s.params ++ s.namedOnly).any fun q => q.1 == p) = true := by
      obtain ⟨q, hq, heq⟩ := List.mem_map.mp (hparams p List.mem_cons_self)
      exact List.any_eq_true.mpr ⟨q, hq, beq_iff_eq.mpr heq⟩
    have hnew : p ∉ Table.keys frame := by
      simp only [Table.keys, List.map_append, List.map_cons] at hkeys ⊢
      exact fun hmem => (List.nodup_append.mp hkeys).2.2 _ hmem _ List.mem_cons_self rfl
    have hcontains : frame.contains p = false := by rwa [← Bool.not_eq_true, Table.contains_iff]
    rw [List.cons_append, takeNamed, if_pos hparam, hcontains, Table.put_of_notMem hnew]
    have hrest := ih (fun q hq => hparams q (List.mem_cons_of_mem p hq)) (frame ++ [(p, v)]) (by simpa using hkeys)
    simpa using hrest

theorem takeNamed_extra {named : Table String Value}
    (hparams : ∀ p ∈ named.keys, p ∉ (s.params ++ s.namedOnly).map Prod.fst)
    (hextra : named = [] ∨ s.extra.isSome = true) (frame extra : Table String Value)
    (hkeys : (Table.keys (extra ++ named)).Nodup) :
    s.takeNamed function named frame extra = .ok (frame, extra ++ named) := by
  induction named generalizing extra with
  | nil => simp [takeNamed]
  | cons entry named ih =>
    obtain ⟨p, v⟩ := entry
    have hparam : ((s.params ++ s.namedOnly).any fun q => q.1 == p) = false := by
      refine List.any_eq_false.mpr fun q hq heq => hparams p List.mem_cons_self ?_
      exact List.mem_map.mpr ⟨q, hq, eq_of_beq heq⟩
    have hnew : p ∉ Table.keys extra := by
      simp only [Table.keys, List.map_append, List.map_cons] at hkeys ⊢
      exact fun hmem => (List.nodup_append.mp hkeys).2.2 _ hmem _ List.mem_cons_self rfl
    have hopen : s.extra.isSome = true := hextra.resolve_left (List.cons_ne_nil _ _)
    rw [takeNamed, hparam, if_neg (by decide), if_pos hopen, Table.put_of_notMem hnew,
      ih (fun q hq => hparams q (List.mem_cons_of_mem p hq)) (.inr hopen) _ (by simpa using hkeys)]
    simp

end Signature

namespace Entry

variable {e : Entry} {supplied : List Supplied} {piped : Option Value} {asStatement : Bool} {s : Signature}

/-! ## What a call of the function finds -/

theorem places_taken (hleft : e.surplus supplied piped ≠ []) {p : String} (hp : p ∈ e.params)
    (hplace : p ∉ e.namedOnly) :
    p ∈ (e.given supplied piped).keys := by
  have hlength : (e.takers supplied piped).length ≤ (e.queue supplied piped).length := by
    by_contra hmore
    exact hleft (List.drop_eq_nil_of_le (by omega))
  rw [mem_keys_given, List.take_of_length_le hlength, mem_takers, mem_openPlaces]
  tauto

theorem keys_filterMap {ps : List String} {f : String → Option Value} (hps : ∀ p ∈ ps, (f p).isSome = true) :
    Table.keys (ps.filterMap fun p => (f p).map fun v => (p, v)) = ps := by
  induction ps with
  | nil => rfl
  | cons p rest ih =>
    obtain ⟨v, hv⟩ := Option.isSome_iff_exists.mp (hps p List.mem_cons_self)
    have hrest := ih fun q hq => hps q (List.mem_cons_of_mem p hq)
    simpa [Table.keys, hv] using hrest

theorem zip_front {ps : List String} {f : String → Option Value} (hps : ∀ p ∈ ps, (f p).isSome = true)
    (more : List String)
    (rest : List Value) (h : more = [] ∨ rest = []) :
    (ps ++ more).zip (ps.filterMap f ++ rest) = ps.filterMap (fun p => (f p).map fun v => (p, v)) ∧
      (ps.filterMap f ++ rest).drop (ps ++ more).length = rest := by
  induction ps with
  | nil => rcases h with rfl | rfl <;> simp
  | cons p ps ih =>
    obtain ⟨v, hv⟩ := Option.isSome_iff_exists.mp (hps p List.mem_cons_self)
    obtain ⟨hzip, hdrop⟩ := ih fun q hq => hps q (List.mem_cons_of_mem p hq)
    rw [List.length_append] at hdrop
    simp [hv, hzip, hdrop]

theorem byPlace_isSome {bound : Table String Value} {contiguous : Bool} {params : List String} {p : String}
    (h : p ∈ e.byPlace bound contiguous params) : (bound.get? p).isSome = true := by
  unfold byPlace at h
  split at h
  · exact List.mem_takeWhile_imp (p := fun q => bound.contains q) h
  · cases h

def frontEntries (e : Entry) (bound : Table String Value) : Table String Value :=
  (e.byPlace bound true e.params).filterMap fun p => (bound.get? p).map fun v => (p, v)

theorem keys_frontEntries (bound : Table String Value) : (e.frontEntries bound).keys = e.byPlace bound true e.params :=
  keys_filterMap fun _ hp => byPlace_isSome hp

theorem nodup_entries (bound : Table String Value) (h : e.params.Nodup) :
    (Table.keys (e.frontEntries bound ++ (e.arrange bound true e.params).named)).Nodup := by
  rw [Table.keys, List.map_append, ← Table.keys, ← Table.keys, keys_frontEntries]
  exact arrange_apart e bound true h

theorem entries_subset {bound : Table String Value} :
    Table.keys (e.frontEntries bound ++ (e.arrange bound true e.params).named) ⊆ e.params := by
  intro p hp
  rw [Table.keys, List.map_append, List.mem_append, ← Table.keys, keys_frontEntries] at hp
  rcases hp with hp | hp
  · exact byPlace_subset hp
  · obtain ⟨⟨p, v⟩, hnamed, rfl⟩ := List.mem_map.mp hp
    exact (mem_arrange_named hnamed).1

theorem get?_entries {bound : Table String Value} (h : e.params.Nodup) {p : String} (hp : p ∈ e.params) :
    Table.get? p (e.frontEntries bound ++ (e.arrange bound true e.params).named) = bound.get? p := by
  cases hv : bound.get? p with
  | none =>
    rw [Table.get?_eq_none_iff, List.map_append, List.mem_append, not_or, ← Table.keys, keys_frontEntries]
    constructor
    · intro hmem
      have hsome := byPlace_isSome hmem
      rw [hv] at hsome
      cases hsome
    · intro hmem
      obtain ⟨⟨p, v⟩, hnamed, rfl⟩ := List.mem_map.mp hmem
      exact Option.some_ne_none v ((mem_arrange_named hnamed).2.symm.trans hv)
  | some v =>
    refine Table.get?_of_mem (nodup_entries bound h) (e := (p, v)) (List.mem_append.mpr ?_)
    refine (arrange_covers hp hv).imp_left fun hmem => List.mem_filterMap.mpr ⟨p, hmem, ?_⟩
    rw [hv]
    rfl

theorem named_settled (hparams : e.params.Nodup) (hextra : ((e.unmatched supplied).map Prod.fst).Nodup) :
    (e.settled supplied piped).named =
      (e.arrange (e.given supplied piped) true e.params).named ++ e.unmatched supplied := by
  have hkeys := (List.nodup_append.mp (arrange_apart e (e.given supplied piped) true hparams)).2.1
  rw [settled, extras_behind _ _ hextra, Table.ofEntries_of_nodup hkeys]

theorem placed_settled (hs : s.Fits e) :
    s.names.zip (e.settled supplied piped).placed = e.frontEntries (e.given supplied piped) ∧
      (e.settled supplied piped).placed.drop s.params.length = e.surplus supplied piped := by
  set bound := e.given supplied piped with hbound
  set places := e.params.filter fun p => !e.namedOnly.contains p with hplaces
  have hsplit : e.byPlace bound true e.params ++ places.dropWhile (fun p => bound.contains p) = s.names := by
    rw [hs.places]
    exact List.takeWhile_append_dropWhile
  -- Either there is no gap before the surplus, or there is no surplus behind the gap.
  have hgap : places.dropWhile (fun p => bound.contains p) = [] ∨ e.surplus supplied piped = [] := by
    refine or_iff_not_imp_right.mpr fun hleft => List.dropWhile_eq_nil_iff.mpr fun p hp => ?_
    obtain ⟨hp, hplace⟩ := List.mem_filter.mp hp
    exact Table.contains_iff.mpr (places_taken hleft hp (by simpa using hplace))
  have hfront := zip_front (f := fun p => bound.get? p)
    (fun p (hp : p ∈ e.byPlace bound true e.params) => byPlace_isSome hp) _ _ hgap
  rw [hsplit, Signature.names, List.length_map] at hfront
  rw [settled, arrange_placed]
  exact hfront

theorem takeNamed_settled (hs : s.Fits e) (hparams : e.params.Nodup)
    (hextra : ((e.unmatched supplied).map Prod.fst).Nodup) (hseated : e.Seated supplied piped) (function : String) :
    s.takeNamed function (e.settled supplied piped).named (e.frontEntries (e.given supplied piped)) [] =
      .ok (e.frontEntries (e.given supplied piped) ++ (e.arrange (e.given supplied piped) true e.params).named,
        e.unmatched supplied) := by
  have hparam : ∀ p ∈ (e.arrange (e.given supplied piped) true e.params).named.keys,
      p ∈ (s.params ++ s.namedOnly).map Prod.fst := by
    intro p hp
    obtain ⟨⟨p, v⟩, hmem, rfl⟩ := List.mem_map.mp hp
    exact hs.mem_params.mpr (mem_arrange_named hmem).1
  have hother : ∀ p ∈ Table.keys (e.unmatched supplied), p ∉ (s.params ++ s.namedOnly).map Prod.fst := by
    intro p hp hmem
    obtain ⟨⟨p, v⟩, hun, rfl⟩ := List.mem_map.mp hp
    exact paramNamed?_eq_none_iff.mp (mem_unmatched.mp hun).2 p (hs.mem_params.mp hmem) rfl
  have hknown : e.unmatched supplied = [] ∨ s.extra.isSome = true := hs.extra ▸ hseated.known
  rw [named_settled hparams hextra, Signature.takeNamed_params hparam _ _ _ (nodup_entries _ hparams),
    Signature.takeNamed_extra hother hknown _ [] (show (Table.keys ([] ++ e.unmatched supplied)).Nodup from hextra)]
  rfl

/-- A function with the parameters of the entry does not refuse the arguments, and its parameters have what is given. -/
theorem frame_settled (hs : s.Fits e) (hparams : e.params.Nodup) (hextra : ((e.unmatched supplied).map Prod.fst).Nodup)
    (hfits : ¬ e.Misfit supplied piped asStatement) (hlacks : ¬ e.Lacks supplied piped) (function : String) :
    s.frame function (e.settled supplied piped) =
      .ok (s.filled (e.given supplied piped) (e.surplus supplied piped) (e.unmatched supplied)) := by
  set entries := e.frontEntries (e.given supplied piped) ++ (e.arrange (e.given supplied piped) true e.params).named
    with hentries
  have hget {p : String × Option Value} (hp : p ∈ s.params ++ s.namedOnly) :
      entries.get? p.1 = (e.given supplied piped).get? p.1 :=
    get?_entries hparams (hs.mem_params.mp (List.mem_map_of_mem hp))
  have hlacking (ps : List (String × Option Value)) (hsub : ps ⊆ s.params ++ s.namedOnly) :
      (ps.filter fun p => p.2.isNone && !entries.contains p.1).map Prod.fst = [] := by
    rw [List.map_eq_nil_iff, List.filter_eq_nil_iff]
    intro p hmem hboth
    simp only [Bool.and_eq_true, Bool.not_eq_true', ← Bool.not_eq_true, Table.contains, hget (hsub hmem)] at hboth
    refine hlacks ⟨p.1, hs.mem_params.mp (List.mem_map_of_mem (hsub hmem)), fun hopt => ?_, fun hgiven => ?_⟩
    · have hown := (hs.own p (hsub hmem)).mpr hopt
      rw [Option.isNone_iff_eq_none.mp hboth.1] at hown
      cases hown
    · exact hboth.2 (Table.contains_iff.mpr hgiven)
  have hsettle : (s.params ++ s.namedOnly).map (Signature.settle entries) =
      (s.params ++ s.namedOnly).map (Signature.settle (e.given supplied piped)) :=
    List.map_congr_left fun p hp => by rw [Signature.settle, hget hp]; rfl
  have hvariadic : (!(e.surplus supplied piped).isEmpty && s.variadic.isNone) = false := by
    by_cases hnil : e.surplus supplied piped = []
    · simp [hnil]
    · have hopen : e.variadic = true := by_contra fun hfixed => hfits (.beyond (Bool.eq_false_iff.mpr hfixed) hnil)
      rw [← Option.not_isSome, hs.variadic, hopen]
      simp
  rw [Signature.frame, (placed_settled hs).1, takeNamed_settled hs hparams hextra (.of_fits hfits), ok_bind]
  dsimp only
  rw [(placed_settled hs).2, hvariadic, hlacking _ (List.subset_append_left _ _),
    hlacking _ (List.subset_append_right _ _),
    hsettle]
  rfl

/-! ## What is given -/

theorem paramNamed?_of_upper (hdistinct : (e.params.map Text.upper).Nodup) {name p : String} (hp : p ∈ e.params)
    (hname : Text.upper p = Text.upper name) : e.paramNamed? name = some p := by
  cases hq : e.paramNamed? name with
  | none => exact absurd hname (paramNamed?_eq_none_iff.mp hq p hp)
  | some q =>
    obtain ⟨hmem, hupper⟩ := paramNamed?_mem hq
    rw [List.inj_on_of_nodup_map hdistinct hmem hp (hupper.trans hname.symm)]

/-- A call that fits leaves the pipe parameter alone as long as a place is open. -/
theorem takers_eq_openPlaces (hparams : e.params.Nodup) (hfits : ¬ e.Misfit supplied piped asStatement) :
    e.takers supplied piped = e.openPlaces supplied := by
  have hopen : (e.openPlaces supplied).Nodup := hparams.sublist List.filter_sublist
  rw [takers, eraseDups_of_nodup (hopen.sublist List.filter_sublist), List.filter_eq_self]
  intro p hp
  by_contra hpiped
  rw [Bool.not_eq_true, Bool.not_eq_false', Table.contains_iff] at hpiped
  rcases pipedInto_eq_nil_or e supplied piped with hnil | ⟨v, q, rfl, -, hfirst, hone⟩
  · simp [hnil, Table.keys] at hpiped
  obtain rfl : p = q := by simpa [hone, Table.keys] using hpiped
  -- The open places are full, so one of them less leaves a value over.
  obtain ⟨hfixed, hfull⟩ := pipesFirst_eq_false_iff.mp hfirst
  refine hfits (.beyond hfixed fun hnone => ?_)
  have hless : (e.takers supplied (some v)).length < (e.openPlaces supplied).length := by
    rw [takers, eraseDups_of_nodup (hopen.sublist List.filter_sublist)]
    refine List.length_filter_lt_length_iff_exists.mpr ⟨p, hp, ?_⟩
    simp [hone, Table.contains, Table.get?]
  have hqueue : (e.queue supplied (some v)).length = (Supplied.placed supplied).length := by simp [queue, hfirst]
  have hdrop := List.drop_eq_nil_iff.mp hnone
  omega

theorem given_named (hdistinct : (e.params.map Text.upper).Nodup) (hseated : e.Seated supplied piped) {name p : String}
    {v : Value} (hv : (name, v) ∈ Supplied.named supplied) (hp : p ∈ e.params) (hname : Text.upper p = Text.upper name) :
    (e.given supplied piped).get? p = some v := by
  have hmatched : (p, v) ∈ e.matched supplied := mem_matched.mpr ⟨name, hv, paramNamed?_of_upper hdistinct hp hname⟩
  exact Table.get?_of_mem hseated.nodup_given (List.mem_append_left _ (List.mem_append_left _ hmatched))

theorem given_place (hparams : e.params.Nodup) (hfits : ¬ e.Misfit supplied piped asStatement) {i : Nat} {p : String}
    (hp : (e.openPlaces supplied)[i]? = some p) : (e.given supplied piped).get? p = (e.queue supplied piped)[i]? := by
  have htakers := takers_eq_openPlaces hparams hfits
  have hmem : p ∈ e.takers supplied piped := htakers ▸ List.mem_of_getElem? hp
  have hmatched := Table.get?_eq_none_iff.mpr (mem_openPlaces.mp (mem_takers.mp hmem).1).2.1
  have hpiped := Table.get?_eq_none_iff.mpr (mem_takers.mp hmem).2
  rw [given, Table.get?_append, Table.get?_append, hmatched, hpiped, Option.none_or, Option.none_or, htakers]
  exact Table.get?_zip (hparams.sublist List.filter_sublist) _ hp

theorem given_piped (hpipe : ∀ p ∈ e.pipeParam, p ∈ e.params) (hseated : e.Seated supplied piped) {v : Value}
    (hpiped : piped = some v) (hfirst : e.pipesFirst supplied = false) :
    ∃ p ∈ e.pipeParam, p ∈ e.params ∧ (e.given supplied piped).get? p = some v := by
  subst hpiped
  obtain ⟨p, hp, -, -⟩ := hseated.slot (by simp) hfirst
  refine ⟨p, hp, hpipe p hp, Table.get?_of_mem (e := (p, v)) hseated.nodup_given ?_⟩
  rw [given, pipedInto_of_slot hfirst hp]
  simp

/-- Where a value comes from. -/
theorem given_source {p : String} {v : Value} (h : (e.given supplied piped).get? p = some v) :
    (∃ name, (name, v) ∈ Supplied.named supplied ∧ Text.upper p = Text.upper name) ∨
    (p ∈ e.openPlaces supplied ∧ v ∈ e.queue supplied piped) ∨
    (piped = some v ∧ e.pipesFirst supplied = false ∧ p ∈ e.pipeParam) := by
  have hmem := Table.entry_mem_of_get? h
  rw [given, List.mem_append, List.mem_append] at hmem
  rcases hmem with (hmem | hmem) | hmem
  · obtain ⟨name, hnamed, hp⟩ := mem_matched.mp hmem
    exact .inl ⟨name, hnamed, (paramNamed?_mem hp).2⟩
  · rcases pipedInto_eq_nil_or e supplied piped with hnil | ⟨w, q, rfl, hq, hfirst, hone⟩
    · simp [hnil] at hmem
    · obtain ⟨rfl, rfl⟩ : p = q ∧ v = w := by simpa [hone] using hmem
      exact .inr (.inr ⟨rfl, hfirst, hq⟩)
  · obtain ⟨hp, hv⟩ := List.of_mem_zip hmem
    exact .inr (.inl ⟨(mem_takers.mp hp).1, hv⟩)

/-- The values of the parameters, and those left over, are what a call means. -/
structure Realises (e : Entry) (supplied : List Supplied) (piped : Option Value) (values : Table String Value)
    (rest : List Value) : Prop where
  named : ∀ name v p, (name, v) ∈ Supplied.named supplied → p ∈ e.params → Text.upper p = Text.upper name →
    values.get? p = some v
  /-- A piped value that goes by place is the first of the queue. -/
  places : ∀ (i : Nat) p, (e.openPlaces supplied)[i]? = some p → values.get? p = (e.queue supplied piped)[i]?
  beyond : rest = (e.queue supplied piped).drop (e.openPlaces supplied).length
  pipe : ∀ v, piped = some v → e.pipesFirst supplied = false →
    ∃ p ∈ e.pipeParam, p ∈ e.params ∧ values.get? p = some v
  source : ∀ p v, values.get? p = some v →
    (∃ name, (name, v) ∈ Supplied.named supplied ∧ Text.upper p = Text.upper name) ∨
    (p ∈ e.openPlaces supplied ∧ v ∈ e.queue supplied piped) ∨
    (piped = some v ∧ e.pipesFirst supplied = false ∧ p ∈ e.pipeParam)
  optional : ∀ p ∈ e.params, values.get? p = none → p ∈ e.optional
  variadic : rest ≠ [] → e.variadic = true
  extra : e.unmatched supplied ≠ [] → e.extraNamed = true

/-- A function with the parameters of the entry takes the arguments of a call that is bound, and finds in its frame
what the call means. -/
theorem bound_call_realised (hs : s.Fits e) (hdistinct : (e.params.map Text.upper).Nodup)
    (hpipe : ∀ p ∈ e.pipeParam, p ∈ e.params) (hextra : ((e.unmatched supplied).map Prod.fst).Nodup) {a : Arguments}
    (h : e.bind supplied piped asStatement = .ok a) (function : String) :
    ∃ values rest, s.frame function a = .ok (s.filled values rest (e.unmatched supplied)) ∧
      e.Realises supplied piped values rest := by
  obtain ⟨hfits, hlacks, rfl⟩ := bound_iff.mp h
  have hparams : e.params.Nodup := hdistinct.of_map
  have hseated : e.Seated supplied piped := .of_fits hfits
  refine ⟨e.given supplied piped, e.surplus supplied piped, frame_settled hs hparams hextra hfits hlacks function, ?_⟩
  exact {
    named := fun name v p hv hp hname => given_named hdistinct hseated hv hp hname
    places := fun i p hp => given_place hparams hfits hp
    beyond := by rw [surplus, takers_eq_openPlaces hparams hfits]
    pipe := fun v hv hfirst => given_piped hpipe hseated hv hfirst
    source := fun p v hv => given_source hv
    optional := fun p hp hnone => by_contra fun hrequired => hlacks ⟨p, hp, hrequired, Table.get?_eq_none_iff.mp hnone⟩
    variadic := fun hleft => by_contra fun hfixed => hfits (.beyond (Bool.eq_false_iff.mpr hfixed) hleft)
    extra := hseated.known.resolve_left }

/-- A function with every sort of parameter. -/
def sampleHost : HostFunction :=
  { name := "f"
    signature :=
      { params := [("a", none), ("b", some (.int 2)), ("c", some (.int 3))]
        variadic := some "rest"
        namedOnly := [("k", none)]
        extra := some "more" } }

/-- A piped value and a name in another case; an optional parameter without a value. -/
theorem bound_call_realised_sample :
    (∃ values rest, sampleHost.signature.frame "f"
        { placed := [.int 0, .int 1, .int 9], named := [("k", .int 5), ("x", .int 7)] } =
        .ok (sampleHost.signature.filled values rest [("x", .int 7)]) ∧
      (ofHost "f" .builtin sampleHost none none).Realises
        [(none, .int 1), (some "C", .int 9), (some "K", .int 5), (some "x", .int 7)] (some (.int 0)) values rest) ∧
    ∃ values rest, sampleHost.signature.frame "f" { placed := [.int 1], named := [("c", .int 9), ("k", .int 5)] } =
        .ok (sampleHost.signature.filled values rest []) ∧
      (ofHost "f" .builtin sampleHost none none).Realises [(none, .int 1), (some "C", .int 9), (some "K", .int 5)] none
        values rest := by
  have hs : sampleHost.signature.Fits (ofHost "f" .builtin sampleHost none none) :=
    Signature.fits_ofHost sampleHost (by decide) "f" .builtin none none
  have hdistinct : ((ofHost "f" .builtin sampleHost none none).params.map Text.upper).Nodup := by decide
  have hfull : (ofHost "f" .builtin sampleHost none none).bind
      [(none, .int 1), (some "C", .int 9), (some "K", .int 5), (some "x", .int 7)] (some (.int 0)) false =
        .ok { placed := [.int 0, .int 1, .int 9], named := [("k", .int 5), ("x", .int 7)] } := rfl
  have hgap : (ofHost "f" .builtin sampleHost none none).bind [(none, .int 1), (some "C", .int 9), (some "K", .int 5)]
      none false = .ok { placed := [.int 1], named := [("c", .int 9), ("k", .int 5)] } := rfl
  exact ⟨bound_call_realised hs hdistinct (by simp [ofHost, sampleHost]) (by decide) hfull "f",
    bound_call_realised hs hdistinct (by simp [ofHost, sampleHost]) (by decide) hgap "f"⟩

end Entry

end Conductor
