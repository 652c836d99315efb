import Conductor.Proofs.Address.Domains
import Conductor.Proofs.Function.Realised
import Conductor.Run.Exec

/-!
# Two forms of a request

A method of a handler is called as a function, with parentheses, or written as a command with its
arguments behind it. Both forms evaluate their arguments one after the other and seat them by one
rule: an argument with a name goes to the parameter that the name finds, the others go to the
parameters that are left, in order.

The forms differ in three things. In a call a name finds its parameter in any case, and the request
has the method and the parameters as they were declared; a command takes both as they are written.
And a command has the data of an argument as it was evaluated, a call as the request goes out.
-/

set_option autoImplicit false

namespace Conductor

open Syntax (Expr CommandForm)

/-- An argument that was evaluated: its name, its value, the data that the value was then, and the data that it is when
all are evaluated. -/
structure Operand where
  name : Option String
  value : Value
  early : Value
  late : Value

namespace Operand

def supplied (f : Operand → Value) (ops : List Operand) : List Supplied := ops.map fun t => (t.name, f t)

def names (ops : List Operand) : List String := ops.filterMap Operand.name

def named (find : String → Option String) (ops : List Operand) : Table String Operand :=
  ops.filterMap fun t => (t.name.bind find).map fun p => (p, t)

def placed (ops : List Operand) : List Operand := ops.filter fun t => t.name.isNone

def free (find : String → Option String) (params : List String) (ops : List Operand) : List String :=
  params.filter fun p => !(named find ops).contains p

def seating (find : String → Option String) (params : List String) (ops : List Operand) : Table String Operand :=
  named find ops ++ (free find params ops).zip (placed ops)

def data (f : Operand → Value) (seats : Table String Operand) : Table String Value := seats.map fun s => (s.1, f s.2)

variable {find : String → Option String} {params : List String} {ops : List Operand} {f : Operand → Value}

/-! ## Seats -/

theorem get?_data (key : String) (seats : Table String Operand) : (data f seats).get? key = (seats.get? key).map f := by
  induction seats with
  | nil => rfl
  | cons s rest ih =>
    by_cases hs : s.1 = key
    · simp [data, Table.get?, hs]
    · simpa [data, Table.get?, hs] using ih

theorem keys_data (seats : Table String Operand) : (data f seats).keys = seats.keys := by
  simp [data, Table.keys]

theorem mem_named {p : String} {t : Operand} : (p, t) ∈ named find ops ↔ t ∈ ops ∧ t.name.bind find = some p := by
  simp only [named, List.mem_filterMap, Option.map_eq_some_iff, Prod.mk.injEq]
  constructor
  · rintro ⟨t, ht, p, hp, rfl, rfl⟩
    exact ⟨ht, hp⟩
  · rintro ⟨ht, hp⟩
    exact ⟨t, ht, p, hp, rfl, rfl⟩

theorem nodup_named (hfind : ∀ name p, find name = some p → Text.upper p = Text.upper name)
    (honce : ((names ops).map Text.upper).Nodup) : (named find ops).keys.Nodup := by
  have hsub (ops : List Operand) : ((named find ops).keys.map Text.upper).Sublist ((names ops).map Text.upper) := by
    induction ops with
    | nil => exact .slnil
    | cons t rest ih =>
      cases hname : t.name with
      | none => simpa [named, names, hname] using ih
      | some name =>
        cases hp : find name with
        | none => simpa [named, names, hname, hp] using ih.cons (Text.upper name)
        | some p => simpa [named, names, hname, hp, Table.keys, hfind name p hp] using ih.cons_cons (Text.upper name)
  exact (honce.sublist (hsub ops)).of_map

theorem length_named (find : String → Option String) (ops : List Operand) :
    (named find ops).length + (placed ops).length ≤ ops.length := by
  induction ops with
  | nil => exact Nat.le_refl 0
  | cons t rest ih =>
    cases hname : t.name with
    | none =>
      have hnamed : named find (t :: rest) = named find rest := by simp [named, hname]
      have hplaced : placed (t :: rest) = t :: placed rest := by simp [placed, hname]
      rw [hnamed, hplaced, List.length_cons, List.length_cons]
      omega
    | some name =>
      have hone : (named find (t :: rest)).length ≤ (named find rest).length + 1 := by
        cases hp : find name <;> simp [named, hname, hp]
      have hplaced : placed (t :: rest) = placed rest := by simp [placed, hname]
      rw [hplaced, List.length_cons]
      omega

theorem placed_le_free (hparams : params.Nodup) (hfit : ops.length ≤ params.length) :
    (placed ops).length ≤ (free find params ops).length := by
  have hparted : params ⊆ (named find ops).keys ++ free find params ops := by
    intro p hp
    rw [List.mem_append]
    refine or_iff_not_imp_left.mpr fun hnew => List.mem_filter.mpr ⟨hp, ?_⟩
    rw [Bool.not_eq_true', ← Bool.not_eq_true, Table.contains_iff]
    exact hnew
  have hle := (List.subperm_of_subset hparams hparted).length_le
  have hlength := length_named find ops
  rw [List.length_append, Table.keys, List.length_map] at hle
  omega

theorem nodup_seating (hnamed : (named find ops).keys.Nodup) (hparams : params.Nodup) :
    (seating find params ops).keys.Nodup := by
  rw [seating, Table.keys, List.map_append, ← Table.keys, ← Table.keys, Table.keys_zip]
  refine List.nodup_append.mpr ⟨hnamed, (hparams.sublist List.filter_sublist).sublist (List.take_sublist _ _), ?_⟩
  rintro p hp _ hmem rfl
  have hfree := (List.mem_filter.mp (List.mem_of_mem_take hmem)).2
  rw [Table.contains_iff.mpr hp] at hfree
  cases hfree

theorem exists_seat (hfound : ∀ name ∈ names ops, find name ≠ none)
    (hseats : (placed ops).length ≤ (free find params ops).length) {t : Operand} (ht : t ∈ ops) :
    ∃ p, (p, t) ∈ seating find params ops := by
  cases hname : t.name with
  | none =>
    have hplaced : t ∈ placed ops := List.mem_filter.mpr ⟨ht, by simp [hname]⟩
    have hvalues : Table.values ((free find params ops).zip (placed ops)) = placed ops := by
      rw [Table.values_zip, List.take_of_length_le hseats]
    rw [← hvalues] at hplaced
    obtain ⟨⟨p, t⟩, hmem, rfl⟩ := List.mem_map.mp hplaced
    exact ⟨p, List.mem_append_right _ hmem⟩
  | some name =>
    obtain ⟨p, hp⟩ := Option.ne_none_iff_exists'.mp (hfound name (List.mem_filterMap.mpr ⟨t, ht, hname⟩))
    exact ⟨p, List.mem_append_left _ (mem_named.mpr ⟨ht, by rw [hname]; exact hp⟩)⟩

theorem mem_of_seat {p : String} {t : Operand} (h : (p, t) ∈ seating find params ops) : t ∈ ops := by
  rcases List.mem_append.mp h with h | h
  · exact (mem_named.mp h).1
  · exact List.mem_of_mem_filter (List.of_mem_zip h).2

theorem seat_mem {p : String} (h : p ∈ (seating find params ops).keys) :
    p ∈ params ∨ ∃ name ∈ names ops, find name = some p := by
  obtain ⟨⟨p, t⟩, hmem, rfl⟩ := List.mem_map.mp h
  rcases List.mem_append.mp hmem with hmem | hmem
  · obtain ⟨ht, hp⟩ := mem_named.mp hmem
    obtain ⟨name, hname, hfound⟩ := Option.bind_eq_some_iff.mp hp
    exact .inr ⟨name, List.mem_filterMap.mpr ⟨t, ht, hname⟩, hfound⟩
  · exact .inl (List.mem_of_mem_filter (List.of_mem_zip hmem).1)

theorem seat_param {e : Entry} {p : String} (h : p ∈ (seating e.paramNamed? e.params ops).keys) : p ∈ e.params := by
  rcases seat_mem h with hparam | ⟨name, -, hname⟩
  · exact hparam
  · exact (Entry.paramNamed?_mem hname).1

theorem seating_congr {find' : String → Option String} (h : ∀ name ∈ names ops, find name = find' name) :
    seating find params ops = seating find' params ops := by
  have hnamed : named find ops = named find' ops := by
    refine List.filterMap_congr fun t ht => ?_
    cases hname : t.name with
    | none => rfl
    | some name => simp [h name (List.mem_filterMap.mpr ⟨t, ht, hname⟩)]
  rw [seating, seating, free, free, hnamed]

/-- Arguments seated by names as they are written have the same data as those seated by names in any case, exactly if
the names are written as the parameters are and the data of no argument has changed. -/
theorem same_data_iff {e : Entry} (hdistinct : (e.params.map Text.upper).Nodup)
    (honce : ((names ops).map Text.upper).Nodup) (hfit : ops.length ≤ e.params.length) :
    (∀ key, (data early (seating some e.params ops)).get? key =
        (data late (seating e.paramNamed? e.params ops)).get? key) ↔
      ∀ t ∈ ops, (∀ name, t.name = some name → name ∈ e.params) ∧ t.early = t.late := by
  have hparams : e.params.Nodup := hdistinct.of_map
  have hnodup : (seating some e.params ops).keys.Nodup :=
    nodup_seating (nodup_named (fun name p hp => by rw [Option.some.inj hp]) honce) hparams
  have hsame (hwritten : ∀ t ∈ ops, ∀ name, t.name = some name → name ∈ e.params) :
      seating some e.params ops = seating e.paramNamed? e.params ops := by
    refine seating_congr fun name hname => ?_
    obtain ⟨t, ht, hgiven⟩ := List.mem_filterMap.mp hname
    exact (Entry.paramNamed?_of_upper hdistinct (hwritten t ht name hgiven) rfl).symm
  simp only [get?_data]
  constructor
  · intro h
    have hwritten (t : Operand) (ht : t ∈ ops) (name : String) (hname : t.name = some name) : name ∈ e.params := by
      have hseat : (name, t) ∈ seating some e.params ops :=
        List.mem_append_left _ (mem_named.mpr ⟨ht, by rw [hname]; rfl⟩)
      have hkey := h name
      rw [Table.get?_of_mem hnodup hseat, Option.map_some, eq_comm, Option.map_eq_some_iff] at hkey
      obtain ⟨t', hseat', -⟩ := hkey
      exact seat_param (List.mem_map_of_mem (Table.entry_mem_of_get? hseat'))
    refine fun t ht => ⟨hwritten t ht, ?_⟩
    obtain ⟨p, hseat⟩ : ∃ p, (p, t) ∈ seating some e.params ops :=
      exists_seat (fun _ _ => Option.some_ne_none _) (placed_le_free hparams hfit) ht
    have hkey := h p
    rw [← hsame hwritten, Table.get?_of_mem hnodup hseat] at hkey
    exact Option.some.inj hkey
  · intro h key
    rw [← hsame fun t ht => (h t ht).1]
    cases hseat : Table.get? key (seating some e.params ops) with
    | none => rfl
    | some t => exact congrArg some (h t (mem_of_seat (Table.entry_mem_of_get? hseat))).2

/-! ## What the seats hold -/

theorem named_supplied : Supplied.named (supplied f ops) = data f (named some ops) := by
  induction ops with
  | nil => rfl
  | cons t rest ih =>
    cases hname : t.name with
    | none => simpa [supplied, Supplied.named, data, named, hname] using ih
    | some name => simpa [supplied, Supplied.named, data, named, hname] using ih

theorem placed_supplied : Supplied.placed (supplied f ops) = (placed ops).map f := by
  induction ops with
  | nil => rfl
  | cons t rest ih =>
    cases hname : t.name with
    | none => simpa [supplied, Supplied.placed, placed, hname] using ih
    | some name => simpa [supplied, Supplied.placed, placed, hname] using ih

theorem matched_supplied (e : Entry) : e.matched (supplied f ops) = data f (named e.paramNamed? ops) := by
  induction ops with
  | nil => rfl
  | cons t rest ih =>
    cases hname : t.name with
    | none => simpa [supplied, Entry.matched, Supplied.named, data, named, hname] using ih
    | some name =>
      cases hp : e.paramNamed? name with
      | none => simpa [supplied, Entry.matched, Supplied.named, data, named, hname, hp] using ih
      | some p => simpa [supplied, Entry.matched, Supplied.named, data, named, hname, hp] using ih

theorem data_seating : data f (seating find params ops) =
    data f (named find ops) ++ (free find params ops).zip ((placed ops).map f) := by
  rw [seating, data, List.map_append, List.zip_map_right]
  rfl

theorem free_data (seats : Table String Operand) :
    (params.filter fun p => !(data f seats).contains p) = params.filter fun p => !seats.contains p := by
  refine List.filter_congr fun p _ => ?_
  rw [Table.contains, Table.contains, get?_data, Option.isSome_map]

/-- A command fills the parameters as its arguments are seated, by names as they are written. -/
theorem requestPayload_seating (honce : ((names ops).map Text.upper).Nodup) (hparams : params.Nodup)
    (hfit : ops.length ≤ params.length) :
    Play.requestPayload params (Table.ofEntries (Supplied.named (supplied f ops))) (Supplied.placed (supplied f ops)) =
      data f (seating some params ops) := by
  have hnamed : (named some ops).keys.Nodup := nodup_named (fun name p hp => by rw [Option.some.inj hp]) honce
  have hseats : (data f (seating some params ops)).keys.Nodup := by
    rw [keys_data]
    exact nodup_seating hnamed hparams
  have htable : Table.ofEntries (Supplied.named (supplied f ops)) = data f (named some ops) := by
    rw [named_supplied, Table.ofEntries_of_nodup (by rwa [keys_data])]
  have hsurplus : ((placed ops).map f).drop (free some params ops).length = [] :=
    List.drop_eq_nil_of_le (by simpa using placed_le_free hparams hfit)
  rw [Play.requestPayload, htable, free_data, ← free, placed_supplied, hsurplus]
  rw [data_seating] at hseats ⊢
  exact Table.putAll_of_nodup hseats

theorem takers_supplied {e : Entry} (hparams : e.params.Nodup) (hplaces : e.namedOnly = []) :
    e.takers (supplied f ops) none = free e.paramNamed? e.params ops := by
  have hopen : e.openPlaces (supplied f ops) = free e.paramNamed? e.params ops := by
    rw [free, ← free_data (f := f), Entry.openPlaces, hplaces, matched_supplied]
    simp
  have hfree : (free e.paramNamed? e.params ops).Nodup := hparams.sublist List.filter_sublist
  rw [Entry.takers, hopen]
  simp [Entry.pipedInto, Table.contains, Table.get?, Entry.eraseDups_of_nodup hfree]

theorem given_seating {e : Entry} (hparams : e.params.Nodup) (hplaces : e.namedOnly = []) :
    e.given (supplied f ops) none = data f (seating e.paramNamed? e.params ops) := by
  rw [data_seating, Entry.given, takers_supplied hparams hplaces, matched_supplied]
  simp [Entry.pipedInto, Entry.queue, placed_supplied]

theorem unmatched_supplied {e : Entry} (hfound : ∀ name ∈ names ops, e.paramNamed? name ≠ none) :
    e.unmatched (supplied f ops) = [] := by
  refine List.filter_eq_nil_iff.mpr fun s hs => ?_
  rw [named_supplied] at hs
  obtain ⟨⟨name, t⟩, hmem, rfl⟩ := List.mem_map.mp hs
  obtain ⟨ht, hname⟩ := mem_named.mp hmem
  have hgiven : t.name = some name := by simpa using hname
  simpa [Option.isSome_iff_ne_none] using hfound name (List.mem_filterMap.mpr ⟨t, ht, hgiven⟩)

end Operand

/-! ## The table of a call -/

theorem Table.get?_traverse {κ α β ε : Type} [BEq κ] {f : α → Except ε β} {t : Table κ α} {u : Table κ β}
    (h : traverse (fun e => (f e.2).map fun v => (e.1, v)) t = .ok u) (key : κ) :
    (u.get? key).map Except.ok = (t.get? key).map f := by
  rw [traverse_eq_ok_iff] at h
  induction h with
  | nil => rfl
  | @cons e e' rest rest' he _ ih =>
    cases hv : f e.2 with
    | error x =>
      rw [hv] at he
      cases he
    | ok v =>
      rw [hv] at he
      obtain rfl := Except.ok.inj he
      by_cases hk : e.1 == key
      · simp [Table.get?, hk, hv]
      · simpa [Table.get?, hk] using ih

def methodSignature (params : List String) : Signature where
  params := params.map fun p => (p, some .absent)
  extra := some ""

theorem methodSignature_names (params : List String) : (methodSignature params).names = params := by
  simp [methodSignature, Signature.names, Function.comp_def]

namespace Entry.Lenient

open Operand

variable {e : Entry} {ops : List Operand}

theorem fits (he : e.Lenient) : (methodSignature e.params).Fits e where
  places := by simp [methodSignature_names, he.places]
  asides := by simp [methodSignature, he.places]
  own p hp := by
    obtain ⟨q, hq, rfl⟩ : ∃ q ∈ e.params, (q, some Value.absent) = p := by simpa [methodSignature] using hp
    exact iff_of_true rfl (he.optional ▸ hq)
  variadic := he.fixed.symm
  extra := he.extra.symm

theorem bound (he : e.Lenient) (hparams : e.params.Nodup) (honce : ((names ops).map Text.upper).Nodup)
    (hfit : ops.length ≤ e.params.length) (f : Operand → Value) :
    e.surplus (supplied f ops) none = [] ∧ ¬ e.Misfit (supplied f ops) none false ∧ ¬ e.Lacks (supplied f ops) none := by
  have hsurplus : e.surplus (supplied f ops) none = [] := by
    have hseats : (placed ops).length ≤ (free e.paramNamed? e.params ops).length := placed_le_free hparams hfit
    rw [Entry.surplus, takers_supplied hparams he.places, Entry.queue, placed_supplied]
    exact List.drop_eq_nil_of_le ((List.length_map f).trans_le hseats)
  refine ⟨hsurplus, ?_, ?_⟩
  · intro hmisfit
    cases hmisfit with
    | value hoperation | place hoperation | pipe hoperation => simp [he.function] at hoperation
    | unknown hclosed => simp [he.extra] at hclosed
    | twice hagain =>
      rw [matched_supplied, keys_data] at hagain
      exact hagain (nodup_named (fun name p hp => (Entry.paramNamed?_mem hp).2) honce)
    | slotless hpiped => exact hpiped rfl
    | beyond _ hleft => exact hleft hsurplus
  · rintro ⟨p, hp, hrequired, -⟩
    exact hrequired (he.optional ▸ hp)

/-- The request of a call in which every argument has its parameter: the parameters that have something, each with its
data. -/
theorem payload_settled (he : e.Lenient) (hparams : e.params.Nodup) {supplied : List Supplied}
    (hsurplus : e.surplus supplied none = []) (hunmatched : e.unmatched supplied = []) (store : Store) :
    (e.settled supplied none).payload store e.params =
      traverse (fun s => (store.plain s.2).map fun v => (s.1, v))
        (e.frontEntries (e.given supplied none) ++ (e.arrange (e.given supplied none) true e.params).named) := by
  obtain ⟨hplaced, hdrop⟩ := Entry.placed_settled he.fits
  have hnamed : (e.settled supplied none).named = (e.arrange (e.given supplied none) true e.params).named := by
    rw [Entry.named_settled hparams (by rw [hunmatched]; exact List.nodup_nil), hunmatched, List.append_nil]
  rw [methodSignature_names] at hplaced
  rw [methodSignature, List.length_map] at hdrop
  rw [Arguments.payload, hplaced, hdrop, hsurplus, hnamed, Table.putAll_of_nodup (Entry.nodup_entries _ hparams)]
  rfl

theorem get?_settled (he : e.Lenient) (hparams : e.params.Nodup) (key : String) :
    (e.frontEntries (e.given (supplied value ops) none) ++
      (e.arrange (e.given (supplied value ops) none) true e.params).named).get? key =
      (data value (seating e.paramNamed? e.params ops)).get? key := by
  by_cases hkey : key ∈ e.params
  · rw [Entry.get?_entries hparams hkey, given_seating hparams he.places]
  · have hempty : key ∉ (seating e.paramNamed? e.params ops).keys := fun hmem => hkey (seat_param hmem)
    rw [get?_data, Table.get?_eq_none_iff.mpr hempty,
      Table.get?_eq_none_iff.mpr fun hmem => hkey (Entry.entries_subset hmem)]
    rfl

theorem payload_seating (he : e.Lenient) (hdistinct : (e.params.map Text.upper).Nodup)
    (honce : ((names ops).map Text.upper).Nodup) (hfit : ops.length ≤ e.params.length)
    (hfound : ∀ name ∈ names ops, e.paramNamed? name ≠ none) {store : Store}
    (hlate : ∀ t ∈ ops, store.plain t.value = .ok t.late) :
    ∃ a called, e.bind (supplied value ops) none false = .ok a ∧ a.payload store e.params = .ok called ∧
      ∀ key, called.get? key = (data late (seating e.paramNamed? e.params ops)).get? key := by
  have hparams : e.params.Nodup := hdistinct.of_map
  obtain ⟨hsurplus, hfits, hlacks⟩ := he.bound hparams honce hfit value
  have hpayload := he.payload_settled hparams hsurplus (unmatched_supplied hfound) store
  have hkeys := Entry.nodup_entries (e.given (supplied value ops) none) hparams
  set entries := e.frontEntries (e.given (supplied value ops) none) ++
    (e.arrange (e.given (supplied value ops) none) true e.params).named
  have hget (key : String) : entries.get? key = (data value (seating e.paramNamed? e.params ops)).get? key :=
    he.get?_settled hparams key
  obtain ⟨called, hcalled⟩ :
      ∃ called, traverse (fun s => (store.plain s.2).map fun v => (s.1, v)) entries = .ok called := by
    simp only [traverse_eq_ok_iff, exists_forall₂_iff]
    intro s hs
    have hfound := Table.get?_of_mem hkeys hs
    rw [hget, get?_data, Option.map_eq_some_iff] at hfound
    obtain ⟨t, hseat, hvalue⟩ := hfound
    rw [← hvalue, hlate t (mem_of_seat (Table.entry_mem_of_get? hseat))]
    exact ⟨_, rfl⟩
  have hbound : e.bind (supplied value ops) none false = .ok (e.settled (supplied value ops) none) :=
    Entry.bound_iff.mpr ⟨hfits, hlacks, rfl⟩
  refine ⟨_, called, hbound, hpayload.trans hcalled, fun key => ?_⟩
  have hfound := Table.get?_traverse hcalled key
  rw [hget, get?_data] at hfound
  rw [get?_data]
  cases hseat : Table.get? key (seating e.paramNamed? e.params ops) with
  | none => simpa [hseat] using hfound
  | some t =>
    have ht := mem_of_seat (Table.entry_mem_of_get? hseat)
    rw [hseat, Option.map_some, Option.map_some, hlate t ht] at hfound
    simpa using hfound

end Entry.Lenient

end Conductor
