import Conductor.Function.Binding
import Conductor.Proofs.Memory.Tables
import Conductor.Proofs.Memory.Traversal
import Mathlib.Data.List.Perm.Subperm

/-!
# What a call binds

The arguments of a call in the words of the entry: those that name a parameter, those that
name none, the places that are open to the others, the order in which these wait for a place,
and what each parameter has in the end. A call that does not fit is refused, and the ways not
to fit are all named. A call that fits is settled by what its parameters have.
-/

set_option autoImplicit false

namespace Conductor

namespace Supplied

def named (supplied : List Supplied) : List (String × Value) :=
  supplied.filterMap fun s => s.1.map fun name => (name, s.2)

def placed (supplied : List Supplied) : List Value := (supplied.filter fun s => s.1.isNone).map Prod.snd

end Supplied

namespace Entry

section Bindings

variable (e : Entry) (supplied : List Supplied) (piped : Option Value)

def matched : Table String Value :=
  (Supplied.named supplied).filterMap fun s => (e.paramNamed? s.1).map fun p => (p, s.2)

/-- The named arguments that are no parameter's. -/
def unmatched : List (String × Value) := (Supplied.named supplied).filter fun s => (e.paramNamed? s.1).isNone

def openPlaces : List String := e.params.filter fun p => !(e.matched supplied).contains p && !e.namedOnly.contains p

def pipesFirst : Bool := e.variadic || decide ((Supplied.placed supplied).length < (e.openPlaces supplied).length)

def queue : List Value :=
  match piped with
  | some v => if e.pipesFirst supplied then v :: Supplied.placed supplied else Supplied.placed supplied
  | none => Supplied.placed supplied

def pipedInto : Table String Value :=
  match piped, e.pipeParam with
  | some v, some param => if e.pipesFirst supplied then [] else [(param, v)]
  | _, _ => []

def takers : List String :=
  ((e.openPlaces supplied).filter fun p => !(e.pipedInto supplied piped).contains p).eraseDups

def given : Table String Value :=
  e.matched supplied ++ e.pipedInto supplied piped ++ (e.takers supplied piped).zip (e.queue supplied piped)

def surplus : List Value := (e.queue supplied piped).drop (e.takers supplied piped).length

/-- The ways in which a call does not fit an entry. -/
inductive Misfit (asStatement : Bool) : Prop
  | value (operation : e.isOperation = true) (inside : asStatement = false)
  | place (operation : e.isOperation = true) (placed : Supplied.placed supplied ≠ [])
  | pipe (operation : e.isOperation = true) (piped : piped ≠ none)
  | unknown (closed : e.extraNamed = false) (name : String) (given : name ∈ (Supplied.named supplied).map Prod.fst)
      (no : ∀ p ∈ e.params, Text.upper p ≠ Text.upper name)
  | twice (again : ¬ (e.matched supplied).keys.Nodup)
  | slotless (piped : piped ≠ none) (full : e.pipesFirst supplied = false)
      (no : ∀ p ∈ e.pipeParam, p = "" ∨ p ∈ (e.matched supplied).keys)
  | beyond (fixed : e.variadic = false) (left : e.surplus supplied piped ≠ [])

def Lacks : Prop := ∃ p ∈ e.params, p ∉ e.optional ∧ p ∉ (e.given supplied piped).keys

end Bindings

variable {e : Entry} {supplied : List Supplied} {piped : Option Value} {asStatement : Bool}

/-! ## Names -/

theorem paramNamed?_eq_none_iff {name : String} :
    e.paramNamed? name = none ↔ ∀ p ∈ e.params, Text.upper p ≠ Text.upper name := by
  simp [paramNamed?]

theorem paramNamed?_mem {name p : String} (h : e.paramNamed? name = some p) :
    p ∈ e.params ∧ Text.upper p = Text.upper name := by
  simpa using List.mem_filter.mp (List.mem_of_getLast? h)

theorem paramNamed?_congr {name name' : String} (h : Text.upper name = Text.upper name') :
    e.paramNamed? name = e.paramNamed? name' := by
  rw [paramNamed?, paramNamed?, h]

theorem mem_matched {p : String} {v : Value} :
    (p, v) ∈ e.matched supplied ↔ ∃ name, (name, v) ∈ Supplied.named supplied ∧ e.paramNamed? name = some p := by
  simp only [matched, List.mem_filterMap, Option.map_eq_some_iff, Prod.mk.injEq]
  constructor
  · rintro ⟨⟨name, v'⟩, hmem, p', hp, rfl, rfl⟩
    exact ⟨name, hmem, hp⟩
  · rintro ⟨name, hmem, hp⟩
    exact ⟨(name, v), hmem, p, hp, rfl, rfl⟩

theorem mem_unmatched {name : String} {v : Value} :
    (name, v) ∈ e.unmatched supplied ↔ (name, v) ∈ Supplied.named supplied ∧ e.paramNamed? name = none := by
  simp [unmatched]

theorem mem_params_of_matched {p : String} (h : p ∈ (e.matched supplied).keys) : p ∈ e.params := by
  obtain ⟨⟨p, v⟩, hmem, rfl⟩ := List.mem_map.mp h
  obtain ⟨name, -, hp⟩ := mem_matched.mp hmem
  exact (paramNamed?_mem hp).1

/-! ## Places -/

theorem mem_openPlaces {p : String} :
    p ∈ e.openPlaces supplied ↔ p ∈ e.params ∧ p ∉ (e.matched supplied).keys ∧ p ∉ e.namedOnly := by
  simp only [openPlaces, List.mem_filter, Bool.and_eq_true, Bool.not_eq_true', ← Bool.not_eq_true, Table.contains_iff,
    List.contains_iff_mem]

theorem pipesFirst_eq_false_iff : e.pipesFirst supplied = false ↔
    e.variadic = false ∧ (e.openPlaces supplied).length ≤ (Supplied.placed supplied).length := by
  simp [pipesFirst]

theorem mem_takers {p : String} :
    p ∈ e.takers supplied piped ↔ p ∈ e.openPlaces supplied ∧ p ∉ (e.pipedInto supplied piped).keys := by
  simp only [takers, List.mem_eraseDups, List.mem_filter, Bool.not_eq_true', ← Bool.not_eq_true, Table.contains_iff]

theorem nodup_eraseDups {α : Type} [BEq α] [LawfulBEq α] : (l : List α) → l.eraseDups.Nodup
  | [] => by simp
  | a :: rest => by
    rw [List.eraseDups_cons, List.nodup_cons]
    exact ⟨by simp, nodup_eraseDups (rest.filter fun b => !b == a)⟩
termination_by l => l.length
decreasing_by exact Nat.lt_succ_of_le (List.length_filter_le _ _)

theorem eraseDups_of_nodup {α : Type} [BEq α] [LawfulBEq α] {l : List α} (h : l.Nodup) : l.eraseDups = l := by
  induction l with
  | nil => rfl
  | cons a rest ih =>
    obtain ⟨hnew, hrest⟩ := List.nodup_cons.mp h
    have hsame : rest.filter (fun b => !b == a) = rest :=
      List.filter_eq_self.mpr fun b hb => by simpa using fun heq : b = a => hnew (heq ▸ hb)
    rw [List.eraseDups_cons, hsame, ih hrest]

theorem pipedInto_of_first (h : e.pipesFirst supplied = true) : e.pipedInto supplied piped = [] := by
  unfold pipedInto
  split <;> simp [h]

theorem pipedInto_of_slot (h : e.pipesFirst supplied = false) {p : String} (hp : p ∈ e.pipeParam) (v : Value) :
    e.pipedInto supplied (some v) = [(p, v)] := by
  simp [pipedInto, Option.mem_def.mp hp, h]

theorem pipedInto_eq_nil_or (e : Entry) (supplied : List Supplied) (piped : Option Value) :
    e.pipedInto supplied piped = [] ∨ ∃ v p, piped = some v ∧ e.pipeParam = some p ∧ e.pipesFirst supplied = false ∧
      e.pipedInto supplied piped = [(p, v)] := by
  cases hfirst : e.pipesFirst supplied with
  | true => exact .inl (pipedInto_of_first hfirst)
  | false =>
    unfold pipedInto
    split
    · next v p hp => exact .inr ⟨v, p, rfl, hp, rfl, by simp [hfirst]⟩
    · exact .inl rfl

theorem mem_keys_given {p : String} : p ∈ (e.given supplied piped).keys ↔
    (p ∈ (e.matched supplied).keys ∨ p ∈ (e.pipedInto supplied piped).keys) ∨
      p ∈ (e.takers supplied piped).take (e.queue supplied piped).length := by
  rw [← Table.keys_zip, given, Table.keys, List.map_append, List.map_append, List.mem_append, List.mem_append]
  rfl

/-! ## Refusals -/

def Refused {α : Type} (x : Except Condition α) : Prop := ∃ c, x = .error c ∧ c.kind = .argumentBinding

theorem Refused.bind {α β : Type} {x : Except Condition α} (h : Refused x) (f : α → Except Condition β) :
    Refused (x >>= f) := by
  obtain ⟨c, rfl, hc⟩ := h
  exact ⟨c, rfl, hc⟩

theorem refused_refuse {α : Type} {cause : Cause} (h : cause.kind = .argumentBinding) :
    Refused (e.refuse cause : Except Condition α) := ⟨_, rfl, h⟩

theorem checkStyle_ok (hvalue : e.isOperation = true → asStatement = true)
    (hplace : e.isOperation = true → Supplied.placed supplied = []) (hpipe : e.isOperation = true → piped = none) :
    e.checkStyle (Supplied.placed supplied) piped asStatement = .ok () := by
  cases h : e.isOperation with
  | false => simp [checkStyle, h]
  | true => simp [checkStyle, h, hvalue h, hplace h, hpipe h]

theorem checkStyle_refused (h : e.isOperation = true)
    (hwrong : asStatement = false ∨ Supplied.placed supplied ≠ [] ∨ piped ≠ none) :
    Refused (e.checkStyle (Supplied.placed supplied) piped asStatement) := by
  cases asStatement with
  | false =>
    rw [checkStyle, h]
    exact refused_refuse rfl
  | true =>
    have hsome : (!(Supplied.placed supplied).isEmpty || piped.isSome) = true := by
      rcases hwrong with hwrong | hwrong | hwrong
      · cases hwrong
      · simp [hwrong]
      · simp [Option.isSome_iff_ne_none.mpr hwrong]
    rw [checkStyle, h, hsome]
    exact refused_refuse rfl

/-! ### The named arguments -/

section Named

variable {name p : String} {v : Value} {rest : List Supplied}

@[simp] theorem matched_place : e.matched ((none, v) :: rest) = e.matched rest := rfl

@[simp] theorem unmatched_place : e.unmatched ((none, v) :: rest) = e.unmatched rest := rfl

theorem matched_param (h : e.paramNamed? name = some p) :
    e.matched ((some name, v) :: rest) = (p, v) :: e.matched rest := by
  simp [matched, Supplied.named, h]

theorem unmatched_param (h : e.paramNamed? name = some p) : e.unmatched ((some name, v) :: rest) = e.unmatched rest := by
  simp [unmatched, Supplied.named, h]

theorem matched_extra (h : e.paramNamed? name = none) : e.matched ((some name, v) :: rest) = e.matched rest := by
  simp [matched, Supplied.named, h]

theorem unmatched_extra (h : e.paramNamed? name = none) :
    e.unmatched ((some name, v) :: rest) = (name, v) :: e.unmatched rest := by
  simp [unmatched, Supplied.named, h]

end Named

theorem bindNamed_ok (bound extra : Table String Value) (hopen : e.unmatched supplied = [] ∨ e.extraNamed = true)
    (hkeys : (Table.keys (bound ++ e.matched supplied)).Nodup) :
    e.bindNamed supplied bound extra =
      .ok (bound ++ e.matched supplied, Table.putAll extra (e.unmatched supplied)) := by
  induction supplied generalizing bound extra with
  | nil => simp [bindNamed, matched, unmatched, Supplied.named, Table.putAll]
  | cons s rest ih =>
    obtain ⟨name, v⟩ := s
    cases name with
    | none => simpa [bindNamed] using ih bound extra hopen hkeys
    | some name =>
      cases hp : e.paramNamed? name with
      | none =>
        rw [unmatched_extra hp] at hopen
        have hextra : e.extraNamed = true := hopen.resolve_left (List.cons_ne_nil _ _)
        rw [matched_extra hp] at hkeys
        simp only [bindNamed, hp, hextra, if_true, matched_extra hp, unmatched_extra hp]
        exact ih _ _ (.inr hextra) hkeys
      | some p =>
        rw [unmatched_param hp] at hopen
        rw [matched_param hp] at hkeys
        have hnew : p ∉ bound.keys := by
          simp only [Table.keys, List.map_append, List.map_cons] at hkeys
          exact fun hmem => (List.nodup_append.mp hkeys).2.2 _ hmem _ List.mem_cons_self rfl
        have hcontains : bound.contains p = false := by rwa [← Bool.not_eq_true, Table.contains_iff]
        simp only [bindNamed, hp, hcontains, Bool.false_eq_true, if_false, matched_param hp, unmatched_param hp,
          Table.put_of_notMem hnew]
        rw [ih _ _ hopen (by simpa using hkeys)]
        simp

theorem bindNamed_refused (bound extra : Table String Value) (hbound : bound.keys.Nodup)
    (h : e.unmatched supplied ≠ [] ∧ e.extraNamed = false ∨ ¬ (Table.keys (bound ++ e.matched supplied)).Nodup) :
    Refused (e.bindNamed supplied bound extra) := by
  induction supplied generalizing bound extra with
  | nil => simp [matched, unmatched, Supplied.named, hbound] at h
  | cons s rest ih =>
    obtain ⟨name, v⟩ := s
    cases name with
    | none => simpa [bindNamed] using ih _ _ hbound h
    | some name =>
      cases hp : e.paramNamed? name with
      | none =>
        cases hextra : e.extraNamed with
        | false =>
          simp only [bindNamed, hp, hextra, Bool.false_eq_true, if_false]
          exact refused_refuse rfl
        | true =>
          simp only [bindNamed, hp, hextra, if_true]
          rw [matched_extra hp, hextra] at h
          exact ih _ _ hbound (.inr (h.resolve_left (by simp)))
      | some p =>
        cases hcontains : bound.contains p with
        | true =>
          simp only [bindNamed, hp, hcontains, if_true]
          exact refused_refuse rfl
        | false =>
          have hnew : p ∉ bound.keys := by rwa [← Table.contains_iff, Bool.not_eq_true]
          simp only [bindNamed, hp, hcontains, Bool.false_eq_true, if_false]
          rw [unmatched_param hp, matched_param hp] at h
          refine ih _ _ (Table.nodup_put hbound p v) ?_
          rwa [Table.put_of_notMem hnew, List.append_assoc]

theorem bindNamed_cases (e : Entry) (supplied : List Supplied) : Refused (e.bindNamed supplied [] []) ∨
    (e.unmatched supplied = [] ∨ e.extraNamed = true) ∧ (e.matched supplied).keys.Nodup := by
  by_cases h : e.unmatched supplied ≠ [] ∧ e.extraNamed = false ∨ ¬ (e.matched supplied).keys.Nodup
  · exact .inl (bindNamed_refused [] [] List.nodup_nil h)
  · obtain ⟨hknown, honce⟩ := not_or.mp h
    rw [not_and_or, not_not, Bool.not_eq_false] at hknown
    exact .inr ⟨hknown, not_not.mp honce⟩

/-! ### The piped value -/

theorem bindPiped_ok
    (h : piped ≠ none → e.pipesFirst supplied = false → ∃ p ∈ e.pipeParam, p ≠ "" ∧ p ∉ (e.matched supplied).keys) :
    ∃ places,
      e.bindPiped piped (e.openPlaces supplied) (Supplied.placed supplied) (e.matched supplied) =
        .ok (places, e.queue supplied piped, e.matched supplied ++ e.pipedInto supplied piped) ∧
      (places.filter fun p => !(e.matched supplied ++ e.pipedInto supplied piped).contains p).eraseDups =
        e.takers supplied piped := by
  -- The open places are those without a named argument already.
  have hopen (t : Table String Value) (p : String) (hp : p ∈ e.openPlaces supplied) :
      (e.matched supplied ++ t).contains p = t.contains p := by
    rw [Table.contains, Table.get?_append, Table.get?_eq_none_iff.mpr (mem_openPlaces.mp hp).2.1, Option.none_or]
    rfl
  have hfilter (t : Table String Value) :
      (e.openPlaces supplied).filter (fun p => !(e.matched supplied ++ t).contains p) =
      (e.openPlaces supplied).filter fun p => !t.contains p :=
    List.filter_congr fun p hp => by rw [hopen t p hp]
  cases piped with
  | none => exact ⟨e.openPlaces supplied, by simp [bindPiped, queue, pipedInto], by rw [hfilter]; rfl⟩
  | some v =>
    cases hfirst : e.pipesFirst supplied with
    | true =>
      refine ⟨_, ?_, by rw [hfilter]; rfl⟩
      rw [bindPiped, if_pos (by simpa [pipesFirst] using hfirst), pipedInto_of_first hfirst, queue, hfirst]
      simp
    | false =>
      obtain ⟨p, hparam, hname, hnew⟩ := h (by simp) hfirst
      have hinto := pipedInto_of_slot hfirst hparam v
      have hcontains : (e.matched supplied).contains p = false := by rwa [← Bool.not_eq_true, Table.contains_iff]
      refine ⟨(e.openPlaces supplied).erase p, ?_, ?_⟩
      · rw [bindPiped, if_neg (by simpa [pipesFirst] using hfirst), Option.mem_def.mp hparam, hinto, queue, hfirst]
        simp [hname, hcontains, Table.put_of_notMem hnew]
      · rw [takers, hinto, ← hfilter, ← List.erase_filter, List.erase_of_not_mem]
        simp [Table.contains, Table.get?_append, Table.get?]

theorem bindPiped_refused (hpiped : piped ≠ none) (hfirst : e.pipesFirst supplied = false)
    (h : ∀ p ∈ e.pipeParam, p = "" ∨ p ∈ (e.matched supplied).keys) :
    Refused (e.bindPiped piped (e.openPlaces supplied) (Supplied.placed supplied) (e.matched supplied)) := by
  obtain ⟨v, rfl⟩ := Option.ne_none_iff_exists'.mp hpiped
  rw [bindPiped, if_neg (by simpa [pipesFirst] using hfirst)]
  cases hparam : e.pipeParam with
  | none => exact refused_refuse rfl
  | some p =>
    have hbad : (p.isEmpty || (e.matched supplied).contains p) = true := by
      rcases h p hparam with rfl | hmem
      · rfl
      · simp [Table.contains_iff.mpr hmem]
    simp only [hbad, if_true]
    exact refused_refuse rfl

/-! ## Calls that fit -/

/-- A call whose names and whose piped value find their parameters. -/
structure Seated (e : Entry) (supplied : List Supplied) (piped : Option Value) : Prop where
  known : e.unmatched supplied = [] ∨ e.extraNamed = true
  once : (e.matched supplied).keys.Nodup
  slot : piped ≠ none → e.pipesFirst supplied = false → ∃ p ∈ e.pipeParam, p ≠ "" ∧ p ∉ (e.matched supplied).keys

theorem Seated.of_fits (h : ¬ e.Misfit supplied piped asStatement) : e.Seated supplied piped where
  known := by
    by_contra hno
    obtain ⟨hsome, hclosed⟩ := not_or.mp hno
    obtain ⟨⟨name, v⟩, hmem⟩ := List.exists_mem_of_ne_nil _ hsome
    obtain ⟨hnamed, hnone⟩ := mem_unmatched.mp hmem
    exact h (.unknown (Bool.eq_false_iff.mpr hclosed) name (List.mem_map_of_mem hnamed) (paramNamed?_eq_none_iff.mp hnone))
  once := by_contra fun hno => h (.twice hno)
  slot hpiped hfirst := by
    by_contra hno
    refine h (.slotless hpiped hfirst fun p hp => ?_)
    by_contra hboth
    exact hno ⟨p, hp, not_or.mp hboth⟩

theorem Seated.nodup_given (h : e.Seated supplied piped) : (e.given supplied piped).keys.Nodup := by
  have hfront : (Table.keys (e.matched supplied ++ e.pipedInto supplied piped)).Nodup := by
    rcases pipedInto_eq_nil_or e supplied piped with hnil | ⟨v, p, rfl, hp, hfirst, hone⟩
    · rw [hnil, List.append_nil]
      exact h.once
    · obtain ⟨p', hp', -, hnew⟩ := h.slot (by simp) hfirst
      obtain rfl : p = p' := Option.some.inj (hp.symm.trans hp')
      rw [hone, Table.keys, List.map_append]
      refine List.nodup_append.mpr ⟨h.once, by simp, ?_⟩
      rintro q hq _ hmem rfl
      obtain rfl : q = p := by simpa using hmem
      exact hnew hq
  have htakers : (Table.keys ((e.takers supplied piped).zip (e.queue supplied piped))).Nodup := by
    rw [Table.keys_zip]
    exact (nodup_eraseDups _).sublist (List.take_sublist _ _)
  rw [given, Table.keys, List.map_append]
  refine List.nodup_append.mpr ⟨hfront, htakers, ?_⟩
  rintro p hp _ hmem rfl
  have htaker : p ∈ e.takers supplied piped := by
    rw [← Table.keys, Table.keys_zip] at hmem
    exact List.mem_of_mem_take hmem
  obtain ⟨hopen, hnot⟩ := mem_takers.mp htaker
  rw [List.map_append, List.mem_append] at hp
  exact hp.elim (mem_openPlaces.mp hopen).2.1 hnot

def settled (e : Entry) (supplied : List Supplied) (piped : Option Value) : Arguments :=
  let a := e.arrange (e.given supplied piped) true e.params
  { placed := a.placed ++ e.surplus supplied piped
    named := Table.putAll (Table.ofEntries a.named) (Table.ofEntries (e.unmatched supplied)) }

def conclude (e : Entry) (supplied : List Supplied) (piped : Option Value) : Except Condition Arguments :=
  match e.params.find? fun p => !(e.given supplied piped).contains p && !e.optional.contains p with
  | some p => e.refuse (.missingParameter e.name p)
  | none => .ok (e.settled supplied piped)

theorem conclude_lacking (h : e.Lacks supplied piped) :
    ∃ c, e.conclude supplied piped = .error c ∧ c.kind = .missingArgument := by
  obtain ⟨p, hp, hrequired, hnone⟩ := h
  unfold conclude
  split
  · exact ⟨_, rfl, rfl⟩
  · next hfound =>
    have hgot := List.find?_eq_none.mp hfound p hp
    simp only [Bool.and_eq_true, Bool.not_eq_true', ← Bool.not_eq_true, Table.contains_iff, List.contains_iff_mem] at hgot
    exact absurd ⟨hnone, hrequired⟩ hgot

theorem conclude_ok (h : ¬ e.Lacks supplied piped) : e.conclude supplied piped = .ok (e.settled supplied piped) := by
  unfold conclude
  split
  · next p hfound =>
    have hlacks := List.find?_some hfound
    simp only [Bool.and_eq_true, Bool.not_eq_true', ← Bool.not_eq_true, Table.contains_iff, List.contains_iff_mem] at hlacks
    exact absurd ⟨p, List.mem_of_find?_eq_some hfound, hlacks.2, hlacks.1⟩ h
  · rfl

theorem bind_of_seated (hstyle : e.checkStyle (Supplied.placed supplied) piped asStatement = .ok ())
    (h : e.Seated supplied piped) :
    e.bind supplied piped asStatement =
      if !(e.surplus supplied piped).isEmpty && !e.variadic then
        e.refuse (.tooManyPositional e.name (e.params.filter fun p => !e.namedOnly.contains p).length)
      else e.conclude supplied piped := by
  have hnamed := bindNamed_ok [] [] h.known h.once
  obtain ⟨places, hpiped, htakers⟩ := bindPiped_ok h.slot
  rw [bind, ← Supplied.placed, hstyle, ok_bind, hnamed, ok_bind]
  dsimp only
  rw [List.nil_append, ← openPlaces, hpiped, ok_bind]
  simp only [htakers]
  rw [Table.putAll_of_nodup h.nodup_given, ← given, ← surplus]
  rfl

/-- A call that fits is bound to what is given, unless a required parameter has nothing. -/
theorem bind_of_fits (h : ¬ e.Misfit supplied piped asStatement) :
    e.bind supplied piped asStatement = e.conclude supplied piped := by
  have hstyle : e.checkStyle (Supplied.placed supplied) piped asStatement = .ok () :=
    checkStyle_ok (fun ho => by_contra fun hno => h (.value ho (Bool.eq_false_iff.mpr hno)))
      (fun ho => by_contra fun hno => h (.place ho hno)) fun ho => by_contra fun hno => h (.pipe ho hno)
  rw [bind_of_seated hstyle (.of_fits h), if_neg]
  intro hleft
  simp only [Bool.and_eq_true, Bool.not_eq_true', List.isEmpty_eq_false_iff] at hleft
  exact h (.beyond hleft.2 hleft.1)

/-- A call that does not fit is refused. -/
theorem bind_refused (h : e.Misfit supplied piped asStatement) : Refused (e.bind supplied piped asStatement) := by
  by_cases hwrong : e.isOperation = true ∧ (asStatement = false ∨ Supplied.placed supplied ≠ [] ∨ piped ≠ none)
  · exact (checkStyle_refused hwrong.1 hwrong.2).bind _
  have hstyle : e.checkStyle (Supplied.placed supplied) piped asStatement = .ok () := by
    apply checkStyle_ok <;> intro ho <;> simp only [ho, true_and, not_or, Bool.not_eq_false, not_not] at hwrong
    exacts [hwrong.1, hwrong.2.1, hwrong.2.2]
  rcases bindNamed_cases e supplied with hrefused | ⟨hknown, honce⟩
  · rw [bind, ← Supplied.placed, hstyle, ok_bind]
    exact hrefused.bind _
  by_cases hslot : ∃ _ : piped ≠ none, e.pipesFirst supplied = false ∧
      ∀ p ∈ e.pipeParam, p = "" ∨ p ∈ (e.matched supplied).keys
  · obtain ⟨hpiped, hfirst, hno⟩ := hslot
    rw [bind, ← Supplied.placed, hstyle, ok_bind, bindNamed_ok [] [] hknown honce, ok_bind]
    exact (bindPiped_refused hpiped hfirst hno).bind _
  have hseated : e.Seated supplied piped := by
    refine ⟨hknown, honce, fun hpiped hfirst => ?_⟩
    by_contra hno
    refine hslot ⟨hpiped, hfirst, fun p hp => ?_⟩
    by_contra hboth
    exact hno ⟨p, hp, not_or.mp hboth⟩
  rw [bind_of_seated hstyle hseated, if_pos]
  · exact refused_refuse rfl
  cases h with
  | value ho hinside => exact absurd ⟨ho, .inl hinside⟩ hwrong
  | place ho hplaced => exact absurd ⟨ho, .inr (.inl hplaced)⟩ hwrong
  | pipe ho hpiped => exact absurd ⟨ho, .inr (.inr hpiped)⟩ hwrong
  | unknown hclosed name hgiven hno =>
    obtain ⟨⟨name, v⟩, hmem, rfl⟩ := List.mem_map.mp hgiven
    have hextra := mem_unmatched.mpr ⟨hmem, paramNamed?_eq_none_iff.mpr hno⟩
    rcases hknown with hnil | hopen
    · simp [hnil] at hextra
    · simp [hclosed] at hopen
  | twice hagain => exact absurd honce hagain
  | slotless hpiped hfirst hno => exact absurd ⟨hpiped, hfirst, hno⟩ hslot
  | beyond hfixed hleft => simp [hfixed, hleft]

theorem bound_iff {a : Arguments} : e.bind supplied piped asStatement = .ok a ↔
    ¬ e.Misfit supplied piped asStatement ∧ ¬ e.Lacks supplied piped ∧ a = e.settled supplied piped := by
  by_cases hmisfit : e.Misfit supplied piped asStatement
  · obtain ⟨c, hc, -⟩ := bind_refused hmisfit
    simp [hc, hmisfit]
  by_cases hlacks : e.Lacks supplied piped
  · obtain ⟨c, hc, -⟩ := conclude_lacking hlacks
    simp [bind_of_fits hmisfit, hc, hlacks]
  · simp [bind_of_fits hmisfit, conclude_ok hlacks, hmisfit, hlacks, eq_comm]

theorem refused_iff : Refused (e.bind supplied piped asStatement) ↔ e.Misfit supplied piped asStatement := by
  refine ⟨fun hrefused => by_contra fun hfits => ?_, bind_refused⟩
  obtain ⟨c, hc, hkind⟩ := hrefused
  rw [bind_of_fits hfits] at hc
  by_cases hlacks : e.Lacks supplied piped
  · obtain ⟨c', hc', hkind'⟩ := conclude_lacking hlacks
    obtain rfl := Except.error.inj (hc.symm.trans hc')
    cases hkind.symm.trans hkind'
  · rw [conclude_ok hlacks] at hc
    cases hc

theorem lacking_iff : (∃ c, e.bind supplied piped asStatement = .error c ∧ c.kind = .missingArgument) ↔
    ¬ e.Misfit supplied piped asStatement ∧ e.Lacks supplied piped := by
  constructor
  · rintro ⟨c, hc, hkind⟩
    have hfits : ¬ e.Misfit supplied piped asStatement := fun hmisfit => by
      obtain ⟨c', hc', hkind'⟩ := bind_refused hmisfit
      obtain rfl := Except.error.inj (hc.symm.trans hc')
      cases hkind'.symm.trans hkind
    refine ⟨hfits, by_contra fun hlacks => ?_⟩
    rw [bind_of_fits hfits, conclude_ok hlacks] at hc
    cases hc
  · rintro ⟨hfits, hlacks⟩
    rw [bind_of_fits hfits]
    exact conclude_lacking hlacks

/-! ## By place and by name -/

def byPlace (e : Entry) (bound : Table String Value) (contiguous : Bool) (params : List String) : List String :=
  if contiguous then (params.filter fun p => !e.namedOnly.contains p).takeWhile fun p => bound.contains p else []

section Arranged

variable {bound : Table String Value} {contiguous : Bool} {params : List String} {p : String} {v : Value}

theorem byPlace_cons : e.byPlace bound contiguous (p :: params) =
    (if contiguous && !e.namedOnly.contains p && bound.contains p then [p] else []) ++
      e.byPlace bound (contiguous && (e.namedOnly.contains p || bound.contains p)) params := by
  unfold byPlace
  cases contiguous with
  | false => rfl
  | true =>
    cases hnamed : e.namedOnly.contains p with
    | true => rw [List.filter_cons_of_neg (by rw [hnamed]; decide)]; rfl
    | false =>
      rw [List.filter_cons_of_pos (by rw [hnamed]; rfl)]
      cases hbound : bound.contains p with
      | true => rw [if_pos rfl, List.takeWhile_cons, hbound]; rfl
      | false => rw [if_pos rfl, List.takeWhile_cons, hbound]; rfl

theorem byPlace_subset : e.byPlace bound contiguous params ⊆ params := by
  unfold byPlace
  split
  · exact fun p hp => List.mem_of_mem_filter ((List.takeWhile_sublist _).subset hp)
  · exact List.nil_subset params

theorem arrange_named_cons : (e.arrange bound contiguous (p :: params)).named =
    (if contiguous && !e.namedOnly.contains p then [] else ((bound.get? p).map fun v => (p, v)).toList) ++
      (e.arrange bound (contiguous && (e.namedOnly.contains p || bound.contains p)) params).named := by
  cases hnamed : e.namedOnly.contains p <;> cases hv : bound.get? p <;> cases contiguous <;>
    simp [-List.contains_eq_mem, arrange, hnamed, hv, Table.contains]

theorem arrange_placed :
    (e.arrange bound contiguous params).placed = (e.byPlace bound contiguous params).filterMap bound.get? := by
  induction params generalizing contiguous with
  | nil => cases contiguous <;> rfl
  | cons p rest ih =>
    rw [byPlace_cons, List.filterMap_append, ← ih]
    cases hnamed : e.namedOnly.contains p <;> cases hv : bound.get? p <;> cases contiguous <;>
      simp [-List.contains_eq_mem, arrange, hnamed, hv, Table.contains, ih, byPlace]

/-- Only what is given to the parameters counts. -/
theorem arrange_congr {bound' : Table String Value} (h : ∀ p ∈ params, bound.get? p = bound'.get? p) :
    e.arrange bound contiguous params = e.arrange bound' contiguous params := by
  induction params generalizing contiguous with
  | nil => rfl
  | cons q rest ih =>
    have hrest (c : Bool) := @ih c fun p hp => h p (List.mem_cons_of_mem q hp)
    simp only [arrange, h q List.mem_cons_self, hrest]

theorem mem_arrange_named (h : (p, v) ∈ (e.arrange bound contiguous params).named) :
    p ∈ params ∧ bound.get? p = some v := by
  induction params generalizing contiguous with
  | nil => cases h
  | cons q rest ih =>
    rw [arrange_named_cons, List.mem_append] at h
    rcases h with h | h
    · split at h
      · cases h
      · obtain ⟨w, hw, heq⟩ := Option.map_eq_some_iff.mp (Option.mem_toList.mp h)
        obtain ⟨rfl, rfl⟩ := Prod.mk.inj heq
        exact ⟨List.mem_cons_self, hw⟩
    · exact ⟨List.mem_cons_of_mem q (ih h).1, (ih h).2⟩

theorem arrange_covers (hp : p ∈ params) (hv : bound.get? p = some v) :
    p ∈ e.byPlace bound contiguous params ∨ (p, v) ∈ (e.arrange bound contiguous params).named := by
  induction params generalizing contiguous with
  | nil => cases hp
  | cons q rest ih =>
    rw [byPlace_cons, arrange_named_cons, List.mem_append, List.mem_append]
    rcases List.mem_cons.mp hp with rfl | hp
    · have hbound : bound.contains p = true := by rw [Table.contains, hv]; rfl
      rw [hbound, Bool.and_true]
      split
      · exact .inl (.inl List.mem_cons_self)
      · exact .inr (.inl (by simp [hv]))
    · exact (ih hp).imp .inr .inr

theorem arrange_subperm (e : Entry) (bound : Table String Value) (contiguous : Bool) (params : List String) :
    (e.byPlace bound contiguous params ++ (e.arrange bound contiguous params).named.keys).Subperm params := by
  induction params generalizing contiguous with
  | nil => cases contiguous <;> exact .refl []
  | cons q rest ih =>
    rw [byPlace_cons, arrange_named_cons, Table.keys, List.map_append, ← Table.keys, ← Table.keys]
    have hhead : ((if contiguous && !e.namedOnly.contains q && bound.contains q then [q] else []) ++
        Table.keys (if contiguous && !e.namedOnly.contains q then [] else
          ((bound.get? q).map fun v => (q, v)).toList)).Subperm [q] := by
      refine List.Sublist.subperm ?_
      rw [Table.contains]
      cases e.namedOnly.contains q <;> cases bound.get? q <;> cases contiguous <;> simp [Table.keys]
    set next := contiguous && (e.namedOnly.contains q || bound.contains q)
    refine (List.Perm.subperm_right ?_).mp (hhead.append (ih next))
    simp only [List.append_assoc]
    exact (List.perm_append_comm_assoc _ _ _).append_left _

/-- A parameter that is listed once goes one way. -/
theorem arrange_apart (e : Entry) (bound : Table String Value) (contiguous : Bool) (h : params.Nodup) :
    (e.byPlace bound contiguous params ++ (e.arrange bound contiguous params).named.keys).Nodup := by
  obtain ⟨ps, hperm, hsub⟩ := arrange_subperm e bound contiguous params
  exact hperm.nodup (h.sublist hsub)

end Arranged

theorem extras_behind (bound : Table String Value) (contiguous : Bool)
    (hextra : ((e.unmatched supplied).map Prod.fst).Nodup) :
    Table.putAll (Table.ofEntries (e.arrange bound contiguous e.params).named) (Table.ofEntries (e.unmatched supplied)) =
      Table.ofEntries (e.arrange bound contiguous e.params).named ++ e.unmatched supplied := by
  rw [Table.ofEntries_of_nodup hextra]
  refine Table.putAll_of_nodup ?_
  rw [Table.keys, List.map_append]
  refine List.nodup_append.mpr ⟨Table.nodup_ofEntries _, hextra, ?_⟩
  rintro p hp _ hmem rfl
  obtain ⟨⟨p, v⟩, hnamed, rfl⟩ := List.mem_map.mp (Table.mem_keys_ofEntries.mp hp)
  obtain ⟨⟨name, w⟩, hextra, rfl⟩ := List.mem_map.mp hmem
  exact paramNamed?_eq_none_iff.mp (mem_unmatched.mp hextra).2 _ (mem_arrange_named hnamed).1 rfl

end Entry

end Conductor
