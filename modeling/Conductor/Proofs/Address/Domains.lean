import Conductor.Address.Dispatcher
import Conductor.Proofs.Memory.Traversal

/-!
# Domains in upper case

What is in upper case stays as it is when it is brought into upper case again. So a domain
that was selected is found under its own name, and the two ways to look for a method of its
handler, the one that brings the domain into upper case and the one that takes it as it stands,
find the same.
-/

set_option autoImplicit false

namespace Conductor

namespace Text

/-! ## Upper case -/

def runPoints (r : Nat × Nat × Nat × Int) : List Nat :=
  (List.range ((r.2.1 - r.1) / r.2.2.1 + 1)).map fun i => r.1 + i * r.2.2.1

def smalls : List Nat := upperShifts.flatMap runPoints ++ upperExpansions.map Prod.fst

def capitals : List Nat :=
  (upperShifts.flatMap fun r => (runPoints r).map fun n : Nat => ((n : Int) + r.2.2.2).toNat) ++
    upperExpansions.flatMap Prod.snd

def bits (ns : List Nat) : Nat := ns.foldr (fun n acc => acc ||| 1 <<< n) 0

theorem testBit_bits (ns : List Nat) (n : Nat) : (bits ns).testBit n = true ↔ n ∈ ns := by
  induction ns with
  | nil => simp [bits]
  | cons m rest ih =>
    rw [bits, List.foldr_cons, Nat.testBit_or, Bool.or_eq_true, ← bits, ih, Nat.one_shiftLeft, Nat.testBit_two_pow,
      List.mem_cons, or_comm]
    simp [eq_comm]

theorem capitals_apart : bits smalls &&& bits capitals = 0 := by decide +kernel

theorem capital_notMem_smalls {n : Nat} (h : n ∈ capitals) : n ∉ smalls := by
  intro hsmall
  have hbit : (bits smalls &&& bits capitals).testBit n = true := by
    rw [Nat.testBit_and, (testBit_bits smalls n).mpr hsmall, (testBit_bits capitals n).mpr h]
    rfl
  rw [capitals_apart, Nat.zero_testBit] at hbit
  cases hbit

theorem mem_runPoints {r : Nat × Nat × Nat × Int} {n : Nat}
    (h : (r.1 ≤ n && n ≤ r.2.1 && (n - r.1) % r.2.2.1 == 0) = true) : n ∈ runPoints r := by
  simp only [Bool.and_eq_true, decide_eq_true_eq, beq_iff_eq] at h
  obtain ⟨⟨hlo, hhi⟩, hstep⟩ := h
  refine List.mem_map.mpr ⟨(n - r.1) / r.2.2.1, List.mem_range.mpr ?_, ?_⟩
  · exact Nat.lt_succ_of_le (Nat.div_le_div_right (by omega))
  · rw [Nat.div_mul_cancel (Nat.dvd_of_mod_eq_zero hstep)]
    omega

theorem mem_smalls_of_find? {n : Nat} {r : Nat × Nat × Nat × Int} (hr : r ∈ upperShifts)
    (h : (r.1 ≤ n && n ≤ r.2.1 && (n - r.1) % r.2.2.1 == 0) = true) : n ∈ smalls :=
  List.mem_append_left _ (List.mem_flatMap.mpr ⟨r, hr, mem_runPoints h⟩)

theorem shifted_cases (n : Nat) : shifted upperShifts n = n ∨ n ∈ smalls ∧ shifted upperShifts n ∈ capitals := by
  unfold shifted
  split
  · next r hr =>
    have hrun : (r.1 ≤ n && n ≤ r.2.1 && (n - r.1) % r.2.2.1 == 0) = true :=
      List.find?_some (p := fun r : Nat × Nat × Nat × Int => r.1 ≤ n && n ≤ r.2.1 && (n - r.1) % r.2.2.1 == 0) hr
    have hmem := List.mem_of_find?_eq_some hr
    refine .inr ⟨mem_smalls_of_find? hmem hrun, List.mem_append_left _ (List.mem_flatMap.mpr ⟨r, hmem, ?_⟩)⟩
    exact List.mem_map_of_mem (f := fun n : Nat => ((n : Int) + r.2.2.2).toNat) (mem_runPoints hrun)
  · exact .inl rfl

theorem lookup_cases (n : Nat) : upperExpansions.lookup n = none ∨
    n ∈ smalls ∧ ∃ ns, upperExpansions.lookup n = some ns ∧ ∀ m ∈ ns, m ∈ capitals := by
  cases hns : upperExpansions.lookup n with
  | none => exact .inl rfl
  | some ns =>
    obtain ⟨front, back, heq, -⟩ := List.lookup_eq_some_iff.mp hns
    have hmem : (n, ns) ∈ upperExpansions := by
      rw [heq]
      exact List.mem_append_right front List.mem_cons_self
    refine .inr ⟨List.mem_append_right _ (List.mem_map_of_mem (f := Prod.fst) hmem), ns, rfl, fun m hm => ?_⟩
    exact List.mem_append_right _ (List.mem_flatMap.mpr ⟨(n, ns), hmem, hm⟩)

theorem toUpper_of_notMem {c : Char} (h : c.toNat ∉ smalls) : c.toUpper = c := by
  refine dif_neg ?_
  rintro ⟨hlo, hhi⟩
  have hlo : 97 ≤ c.toNat := hlo
  have hhi : c.toNat ≤ 122 := hhi
  have hrun : (0x61, 0x7A, 1, -32) ∈ upperShifts := List.mem_cons_self
  exact h (mem_smalls_of_find? hrun (by simp [hlo, hhi, Nat.mod_one]))

theorem upperChar_of_notMem {c : Char} (h : c.toNat ∉ smalls) : upperChar c = [c] := by
  have hlookup : upperExpansions.lookup c.toNat = none := (lookup_cases c.toNat).resolve_right fun hs => h hs.1
  have hshift : shifted upperShifts c.toNat = c.toNat := (shifted_cases c.toNat).resolve_right fun hs => h hs.1
  rw [upperChar, hlookup, hshift, Char.ofNat_toNat, toUpper_of_notMem h, ite_self]

theorem upperChar_capital {n : Nat} (h : n ∈ capitals) : upperChar (Char.ofNat n) = [Char.ofNat n] := by
  refine upperChar_of_notMem ?_
  by_cases hvalid : n.isValidChar
  · have hn : (Char.ofNat n).toNat = n := by
      rw [Char.ofNat, dif_pos hvalid]
      rfl
    rw [hn]
    exact capital_notMem_smalls h
  · have hn : (Char.ofNat n).toNat = 0 := by simp [Char.ofNat, hvalid, Char.toNat]
    rw [hn]
    decide +kernel

theorem upperChar_ascii : ∀ n < 128, upperChar (Char.ofNat n).toUpper = [(Char.ofNat n).toUpper] := by decide +kernel

theorem upperChar_fixed {c c' : Char} (h : c' ∈ upperChar c) : upperChar c' = [c'] := by
  unfold upperChar at h
  split at h
  · next hascii =>
    obtain rfl := List.mem_singleton.mp h
    exact Char.ofNat_toNat c ▸ upperChar_ascii c.toNat hascii
  · next hbeyond =>
    rcases lookup_cases c.toNat with hlookup | ⟨-, ns, hlookup, hcapitals⟩
    · rw [hlookup] at h
      obtain rfl := List.mem_singleton.mp h
      rcases shifted_cases c.toNat with hshift | ⟨-, hcapital⟩
      · rw [hshift, Char.ofNat_toNat, upperChar, if_neg hbeyond, hlookup, hshift, Char.ofNat_toNat]
      · exact upperChar_capital hcapital
    · rw [hlookup] at h
      obtain ⟨m, hm, rfl⟩ := List.mem_map.mp h
      exact upperChar_capital (hcapitals m hm)

theorem upper_upper (s : String) : upper (upper s) = upper s := by
  have hfixed (cs : List Char) (h : ∀ c ∈ cs, upperChar c = [c]) : cs.flatMap upperChar = cs := by
    induction cs with
    | nil => rfl
    | cons c rest ih =>
      obtain ⟨hc, hrest⟩ := List.forall_mem_cons.mp h
      rw [List.flatMap_cons, hc, ih hrest]
      rfl
  rw [upper, upper, String.toList_ofList, hfixed]
  intro c hc
  obtain ⟨c', -, hmem⟩ := List.mem_flatMap.mp hc
  exact upperChar_fixed hmem

end Text

/-- An entry that takes arguments as the method of a handler does: no parameter is required, and further names are let
through. -/
structure Entry.Lenient (e : Entry) : Prop where
  function : e.isOperation = false
  optional : e.optional = e.params
  places : e.namedOnly = []
  fixed : e.variadic = false
  extra : e.extraNamed = true

namespace Address.Dispatcher

/-! ## The current domain -/

/-- A dispatcher whose default domain and whose current one are in upper case. -/
structure Capitalised (d : Dispatcher) : Prop where
  standard : Text.upper d.defaultDomain = d.defaultDomain
  current : Text.upper d.context.domain = d.context.domain

theorem Capitalised.initial (domain : String) (timeout : Option Number) : (Dispatcher.initial domain timeout).Capitalised :=
  ⟨Text.upper_upper domain, Text.upper_upper domain⟩

variable {d d' : Dispatcher}

theorem Capitalised.register (h : d.Capitalised) {number : Nat} {r : Report} {info : Info}
    (hr : d.register number r = .ok (info, d')) : d'.Capitalised := by
  unfold Dispatcher.register at hr
  cases hinfo : Info.ofReport r with
  | error p =>
    rw [hinfo] at hr
    cases hr
  | ok info' =>
    rw [hinfo] at hr
    cases hr
    exact ⟨h.standard, h.current⟩

theorem Capitalised.unregister (h : d.Capitalised) (domain : String) : (d.unregister domain).Capitalised :=
  ⟨h.standard, h.current⟩

/-- A domain that is selected is in upper case, whatever its case where it is selected. -/
theorem Capitalised.switch (h : d.Capitalised) {domain mode rule : Option String}
    (hs : d.switch domain mode rule = .ok d') : d'.Capitalised := by
  have hnative : ({ d with context := { domain := d.defaultDomain } } : Dispatcher).Capitalised := ⟨h.standard, h.standard⟩
  unfold Dispatcher.switch at hs
  cases domain with
  | none => exact Except.ok.inj hs ▸ hnative
  | some name =>
    dsimp only at hs
    split at hs
    · exact Except.ok.inj hs ▸ hnative
    · obtain ⟨found, -, hs⟩ := bind_eq_ok_iff.mp hs
      split at hs
      · cases hs
      · split at hs
        · cases hs
        · cases hs
        · obtain ⟨matcher, -, hs⟩ := bind_eq_ok_iff.mp hs
          exact Except.ok.inj hs ▸ ⟨h.standard, Text.upper_upper name⟩
      · exact Except.ok.inj hs ▸ ⟨h.standard, Text.upper_upper name⟩

/-- A name that has the entry of a method is the method's in some case, and a request finds the method's parameters. -/
theorem methodNamed?_cases (h : d.Capitalised) {name : String} {e : Entry} (he : d.methodNamed? name = some e) :
    ∃ method, e.routine = .method d.context.domain method e.params ∧ Text.upper method = Text.upper name ∧
      e.name = Text.upper name ∧ e.Lenient ∧ d.methodParams name none = e.params := by
  unfold methodNamed? at he
  split at he
  · cases he
  · split at he
    · next hfound =>
      obtain ⟨⟨method, params⟩, hmethod, rfl⟩ := Option.map_eq_some_iff.mp he
      have hfirst := List.find?_some (p := fun e : String × List String => Text.upper e.1 == Text.upper name) hmethod
      have hname : Text.upper method = Text.upper name := eq_of_beq hfirst
      refine ⟨method, rfl, hname, hname, ⟨rfl, rfl, rfl, rfl, rfl⟩, ?_⟩
      unfold methodParams
      dsimp only
      rw [h.current, hfound]
      dsimp only
      rw [hmethod]
      rfl
    · cases he

end Address.Dispatcher

end Conductor
