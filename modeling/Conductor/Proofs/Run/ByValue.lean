import Conductor.Proofs.Memory.Nesting
import Conductor.Proofs.Run.Guarded

/-!
# Arguments are passed by value

The variables of a caller, and every stem that they lead to, are after the call of a
label what they were before it, however the call ends. To see this, the stems of the
variables are guarded, together with every stem that leads to one of them: then the
copies that the routine gets are clear, and so is everything it can get hold of after
that. Nothing is asked of the caller's variables; its stems may be shared among them in
any way.

Lists and dictionaries are not values of the language and are not copied. An argument
that hides a stem of the caller in one of them gives the routine that very stem.
-/

set_option autoImplicit false

namespace Conductor

open Relation (ReflTransGen)

namespace Machine

def Reached (m : Machine) (c : Address) : Prop :=
  ∃ e ∈ m.session.scope, ∃ a ∈ e.2.addresses, ReflTransGen m.world.store.Leads a c

def ownStems (m : Machine) : Guard where
  guarded a := a < m.world.store.stems.size ∧ ∃ c, m.Reached c ∧ ReflTransGen m.world.store.Leads a c
  content := m.world.store.get
  trapped := False

/-- What stands outside of the language keeps no stem that leads to one of the variables: neither the functions
that can be called, nor the modules that can be loaded, nor the handlers. -/
structure HostsApart (m : Machine) : Prop where
  functions : Clear m.ownStems m.session.resolver
  files : Clear m.ownStems m.world.files
  loader : Clear m.ownStems m.world.loader
  modules : Clear m.ownStems m.world.modules
  handlers : Clear m.ownStems m.world.handlers

/-- A later state with the same variables and the same contents of all the stems that they lead to. -/
structure SameVariables (m m' : Machine) : Prop where
  scope : m'.session.scope = m.session.scope
  stems : ∀ c, m.Reached c → c < m.world.store.stems.size → m'.world.store.get c = m.world.store.get c

theorem ownStems_intact (m : Machine) : m.world.store.Intact m.ownStems where
  kept _ ha := ⟨ha.1, rfl⟩
  apart a ha := by
    refine Stem.clear_iff.mpr fun b hb hguarded => ha ?_
    obtain ⟨-, c, hc, hpath⟩ := hguarded
    exact ⟨Store.leads_lt hb, c, hc, .head hb hpath⟩

theorem HostsApart.outside {m : Machine} (h : m.HostsApart) : Play.Outside m.ownStems m where
  settled := ⟨h.functions, fun ht => ht.elim, fun ht => ht.elim⟩
  world := ⟨⟨m.ownStems_intact⟩, h.files, h.loader, h.modules, h.handlers⟩

theorem sameVariables_of_outside {m m' : Machine} (h : Play.Outside m.ownStems m')
    (hscope : m'.session.scope = m.session.scope) : m.SameVariables m' where
  scope := hscope
  stems c hc hlt := (h.world.worldSound.store.intact.kept c ⟨hlt, c, hc, .refl⟩).2

end Machine

theorem Step.leave_leave {σ ε α : Type} (x : Step σ ε α) (f g : σ → σ) :
    (x.leave f).leave g = x.leave fun s => g (f s) := by
  induction x with
  | done a s => rfl
  | fail e s => rfl
  | wait w s resume ih => exact congrArg (wait w s) (funext fun raised => funext (ih raised))

namespace Play

def withScope (scope : Scope) (m : Machine) : Machine := { m with session := { m.session with scope := scope } }

/-- A routine has no way to read the variables of its caller. -/
theorem callLabel_withScope (o : Outer) (name : String) (a : Arguments) (m : Machine) (scope : Scope) :
    callLabel o name a (withScope scope m) = (callLabel o name a m).leave (withScope scope) := by
  cases hi : m.session.labels.lookup (Text.upper name) with
  | none =>
    have hi' : (withScope scope m).session.labels.lookup (Text.upper name) = none := hi
    simp only [callLabel, Run.bind_apply, session_apply, Step.bind, labelIndex_apply, hi, hi']
    rfl
  | some i =>
    have hi' : (withScope scope m).session.labels.lookup (Text.upper name) = some i := hi
    by_cases hdepth : m.session.callDepth < callLimit
    · rw [callLabel_apply o a hi hdepth, callLabel_apply (m := withScope scope m) o a hi' hdepth, Step.leave_leave]
      -- seeding the scope of the routine is the first thing that happens
      rfl
    · have hdepth' : ¬ (withScope scope m).session.callDepth < callLimit := hdepth
      simp only [callLabel, Run.bind_apply, session_apply, Step.bind, labelIndex_apply, hi, hi', ge_iff_le,
        Nat.not_lt.mp hdepth, Nat.not_lt.mp hdepth', if_true]
      rfl

/-- A routine that is given copies of its arguments leaves the variables of its caller, and every stem that they
lead to, as they were, whether it returns or ends with a signal, and it gives back none of these stems. It does
the same whatever those variables are. -/
theorem routine_keeps_caller (n : Nat) (name : String) (a : Arguments) (m : Machine) (hhosts : m.HostsApart)
    (hargs : Copyable m.ownStems a) :
    Reaches m.ownStems (fun v m' => Clear m.ownStems v ∧ m.SameVariables m') m.SameVariables
      (callLabel (outer n) name a m) ∧
    ∀ scope, callLabel (outer n) name a (withScope scope m) = (callLabel (outer n) name a m).leave (withScope scope) := by
  refine ⟨?_, callLabel_withScope (outer n) name a m⟩
  exact (callLabel_reaches (outer n) name hargs m hhosts.outside).mono
    (fun _ m' h => ⟨h.1, Machine.sameVariables_of_outside h.2.1 h.2.2.1⟩)
    fun m' h => Machine.sameVariables_of_outside h.1 h.2.1

def writing : Syntax.Program :=
  [.label "SUB" ⟨1, "SUB:"⟩,
    .assign ⟨"L", [], ⟨2, 1⟩⟩ (.expr (.call "ARG" [(none, .literal (.number (.int 1)) ⟨2, 9⟩)] ⟨2, 5⟩)) "ARG(1)"
      ⟨2, "L = ARG(1)"⟩,
    .assign ⟨"L", ["1", "K"], ⟨3, 1⟩⟩ (.expr (.literal (.number (.int 5)) ⟨3, 9⟩)) "5" ⟨3, "L.1.K = 5"⟩,
    .ret (some (.literal (.number (.int 0)) ⟨4, 8⟩)) false ⟨4, "RETURN 0"⟩]

def holding (v : Value) : Machine where
  session := { scope := [("Y", v)], program := writing.toArray, labels := [("SUB", 0)] }
  world := { store := { stems := #[⟨[], [("K", .int 1)]⟩, ⟨[.stem 0], []⟩] } }

theorem holding_hostsApart (v : Value) : (holding v).HostsApart where
  functions := ⟨clear_builtins, inferInstanceAs (Clear _ ([] : Registry)), inferInstanceAs (Clear _ ([] : Registry)),
    inferInstanceAs (Clear _ ([] : List Registry))⟩
  files := ⟨inferInstanceAs (Clear _ ([] : Table String Content))⟩
  loader := ⟨inferInstanceAs (Clear _ (none : Option (Table String Module.Source))),
    inferInstanceAs (Clear _ ([] : Table String HostModule)), inferInstanceAs (Clear _ ([] : Table String Module.Node)),
    inferInstanceAs (Clear _ ([] : Table Nat Module.Outcome))⟩
  modules := ⟨fun _ h => nomatch h⟩
  handlers := ⟨fun _ h => nomatch h⟩

def leftBehind : Step Machine Signal Value → Option Int
  | .done _ m =>
    match (m.world.store.get 0).named.get? "K" with
    | some (.scalar (.int n)) => some n
    | _ => none
  | _ => none

theorem eq_done_of_leftBehind {x : Step Machine Signal Value} {n : Int} (h : leftBehind x = some n) :
    ∃ v m, x = .done v m ∧ (m.world.store.get 0).named.get? "K" = some (.int n) := by
  cases x with
  | done v m =>
    simp only [leftBehind] at h
    split at h
    · next k hk => exact ⟨v, m, rfl, by rw [hk, Option.some.inj h]⟩
    · cases h
  | fail e m => cases h
  | wait w m resume => cases h

theorem holding_copyable : Copyable (holding (.stem 1)).ownStems { placed := [.stem 1] } where
  placed v hv := by
    obtain rfl := List.mem_singleton.mp hv
    intro w hw
    cases hw with
    | itself => exact Or.inl rfl
    | item _ hv hw =>
      obtain rfl := List.mem_singleton.mp hv
      cases hw with
      | itself => exact Or.inl rfl
      | item _ hv => cases hv
      | entry _ he hw =>
        cases List.mem_singleton.mp he
        cases hw
        exact Or.inr inferInstance
    | entry _ he => cases he
  named _ he := nomatch he

/-- The routine writes to its copy and returns, and the variable still leads to a 1. -/
theorem routine_keeps_caller_holding : (holding (.stem 1)).HostsApart ∧
    Copyable (holding (.stem 1)).ownStems { placed := [.stem 1] } ∧
    ∃ v m', callLabel (outer 1) "SUB" { placed := [.stem 1] } (holding (.stem 1)) = .done v m' ∧
      (holding (.stem 1)).SameVariables m' := by
  refine ⟨holding_hostsApart _, holding_copyable, ?_⟩
  have hend : leftBehind (callLabel (outer 1) "SUB" { placed := [.stem 1] } (holding (.stem 1))) = some 1 := by
    decide +kernel
  obtain ⟨v, m', heq, -⟩ := eq_done_of_leftBehind hend
  have hkept (m : Machine) (a : Arguments) (hhosts : m.HostsApart) (hargs : Copyable m.ownStems a)
      (h : callLabel (outer 1) "SUB" a m = .done v m') : m.SameVariables m' :=
    ((routine_keeps_caller 1 "SUB" a m hhosts hargs).1.of_done h).2
  exact ⟨v, m', heq, hkept _ _ (holding_hostsApart _) holding_copyable heq⟩

/-- A list among the arguments is not copied: the routine writes to a stem of its caller. -/
theorem routine_writes_through_list : (holding (.list [.stem 0])).HostsApart ∧ (holding (.list [.stem 0])).Reached 0 ∧
    ∃ v m', callLabel (outer 1) "SUB" { placed := [.list [.stem 0]] } (holding (.list [.stem 0])) = .done v m' ∧
      m'.world.store.get 0 ≠ (holding (.list [.stem 0])).world.store.get 0 := by
  refine ⟨holding_hostsApart _, ⟨_, List.mem_singleton_self _, 0, by decide, .refl⟩, ?_⟩
  have hend : leftBehind (callLabel (outer 1) "SUB" { placed := [.list [.stem 0]] } (holding (.list [.stem 0]))) =
      some 5 := by decide +kernel
  obtain ⟨v, m', heq, hleft⟩ := eq_done_of_leftBehind hend
  refine ⟨v, m', heq, fun hsame => ?_⟩
  have hbefore : ((holding (.list [.stem 0])).world.store.get 0).named.get? "K" = some (.int 1) := rfl
  rw [hsame, hbefore] at hleft
  cases hleft

end Play

end Conductor
