import Conductor.Proofs.Run.Blame
import Conductor.Proofs.Run.Retained

/-!
# The tiers of names

A name is looked for in tiers, and the first tier that has it gives its entry. The third tier,
the libraries, loads the module that is named for a name before it gives up. A load changes the
world and leaves the session alone, so it brings names into this tier and into no other.

The walk through the tiers asks the handler's methods before it loads a module, though they
come after the libraries. So a method takes a name from a module that is yet to be loaded, and
no other name is found in another place than the order says.
-/

set_option autoImplicit false

namespace Conductor

/-! ## The order of the tiers -/

namespace Session

def tiers (s : Session) (name : String) : List (Option Entry) :=
  [s.resolver.builtins.find? name, s.resolver.internal.find? name, s.resolver.required.find? name,
    s.dispatcher.methodNamed? name] ++ s.resolver.fallbackOrder.map fun tier => s.resolver.fallback? tier name

def supplier? (s : Session) (name : String) : Option Entry := (s.tiers name).findSome? id

/-- The session with further entries in its libraries. -/
def requiring (s : Session) (entries : List Entry) : Session :=
  { s with resolver := { s.resolver with required := s.resolver.required.addAll entries } }

/-- A method holds a name that is also the name of a module not yet loaded. -/
def Preempted (s : Session) (name : String) : Prop :=
  (s.resolver.builtins.find? name = none ∧ s.resolver.internal.find? name = none ∧
    s.resolver.required.find? name = none) ∧
  s.resolver.autoload.get? (Text.upper name) ≠ none ∧ s.dispatcher.methodNamed? name ≠ none

theorem supplier?_eq (s : Session) (name : String) :
    s.supplier? name =
      (s.resolver.local? s.dispatcher.methodNamed? name <|> s.resolver.fallbacks? name) := by
  simp only [supplier?, tiers, List.cons_append, List.nil_append, List.findSome?_cons, List.findSome?_map,
    Function.comp_def, id, Resolver.local?, Resolver.fallbacks?]
  cases s.resolver.builtins.find? name <;> cases s.resolver.internal.find? name <;>
    cases s.resolver.required.find? name <;> cases s.dispatcher.methodNamed? name <;> rfl

end Session

namespace Play

/-- The third tier: a name that the libraries miss has the module that is named for it loaded first. -/
def library (o : Outer) (name : String) : Play (Option Entry) := do
  let r := (← session).resolver
  match r.required.find? name, r.autoload.get? (Text.upper name) with
  | none, some identifier => do
    requireModule o identifier none
    return (← session).resolver.required.find? name
  | found, _ => return found

def walk (o : Outer) (s : Session) (name : String) : List (Play (Option Entry)) :=
  [pure (s.resolver.builtins.find? name), pure (s.resolver.internal.find? name), library o name,
    pure (s.dispatcher.methodNamed? name)] ++
  s.resolver.fallbackOrder.map fun tier => pure (s.resolver.fallback? tier name)

def unknownName (name : String) (line : Option Nat) : Condition :=
  { cause := .unknownFunction name, line := line, function := some name }

def settle (name : String) (line : Option Nat) (found : Option Entry) : Play Entry :=
  match found with
  | some e => return e
  | none => raise (unknownName name line)

/-- The entry of a name by the order of the tiers. -/
def tiered (o : Outer) (name : String) (line : Option Nat) : Play Entry := do
  let found ← (walk o (← session) name).findSomeM? id
  settle name line found

/-! ## What the two walks come to -/

variable {o : Outer} {m : Machine}

theorem findSomeM?_tiers (l : List (Option Entry)) :
    (l.map (pure (f := Play))).findSomeM? id = pure (l.findSome? id) := by
  induction l with
  | nil => rfl
  | cons found l ih =>
    cases found with
    | none => exact ih
    | some e => rfl

theorem findSomeM?_walk (s : Session) (name : String) :
    (walk o s name).findSomeM? id =
      match s.resolver.builtins.find? name <|> s.resolver.internal.find? name with
      | some e => pure (some e)
      | none => do return (← library o name) <|> (s.dispatcher.methodNamed? name <|> s.resolver.fallbacks? name) := by
  have hrest : ((pure (s.dispatcher.methodNamed? name) :: s.resolver.fallbackOrder.map fun tier =>
      pure (s.resolver.fallback? tier name)) : List (Play (Option Entry))).findSomeM? id =
      pure (s.dispatcher.methodNamed? name <|> s.resolver.fallbacks? name) := by
    have h := findSomeM?_tiers (s.dispatcher.methodNamed? name :: s.resolver.fallbackOrder.map fun tier =>
      s.resolver.fallback? tier name)
    rw [List.map_cons, List.map_map] at h
    refine h.trans (congrArg pure ?_)
    rw [List.findSome?_cons, List.findSome?_map]
    cases s.dispatcher.methodNamed? name <;> rfl
  simp only [walk, List.cons_append, List.nil_append, List.findSomeM?, id, pure_bind]
  cases s.resolver.builtins.find? name with
  | some e => rfl
  | none =>
    cases s.resolver.internal.find? name with
    | some e => rfl
    | none =>
      refine congrArg (library o name >>= ·) (funext fun found => ?_)
      cases found with
      | some e => rfl
      | none => exact hrest

/-- The walk in the documented order. -/
theorem tiered_apply (name : String) (line : Option Nat) :
    tiered o name line m =
      match m.session.resolver.builtins.find? name <|> m.session.resolver.internal.find? name with
      | some e => .done e m
      | none => (library o name m).bind fun found => settle name line
          (found <|> (m.session.dispatcher.methodNamed? name <|> m.session.resolver.fallbacks? name)) := by
  simp only [tiered, Run.bind_apply, session_apply, Step.bind, findSomeM?_walk]
  cases m.session.resolver.builtins.find? name <|> m.session.resolver.internal.find? name with
  | some e => rfl
  | none => exact Step.bind_assoc _ _ _

theorem library_apply (name : String) :
    library o name m =
      match m.session.resolver.required.find? name, m.session.resolver.autoload.get? (Text.upper name) with
      | none, some identifier => (requireModule o identifier none m).bind fun _ m =>
          .done (m.session.resolver.required.find? name) m
      | found, _ => .done found m := by
  simp only [library, Run.bind_apply, session_apply, Step.bind]
  cases m.session.resolver.required.find? name <;> cases m.session.resolver.autoload.get? (Text.upper name) <;> rfl

theorem resolve_apply (name : String) (line : Option Nat) :
    resolve o name line m =
      match m.session.resolver.local? m.session.dispatcher.methodNamed? name,
        m.session.resolver.autoload.get? (Text.upper name) with
      | none, some identifier => (requireModule o identifier none m).bind fun _ m =>
          settle name line (m.session.supplier? name) m
      | _, _ => settle name line (m.session.supplier? name) m := by
  simp only [resolve, localEntry, Session.supplier?_eq, Run.bind_apply, session_apply, Run.pure_apply, Step.bind]
  cases m.session.resolver.local? m.session.dispatcher.methodNamed? name with
  | some e => rfl
  | none =>
    simp only [Run.bind_apply, session_apply, Step.bind]
    cases m.session.resolver.autoload.get? (Text.upper name) with
    | none =>
      simp only [Run.bind_apply, session_apply, Step.bind]
      cases m.session.resolver.fallbacks? name <;> rfl
    | some identifier =>
      refine congrArg (requireModule o identifier none m).bind (funext fun u => funext fun m => ?_)
      simp only [Run.bind_apply, session_apply, Run.pure_apply, Step.bind]
      cases m.session.resolver.local? m.session.dispatcher.methodNamed? name with
      | some e => rfl
      | none =>
        simp only [Run.bind_apply, session_apply, Step.bind]
        cases m.session.resolver.fallbacks? name <;> rfl

/-! ## What a load brings -/

variable {G : World → World → Prop}

theorem requireModule_done {n : Nat} {identifier : String} {line : Option Nat} {m₁ : Machine}
    (h : (requireModule (outer n) identifier line m).Comes (Interlude G) (.done () m₁)) :
    ∃ entries, m₁.session = m.session.requiring entries := by
  rcases Step.Comes.of_bind h with ⟨table, m₂, hload, hrest⟩ | ⟨e, m₂, -, heq⟩
  · have hkept : Retains id (inContext (requireHere (outer n) identifier) fun c => c.atLine line) := inferInstance
    have hsame : m₂.session = m.session := hkept.comes hload
    cases hrest
    exact ⟨table.values, congrArg (Session.requiring · table.values) hsame⟩
  · cases heq

theorem settle_done {name : String} {line : Option Nat} {found : Option Entry} {e : Entry} {m' : Machine}
    (h : (settle name line found m).Comes (Interlude G) (.done e m')) : found = some e ∧ m' = m := by
  cases found with
  | none => cases h
  | some e' =>
    cases h
    exact ⟨rfl, rfl⟩

theorem settle_fail {name : String} {line : Option Nat} {found : Option Entry} {signal : Signal} {m' : Machine}
    (h : (settle name line found m).Comes (Interlude G) (.fail signal m')) :
    found = none ∧ signal = .problem (.condition (unknownName name line)) ∧ m' = m := by
  cases found with
  | none =>
    cases h
    exact ⟨rfl, rfl, rfl⟩
  | some e => cases h

theorem tiered_autoload {name identifier : String} (line : Option Nat)
    (hb : m.session.resolver.builtins.find? name = none)
    (hi : m.session.resolver.internal.find? name = none) (hr : m.session.resolver.required.find? name = none)
    (ha : m.session.resolver.autoload.get? (Text.upper name) = some identifier) :
    tiered o name line m = (requireModule o identifier none m).bind fun _ m₁ => settle name line
      (m₁.session.resolver.required.find? name <|>
        (m.session.dispatcher.methodNamed? name <|> m.session.resolver.fallbacks? name)) m₁ := by
  rw [tiered_apply, library_apply, hb, hi, hr, ha]
  exact Step.bind_assoc _ _ _

/-- Where no method stands before a load, the two walks come to the same. -/
theorem resolve_iff_tiered {n : Nat} {name : String} (hfree : ¬ m.session.Preempted name) (line : Option Nat)
    (ending : Step.Ending Machine Signal Entry) :
    (resolve (outer n) name line m).Comes (Interlude G) ending ↔
      (tiered (outer n) name line m).Comes (Interlude G) ending := by
  cases hb : m.session.resolver.builtins.find? name with
  | some e => simp [resolve_apply, tiered_apply, Session.supplier?_eq, Resolver.local?, hb, settle]
  | none =>
  cases hi : m.session.resolver.internal.find? name with
  | some e => simp [resolve_apply, tiered_apply, Session.supplier?_eq, Resolver.local?, hb, hi, settle]
  | none =>
  cases hr : m.session.resolver.required.find? name with
  | some e =>
    simp [resolve_apply, tiered_apply, library_apply, Session.supplier?_eq, Resolver.local?, hb, hi, hr, settle, Step.bind]
  | none =>
  cases ha : m.session.resolver.autoload.get? (Text.upper name) with
  | none =>
    simp [resolve_apply, tiered_apply, library_apply, Session.supplier?_eq, Resolver.local?, hb, hi, hr, ha, Step.bind]
  | some identifier =>
    have hmethod : m.session.dispatcher.methodNamed? name = none := by
      by_contra hmethod
      exact hfree ⟨⟨hb, hi, hr⟩, by simp [ha], hmethod⟩
    have hwaits : resolve (outer n) name line m = (requireModule (outer n) identifier none m).bind fun _ m₁ =>
        settle name line (m₁.session.supplier? name) m₁ := by
      simp [resolve_apply, Resolver.local?, hb, hi, hr, ha, hmethod]
    rw [hwaits, tiered_autoload line hb hi hr ha]
    -- the load leaves every tier but the libraries as it was, so the walk that begins again finds what is left
    -- of the first
    refine Step.Comes.bind_congr (fun _ m₁ hload => ?_) ending
    obtain ⟨entries, hs⟩ := requireModule_done hload
    have hsupplier : m₁.session.supplier? name = (m₁.session.resolver.required.find? name <|>
        (m.session.dispatcher.methodNamed? name <|> m.session.resolver.fallbacks? name)) := by
      simp [Session.supplier?_eq, Resolver.local?, Resolver.fallbacks?, Resolver.fallback?, hs, Session.requiring, hb, hi,
        hmethod]
    rw [hsupplier]

theorem resolve_ends {n : Nat} {name : String} {line : Option Nat} {ending : Step.Ending Machine Signal Entry}
    (h : (resolve (outer n) name line m).Comes (Interlude G) ending) :
    (∃ m₁, (∃ entries, m₁.session = m.session.requiring entries) ∧
      (settle name line (m₁.session.supplier? name) m₁).Comes (Interlude G) ending) ∨
    ∃ identifier signal m₁, m.session.resolver.autoload.get? (Text.upper name) = some identifier ∧
      (requireModule (outer n) identifier none m).Comes (Interlude G) (.fail signal m₁) ∧ ending = .fail signal m₁ := by
  rw [resolve_apply] at h
  split at h
  · next identifier _ ha =>
    rcases h.of_bind with ⟨_, m₁, hload, hend⟩ | ⟨signal, m₁, hload, rfl⟩
    · exact .inl ⟨m₁, requireModule_done hload, hend⟩
    · exact .inr ⟨identifier, signal, m₁, ha, hload, rfl⟩
  · exact .inl ⟨m, ⟨[], rfl⟩, h⟩

/-- A name is resolved by the order of the tiers, except where a method holds it and its module is yet to be loaded: there
the method is taken and nothing is loaded, so a module that would supply the name loses it. Where no module is named for
the name, the first tier that holds it gives its entry, and the name is unknown exactly if there is none. However it is
resolved, an entry is that of the first tier to hold the name in the end, and a failure is either that no tier holds it or
the failure of the load. The session is as before but for what the load brings into the libraries. -/
theorem first_tier_wins (n : Nat) (G : World → World → Prop) (m : Machine) (name : String) (line : Option Nat) :
    (¬ m.session.Preempted name → ∀ ending, (resolve (outer n) name line m).Comes (Interlude G) ending ↔
      (tiered (outer n) name line m).Comes (Interlude G) ending) ∧
    (m.session.Preempted name → (∃ e, m.session.dispatcher.methodNamed? name = some e ∧
      resolve (outer n) name line m = .done e m) ∧
      ∀ e m', (library (outer n) name m).Comes (Interlude G) (.done (some e) m') →
        (tiered (outer n) name line m).Comes (Interlude G) (.done e m')) ∧
    (m.session.resolver.autoload.get? (Text.upper name) = none →
      resolve (outer n) name line m = settle name line (m.session.supplier? name) m) ∧
    (∀ e m', (resolve (outer n) name line m).Comes (Interlude G) (.done e m') →
      (∃ entries, m'.session = m.session.requiring entries) ∧ m'.session.supplier? name = some e) ∧
    ∀ signal m', (resolve (outer n) name line m).Comes (Interlude G) (.fail signal m') →
      (signal = .problem (.condition (unknownName name line)) ∧
        (∃ entries, m'.session = m.session.requiring entries) ∧ m'.session.supplier? name = none) ∨
      ∃ identifier, m.session.resolver.autoload.get? (Text.upper name) = some identifier ∧
        (requireModule (outer n) identifier none m).Comes (Interlude G) (.fail signal m') := by
  refine ⟨fun hfree => resolve_iff_tiered hfree line, fun hpre => ?_, fun ha => ?_, fun e m' h => ?_,
    fun signal m' h => ?_⟩
  · obtain ⟨⟨hb, hi, hr⟩, ha, hmethod⟩ := hpre
    refine ⟨?_, fun e m' hfound => ?_⟩
    · obtain ⟨e, he⟩ := Option.ne_none_iff_exists'.mp hmethod
      exact ⟨e, he, by simp [resolve_apply, Session.supplier?_eq, Resolver.local?, hb, hi, hr, he, settle]⟩
    · rw [tiered_apply, hb, hi]
      exact hfound.bind_done (.done e m')
  · rw [resolve_apply, ha]
    split
    · next heq => cases heq
    · rfl
  · rcases resolve_ends h with ⟨m₁, hgrown, hend⟩ | ⟨_, _, _, _, _, heq⟩
    · obtain ⟨hsupplier, rfl⟩ := settle_done hend
      exact ⟨hgrown, hsupplier⟩
    · cases heq
  · rcases resolve_ends h with ⟨m₁, hgrown, hend⟩ | ⟨identifier, _, _, ha, hload, heq⟩
    · obtain ⟨hsupplier, hsignal, rfl⟩ := settle_fail hend
      exact .inl ⟨hsignal, hgrown, hsupplier⟩
    · cases heq
      exact .inr ⟨identifier, ha, hload⟩

/-- A session whose handler has a method `M`, beside a module with a function `m` that is named for it. -/
def lending : Machine where
  session :=
    { dispatcher :=
        { handlers := [("SVC", (0, { name := "svc", domains := ["SVC"], methods := some [("M", ["a"])] }))]
          context := { domain := "SVC" } }
      resolver := { autoload := [("M", "./lib.py")] } }
  world := { files := { entries := [("/lib.py", .module { functions := [("m", { name := "m" })] })] } }

def tierOf (x : Step Machine Signal Entry) : Option Tier :=
  match x with
  | .done e _ => some e.tier
  | _ => none

/-- The method is found, though the library that is named for it has the name. -/
theorem first_tier_wins_preempted : ∃ e, resolve (outer 1) "M" none lending = .done e lending ∧ e.tier = .addressMethod ∧
    tierOf (tiered (outer 1) "M" none lending) = some .required := by
  have hpreempted : lending.session.Preempted "M" := by
    refine ⟨⟨?_, ?_, ?_⟩, ?_, ?_⟩
    · exact Option.isNone_iff_eq_none.mp (by decide +kernel)
    · rfl
    · rfl
    · exact Option.isSome_iff_ne_none.mp (by decide +kernel)
    · exact Option.isSome_iff_ne_none.mp (by decide +kernel)
  obtain ⟨⟨e, -, hresolve⟩, -⟩ := (first_tier_wins 1 (fun _ _ => True) lending "M" none).2.1 hpreempted
  have htier : tierOf (resolve (outer 1) "M" none lending) = some .addressMethod := by decide +kernel
  rw [hresolve] at htier
  exact ⟨e, hresolve, Option.some.inj htier, by decide +kernel⟩

end Play

end Conductor
