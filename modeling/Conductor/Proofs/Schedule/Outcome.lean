import Conductor.Proofs.Module.Coherent
import Conductor.Proofs.Schedule.Steady

/-!
# What a load comes to

Which loads succeed is decided by the graph of requests, not by the order of turns: a
task that ends has succeeded exactly when all that its request leads to is well formed
and nothing of it leads back to itself. What it then has are the entries that it would
have got alone, up to the name of the module in their metadata, which is the identifier
that the location was first asked for by; and all that the request leads to is loaded.
-/

set_option autoImplicit false

namespace Conductor

open Conductor.Module
open Relation (ReflTransGen TransGen)

namespace Schedule

variable {w : World} {requests : List Request} {s : Schedule (Table String Entry)} {owner : Nat → Option Nat}
  {act : Nat → Activity} {T : Judgment w}

/-! ## Alone -/

/-- A task that nobody runs beside never waits for a load, and so comes to its end. -/
theorem alone_of_meets {α : Type} {i : Nat} {d : α → Ghost → Machine → Prop} {f : Signal → Ghost → Machine → Prop}
    (x : Step Machine Signal α) (g : Ghost) (hidle : ∀ j, j ≠ i → g.activity j = {}) (h : x.Meets (between T i) d f g) :
    (∃ a m g', x.alone = .done a m ∧ d a g' m) ∨ ∃ e m g', x.alone = .fail e m ∧ f e g' m := by
  induction x generalizing g with
  | done a m => exact Or.inl ⟨a, m, g, rfl, h⟩
  | fail e m => exact Or.inr ⟨e, m, g, rfl, h⟩
  | wait wait m resume ih =>
    obtain ⟨own, hduring, hfits, hresume⟩ := h
    have hothers : ∀ j, j ≠ i → Function.update g.activity i own j = {} := by
      intro j hj
      rw [Function.update_of_ne hj]
      exact hidle j hj
    cases wait with
    | turn =>
      refine ih none m ⟨Function.update g.activity i own, m.world.loader⟩ hothers (hresume _ m ?_)
      exact ⟨by simp, rfl, rfl, hduring.setting, hduring.orderly, .refl _, by simp⟩
    | load t =>
      -- The load that it would wait for is on its own stack, so it would wait for itself.
      exfalso
      obtain ⟨hnone, a, ha⟩ := hfits
      rcases hduring.orderly.awaited i a t (by simpa using ha) with hanswered | ⟨j, hj⟩
      · rw [Answered, hnone] at hanswered
        exact hanswered
      · by_cases hji : j = i
        · subst hji
          exact hduring.orderly.acyclic j (.single ⟨(a, t), by simpa using ha, hj⟩)
        · rw [hothers j hji] at hj
          simp at hj

theorem load_alone {texts : List String} {n : Nat} {r : Request} (hr : T.asked r)
    (htexts : ∀ r l, T.asked r → target w r = .ok l → l.text ∈ texts) (hdepth : texts.length ≤ n)
    (horderly : Orderly T w.loader fun _ => {}) :
    ∃ m, SameSetting w m.world ∧ (∃ act, Orderly T m.world.loader act) ∧
      ((∃ es, (Play.load (Play.outer n) r.1 r.2 [] ⟨{}, w⟩).alone = .done es m ∧
        Deserved T m.world.loader r (.ok es)) ∨
      ∃ e, (Play.load (Play.outer n) r.1 r.2 [] ⟨{}, w⟩).alone = .fail e m ∧ Deserved T m.world.loader r (.error e)) := by
  have hduring : During T 0 ⟨fun _ => {}, w.loader⟩ w ⟨[], none⟩ := by
    refine ⟨.refl _, ?_, .refl _, by simp⟩
    rw [Function.update_eq_self_iff.mpr rfl]
    exact horderly
  have hload : Loads T (Play.load (Play.outer n)) [] := load_meets htexts n (by simp) (by simpa using hdepth)
  rcases alone_of_meets _ _ (fun _ _ => rfl) (hload 0 ⟨fun _ => {}, w.loader⟩ ⟨{}, w⟩ r [] hr rfl hduring (by simp)) with
    ⟨es, m, g, halone, hduring', -, hdeserved⟩ | ⟨e, m, g, halone, hduring', hproblem, hflawed⟩
  · exact ⟨m, hduring'.setting, ⟨_, hduring'.orderly⟩, Or.inl ⟨es, halone, hdeserved⟩⟩
  · exact ⟨m, hduring'.setting, ⟨_, hduring'.orderly⟩, Or.inr ⟨e, halone, hproblem, hflawed⟩⟩

/-! ## Beside others -/

structure Fresh (l : Loader) : Prop where
  nodes : l.nodes = []
  edges : l.edges = []
  outcomes : l.outcomes = []

theorem Fresh.orderly {l : Loader} (h : Fresh l) : Orderly T l fun _ => {} := by
  have hcalm : ∀ a t, ¬ Loading l a t := by
    rintro a t ⟨n, hn, -⟩
    simp [h.nodes, Table.get?] at hn
  refine Rested.orderly ⟨hcalm, by simp [h.outcomes, Table.get?], by simp [h.outcomes]⟩ ?_ ?_
  · intro a b hab
    simp [Along, h.edges, Table.get?] at hab
  · rintro a f ⟨n, hn, -⟩
    simp [h.nodes, Table.get?] at hn

theorem loaded_of_path {l : Loader} (horderly : Orderly T l act) (hneeds : ∀ {r r' : Request} {a b : Location},
      T.asked r → target w r = .ok a → Leads w r r' → target w r' = .ok b → T.needs a.text b.text)
    {r r' : Request} (hr : T.asked r) (hpath : ReflTransGen (Leads w) r r')
    (hloaded : ∀ a, target w r = .ok a → ∃ f, Loaded l a.text f) :
    T.asked r' ∧ ∀ a, target w r' = .ok a → ∃ f, Loaded l a.text f := by
  induction hpath with
  | refl => exact ⟨hr, hloaded⟩
  | tail _ hlast ih =>
    obtain ⟨hasked, hloaded'⟩ := ih
    refine ⟨T.closed hasked hlast, fun b hb => ?_⟩
    obtain ⟨a, ha⟩ := hlast.target_eq
    obtain ⟨f, hf⟩ := hloaded' a ha
    exact (horderly.loaded _ _ hf).2 _ (hneeds hasked ha hlast hb)

/-- A request deserves to succeed exactly when it is sound. -/
theorem deserved_iff_sound {l : Loader} {r : Request} {result : Except Signal (Table String Entry)}
    {hhost : ∀ r l, Asked w requests r → target w r = .ok l → l.language = .host}
    {hweb : ∀ r l, Asked w requests r → target w r = .ok l → l.origin = .url → w.loader.sources ≠ none}
    {hcoherent : Coherent w requests} (hr : Asked w requests r)
    (horderly : Orderly (ofGraph w requests hhost hweb hcoherent) l act)
    (h : Deserved (ofGraph w requests hhost hweb hcoherent) l r result) : (∃ es, result = .ok es) ↔ Sound w r := by
  cases result with
  | ok es =>
    obtain ⟨a, ha, hloaded⟩ := h
    have hfine : Fine w requests a.text es := (horderly.loaded _ _ hloaded).1
    exact iff_of_true ⟨es, rfl⟩ (Coherent.sound_of_not_flawed hr ha hfine.1)
  | error e =>
    refine iff_of_false (by simp) fun hsound => ?_
    obtain ⟨a, -, -, -, ha, -⟩ := hsound.1 r .refl
    exact hcoherent.not_flawed_of_sound hr ha hsound (h.2 a ha)

/-- In every order of turns, a task that ends has succeeded exactly when its request is sound, with the
entries that it would have got alone, up to naming, and with all that it leads to loaded. -/
theorem load_outcome_by_graph {texts : List String} {n i : Nat} {r : Request}
    {result : Except Signal (Table String Entry)}
    (hhost : ∀ r l, Asked w requests r → target w r = .ok l → l.language = .host)
    (hweb : ∀ r l, Asked w requests r → target w r = .ok l → l.origin = .url → w.loader.sources ≠ none)
    (hcoherent : Coherent w requests) (hfinite : ∀ r l, Asked w requests r → target w r = .ok l → l.text ∈ texts)
    (hdepth : texts.length ≤ n) (hfresh : Fresh w.loader) (h : Reaches (loading w n requests) s owner)
    (hr : requests[i]? = some r) (hi : s.results[i]? = some (some result)) :
    ((∃ es, result = .ok es) ↔ Sound w r) ∧ ∀ es, result = .ok es →
      (∃ es₀ m, (Play.load (Play.outer n) r.1 r.2 [] ⟨{}, w⟩).alone = .done es₀ m ∧ SameEntries es es₀) ∧
      ∀ r' l, ReflTransGen (Leads w) r r' → target w r' = .ok l → ∃ f, Loaded s.world.loader l.text f := by
  let T := ofGraph w requests hhost hweb hcoherent
  have hasked : T.asked r := Asked.root (List.mem_of_getElem? hr)
  obtain ⟨act, hsteady⟩ := (steady_loading (T := T) (fun _ => Asked.root) hfinite hdepth hfresh.orderly).reaches h
  obtain ⟨r', hr', hdeserved⟩ := hsteady.deserved i result hi
  obtain rfl : r = r' := Option.some.inj (hr.symm.trans hr')
  have hiff := deserved_iff_sound hasked hsteady.orderly hdeserved
  refine ⟨hiff, ?_⟩
  rintro es rfl
  obtain ⟨l, hl, hloaded⟩ := hdeserved
  refine ⟨?_, ?_⟩
  · obtain ⟨m, -, ⟨act₀, horderly⟩, ⟨es₀, halone, hdeserved₀⟩ | ⟨e, -, hdeserved₀⟩⟩ :=
      load_alone (T := T) hasked hfinite hdepth hfresh.orderly
    · obtain ⟨l₀, hl₀, hloaded₀⟩ := hdeserved₀
      obtain rfl : l = l₀ := Except.ok.inj (hl.symm.trans hl₀)
      exact ⟨es₀, m, halone, Fine.same hcoherent (hsteady.orderly.loaded _ _ hloaded).1 (horderly.loaded _ _ hloaded₀).1⟩
    · have hsound := (deserved_iff_sound hasked horderly hdeserved₀).mpr (hiff.mp ⟨es, rfl⟩)
      simp at hsound
  · intro r' l' hpath hl'
    refine (loaded_of_path hsteady.orderly (fun ha hb hc hd => ⟨_, _, _, _, ha, hb, rfl, hc, hd, rfl⟩) hasked hpath ?_).2
      l' hl'
    intro a ha
    obtain rfl : l = a := Except.ok.inj (hl.symm.trans ha)
    exact ⟨es, hloaded⟩

def moduleNames (es : Table String Entry) : List String := es.map fun e => (e.2.metadata.map Metadata.module).getD ""

def namesAt (s : Schedule (Table String Entry)) (i : Nat) : Option (Option (List String)) :=
  (s.results[i]?.bind id).map fun result => result.toOption.map moduleNames

theorem namesAt_eq_some {i : Nat} {names : List String} (h : namesAt s i = some (some names)) :
    ∃ es, s.results[i]? = some (some (.ok es)) ∧ moduleNames es = names := by
  unfold namesAt at h
  rcases hi : s.results[i]? with _ | _ | (e | es)
  · simp [hi] at h
  · simp [hi] at h
  · simp [hi, Except.toOption] at h
  · exact ⟨es, rfl, by simpa [hi, Except.toOption] using h⟩

theorem namesAt_eq_none {i : Nat} (h : namesAt s i = some none) : ∃ e, s.results[i]? = some (some (.error e)) := by
  unfold namesAt at h
  rcases hi : s.results[i]? with _ | _ | (e | es)
  · simp [hi] at h
  · simp [hi] at h
  · exact ⟨e, rfl⟩
  · simp [hi, Except.toOption] at h

/-- Four modules on the web of which two share a third, and two more that ask for each other. -/
def web : World :=
  { loader := { sources := some [
      ("http://h/a.py", .module { requires := some (.list [.text "b.py", .text "c.py"]), functions := [("f", { name := "f" })] }),
      ("http://h/b.py", .module { requires := some (.list [.text "d.py"]) }),
      ("http://h/c.py", .module { requires := some (.list [.text "d.py"]) }),
      ("http://h/d.py", .module {}),
      ("http://h/x.py", .module { requires := some (.list [.text "y.py"]) }),
      ("http://h/y.py", .module { requires := some (.list [.text "x.py"]) })] } }

/-- Three tasks on these modules: the first succeeds beside the others, the last meets the cycle. -/
theorem load_outcome_by_graph_web :
    ∃ s owner es e, Reaches (loading web 6 [("http://h/a.py", none), ("http://h/d.py", none), ("http://h/x.py", none)])
        s owner ∧
      s.results[0]? = some (some (.ok es)) ∧ Sound web ("http://h/a.py", none) ∧
      (∃ es₀ m, (Play.load (Play.outer 6) "http://h/a.py" none [] ⟨{}, web⟩).alone = .done es₀ m ∧ SameEntries es es₀) ∧
      (∀ r' l, ReflTransGen (Leads web) ("http://h/a.py", none) r' → target web r' = .ok l →
        ∃ f, Loaded s.world.loader l.text f) ∧
      s.results[2]? = some (some (.error e)) ∧ ¬ Sound web ("http://h/x.py", none) := by
  let roots : List Request := [("http://h/a.py", none), ("http://h/d.py", none), ("http://h/x.py", none)]
  let all : List Request := roots ++ ["b.py", "c.py", "d.py", "y.py", "x.py"].map fun dep => (dep, some "http://h/")
  let texts : List String := ["a", "b", "c", "d", "x", "y"].map fun name => "http://h/" ++ name ++ ".py"
  have hasked : ∀ r, Asked web roots r → r ∈ all := fun r => Asked.mem_of_closed (by decide) (by decide +kernel)
  have htarget : ∀ r ∈ all, (target web r).toOption.all fun l =>
      l.origin == .url && l.language == .host && texts.contains l.text := by decide +kernel
  have hlocated : ∀ r l, Asked web roots r → target web r = .ok l →
      (l.origin = .url ∧ l.language = .host) ∧ l.text ∈ texts := by
    intro r l hr hl
    simpa [hl, Except.toOption] using htarget r (hasked r hr)
  obtain ⟨owner, hreaches⟩ := reaches_serve (loading web 6 roots) 40
  obtain ⟨hfirst, hlast⟩ : namesAt ((loading web 6 roots).serve 40) 0 = some (some ["http://h/a.py"]) ∧
      namesAt ((loading web 6 roots).serve 40) 2 = some none := by decide +kernel
  obtain ⟨es, hes, -⟩ := namesAt_eq_some hfirst
  obtain ⟨e, he⟩ := namesAt_eq_none hlast
  have houtcome : ∀ (i : Nat) (r : Request) (result : Except Signal (Table String Entry)), roots[i]? = some r →
      ((loading web 6 roots).serve 40).results[i]? = some (some result) → _ :=
    fun _ _ _ => load_outcome_by_graph (fun r l hr hl => (hlocated r l hr hl).1.2) (by simp [web])
      (coherent_of_origin .url (by decide) fun r l hr hl => (hlocated r l hr hl).1)
      (fun r l hr hl => (hlocated r l hr hl).2) (by decide) ⟨rfl, rfl, rfl⟩ hreaches
  obtain ⟨hsound, hrest⟩ := houtcome 0 _ _ rfl hes
  obtain ⟨hunsound, -⟩ := houtcome 2 _ _ rfl he
  obtain ⟨hlone, hloaded⟩ := hrest es rfl
  exact ⟨_, owner, es, e, hreaches, hes, hsound.mp ⟨es, rfl⟩, hlone, hloaded, he, fun h => by simpa using hunsound.mpr h⟩

/-! ## What the order can change -/

def neighbours : World :=
  { files := { entries := [
      ("/d/a.py", .module { requires := some (.list [.text "b.py"]) }),
      ("/d/b.py", .module { functions := [("f", { name := "f" })] })] } }

/-- A module whose metadata cannot be read: five is no list of parameters. -/
def misdescribed : HostModule :=
  { functions := [("f", { name := "f" })], metadata := [("f", .dict [(.text "parameters", .int 5)])] }

def shelf : World := { files := { entries := [("/d/f.py", .module misdescribed)] } }

/-- A module of the host that asks for one which stands in one of two directories. -/
def halfway : World :=
  { files := { entries := [("/two/b.py", .module {})] }
    loader := { hostModules := [("m", { requires := some (.list [.text "b.py"]) })] } }

theorem names_of_first_request : ∃ (es es₀ : Table String Entry) (m : Machine),
    ((loading neighbours 2 [("/d/a.py", none), ("/d/b.py", none)]).serve 4).results[1]? = some (some (.ok es)) ∧
    (Play.load (Play.outer 2) "/d/b.py" none [] ⟨{}, neighbours⟩).alone = .done es₀ m ∧ es ≠ es₀ := by
  have htask : namesAt ((loading neighbours 2 [("/d/a.py", none), ("/d/b.py", none)]).serve 4) 1 =
      some (some ["b.py"]) := by decide +kernel
  have hlone : (match (Play.load (Play.outer 2) "/d/b.py" none [] ⟨{}, neighbours⟩).alone with
      | .done es₀ _ => some (moduleNames es₀)
      | _ => none) = some ["/d/b.py"] := by decide +kernel
  obtain ⟨es, hes, hnames⟩ := namesAt_eq_some htask
  cases hrun : (Play.load (Play.outer 2) "/d/b.py" none [] ⟨{}, neighbours⟩).alone with
  | done es₀ m =>
    refine ⟨es, es₀, m, hes, rfl, ?_⟩
    rintro rfl
    simp [hrun, hnames] at hlone
  | fail e m => simp [hrun] at hlone
  | stuck m => simp [hrun] at hlone

theorem shelf_readable : target shelf ("/d/f.py", none) = .ok ⟨.file, "/d/f.py", .host⟩ ∧
    moduleAt shelf ⟨.file, "/d/f.py", .host⟩ = .ok misdescribed ∧ following shelf ("/d/f.py", none) = [] :=
  ⟨rfl, rfl, by decide +kernel⟩

theorem halfway_missing : Leads halfway ("py:m", some "/one") ("b.py", some "/one") ∧
    target halfway ("b.py", some "/one") = .ok ⟨.file, "/one/b.py", .host⟩ ∧
    ∃ f, moduleAt halfway ⟨.file, "/one/b.py", .host⟩ = .error f :=
  ⟨by decide +kernel, rfl, _, rfl⟩

/-- What a load comes to depends on more than whether modules are found, run and export functions. The
entries name the identifier that their location was first asked for by, and not the one of a lone load; a
module whose metadata cannot be read is not loaded; and a module of the host that was loaded for one
directory is there for another, from which its dependencies cannot be found. -/
theorem load_outcome_by_more_than_graph :
    (∃ s owner es es₀ m, Reaches (loading neighbours 2 [("/d/a.py", none), ("/d/b.py", none)]) s owner ∧
      s.results[1]? = some (some (.ok es)) ∧
      (Play.load (Play.outer 2) "/d/b.py" none [] ⟨{}, neighbours⟩).alone = .done es₀ m ∧ es ≠ es₀) ∧
    (∃ s owner l exports e, Reaches (loading shelf 2 [("/d/f.py", none)]) s owner ∧
      target shelf ("/d/f.py", none) = .ok l ∧ moduleAt shelf l = .ok misdescribed ∧ misdescribed.raises = none ∧
      misdescribed.exports = .ok exports ∧ (∀ e ∈ exports, e.2.isSome) ∧ following shelf ("/d/f.py", none) = [] ∧
      s.results[0]? = some (some (.error e))) ∧
    ∃ s owner es l f, Reaches (loading halfway 2 [("py:m", some "/two"), ("py:m", some "/one")]) s owner ∧
      s.results[1]? = some (some (.ok es)) ∧ Leads halfway ("py:m", some "/one") ("b.py", some "/one") ∧
      target halfway ("b.py", some "/one") = .ok l ∧ moduleAt halfway l = .error f := by
  refine ⟨?_, ?_, ?_⟩
  · obtain ⟨owner, hreaches⟩ := reaches_serve (loading neighbours 2 [("/d/a.py", none), ("/d/b.py", none)]) 4
    obtain ⟨es, es₀, m, hes, halone, hne⟩ := names_of_first_request
    exact ⟨_, owner, es, es₀, m, hreaches, hes, halone, hne⟩
  · obtain ⟨owner, hreaches⟩ := reaches_serve (loading shelf 2 [("/d/f.py", none)]) 4
    have htask : namesAt ((loading shelf 2 [("/d/f.py", none)]).serve 4) 0 = some none := by decide +kernel
    obtain ⟨e, he⟩ := namesAt_eq_none htask
    obtain ⟨htarget, hmodule, hnone⟩ := shelf_readable
    exact ⟨_, owner, _, [("f", some { name := "f" })], e, hreaches, htarget, hmodule, rfl, rfl, by simp, hnone, he⟩
  · obtain ⟨owner, hreaches⟩ := reaches_serve (loading halfway 2 [("py:m", some "/two"), ("py:m", some "/one")]) 4
    have htask : namesAt ((loading halfway 2 [("py:m", some "/two"), ("py:m", some "/one")]).serve 4) 1 =
        some (some []) := by decide +kernel
    obtain ⟨es, hes, -⟩ := namesAt_eq_some htask
    obtain ⟨hleads, htarget, f, hmissing⟩ := halfway_missing
    exact ⟨_, owner, es, _, f, hreaches, hes, hleads, htarget, hmissing⟩

end Schedule

end Conductor
