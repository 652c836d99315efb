import Conductor.Module.Loader
import Conductor.Proofs.Memory.Traversal

/-!
# The entries of a module

Whether the exports of a module of the host can be made into entries depends on the
module alone. The identifier that it was asked for by shows in one place of the
entries, the module that their metadata names; entries that agree in all else are the
same up to naming.
-/

set_option autoImplicit false

namespace Conductor

namespace Table

variable {κ α β : Type} [BEq κ]

theorem map_put (f : α → β) (k : κ) (v : α) (t : Table κ α) :
    (put k v t).map (fun e => (e.1, f e.2)) = put k (f v) (t.map fun e => (e.1, f e.2)) := by
  induction t with
  | nil => rfl
  | cons e rest ih => by_cases he : e.1 == k <;> simp [put, he, ih]

theorem map_putAll (f : α → β) (t u : Table κ α) :
    (putAll t u).map (fun e => (e.1, f e.2)) =
      putAll (t.map fun e => (e.1, f e.2)) (u.map fun e => (e.1, f e.2)) := by
  induction u generalizing t with
  | nil => rfl
  | cons e rest ih =>
    simp only [putAll, List.foldl_cons, List.map_cons] at ih ⊢
    rw [ih, map_put]

end Table

def Entry.unnamed (e : Entry) : Entry := { e with metadata := e.metadata.map fun d => { d with module := "" } }

/-- Entries that differ at most in the module that their metadata names. -/
def SameEntries (es es' : Table String Entry) : Prop :=
  es.map (fun e => (e.1, e.2.unnamed)) = es'.map fun e => (e.1, e.2.unnamed)

namespace Metadata

def assemble (category description returns : Except Failure String) (parameters examples : Except Failure (List String))
    (operation : Bool) (module : String) : Except Failure Metadata := do
  let category ← category
  let description ← description
  let parameters ← parameters
  let returns ← returns
  let examples ← examples
  return { module, category, description, parameters, returns, examples, operation }

theorem assemble_rename {c d r : Except Failure String} {p e : Except Failure (List String)} {b : Bool}
    {name : String} {data : Metadata} (name' : String) (h : assemble c d r p e b name = .ok data) :
    assemble c d r p e b name' = .ok { data with module := name' } := by
  rcases c with _ | c <;> rcases d with _ | d <;> rcases p with _ | p <;> rcases r with _ | r <;>
    rcases e with _ | e <;> cases h
  rfl

theorem ofTree_dict_rename (es : List (Tree × Tree)) {name : String} {d : Metadata} (name' : String)
    (h : ofTree (.dict es) name = .ok d) : ∃ module, ofTree (.dict es) name' = .ok { d with module := module } := by
  unfold ofTree at h ⊢
  dsimp only at h ⊢
  cases hmodule : Tree.lookup? (.text "module") es with
  | none =>
    simp only [hmodule] at h ⊢
    exact ⟨name', assemble_rename name' h⟩
  | some u =>
    by_cases hu : u.holds
    · simp only [hmodule, hu, if_true] at h ⊢
      exact ⟨d.module, h⟩
    · simp only [hmodule, hu] at h ⊢
      exact ⟨name', assemble_rename name' h⟩

theorem ofTree_rename {t : Tree} {name : String} {d : Metadata} (name' : String)
    (h : ofTree t name = .ok d) : ∃ module, ofTree t name' = .ok { d with module := module } := by
  cases t with
  | dict es => exact ofTree_dict_rename es name' h
  | _ => exact ofTree_dict_rename [] name' h

end Metadata

namespace HostModule

open Conductor.Module (Export)

variable {m : HostModule} {exports : List Export} {identifier location : String} {es : Table String Entry}

def Enters (m : HostModule) (identifier location : String) (e : Export) (entry : Entry) : Prop :=
  ∃ f d, e.2 = some f ∧ Metadata.ofTree (m.about e.1) identifier = .ok d ∧
    entry = Entry.ofHost e.1 .required f (some d) (some location)

theorem entry_eq_ok_iff {e : Export} {entry : Entry} :
    m.entry identifier location e = .ok entry ↔ Enters m identifier location e entry := by
  unfold HostModule.entry
  cases he : e.2 with
  | none => simp [Enters, he]
  | some f =>
    cases hd : Metadata.ofTree (m.about e.1) identifier with
    | error x => simp [Enters, he, hd, Except.mapError, bind, Except.bind]
    | ok d => simp [Enters, he, hd, Except.mapError, bind, Except.bind, pure, Except.pure, eq_comm]

theorem entries_eq_ok_iff : m.entries exports identifier location = .ok es ↔
    ∃ items, List.Forall₂ (Enters m identifier location) exports items ∧
      es = Table.ofEntries (items.map fun e => (e.name, e)) := by
  unfold HostModule.entries
  rw [bind_eq_ok_iff]
  refine exists_congr fun items => ?_
  have hitems : traverse (m.entry identifier location) exports = .ok items ↔
      List.Forall₂ (Enters m identifier location) exports items :=
    traverse_eq_ok_iff.trans (forall₂_congr_iff (fun _ _ => entry_eq_ok_iff) exports items)
  have hes : (pure (Table.ofEntries (items.map fun e => (e.name, e))) : Except Problem (Table String Entry)) = .ok es ↔
      es = Table.ofEntries (items.map fun e => (e.name, e)) :=
    ⟨fun h => (Except.ok.inj h).symm, fun h => by rw [h]; rfl⟩
  exact and_congr hitems hes

theorem entries_isOk_iff : (∃ es, m.entries exports identifier location = .ok es) ↔
    ∀ e ∈ exports, e.2.isSome ∧ ∃ d, Metadata.ofTree (m.about e.1) "" = .ok d := by
  have hentries : (∃ es, m.entries exports identifier location = .ok es) ↔
      ∃ items, List.Forall₂ (Enters m identifier location) exports items := by
    simp only [entries_eq_ok_iff]
    exact ⟨fun ⟨_, items, hitems, _⟩ => ⟨items, hitems⟩, fun ⟨items, hitems⟩ => ⟨_, items, hitems, rfl⟩⟩
  rw [hentries, exists_forall₂_iff]
  refine forall₂_congr fun e _ => ⟨?_, ?_⟩
  · rintro ⟨entry, f, d, hf, hd, -⟩
    obtain ⟨module, hmodule⟩ := Metadata.ofTree_rename "" hd
    exact ⟨by simp [hf], _, hmodule⟩
  · rintro ⟨hf, d, hd⟩
    obtain ⟨f, hf⟩ := Option.isSome_iff_exists.mp hf
    obtain ⟨module, hmodule⟩ := Metadata.ofTree_rename identifier hd
    exact ⟨_, f, _, hf, hmodule, rfl⟩

theorem Enters.unnamed_eq {identifier' : String} {e : Export} {x y : Entry} (hx : Enters m identifier location e x)
    (hy : Enters m identifier' location e y) : x.unnamed = y.unnamed := by
  obtain ⟨f, d, hf, hd, rfl⟩ := hx
  obtain ⟨f', d', hf', hd', rfl⟩ := hy
  obtain rfl : f = f' := Option.some.inj (hf.symm.trans hf')
  obtain ⟨module, hmodule⟩ := Metadata.ofTree_rename identifier' hd
  obtain rfl : { d with module := module } = d' := Except.ok.inj (hmodule.symm.trans hd')
  rfl

theorem map_unnamed_eq {identifier' : String} {xs ys : List Entry}
    (hx : List.Forall₂ (Enters m identifier location) exports xs)
    (hy : List.Forall₂ (Enters m identifier' location) exports ys) :
    xs.map Entry.unnamed = ys.map Entry.unnamed := by
  induction hx generalizing ys with
  | nil =>
    cases hy
    rfl
  | cons hx _ ih =>
    cases hy with
    | cons hy hrest => simp only [List.map_cons, hx.unnamed_eq hy, ih hrest]

theorem entries_rename {identifier' : String} {es' : Table String Entry}
    (h : m.entries exports identifier location = .ok es) (h' : m.entries exports identifier' location = .ok es') :
    SameEntries es es' := by
  obtain ⟨xs, hxs, rfl⟩ := entries_eq_ok_iff.mp h
  obtain ⟨ys, hys, rfl⟩ := entries_eq_ok_iff.mp h'
  have hkeys : ∀ zs : List Entry, (zs.map fun e => (e.name, e)).map (fun e => (e.1, e.2.unnamed)) =
      (zs.map Entry.unnamed).map fun e => (e.name, e) := by
    intro zs
    simp only [List.map_map]
    rfl
  unfold SameEntries Table.ofEntries
  rw [Table.map_putAll, Table.map_putAll, hkeys, hkeys, map_unnamed_eq hxs hys]

end HostModule

end Conductor
