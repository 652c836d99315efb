import Conductor.Proofs.Memory.Decoding
import Conductor.Proofs.Run.Meets
import Conductor.Run.Eval

/-!
# Documents that pass through

A document is made of texts, integers, lists, and dictionaries with texts as keys. In the
language it is a uniform stem, and what goes out again is the same document, but for one
thing: a stem with nothing in it goes out as a list. So an empty dictionary comes back as an
empty list, and a document comes back as it was exactly if it holds no empty dictionary.

The same is true where a program parses a text and writes it again, where it reads a file and
writes another, and where it hands on what it was given.
-/

set_option autoImplicit false

namespace Conductor

namespace Tree

/-! ## Documents -/

inductive Document : Tree → Prop
  | text (s : String) : Document (.text s)
  | int (n : Int) : Document (.int n)
  | list (items : List Tree) : (∀ t ∈ items, Document t) → Document (.list items)
  | dict (named : List (String × Tree)) : (Table.keys named).Nodup → (∀ e ∈ named, Document e.2) →
      Document (.dict (textKeys named))

/-- Data without an empty dictionary. -/
inductive Filled : Tree → Prop
  | scalar (s : Scalar) : Filled (.scalar s)
  | list (items : List Tree) : (∀ t ∈ items, Filled t) → Filled (.list items)
  | dict (entries : List (Tree × Tree)) : entries ≠ [] → (∀ e ∈ entries, Filled e.2) → Filled (.dict entries)

mutual
/-- The document with lists in place of its empty dictionaries. -/
def recast : Tree → Tree
  | .list items => .list (recastAll items)
  | .dict entries => if entries.isEmpty then .list [] else .dict (recastEntries entries)
  | t => t

def recastAll : List Tree → List Tree
  | [] => []
  | t :: rest => recast t :: recastAll rest

def recastEntries : List (Tree × Tree) → List (Tree × Tree)
  | [] => []
  | (k, t) :: rest => (k, recast t) :: recastEntries rest
end

theorem recastAll_eq (items : List Tree) : recastAll items = items.map recast := by
  induction items with
  | nil => rfl
  | cons t rest ih => rw [recastAll, List.map_cons, ih]

theorem recastEntries_eq (entries : List (Tree × Tree)) : recastEntries entries = entries.map fun e => (e.1, e.2.recast) := by
  induction entries with
  | nil => rfl
  | cons e rest ih => rw [recastEntries, List.map_cons, ih]

theorem recast_list (items : List Tree) : recast (.list items) = .list (items.map recast) := by
  rw [recast, recastAll_eq]

theorem recast_textKeys {named : List (String × Tree)} (h : named ≠ []) :
    recast (.dict (textKeys named)) = .dict (textKeys (named.map fun e => (e.1, e.2.recast))) := by
  have hentries : (textKeys named).isEmpty = false := by simp [textKeys, h]
  rw [recast, hentries, recastEntries_eq]
  simp [textKeys]

namespace Document

variable {d r : Tree}

theorem outside (h : d.Document) : d.Outside := by
  induction h with
  | text s => exact .text s
  | int n => exact .int n
  | list items _ ih => exact .list items ih
  | dict named _ _ ih => exact .dict _ (List.forall_mem_map.mpr fun e _ => .text e.1) (List.forall_mem_map.mpr ih)

theorem recast (h : d.Document) : d.recast.Document := by
  induction h with
  | text s => exact .text s
  | int n => exact .int n
  | list items _ ih =>
    rw [recast_list]
    exact .list _ (List.forall_mem_map.mpr ih)
  | dict named hkeys _ ih =>
    by_cases hempty : named = []
    · subst hempty
      exact .list [] (by simp)
    · rw [recast_textKeys hempty]
      have hsame : Table.keys (named.map fun e => (e.1, e.2.recast)) = Table.keys named := by simp [Table.keys]
      exact .dict _ (hsame ▸ hkeys) (List.forall_mem_map.mpr ih)

theorem recast_eq_iff (h : d.Document) : d.recast = d ↔ d.Filled := by
  induction h with
  | text s => exact iff_of_true rfl (.scalar _)
  | int n => exact iff_of_true rfl (.scalar _)
  | list items _ ih =>
    have hfilled : (Tree.list items).Filled ↔ ∀ t ∈ items, t.Filled := ⟨fun (.list _ h) => h, .list items⟩
    have hsame : items.map Tree.recast = items ↔ ∀ t ∈ items, t.recast = t := by
      simpa using List.map_inj_left (l := items) (f := Tree.recast) (g := id)
    rw [recast_list, hfilled, list.injEq, hsame]
    exact forall₂_congr ih
  | dict named _ _ ih =>
    by_cases hempty : named = []
    · subst hempty
      refine iff_of_false (nomatch ·) ?_
      rintro (_ | _ | ⟨_, hfull, _⟩)
      exact hfull rfl
    · have hfilled : (Tree.dict (textKeys named)).Filled ↔ ∀ e ∈ named, e.2.Filled := by
        constructor
        · rintro (_ | _ | ⟨_, _, h⟩)
          exact fun e he => h (.text e.1, e.2) (List.mem_map.mpr ⟨e, he, rfl⟩)
        · exact fun h => .dict _ (by simpa [textKeys] using hempty) (List.forall_mem_map.mpr h)
      rw [recast_textKeys hempty, hfilled]
      simp only [textKeys, List.map_map, dict.injEq, List.map_inj_left, Function.comp, Prod.mk.injEq, true_and]
      exact forall₂_congr ih

/-- A document comes in as a uniform stem that goes out as the document. -/
theorem decoded (h : d.Document) : ∃ r, d.normalize = .ok r ∧ r.Uniform ∧ r.unstem = d.recast := by
  induction h with
  | text s => exact ⟨.text s, rfl, .text s, rfl⟩
  | int n => exact ⟨.int n, rfl, .int n, rfl⟩
  | list items _ ih =>
    obtain ⟨rs, hrs⟩ := exists_forall₂_iff.mpr ih
    have hnormal : traverse normalize items = .ok rs := traverse_eq_ok_iff.mpr (hrs.imp fun _ _ h => h.1)
    have hout : rs.map unstem = items.map Tree.recast := by
      rw [eq_comm, ← List.forall₂_eq_eq_eq, List.forall₂_map_left_iff, List.forall₂_map_right_iff]
      exact hrs.imp fun _ _ h => h.2.2.symm
    refine ⟨.stem rs [], ?_, ?_, ?_⟩
    · rw [normalize, normalizeAll_eq, hnormal]
      rfl
    · refine .row rs fun r hr => ?_
      obtain ⟨_, _, h⟩ := forall₂_mem_right hrs hr
      exact h.2.1
    · rw [unstem_row, recast_list, hout]
  | dict named hkeys _ ih =>
    have hentries : ∀ e ∈ named, ∃ e' : String × Tree, e'.1 = e.1 ∧ e.2.normalize = .ok e'.2 ∧ e'.2.Uniform ∧
        e'.2.unstem = e.2.recast := by
      intro e he
      obtain ⟨r, hr⟩ := ih e he
      exact ⟨(e.1, r), rfl, hr⟩
    obtain ⟨rs, hrs⟩ := exists_forall₂_iff.mpr hentries
    have hnames : Table.keys rs = Table.keys named := Table.keys_of_forall₂ hrs
    have hnormal : traverse normalizeEntry (textKeys named) = .ok rs := by
      rw [traverse_eq_ok_iff, textKeys, List.forall₂_map_left_iff]
      refine hrs.imp fun e e' h => ?_
      rw [normalizeEntry, h.2.1, ← h.1]
      rfl
    refine ⟨.stem [] rs, ?_, ?_, ?_⟩
    · rw [normalize, normalizeEntries_eq, hnormal]
      exact congrArg (fun named => Except.ok (Tree.stem [] named)) (Table.ofEntries_of_nodup (hnames ▸ hkeys))
    · refine .record rs (hnames ▸ hkeys) fun e' he => ?_
      obtain ⟨_, _, h⟩ := forall₂_mem_right hrs he
      exact h.2.2.1
    · by_cases hempty : named = []
      · subst hempty
        cases hrs
        rfl
      · have hfull : rs ≠ [] := by
          rintro rfl
          cases hrs
          exact hempty rfl
        rw [unstem_record hfull, recast_textKeys hempty, textKeys, List.map_map, dict.injEq, ← List.forall₂_eq_eq_eq,
          List.forall₂_map_left_iff, List.forall₂_map_right_iff]
        exact hrs.flip.imp fun e' e h => Prod.ext (congrArg Tree.text h.1) h.2.2.2

end Document

/-! ## Plain documents -/

def plainEntry (e : Tree × Tree) : Except Failure (String × Tree) := do
  let name ← e.1.asName
  return (name, ← e.2.plain)

theorem plainAll_eq (items : List Tree) : plainAll items = traverse plain items := by
  induction items with
  | nil => rfl
  | cons t rest ih =>
    rw [plainAll, traverse, ih]
    cases t.plain with
    | error f => rfl
    | ok r => cases traverse plain rest <;> rfl

theorem plainEntries_eq (entries : List (Tree × Tree)) : plainEntries entries = traverse plainEntry entries := by
  induction entries with
  | nil => rfl
  | cons e rest ih =>
    rw [plainEntries, traverse, plainEntry, ih]
    cases e.1.asName with
    | error f => rfl
    | ok name =>
      cases e.2.plain with
      | error f => rfl
      | ok r => cases traverse plainEntry rest <;> rfl

theorem Document.plain {d : Tree} (h : d.Document) : d.plain = .ok d := by
  induction h with
  | text s => rfl
  | int n => rfl
  | list items _ ih =>
    have hitems : traverse Tree.plain items = .ok items := by
      rw [traverse_eq_ok_iff, List.forall₂_same]
      exact ih
    rw [Tree.plain, plainAll_eq, hitems]
    rfl
  | dict named hkeys _ ih =>
    have hnamed : traverse plainEntry (textKeys named) = .ok named := by
      rw [traverse_eq_ok_iff, textKeys, List.forall₂_map_left_iff, List.forall₂_same]
      intro e he
      rw [plainEntry, ih e he]
      rfl
    rw [Tree.plain, plainEntries_eq, hnamed]
    exact congrArg (fun named => Except.ok (Tree.dict (textKeys named))) (Table.ofEntries_of_nodup hkeys)

/-- Taking out what was brought in gives the document, with lists in place of its empty dictionaries. -/
theorem Document.plain_normalize {d : Tree} (h : d.Document) : ∃ r, d.normalize = .ok r ∧ r.plain = .ok d.recast := by
  obtain ⟨r, hr, huniform, hout⟩ := h.decoded
  exact ⟨r, hr, by rw [huniform.plain_eq, hout]⟩

end Tree

namespace Structured

theorem serialize_decoded {d r : Tree} (h : d.Document) (hr : d.normalize = .ok r) (format : String) (pretty : Bool) :
    serialize r format pretty = serialize d.recast format pretty := by
  obtain ⟨r', hr', hplain⟩ := h.plain_normalize
  obtain rfl : r = r' := Except.ok.inj (hr.symm.trans hr')
  simp only [serialize, hplain, h.recast.plain]

end Structured

namespace Files

theorem write_decoded {d r : Tree} (h : d.Document) (hr : d.normalize = .ok r) (fs : Files) (base : Option String)
    (locator : String) (hformat : (Structured.formatForPath (fs.resolve base locator)).isSome) :
    fs.write base locator r = fs.write base locator d.recast := by
  obtain ⟨r', hr', hplain⟩ := h.plain_normalize
  obtain rfl : r = r' := Except.ok.inj (hr.symm.trans hr')
  obtain ⟨f, hf⟩ := Option.isSome_iff_exists.mp hformat
  unfold write
  dsimp only
  rw [hf, hplain, h.recast.plain]

end Files

/-- A value without stems, which shows the same in every store. -/
def Value.Spells (v : Value) (t : Tree) : Prop := ∀ f, Store.treeWith f v = .ok t

theorem Value.spells_list {vs : List Value} {ts : List Tree} (h : List.Forall₂ Value.Spells vs ts) :
    (Value.list vs).Spells (.list ts) :=
  fun _ => Store.treeWith_ok.mpr (.list (h.imp fun _ _ hv => hv _))

theorem Value.spells_dict {entries : List (Value × Value)} {named : List (String × Tree)}
    (h : List.Forall₂ (fun p e => p.1 = .text e.1 ∧ p.2.Spells e.2) entries named) :
    (Value.dict entries).Spells (.dict (Tree.textKeys named)) := by
  intro f
  rw [Store.treeWith_ok, Tree.textKeys]
  exact .dict (List.forall₂_map_right_iff.mpr (h.imp fun p e he => Store.entryWith_ok.mpr ⟨by rw [he.1]; rfl, he.2 f⟩))

namespace Store

/-! ## Documents in a store -/

/-- A value that shows a document as it came in. -/
def Carries (store : Store) (v : Value) (d : Tree) : Prop := ∃ r, d.normalize = .ok r ∧ store.tree v = .ok r

theorem plantAll_spells {items : List Tree} {store : Store}
    (h : ∀ t ∈ items, ∃ v, plant t store = (v, store) ∧ v.Spells t) :
    ∃ vs, plantAll items store = (vs, store) ∧ ∀ f, List.Forall₂ (fun v t => treeWith f v = .ok t) vs items := by
  induction items with
  | nil => exact ⟨[], rfl, fun _ => .nil⟩
  | cons t rest ih =>
    obtain ⟨v, hv, hshows⟩ := h t List.mem_cons_self
    obtain ⟨vs, hvs, hrest⟩ := ih fun t ht => h t (List.mem_cons_of_mem _ ht)
    exact ⟨v :: vs, by simp only [plantAll, hv, hvs], fun f => .cons (hshows f) (hrest f)⟩

theorem plantEntries_spells {entries : List (Tree × Tree)} {store : Store}
    (hkeys : ∀ e ∈ entries, ∃ v, plant e.1 store = (v, store) ∧ v.Spells e.1)
    (hvalues : ∀ e ∈ entries, ∃ v, plant e.2 store = (v, store) ∧ v.Spells e.2) :
    ∃ es, plantEntries entries store = (es, store) ∧
      ∀ f, List.Forall₂ (fun e t => entryWith f e = .ok t) es entries := by
  induction entries with
  | nil => exact ⟨[], rfl, fun _ => .nil⟩
  | cons e rest ih =>
    obtain ⟨k, hk, hkey⟩ := hkeys e List.mem_cons_self
    obtain ⟨v, hv, hvalue⟩ := hvalues e List.mem_cons_self
    obtain ⟨es, hes, hrest⟩ := ih (fun e he => hkeys e (List.mem_cons_of_mem _ he))
      fun e he => hvalues e (List.mem_cons_of_mem _ he)
    exact ⟨(k, v) :: es, by simp only [plantEntries, hk, hv, hes],
      fun f => .cons (entryWith_ok.mpr ⟨hkey f, hvalue f⟩) (hrest f)⟩

theorem plant_outside {t : Tree} (h : t.Outside) (store : Store) :
    ∃ v, plant t store = (v, store) ∧ v.Spells t := by
  induction h with
  | absent => exact ⟨.scalar .absent, rfl, fun _ => rfl⟩
  | bool b => exact ⟨.scalar (.bool b), rfl, fun _ => rfl⟩
  | text s => exact ⟨.text s, rfl, fun _ => rfl⟩
  | int n => exact ⟨.int n, rfl, fun _ => rfl⟩
  | list items _ ih =>
    obtain ⟨vs, hvs, hshows⟩ := plantAll_spells ih
    exact ⟨.list vs, by simp only [plant, hvs], fun f => treeWith_ok.mpr (.list (hshows f))⟩
  | dict entries _ _ ihkeys ihvalues =>
    obtain ⟨es, hes, hshows⟩ := plantEntries_spells ihkeys ihvalues
    exact ⟨.dict es, by simp only [plant, hes], fun f => treeWith_ok.mpr (.dict (hshows f))⟩

theorem normalize_document {store : Store} {v : Value} {d : Tree} (hv : store.tree v = .ok d) (h : d.Document) :
    ∃ v' store', normalize v store = .ok (v', store') ∧ store'.Carries v' d := by
  obtain ⟨r, hr, -⟩ := h.decoded
  have hfollows := normalize_outside hv h.outside
  rw [hr] at hfollows
  obtain ⟨v', store', hnormal, hshows⟩ := hfollows.to_ok
  exact ⟨v', store', hnormal, r, hr, hshows.tree⟩

/-- What carries a document goes out as the document. -/
theorem Carries.plain {store : Store} {v : Value} {d : Tree} (hv : store.Carries v d) (h : d.Document) :
    ∃ p, store.plain v = .ok p ∧ p.Spells d.recast := by
  obtain ⟨r, hr, hv⟩ := hv
  obtain ⟨r', hr', huniform, hout⟩ := h.decoded
  obtain rfl : r = r' := Except.ok.inj (hr.symm.trans hr')
  rw [← hout]
  exact unstem_uniform huniform hv

end Store

/-- Arguments that carry documents reach a method as the documents, under the names of its parameters. -/
theorem Arguments.payload_documents {store : Store} {params : List String} {a : Arguments}
    (hfit : a.placed.length ≤ params.length) (h : ∀ v ∈ a.all, ∃ d : Tree, d.Document ∧ store.Carries v d) :
    ∃ table, a.payload store params = .ok table ∧
      List.Forall₂ (fun e e' => e'.1 = e.1 ∧ ∀ d : Tree, d.Document → store.Carries e.2 d → e'.2.Spells d.recast)
        (Table.putAll (params.zip a.placed) a.named) table := by
  have hzip : ∀ e ∈ params.zip a.placed, ∃ d : Tree, d.Document ∧ store.Carries e.2 d :=
    fun e he => h e.2 (List.mem_append_left _ (List.of_mem_zip he).2)
  have hnamed : ∀ e ∈ a.named, ∃ d : Tree, d.Document ∧ store.Carries e.2 d :=
    fun e he => h e.2 (List.mem_append_right _ (List.mem_map_of_mem he))
  have hout : ∀ e ∈ Table.putAll (params.zip a.placed) a.named, ∃ e' : String × Value, e'.1 = e.1 ∧ store.plain e.2 = .ok e'.2 := by
    intro e he
    obtain ⟨d, hd, hv⟩ := Table.forall_putAll (P := fun v => ∃ d : Tree, d.Document ∧ store.Carries v d) hzip hnamed e he
    obtain ⟨p, hp, -⟩ := hv.plain hd
    exact ⟨(e.1, p), rfl, hp⟩
  obtain ⟨table, htable⟩ := exists_forall₂_iff.mpr hout
  have htraverse : traverse (fun e => (store.plain e.2).map fun v => (e.1, v)) (Table.putAll (params.zip a.placed) a.named) =
      .ok table := by
    refine traverse_eq_ok_iff.mpr (htable.imp fun e e' he => ?_)
    rw [he.2, ← he.1]
    rfl
  refine ⟨table, ?_, htable.imp fun e e' he => ⟨he.1, fun d hd hv => ?_⟩⟩
  · rw [payload, List.drop_eq_nil_of_le hfit]
    exact htraverse
  · obtain ⟨p, hp, hspells⟩ := hv.plain hd
    obtain rfl : p = e'.2 := Except.ok.inj (hp.symm.trans he.2)
    exact hspells

end Conductor
