import Conductor.Proofs.Memory.Sharing
import Conductor.Proofs.Text.UpperCase

/-!
# Written paths and the others

A write along a tail succeeds just if no index on its path lies too far past the end of its row. Then the value
stands at the end of the path, whatever the case of the name and the spelling of the keys, and all that was bound
on other paths is bound there still, if none of them leads through the end of the other.

This needs that no stem is shared and that no key is that of a count: a count changes with the row, and a stem with
two paths changes on both.
-/

set_option autoImplicit false

namespace Conductor

namespace Stem

variable {α : Type} {blank v : α} {asCount : α → Except Problem Nat} {s : Stem α} {k : Key} {w : α}

def HasRoom (s : Stem α) : Key → Prop
  | .index (i + 1) => i < s.count + room
  | _ => True

theorem set_ok_iff (hk : k ≠ .index 0) : (∃ s', s.set blank asCount k v = .ok s') ↔ s.HasRoom k := by
  match k with
  | .name n => exact ⟨fun _ => trivial, fun _ => ⟨_, rfl⟩⟩
  | .index 0 => exact absurd rfl hk
  | .index (i + 1) =>
    constructor
    · rintro ⟨s', hs⟩
      by_contra hroom
      have hfails : Fails (place blank i v s) := place_fails (Nat.not_lt.mp hroom)
      obtain ⟨p, hp⟩ := hfails.mapError Problem.failure
      cases hp.symm.trans hs
    · intro hroom
      obtain ⟨s', hs⟩ := place_ok blank v hroom
      exact ⟨s', congrArg (·.mapError Problem.failure) hs⟩

theorem hasRoom_of_get? (counted : Nat → α) (h : s.get? counted k = some w) : s.HasRoom k := by
  match k with
  | .name _ | .index 0 => trivial
  | .index (i + 1) => exact Nat.lt_add_right _ (List.getElem?_eq_some_iff.mp h).1

end Stem

namespace Store

section

variable {store store' : Store} {v w : Value} {k : Key} {ks : List Key} {a b : Address}

def row (store : Store) : Value → Stem Value
  | .stem a => store.get a
  | _ => {}

/-- No index along a path lies too far past the end of its row. -/
def Fits (store : Store) : Value → List Key → Prop
  | _, [] => True
  | v, k :: ks => (store.row v).HasRoom k ∧ store.Fits (store.next v k) ks

theorem row_of_not_stem (h : v.isStem = false) : store.row v = {} := by
  cases v with
  | stem a => cases h
  | scalar _ | list _ | dict _ => rfl

theorem fits_of_not_stem (hv : v.isStem = false) (hw : w.isStem = false) : store.Fits v ks ↔ store'.Fits w ks := by
  induction ks generalizing v w with
  | nil => exact Iff.rfl
  | cons k ks ih =>
    rw [Fits, Fits, row_of_not_stem hv, row_of_not_stem hw]
    exact and_congr_right fun _ => ih (by rw [next_of_not_stem hv]; rfl) (by rw [next_of_not_stem hw]; rfl)

theorem fits_of_empty (ha : store.get a = {}) (hw : w.isStem = false) : store.Fits (.stem a) ks ↔ store'.Fits w ks := by
  cases ks with
  | nil => exact Iff.rfl
  | cons k ks =>
    rw [Fits, Fits, row_of_not_stem hw, row, ha]
    exact and_congr_right fun _ => fits_of_not_stem (next_empty ha) (by rw [next_of_not_stem hw]; rfl)

theorem rooted_of_empty (h : store.get a = {}) (ha : a < store.stems.size) : store.Rooted (.stem a) := by
  intro ks c hc
  obtain ⟨-, rfl⟩ := walk_empty h hc
  exact ha

theorem acyclic_of_empty (h : store.get a = {}) : store.Acyclic (.stem a) := by
  intro pre k post c hpre hloop
  obtain ⟨-, rfl⟩ := walk_empty h hpre
  exact List.cons_ne_nil _ _ (walk_empty h hloop).1

end

end Store

namespace Memory

section

variable {mem mem' mem₁ : Memory} {name name' var var' : String} {tail tail' rest : List Tree} {t : Tree} {ks qs : List Key}
  {v w : Value} {a b c : Address} {k : Key} {r : EStateM.Result Problem Memory Unit}

theorem Spells.cons_iff : Spells (t :: rest) ks ↔ ∃ k ks', Key.ofTree t = .ok k ∧ Spells rest ks' ∧ ks = k :: ks' :=
  List.forall₂_cons_left_iff

theorem Spells.single_iff : Spells [t] ks ↔ ∃ k, Key.ofTree t = .ok k ∧ ks = [k] := by
  rw [Spells.cons_iff]
  simp [Spells]

theorem Course.succeeds_iff (h : Course v mem a tail r) (hr : mem.store.Rooted (.stem a)) (hs : Spells tail ks)
    (hcount : .index 0 ∉ ks) : (∃ mem', r = .ok () mem') ↔ mem.store.Fits (.stem a) ks := by
  induction h generalizing ks with
  | @put mem a t s hset =>
    obtain ⟨k, ht, rfl⟩ := Spells.single_iff.mp hs
    rw [Stem.write_keyed ht] at hset
    have hroom := (Stem.set_ok_iff fun h => hcount (h ▸ List.mem_singleton_self _)).mp ⟨s, hset⟩
    exact ⟨fun _ => ⟨hroom, trivial⟩, fun _ => ⟨_, rfl⟩⟩
  | @refused mem a t p hset =>
    obtain ⟨k, ht, rfl⟩ := Spells.single_iff.mp hs
    rw [Stem.write_keyed ht] at hset
    constructor
    · rintro ⟨_, h⟩
      cases h
    · intro hfits
      obtain ⟨s, hs⟩ := (Stem.set_ok_iff fun h => hcount (h ▸ List.mem_singleton_self _)).mpr hfits.1
      cases hset.symm.trans hs
  | unread ht =>
    obtain ⟨k, _, ht', -⟩ := Spells.cons_iff.mp hs
    cases ht.symm.trans ht'
  | @through mem a b t t' rest k r ht hnext _ ih =>
    obtain ⟨k', ks, ht', hrest, rfl⟩ := Spells.cons_iff.mp hs
    cases ht.symm.trans ht'
    have hroom : (mem.store.get a).HasRoom k := by
      cases hget : (mem.store.get a).get? .ofNat k with
      | none => simp [Store.next, hget] at hnext
      | some w => exact Stem.hasRoom_of_get? _ hget
    rw [ih (hnext ▸ hr.walk [k]) hrest fun h => hcount (List.mem_cons_of_mem _ h), Store.Fits, hnext]
    exact (and_iff_right hroom).symm
  | @made mem a t t' rest k s r ht hnot hset _ ih =>
    obtain ⟨k', ks, ht', hrest, rfl⟩ := Spells.cons_iff.mp hs
    cases ht.symm.trans ht'
    have hroom : (mem.store.get a).HasRoom k := (Stem.set_ok_iff (Store.ne_count_of_set hset)).mp ⟨s, hset⟩
    have ha := hr [] a rfl
    have hmade := get_made (s := s) ha
    rw [ih (Store.rooted_of_empty hmade.1 (lt_made ha)) hrest fun h => hcount (List.mem_cons_of_mem _ h),
      Store.fits_of_empty hmade.1 hnot, Store.Fits]
    exact (and_iff_right hroom).symm
  | @unmade mem a t t' rest k p ht hnot hset =>
    obtain ⟨k', ks, ht', -, rfl⟩ := Spells.cons_iff.mp hs
    cases ht.symm.trans ht'
    constructor
    · rintro ⟨_, h⟩
      cases h
    · intro hfits
      obtain ⟨s, hs⟩ := (Stem.set_ok_iff fun h => hcount (h ▸ List.mem_cons_self)).mpr hfits.1
      cases hset.symm.trans hs

/-- What a successful write changes: one entry on its path, the last one or the first that led to no stem. -/
theorem Course.edits (h : Course v mem a tail (.ok () mem')) (hr : mem.store.Rooted (.stem a)) (hs : Spells tail ks)
    (hcount : .index 0 ∉ ks) :
    ∃ pre k rest b, ks = pre ++ k :: rest ∧ mem.store.walk (.stem a) pre = .stem b ∧ mem.store.Edits b k mem'.store ∧
      (rest = [] ∨ (mem.store.next (.stem b) k).isStem = false) := by
  generalize hr' : (EStateM.Result.ok () mem' : EStateM.Result Problem Memory Unit) = r at h
  cases h.mark hr with
  | none | loose => cases hr'
  | @value b k s halong hset =>
    cases hr'
    obtain ⟨pre, rest, rfl, hrest, hw⟩ := halong.split hs
    cases hrest
    exact ⟨pre, k, [], b, rfl, hw, Store.edits_set (fun h => hcount (by simp [h])) hset, .inl rfl⟩
  | @stem b k post m r halong hpost hgap _ hedits _ _ _ =>
    cases hr'
    obtain ⟨pre, rest, rfl, -, hw⟩ := halong.split hs
    exact ⟨pre, k, rest, b, rfl, hw, hedits, .inr hgap⟩

theorem Course.value (h : Course v mem a tail r) (hok : r = .ok () mem') (hr : mem.store.Rooted (.stem a))
    (hacyclic : mem.store.Acyclic (.stem a)) (hs : Spells tail ks) (hcount : .index 0 ∉ ks) :
    mem'.store.walk (.stem a) ks = v := by
  induction h generalizing ks with
  | refused | unread | unmade => cases hok
  | @put mem a t s hset =>
    cases hok
    obtain ⟨k, ht, rfl⟩ := Spells.single_iff.mp hs
    rw [Stem.write_keyed ht] at hset
    rw [Store.walk_cons, Store.walk_nil, Store.next, Store.get_set, if_pos ⟨rfl, hr [] a rfl⟩,
      Stem.get?_set _ (fun h => hcount (h ▸ List.mem_singleton_self _)) hset]
    rfl
  | @through mem a b t t' rest k r ht hnext hrest ih =>
    cases hok
    obtain ⟨k', ks, ht', hspell, rfl⟩ := Spells.cons_iff.mp hs
    cases ht.symm.trans ht'
    have hcount' : .index 0 ∉ ks := fun h => hcount (List.mem_cons_of_mem _ h)
    have hrb : mem.store.Rooted (.stem b) := hnext ▸ hr.walk [k]
    -- What is changed lies behind `b`, so it is not the stem that leads there.
    have hkept : mem'.store.get a = mem.store.get a := by
      obtain ⟨pre, _, _, c, -, hc, hedits, -⟩ := hrest.edits hrb hspell hcount'
      refine hedits.get a (hr [] a rfl) fun hac => hacyclic [] k pre a rfl ?_
      rw [Store.walk_cons, hnext, hc, hac]
    have hnext' : mem'.store.next (.stem a) k = .stem b := by
      rw [← hnext, Store.next, hkept, Store.next]
    rw [Store.walk_cons, hnext']
    exact ih rfl hrb (hnext ▸ hacyclic.walk [k]) hspell hcount'
  | @made mem a t t' rest k s r ht hnot hset hrest ih =>
    cases hok
    obtain ⟨k', ks, ht', hspell, rfl⟩ := Spells.cons_iff.mp hs
    cases ht.symm.trans ht'
    have ha := hr [] a rfl
    have hmade := get_made (s := s) ha
    obtain ⟨-, hnext'⟩ := edits_made ha hset (hrest.only hmade.1 (lt_made ha))
    rw [Store.walk_cons, show mem'.store.next (.stem a) k = .stem mem.store.stems.size from hnext']
    exact ih rfl (Store.rooted_of_empty hmade.1 (lt_made ha)) (Store.acyclic_of_empty hmade.1) hspell
      fun h => hcount (List.mem_cons_of_mem _ h)

/-! ## Names -/

theorem binding_eq (name : String) : binding name =
    if name = "" then .error (.variableName (Text.quoted name))
    else .ok (String.ofList (Text.dropEndWhile (· == '.') (Text.upper name).toList)) := by
  rw [binding, Text.upper, String.toList_ofList, Text.upper_dropEndWhile_dot, Text.toList_upper]
  simp only [String.isEmpty_iff]

/-- Names with one upper case have one binding. -/
theorem binding_congr (h : Text.upper name' = Text.upper name) : binding name' = binding name := by
  have hempty : name' = "" ↔ name = "" := by rw [← Text.upper_eq_empty_iff, h, Text.upper_eq_empty_iff]
  rw [binding_eq, binding_eq, h]
  by_cases hname : name = ""
  · rw [hname, hempty.mpr hname]
  · rw [if_neg hname, if_neg fun h => hname (hempty.mp h)]

/-! ## Paths apart -/

/-- Two paths of which neither leads through the end of the other. -/
def Apart (var : String) (ks : List Key) (var' : String) (qs : List Key) : Prop := var' = var → ¬ qs <+: ks ∧ ¬ ks <+: qs

/-- What a write below a stem leaves of the paths apart from its own. -/
theorem Course.others (h : Course v mem a tail (.ok () mem')) (ha : mem.found var [] = .stem a) (hr : mem.Rooted)
    (hu : mem.Unshared) (hs : Spells tail ks) (hcount : .index 0 ∉ ks) (hapart : Apart var ks var' qs) (hqs : .index 0 ∉ qs)
    (hbound : (mem.found var' qs).isUnbound = false) :
    mem'.found var' qs = mem.found var' qs ∧ ∀ c, mem.found var' qs = .stem c → mem'.store.get c = mem.store.get c := by
  obtain ⟨pre, k, rest, b, rfl, hb, hedits, hgap⟩ := h.edits (ha ▸ hr.store var []) hs hcount
  have hb : mem.found var pre = .stem b := by rw [← hb, ← ha]; rfl
  constructor
  · have hscope : mem'.scope = mem.scope := h.scope
    rw [found_of_scope hscope]
    obtain heq | ⟨pre', post, rfl, hb'⟩ := hedits.walk (hr.store var' []) hqs hbound
    · exact heq
    · -- The other path runs through the entry that is changed, so it is not apart from the written one.
      obtain ⟨rfl, rfl⟩ := hu _ _ _ _ b hb' hb
      obtain ⟨hnotPrefix, hnotExtension⟩ := hapart rfl
      obtain rfl | hgap := hgap
      · exact absurd (by simp) hnotExtension
      · have hpost : post ≠ [] := fun h => hnotPrefix (by simp [h])
        rw [found_append, hb, Store.walk_cons, Store.walk_of_not_stem hgap hpost] at hbound
        cases hbound
  · intro c hc
    refine hedits.get c (hr _ _ c hc) fun hcb => ?_
    obtain ⟨rfl, rfl⟩ := hu _ _ _ _ b (hcb ▸ hc) hb
    exact (hapart rfl).1 (List.prefix_append _ _)

theorem write_succeeds_iff (hr : mem.Rooted) (hname : binding name = .ok var) (hs : Spells tail ks) (hcount : .index 0 ∉ ks)
    (v : Value) : (∃ mem', write name v tail mem = .ok () mem') ↔ mem.store.Fits (mem.found var []) ks := by
  cases tail with
  | nil =>
    cases hs
    exact ⟨fun _ => trivial, fun _ => ⟨_, write_variable hname v⟩⟩
  | cons t rest =>
    obtain ⟨a, mem₁, hbase, hwrite⟩ := write_base hname mem v t rest
    have hcourse := course v mem₁ a t rest
    rw [hwrite, hcourse.succeeds_iff (hbase.found ▸ (hbase.rooted hr).store var []) hs hcount]
    cases hbase with
    | held ha => rw [ha]
    | new hnot => exact Store.fits_of_empty get_opened_new hnot

theorem write_found (hr : mem.Rooted) (hu : mem.Unshared) (hname : binding name = .ok var) (hs : Spells tail ks)
    (hcount : .index 0 ∉ ks) (h : write name v tail mem = .ok () mem') :
    mem'.found var ks = v ∧ ∀ var' qs, Apart var ks var' qs → .index 0 ∉ qs → (mem.found var' qs).isUnbound = false →
      mem'.found var' qs = mem.found var' qs ∧ ∀ c, mem.found var' qs = .stem c → mem'.store.get c = mem.store.get c := by
  cases tail with
  | nil =>
    cases hs
    rw [write_variable hname] at h
    cases h
    refine ⟨congrArg (·.getD .unbound) (Table.get?_put_self var v mem.scope), fun var' qs hapart _ _ => ⟨?_, fun _ _ => rfl⟩⟩
    have hne : var' ≠ var := fun h => (hapart h).2 List.nil_prefix
    rw [found, Table.get?_put_of_ne hne]
    rfl
  | cons t rest =>
    obtain ⟨a, mem₁, hbase, hwrite⟩ := write_base hname mem v t rest
    have hcourse := course v mem₁ a t rest
    rw [← hwrite, h] at hcourse
    have hr₁ := hbase.rooted hr
    have hu₁ := hbase.unshared hr hu
    have hscope : mem'.scope = mem₁.scope := hcourse.scope
    constructor
    · rw [found_of_scope hscope, hbase.found]
      exact hcourse.value rfl (hbase.found ▸ hr₁.store var []) (hbase.found ▸ hu₁.acyclic var []) hs hcount
    · intro var' qs hapart hqs hbound
      have hne : ¬ (var' = var ∧ qs = []) := fun h => (hapart h.1).1 (h.2 ▸ List.nil_prefix)
      have hbefore := hbase.found_of_bound hne hbound
      obtain ⟨hfound, hstems⟩ := hcourse.others hbase.found hr₁ hu₁ hs hcount hapart hqs (hbefore ▸ hbound)
      rw [hbefore] at hfound hstems
      exact ⟨hfound, fun c hc => (hstems c hc).trans hbase.get⟩

/-- A written path is independent of the others. The write succeeds just if there is room on its path. Then the value
is read under every name with the same upper case and every spelling of the keys, and what was bound on a path apart
from it is read as before. -/
theorem written_path_independent (hr : mem.Rooted) (hu : mem.Unshared) (hname : binding name = .ok var) (hs : Spells tail ks)
    (hcount : .index 0 ∉ ks) (v : Value) :
    ((∃ mem', write name v tail mem = .ok () mem') ↔ mem.store.Fits (mem.found var []) ks) ∧
      ∀ mem', write name v tail mem = .ok () mem' →
        (∀ name' tail', Text.upper name' = Text.upper name → Spells tail' ks → mem'.reads name' tail' = .ok v) ∧
        ∀ name' var' tail' qs w, binding name' = .ok var' → Spells tail' qs → .index 0 ∉ qs → Apart var ks var' qs →
          mem.reads name' tail' = .ok w → w.isUnbound = false →
          mem'.reads name' tail' = .ok w ∧ ∀ a, w = .stem a → mem'.store.get a = mem.store.get a := by
  refine ⟨write_succeeds_iff hr hname hs hcount v, fun mem' h => ?_⟩
  obtain ⟨hvalue, hothers⟩ := write_found hr hu hname hs hcount h
  constructor
  · intro name' tail' hupper hs'
    rw [reads_spelled ((binding_congr hupper).trans hname) hs', hvalue]
  · intro name' var' tail' qs w hname' hs' hqs hapart hread hbound
    rw [reads_spelled hname' hs'] at hread
    cases hread
    obtain ⟨hfound, hstems⟩ := hothers var' qs hapart hqs hbound
    exact ⟨by rw [reads_spelled hname' hs', hfound], hstems⟩

end

/-- A place two past the end of a row, and a name behind it. -/
theorem written_path_independent_gapped :
    ∃ mem mem' : Memory, mem.Rooted ∧ mem.Unshared ∧ write "arr" (.int 9) [.text "03", .text "x"] mem = .ok () mem' ∧
      mem'.reads "Arr" [.int 3, .text "x"] = .ok (.int 9) ∧
      mem.reads "ARR" [.int 1] = .ok (.int 5) ∧ mem'.reads "ARR" [.int 1] = .ok (.int 5) := by
  obtain ⟨hr, hu⟩ := (Written.empty.write "arr" (v := .int 5) [.int 1] rfl).unshared
  have hs : Spells [.text "03", .text "x"] [.index 3, .name "x"] := .cons rfl (.cons rfl .nil)
  have hname : binding "arr" = .ok "ARR" := rfl
  obtain ⟨hsucceeds, hafter⟩ := written_path_independent hr hu hname hs (by decide) (.int 9)
  have hroom : (3 : Nat) < 1 + Stem.room := by decide
  obtain ⟨mem', hwrite⟩ := hsucceeds.mpr ⟨Nat.lt_of_succ_lt hroom, trivial, trivial⟩
  obtain ⟨hread, hothers⟩ := hafter mem' hwrite
  refine ⟨_, mem', hr, hu, hwrite, hread "Arr" _ rfl (.cons rfl (.cons rfl .nil)), rfl, ?_⟩
  exact (hothers "ARR" "ARR" [.int 1] [.index 1] (.int 5) rfl (.cons rfl .nil) (by decide) (fun _ => by decide) rfl rfl).1

theorem ofTree_textless : Fails (Key.ofTree (.int (Int.negSucc (Nat.pow 10 4300)))) := by
  have hnegative : ¬ Int.negSucc (Nat.pow 10 4300) ≥ 0 := by decide +kernel
  have hlarge : ¬ (Int.negSucc (Nat.pow 10 4300)).natAbs < Nat.pow 2 63 := by decide +kernel
  have hlimit : (Int.negSucc (Nat.pow 10 4300)).natAbs ≥ Nat.pow 10 digitLimit := by decide +kernel
  rw [Key.ofTree, if_neg hnegative, integerText, if_neg hlarge, if_pos hlimit]
  exact ⟨_, rfl⟩

/-- Not every change of case is one of names: a letter and its lower case can have two upper cases. And a write is
refused where no row is long enough for an index, or a number that is no index has no text. -/
theorem lower_case_kept_apart : Rooted {} ∧ Unshared {} ∧ Text.lower "straẞe" = "straße" ∧
    (∃ mem', write "straẞe" (.int 1) [.text "k"] {} = .ok () mem' ∧ mem'.reads "straẞe" [.text "k"] = .ok (.int 1) ∧
      mem'.reads "straße" [.text "k"] = .ok .unbound) ∧
    (∀ mem', write "x" (.int 1) [.text "9223372036854775809"] {} ≠ .ok () mem') ∧
    ∀ mem', write "x" (.int 1) [.int (Int.negSucc (Nat.pow 10 4300))] {} ≠ .ok () mem' := by
  obtain ⟨hr, hu⟩ := Written.empty.unshared
  have hname : binding "x" = .ok "X" := rfl
  refine ⟨hr, hu, by decide +kernel, ⟨_, rfl, rfl, rfl⟩, fun mem' h => ?_, fun mem' h => ?_⟩
  · have hs : Spells [.text "9223372036854775809"] [.index 9223372036854775809] := .cons rfl .nil
    have hfits := (write_succeeds_iff hr hname hs (by decide) (.int 1)).mp ⟨mem', h⟩
    have hroom : (9223372036854775808 : Nat) < 0 + Stem.room := hfits.1
    exact absurd hroom (by decide)
  · obtain ⟨a, mem₁, -, hwrite⟩ := write_base hname {} (.int 1) (.int (Int.negSucc (Nat.pow 10 4300))) []
    obtain ⟨f, hf⟩ := ofTree_textless
    rw [h, writeBelow_single, Stem.write, hf] at hwrite
    cases hwrite

end Memory

end Conductor
