import Conductor.Proofs.Memory.Oversized
import Conductor.Proofs.Memory.Tables
import Conductor.Proofs.Memory.View

/-!
# Taking data out and bringing it back

A stem goes out as a list or as a dictionary, and what comes in becomes a stem again. If every
stem at every depth has items only or names only, and its leaves are texts and integers,
nothing is lost on the way. Whatever else comes in, if it comes in at all, is then made of
texts, integers and stems at every depth, and to bring it in a second time changes nothing.
Only a key can keep data out: every key becomes a name, and a key with an integer that has
no text has none.

A store does to values what is done here to trees.
-/

set_option autoImplicit false

namespace Conductor

namespace Tree

/-! ## Decoding as a traversal -/

def normalizeEntry (e : Tree × Tree) : Except Failure (String × Tree) := do
  let name ← e.1.asName
  return (name, ← e.2.normalize)

theorem normalizeAll_eq (items : List Tree) : normalizeAll items = traverse normalize items := by
  induction items with
  | nil => rfl
  | cons t rest ih =>
    rw [normalizeAll, traverse, ih]
    cases t.normalize with
    | error f => rfl
    | ok r => cases traverse normalize rest <;> rfl

theorem normalizeEntries_eq (entries : List (Tree × Tree)) : normalizeEntries entries = traverse normalizeEntry entries := by
  induction entries with
  | nil => rfl
  | cons e rest ih =>
    rw [normalizeEntries, traverse, normalizeEntry, ih]
    cases e.1.asName with
    | error f => rfl
    | ok name =>
      cases e.2.normalize with
      | error f => rfl
      | ok r => cases traverse normalizeEntry rest <;> rfl

theorem unstemAll_eq (items : List Tree) : unstemAll items = items.map unstem := by
  induction items with
  | nil => rfl
  | cons t rest ih => rw [unstemAll, List.map_cons, ih]

theorem unstemNamed_eq (named : List (String × Tree)) : unstemNamed named = named.map fun e => (e.1, unstem e.2) := by
  induction named with
  | nil => rfl
  | cons e rest ih => rw [unstemNamed, List.map_cons, ih]

/-! ## Uniform stems -/

/-- Stems of items only or of names only, with texts and integers as leaves. -/
inductive Uniform : Tree → Prop
  | text (s : String) : Uniform (.text s)
  | int (n : Int) : Uniform (.int n)
  | row (items : List Tree) : (∀ t ∈ items, Uniform t) → Uniform (.stem items [])
  | record (named : List (String × Tree)) : (Table.keys named).Nodup → (∀ e ∈ named, Uniform e.2) →
      Uniform (.stem [] named)

theorem unstem_row (items : List Tree) : unstem (.stem items []) = .list (items.map unstem) := by
  rw [unstem, unstemAll_eq]
  rfl

theorem unstem_record {named : List (String × Tree)} (h : named ≠ []) :
    unstem (.stem [] named) = .dict (named.map fun e => (.text e.1, unstem e.2)) := by
  have hmap : (named.map fun e => (e.1, unstem e.2)).isEmpty = false := by simp [h]
  rw [unstem, unstemNamed_eq, unstemAll, plainStem, hmap]
  simp

theorem Uniform.normalize_unstem {t : Tree} (h : t.Uniform) : (unstem t).normalize = .ok t := by
  induction h with
  | text s => rfl
  | int n => rfl
  | row items _ ih =>
    have hitems : traverse normalize (items.map unstem) = .ok items := by
      rw [traverse_eq_ok_iff, List.forall₂_map_left_iff, List.forall₂_same]
      exact ih
    rw [unstem_row, normalize, normalizeAll_eq, hitems]
    rfl
  | record named hkeys _ ih =>
    by_cases hempty : named = []
    · subst hempty
      rfl
    · have hnamed : traverse normalizeEntry (named.map fun e => (.text e.1, unstem e.2)) = .ok named := by
        rw [traverse_eq_ok_iff, List.forall₂_map_left_iff, List.forall₂_same]
        intro e he
        simp only [normalizeEntry, asName, Scalar.asName, ih e he]
        rfl
      rw [unstem_record hempty, normalize, normalizeEntries_eq, hnamed]
      exact congrArg (fun named => Except.ok (Tree.stem [] named)) (Table.ofEntries_of_nodup hkeys)

/-! ## Data from outside -/

/-- Data as another program has it, without stems. -/
inductive Outside : Tree → Prop
  | absent : Outside .absent
  | bool (b : Bool) : Outside (.bool b)
  | text (s : String) : Outside (.text s)
  | int (n : Int) : Outside (.int n)
  | list (items : List Tree) : (∀ t ∈ items, Outside t) → Outside (.list items)
  | dict (entries : List (Tree × Tree)) : (∀ e ∈ entries, Outside e.1) → (∀ e ∈ entries, Outside e.2) →
      Outside (.dict entries)

/-- Data in the language's own terms. -/
inductive Inside : Tree → Prop
  | text (s : String) : Inside (.text s)
  | int (n : Int) : Inside (.int n)
  | stem (items : List Tree) (named : List (String × Tree)) : (∀ t ∈ items, Inside t) → (∀ e ∈ named, Inside e.2) →
      Inside (.stem items named)

/-- Data with a key that can not become a name. -/
inductive Nameless : Tree → Prop
  | key {entries : List (Tree × Tree)} {e : Tree × Tree} : e ∈ entries → e.1.Oversized → Nameless (.dict entries)
  | entry {entries : List (Tree × Tree)} {e : Tree × Tree} : e ∈ entries → Nameless e.2 → Nameless (.dict entries)
  | item {items : List Tree} {t : Tree} : t ∈ items → Nameless t → Nameless (.list items)

theorem Uniform.outside {t : Tree} (h : t.Uniform) : (unstem t).Outside := by
  induction h with
  | text s => exact .text s
  | int n => exact .int n
  | row items _ ih =>
    rw [unstem_row]
    exact .list _ (List.forall_mem_map.mpr ih)
  | record named _ _ ih =>
    by_cases hempty : named = []
    · subst hempty
      exact .list [] (by simp)
    · rw [unstem_record hempty]
      exact .dict _ (List.forall_mem_map.mpr fun e _ => .text e.1) (List.forall_mem_map.mpr ih)

theorem Inside.normalize {t : Tree} (h : t.Inside) : t.normalize = .ok t := by cases h <;> rfl

theorem normalizeEntry_fails (e : Tree × Tree) : Fails (normalizeEntry e) ↔ e.1.Oversized ∨ Fails e.2.normalize := by
  rw [← e.1.asName_fails]
  exact Fails.bind_iff fun _ => Fails.then_pure _

/-- Data comes in exactly if every key that is met becomes a name. -/
theorem Outside.normalize_fails {t : Tree} (h : t.Outside) : Fails t.normalize ↔ t.Nameless := by
  induction h with
  | absent | bool | text | int => exact iff_of_false (Fails.not_ok _) (nomatch ·)
  | list items _ ih =>
    rw [normalize, Fails.then_pure, normalizeAll_eq, Fails.traverse_iff]
    constructor
    · rintro ⟨t, ht, hfails⟩
      exact .item ht ((ih t ht).mp hfails)
    · rintro (_ | _ | ⟨ht, hless⟩)
      exact ⟨_, ht, (ih _ ht).mpr hless⟩
  | dict entries _ _ _ ih =>
    rw [normalize, Fails.then_pure, normalizeEntries_eq, Fails.traverse_iff]
    simp only [normalizeEntry_fails]
    constructor
    · rintro ⟨e, he, hkey | hfails⟩
      · exact .key he hkey
      · exact .entry he ((ih e he).mp hfails)
    · rintro (⟨he, hkey⟩ | ⟨he, hless⟩)
      · exact ⟨_, he, .inl hkey⟩
      · exact ⟨_, he, .inr ((ih _ he).mpr hless)⟩

theorem Outside.normalize_inside {t r : Tree} (h : t.Outside) (hr : t.normalize = .ok r) : r.Inside := by
  induction h generalizing r with
  | absent =>
    cases hr
    exact .text ""
  | bool b =>
    cases hr
    exact .int _
  | text s =>
    cases hr
    exact .text s
  | int n =>
    cases hr
    exact .int n
  | list items _ ih =>
    rw [normalize, bind_eq_ok_iff] at hr
    obtain ⟨rs, hrs, heq⟩ := hr
    cases heq
    rw [normalizeAll_eq] at hrs
    refine .stem rs [] (fun r hr => ?_) (by simp)
    obtain ⟨t, ht, hnormal⟩ := forall₂_mem_right (traverse_eq_ok_iff.mp hrs) hr
    exact ih t ht hnormal
  | dict entries _ _ _ ih =>
    rw [normalize, bind_eq_ok_iff] at hr
    obtain ⟨es, hes, heq⟩ := hr
    cases heq
    rw [normalizeEntries_eq] at hes
    have hinside : ∀ e ∈ es, e.2.Inside := by
      intro e he
      obtain ⟨e₀, he₀, hnormal⟩ := forall₂_mem_right (traverse_eq_ok_iff.mp hes) he
      rw [normalizeEntry, bind_eq_ok_iff] at hnormal
      obtain ⟨name, -, hvalue⟩ := hnormal
      obtain ⟨r, hr, heq⟩ := bind_eq_ok_iff.mp hvalue
      cases heq
      exact ih e₀ he₀ hr
    exact .stem [] _ (by simp) (Table.forall_putAll (List.forall_mem_nil _) hinside)

end Tree

namespace Store

/-! ## Decoding in a store -/

def Follows {α β : Type} (store : Store) (P : Store → α → β → Prop) :
    Except Failure (α × Store) → Except Failure β → Prop
  | .ok (v, store'), .ok r => store.Grows store' ∧ P store' v r
  | .error f, .error f' => f = f'
  | _, _ => False

theorem Follows.bind {α β γ δ : Type} {store : Store} {P : Store → α → β → Prop} {Q : Store → γ → δ → Prop}
    {x : Except Failure (α × Store)} {y : Except Failure β} {k : α × Store → Except Failure (γ × Store)}
    {l : β → Except Failure δ} (h : store.Follows P x y)
    (hk : ∀ v store' r, store.Grows store' → P store' v r → store'.Follows Q (k (v, store')) (l r)) :
    store.Follows Q (x >>= k) (y >>= l) := by
  match x, y, h with
  | .error _, .error _, h => exact h
  | .ok (v, store'), .ok r, h =>
    have hrest := hk v store' r h.1 h.2
    change store.Follows Q (k (v, store')) (l r)
    match k (v, store'), l r, hrest with
    | .error _, .error _, hrest => exact hrest
    | .ok _, .ok _, hrest => exact ⟨h.1.trans hrest.1, hrest.2⟩

theorem Follows.of_ok {α β : Type} {store store' : Store} {P : Store → α → β → Prop} {v : α} {y : Except Failure β}
    (h : store.Follows P (.ok (v, store')) y) : ∃ r, y = .ok r ∧ P store' v r := by
  match y, h with
  | .ok r, h => exact ⟨r, rfl, h.2⟩

theorem Follows.to_ok {α β : Type} {store : Store} {P : Store → α → β → Prop} {x : Except Failure (α × Store)} {r : β}
    (h : store.Follows P x (.ok r)) : ∃ v store', x = .ok (v, store') ∧ P store' v r := by
  match x, h with
  | .ok (v, store'), h => exact ⟨v, store', rfl, h.2⟩

theorem normalizeAll_follows {vs : List Value} {ts : List Tree}
    (h : List.Forall₂ (fun v t => ∀ store : Store, store.Follows Shows (normalize v store) t.normalize) vs ts) (store : Store) :
    store.Follows (fun store => List.Forall₂ store.Shows) (normalizeAll vs store) (Tree.normalizeAll ts) := by
  induction h generalizing store with
  | nil => exact ⟨.refl store, .nil⟩
  | cons hv _ ih =>
    rw [normalizeAll, Tree.normalizeAll]
    refine (hv store).bind fun v₁ store₁ r hgrows hshows => (ih store₁).bind fun vs₂ store₂ rs hgrows₂ hall => ?_
    exact ⟨.refl store₂, .cons (hshows.grows hgrows₂) hall⟩

theorem normalizeEntries_follows {es : List (Value × Value)} {ts : List (Tree × Tree)}
    (h : List.Forall₂ (fun e t => (∀ store : Store, store.tree e.1 = .ok t.1) ∧
      ∀ store : Store, store.Follows Shows (normalize e.2 store) t.2.normalize) es ts) (store : Store) :
    store.Follows (fun store => List.Forall₂ fun e e' => e.1 = e'.1 ∧ store.Shows e.2 e'.2) (normalizeEntries es store)
      (Tree.normalizeEntries ts) := by
  induction h generalizing store with
  | nil => exact ⟨.refl store, .nil⟩
  | @cons e t _ _ he _ ih =>
    rw [normalizeEntries, Tree.normalizeEntries, he.1 store]
    change store.Follows _ (t.1.asName >>= _) _
    cases t.1.asName with
    | error f => rfl
    | ok name =>
      refine (he.2 store).bind fun v₁ store₁ r hgrows hshows => (ih store₁).bind fun vs₂ store₂ rs hgrows₂ hall => ?_
      exact ⟨.refl store₂, .cons ⟨rfl, hshows.grows hgrows₂⟩ hall⟩

theorem follow_not_outside {store : Store} {depth : Nat} (a : Address) (t : Tree) (h : store.follow depth a = .ok t) :
    ¬ t.Outside := by
  obtain ⟨_, _, rfl⟩ := follow_stem h
  exact (nomatch ·)

section Outside

variable {f : Address → Except Failure Tree} (hf : ∀ a t, f a = .ok t → ¬ t.Outside)

include hf

theorem treeWith_outside {t : Tree} (h : t.Outside) {v : Value} (hv : treeWith f v = .ok t)
    (g : Address → Except Failure Tree) : treeWith g v = .ok t := by
  induction h generalizing v with
  | absent | bool | text | int =>
    cases treeWith_ok.mp hv with
    | scalar => rfl
    | stem ha => exact (hf _ _ ha (by constructor)).elim
  | list items houtside ih =>
    cases treeWith_ok.mp hv with
    | stem ha => exact (hf _ _ ha (.list items houtside)).elim
    | list hitems => exact treeWith_ok.mpr (.list (forall₂_imp_mem hitems fun t ht v hv => ih t ht hv))
  | dict entries hkeys hvalues ihkeys ihvalues =>
    cases treeWith_ok.mp hv with
    | stem ha => exact (hf _ _ ha (.dict entries hkeys hvalues)).elim
    | dict hentries =>
      refine treeWith_ok.mpr (.dict (forall₂_imp_mem hentries fun e he e' h => ?_))
      obtain ⟨hkey, hvalue⟩ := entryWith_ok.mp h
      exact entryWith_ok.mpr ⟨ihkeys e he hkey, ihvalues e he hvalue⟩

/-- What becomes of a value in a store is what becomes of its tree. -/
theorem normalize_follows {t : Tree} (h : t.Outside) {v : Value} (hv : treeWith f v = .ok t) (store : Store) :
    store.Follows Shows (normalize v store) t.normalize := by
  induction h generalizing v store with
  | absent | bool | text | int =>
    cases treeWith_ok.mp hv with
    | scalar => exact ⟨.refl store, fun _ _ _ _ => rfl⟩
    | stem ha => exact (hf _ _ ha (by constructor)).elim
  | list items houtside ih =>
    cases treeWith_ok.mp hv with
    | stem ha => exact (hf _ _ ha (.list items houtside)).elim
    | list hitems =>
      rw [normalize, Tree.normalize]
      refine (normalizeAll_follows (forall₂_imp_mem hitems fun t ht v hv => ih t ht hv) store).bind ?_
      intro vs store₁ rs hgrows hshows
      exact ⟨grows_alloc store₁ _, shows_alloc hshows .nil⟩
  | dict entries hkeys hvalues _ ih =>
    cases treeWith_ok.mp hv with
    | stem ha => exact (hf _ _ ha (.dict entries hkeys hvalues)).elim
    | dict hentries =>
      rw [normalize, Tree.normalize]
      refine (normalizeEntries_follows (forall₂_imp_mem hentries ?parts) store).bind fun es store₁ rs hgrows hshows => ?_
      case parts =>
        intro e he e' h
        obtain ⟨hkey, hvalue⟩ := entryWith_ok.mp h
        exact ⟨fun store => treeWith_outside hf (hkeys e he) hkey _, ih e he hvalue⟩
      exact ⟨grows_alloc store₁ _, shows_alloc .nil (Table.forall₂_putAll .nil hshows)⟩

end Outside

/-! ## Encoding in a store -/

theorem unstem_uniform {store : Store} {t : Tree} (h : t.Uniform) {v : Value} {depth : Nat}
    (hv : treeWith (store.follow depth) v = .ok t) :
    ∃ p, store.unstem depth v = .ok p ∧ ∀ f, treeWith f p = .ok (Tree.unstem t) := by
  induction h generalizing v depth with
  | text s =>
    obtain rfl := eq_of_shows_scalar hv
    exact ⟨.text s, by cases depth <;> rfl, fun _ => rfl⟩
  | int n =>
    obtain rfl := eq_of_shows_scalar hv
    exact ⟨.int n, by cases depth <;> rfl, fun _ => rfl⟩
  | row items _ ih =>
    obtain ⟨a, d, rfl, rfl, hitems, hnamed⟩ := eq_of_shows_stem hv
    obtain ⟨ps, hps, hshows⟩ := traverse_of_forall₂ hitems fun t ht v hv => ih t ht hv
    have hnone : (store.get a).named = [] := List.forall₂_nil_right_iff.mp hnamed
    refine ⟨.list ps, ?_, fun f => ?_⟩
    · rw [unstem, hps, hnone]
      rfl
    · rw [Tree.unstem_row]
      exact treeWith_ok.mpr (.list (List.forall₂_map_right_iff.mpr (hshows.imp fun _ _ h => h f)))
  | record named _ _ ih =>
    obtain ⟨a, d, rfl, rfl, hitems, hnamed⟩ := eq_of_shows_stem hv
    have hnone : (store.get a).items = [] := List.forall₂_nil_right_iff.mp hitems
    obtain ⟨ps, hps, hshows⟩ := traverse_of_forall₂ (f := fun e => (store.unstem d e.2).map fun v => (e.1, v))
      (S := fun p e => p.1 = e.1 ∧ ∀ f, treeWith f p.2 = .ok (Tree.unstem e.2)) hnamed fun e he e₀ h => by
        obtain ⟨p, hp, hf⟩ := ih e he h.2
        exact ⟨(e₀.1, p), by rw [hp]; rfl, h.1, hf⟩
    have hout : store.unstem (d + 1) (.stem a) = .ok (if ps.isEmpty then .list []
        else .dict (ps.map fun e => (.text e.1, e.2))) := by
      rw [unstem, hnone, hps]
      rfl
    by_cases hempty : named = []
    · subst hempty
      cases hshows
      exact ⟨.list [], hout, fun _ => rfl⟩
    · have hfull : ps.isEmpty = false := by
        rw [← Bool.not_eq_true, List.isEmpty_iff]
        rintro rfl
        exact hempty (List.forall₂_nil_left_iff.mp hshows)
      rw [hfull] at hout
      refine ⟨_, hout, fun f => ?_⟩
      rw [Tree.unstem_record hempty]
      refine treeWith_ok.mpr (.dict (List.forall₂_map_left_iff.mpr (List.forall₂_map_right_iff.mpr ?_)))
      exact hshows.imp fun p e h => entryWith_ok.mpr ⟨by rw [h.1]; rfl, h.2 f⟩

end Store

/-! ## There and back -/

namespace Store

/-- A uniform value that has gone out comes back as a value that shows the same. -/
theorem normalize_plain {store : Store} {v : Value} {t : Tree} (hv : store.tree v = .ok t) (ht : t.Uniform) :
    ∃ p v' store', store.plain v = .ok p ∧ Store.normalize p store = .ok (v', store') ∧ store'.tree v' = .ok t := by
  obtain ⟨p, hp, hshows⟩ := unstem_uniform ht hv
  have hfollows := normalize_follows (f := store.follow 0) follow_not_outside ht.outside (hshows _) store
  rw [ht.normalize_unstem] at hfollows
  obtain ⟨v', store', hnormal, hshown⟩ := hfollows.to_ok
  exact ⟨p, v', store', hp, hnormal, hshown.tree⟩

theorem normalize_outside {store : Store} {v : Value} {t : Tree} (hv : store.tree v = .ok t) (ht : t.Outside) :
    store.Follows Shows (normalize v store) t.normalize :=
  normalize_follows follow_not_outside ht hv store

/-- In a store, too, data comes in exactly if every key that is met becomes a name. -/
theorem normalize_ok_iff {store : Store} {v : Value} {t : Tree} (hv : store.tree v = .ok t) (ht : t.Outside) :
    (∃ w, normalize v store = .ok w) ↔ ¬ t.Nameless := by
  have hfollows := normalize_outside hv ht
  rw [← ht.normalize_fails, Fails.not_iff]
  constructor
  · rintro ⟨⟨v', store'⟩, h⟩
    rw [h] at hfollows
    obtain ⟨r, hr, -⟩ := hfollows.of_ok
    exact ⟨r, hr⟩
  · rintro ⟨r, hr⟩
    rw [hr] at hfollows
    obtain ⟨v', store', h, -⟩ := hfollows.to_ok
    exact ⟨(v', store'), h⟩

theorem normalize_shows_inside {store store' : Store} {v v' : Value} {t : Tree} (hv : store.tree v = .ok t)
    (ht : t.Outside) (h : normalize v store = .ok (v', store')) : ∃ r, store'.tree v' = .ok r ∧ r.Inside := by
  have hfollows := normalize_outside hv ht
  rw [h] at hfollows
  obtain ⟨r, hr, hshows⟩ := hfollows.of_ok
  exact ⟨r, hshows.tree, ht.normalize_inside hr⟩

theorem normalize_of_inside {store : Store} {v : Value} {t : Tree} (hv : store.tree v = .ok t) (ht : t.Inside) :
    normalize v store = .ok (v, store) := by
  cases ht with
  | text s =>
    obtain rfl := eq_of_shows_scalar hv
    rfl
  | int n =>
    obtain rfl := eq_of_shows_scalar hv
    rfl
  | stem items named =>
    obtain ⟨a, _, rfl, _⟩ := eq_of_shows_stem hv
    rfl

theorem normalize_oversized {n : Int} (hn : Nat.pow 10 digitLimit ≤ n.natAbs) (v : Value) (store : Store) :
    ∃ f, normalize (.dict [(.int n, v)]) store = .error f := by
  obtain ⟨f, hf⟩ := (integerText_fails n).mpr hn
  have hname : (Tree.scalar (.int n)).asName = .error f := hf
  have htree : store.tree (.int n) = .ok (.int n) := rfl
  refine ⟨f, ?_⟩
  rw [normalize, normalizeEntries, htree]
  change ((Tree.scalar (.int n)).asName >>= _) >>= _ = _
  rw [hname]
  rfl

end Store

theorem Tree.Uniform.plain_eq {t : Tree} (h : t.Uniform) : t.plain = .ok t.unstem := by cases h <;> rfl

/-- A uniform stem that goes out as plain data comes back as it was, at every depth and in the same order, as a tree and
in a store. Other data comes in exactly if every key that is met in it has a text; then it is made of texts, integers
and stems only, and to bring it in again changes nothing. An integer from ten to the power of the limit on has no text,
so a dictionary with such a key does not come in. -/
theorem decoding_undoes_encoding (store : Store) (v : Value) (t : Tree) :
    (t.Uniform → ∃ p, t.plain = .ok p ∧ p.normalize = .ok t) ∧
    (store.tree v = .ok t → t.Uniform →
      ∃ p v' store', store.plain v = .ok p ∧ Store.normalize p store = .ok (v', store') ∧ store'.tree v' = .ok t) ∧
    (t.Outside → ((∃ r, t.normalize = .ok r) ↔ ¬ t.Nameless) ∧
      ∀ r, t.normalize = .ok r → r.Inside ∧ r.normalize = .ok r) ∧
    (store.tree v = .ok t → t.Outside →
      ((∃ w, Store.normalize v store = .ok w) ↔ ¬ t.Nameless) ∧
      ∀ v' store', Store.normalize v store = .ok (v', store') →
        ∃ r, store'.tree v' = .ok r ∧ r.Inside ∧ Store.normalize v' store' = .ok (v', store')) ∧
    ∀ n : Int, Nat.pow 10 digitLimit ≤ n.natAbs → ∃ f, Store.normalize (.dict [(.int n, v)]) store = .error f := by
  refine ⟨?_, ?_, ?_, ?_, ?_⟩
  · intro ht
    exact ⟨t.unstem, ht.plain_eq, ht.normalize_unstem⟩
  · intro hv ht
    exact Store.normalize_plain hv ht
  · intro ht
    refine ⟨?_, fun r hr => ?_⟩
    · rw [← ht.normalize_fails, Fails.not_iff]
    · have hinside := ht.normalize_inside hr
      exact ⟨hinside, hinside.normalize⟩
  · intro hv ht
    refine ⟨Store.normalize_ok_iff hv ht, fun v' store' h => ?_⟩
    obtain ⟨r, hr, hinside⟩ := Store.normalize_shows_inside hv ht h
    exact ⟨r, hr, hinside, Store.normalize_of_inside hr hinside⟩
  · intro n hn
    exact Store.normalize_oversized hn v store

/-- The least positive key that does not come in, and a row of a text and a record that does come back. -/
theorem decoding_undoes_encoding_least :
    (∃ f, Store.normalize (.dict [(.int (Nat.pow 10 digitLimit : Nat), .int 1)]) {} = .error f) ∧
      ∃ p, (Tree.stem [.text "a", .stem [] [("k", .int 1)]] []).plain = .ok p ∧
        p.normalize = .ok (.stem [.text "a", .stem [] [("k", .int 1)]] []) := by
  obtain ⟨hback, -, -, -, hkeys⟩ :=
    decoding_undoes_encoding {} (.int 1) (.stem [.text "a", .stem [] [("k", .int 1)]] [])
  refine ⟨hkeys _ (Nat.le_of_eq (Int.natAbs_natCast _).symm), hback (.row _ ?_)⟩
  simp only [List.forall_mem_cons]
  exact ⟨.text "a", .record _ (by simp [Table.keys]) (by simp [Tree.Uniform.int]), by simp⟩

end Conductor
