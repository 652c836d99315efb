import Conductor.Proofs.Memory.Entries
import Conductor.Proofs.Memory.Intact
import Mathlib.Logic.Relation

/-!
# What becomes of the stems of a store

A store changes by the operations on its stems: a value is written under a key, an entry is
deleted, items are pushed, a new stem is made, a copy is made, data from outside comes in.
A history is any number of such changes, one after the other. If the keys of dictionaries that
come in are names, every change keeps all stems sound, so after any history all entries of all
stems are read.
-/

set_option autoImplicit false

namespace Conductor

/-- Data from outside with names as the keys of its dictionaries, at every depth. -/
inductive Value.Named : Value → Prop
  | scalar (s : Scalar) : Named (.scalar s)
  | stem (a : Address) : Named (.stem a)
  | list (items : List Value) : (∀ v ∈ items, Named v) → Named (.list items)
  | dict (entries : List (String × Value)) : (∀ e ∈ entries, Key.isName e.1 = true) → (∀ e ∈ entries, Named e.2) →
      Named (.dict (entries.map fun e => (.text e.1, e.2)))

namespace Store

def Sound (store : Store) : Prop := ∀ a, (store.get a).Sound

namespace Sound

variable {store store' : Store}

theorem empty : Sound {} := fun _ => Stem.sound_row []

theorem alloc (h : store.Sound) {s : Stem Value} (hs : s.Sound) : (store.alloc s).2.Sound := by
  intro a
  rw [get_alloc]
  split
  · exact hs
  · exact h a

theorem set (h : store.Sound) (a : Address) {s : Stem Value} (hs : s.Sound) : (store.set a s).Sound := by
  intro b
  rw [get_set]
  split
  · exact hs
  · exact h b

/-! ## Data that comes in -/

theorem normalizeAll {vs ws : List Value} (hvs : ∀ v ∈ vs, ∀ (store store' : Store) (w : Value), store.Sound →
    Store.normalize v store = .ok (w, store') → store'.Sound) (h : store.Sound)
    (hn : Store.normalizeAll vs store = .ok (ws, store')) : store'.Sound := by
  induction vs generalizing store ws with
  | nil =>
    cases hn
    exact h
  | cons v rest ih =>
    rw [Store.normalizeAll] at hn
    obtain ⟨⟨w, store₁⟩, hv, hn⟩ := bind_eq_ok_iff.mp hn
    obtain ⟨⟨ws', store₂⟩, hrest, heq⟩ := bind_eq_ok_iff.mp hn
    cases heq
    have h₁ := hvs v List.mem_cons_self _ _ _ h hv
    exact ih (fun v hv => hvs v (List.mem_cons_of_mem _ hv)) h₁ hrest

theorem normalizeEntries {es : List (String × Value)} {rs : List (String × Value)} (hes : ∀ e ∈ es,
    ∀ (store store' : Store) (w : Value), store.Sound → Store.normalize e.2 store = .ok (w, store') → store'.Sound)
    (h : store.Sound) (hn : Store.normalizeEntries (es.map fun e => (.text e.1, e.2)) store = .ok (rs, store')) :
    store'.Sound ∧ Table.keys rs = Table.keys es := by
  induction es generalizing store rs with
  | nil =>
    cases hn
    exact ⟨h, rfl⟩
  | cons e rest ih =>
    rw [List.map_cons, Store.normalizeEntries] at hn
    obtain ⟨key, hkey, hn⟩ := bind_eq_ok_iff.mp hn
    obtain ⟨name, hname, hn⟩ := bind_eq_ok_iff.mp hn
    obtain ⟨⟨w, store₁⟩, hv, hn⟩ := bind_eq_ok_iff.mp hn
    obtain ⟨⟨rs', store₂⟩, hrest, heq⟩ := bind_eq_ok_iff.mp hn
    cases hkey
    cases hname
    cases heq
    have h₁ := hes e List.mem_cons_self _ _ _ h hv
    obtain ⟨h₂, hkeys⟩ := ih (fun e he => hes e (List.mem_cons_of_mem _ he)) h₁ hrest
    exact ⟨h₂, congrArg (e.1 :: ·) hkeys⟩

theorem normalize {v w : Value} (hv : v.Named) (h : store.Sound) (hn : Store.normalize v store = .ok (w, store')) :
    store'.Sound := by
  induction hv generalizing store store' w with
  | scalar s =>
    cases hn
    exact h
  | stem a =>
    cases hn
    exact h
  | list items _ ih =>
    rw [Store.normalize] at hn
    obtain ⟨⟨ws, store₁⟩, hall, heq⟩ := bind_eq_ok_iff.mp hn
    cases heq
    exact (normalizeAll (fun v hv _ _ _ => ih v hv) h hall).alloc (Stem.sound_row ws)
  | dict entries hnames _ ih =>
    rw [Store.normalize] at hn
    obtain ⟨⟨rs, store₁⟩, hall, heq⟩ := bind_eq_ok_iff.mp hn
    cases heq
    obtain ⟨h₁, hkeys⟩ := normalizeEntries (fun e he _ _ _ => ih e he) h hall
    refine h₁.alloc (Stem.sound_record ?_)
    rw [hkeys]
    exact List.forall_mem_map.mpr hnames

/-! ## Copies -/

theorem each {f : Value → Store → Except Failure (Value × Store)} (hf : ∀ (v w : Value) (store store' : Store),
    store.Sound → f v store = .ok (w, store') → store'.Sound) {vs ws : List Value} (h : store.Sound)
    (hc : copyTo.each f vs store = .ok (ws, store')) : store'.Sound := by
  induction vs generalizing store ws with
  | nil =>
    cases hc
    exact h
  | cons v rest ih =>
    rw [copyTo.each] at hc
    obtain ⟨⟨w, store₁⟩, hv, hc⟩ := bind_eq_ok_iff.mp hc
    obtain ⟨⟨ws', store₂⟩, hrest, heq⟩ := bind_eq_ok_iff.mp hc
    cases heq
    exact ih (hf _ _ _ _ h hv) hrest

theorem eachNamed {f : Value → Store → Except Failure (Value × Store)} (hf : ∀ (v w : Value) (store store' : Store),
    store.Sound → f v store = .ok (w, store') → store'.Sound) {es rs : List (String × Value)} (h : store.Sound)
    (hc : copyTo.eachNamed f es store = .ok (rs, store')) : store'.Sound ∧ Table.keys rs = Table.keys es := by
  induction es generalizing store rs with
  | nil =>
    cases hc
    exact ⟨h, rfl⟩
  | cons e rest ih =>
    rw [copyTo.eachNamed] at hc
    obtain ⟨⟨w, store₁⟩, hv, hc⟩ := bind_eq_ok_iff.mp hc
    obtain ⟨⟨rs', store₂⟩, hrest, heq⟩ := bind_eq_ok_iff.mp hc
    cases heq
    obtain ⟨h₂, hkeys⟩ := ih (hf _ _ _ _ h hv) hrest
    exact ⟨h₂, congrArg (e.1 :: ·) hkeys⟩

theorem copyTo {source : Store} (hsource : source.Sound) {depth : Nat} {v w : Value} (h : store.Sound)
    (hc : source.copyTo depth v store = .ok (w, store')) : store'.Sound := by
  induction depth generalizing v w store store' with
  | zero =>
    cases v with
    | stem a => cases hc
    | scalar s =>
      cases hc
      exact h
    | list items =>
      cases hc
      exact h
    | dict entries =>
      cases hc
      exact h
  | succ depth ih =>
    cases v with
    | stem a =>
      rw [Store.copyTo] at hc
      obtain ⟨⟨items, store₁⟩, hitems, hc⟩ := bind_eq_ok_iff.mp hc
      obtain ⟨⟨named, store₂⟩, hnamed, heq⟩ := bind_eq_ok_iff.mp hc
      cases heq
      have h₁ := each (fun _ _ _ _ => ih) h hitems
      obtain ⟨h₂, hkeys⟩ := eachNamed (fun _ _ _ _ => ih) h₁ hnamed
      exact h₂.alloc ⟨hkeys ▸ (hsource a).names, hkeys ▸ (hsource a).different⟩
    | scalar s =>
      cases hc
      exact h
    | list items =>
      cases hc
      exact h
    | dict entries =>
      cases hc
      exact h

end Sound

/-! ## Histories -/

/-- One operation on the stems of a store. -/
inductive Change : Store → Store → Prop
  | new (store : Store) : Change store (store.alloc {}).2
  | set {store : Store} {a : Address} {key : Key} {v : Value} {s : Stem Value} {asCount : Value → Except Problem Nat} :
      key.Proper → (store.get a).set (.text "") asCount key v = .ok s → Change store (store.set a s)
  | delete (store : Store) (a : Address) (key : Key) : Change store (store.set a ((store.get a).delete key))
  | push (store : Store) (a : Address) (vs : List Value) : Change store (store.pushed a vs)
  | copy {store store' : Store} {v w : Value} : store.copy v = .ok (w, store') → Change store store'
  | decode {store store' : Store} {v w : Value} : v.Named → normalize v store = .ok (w, store') → Change store store'

def History : Store → Store → Prop := Relation.ReflTransGen Change

namespace Sound

variable {store store' : Store}

theorem change (h : store.Sound) (hc : Change store store') : store'.Sound := by
  cases hc with
  | new => exact h.alloc (Stem.sound_row [])
  | @set a key v s asCount hkey hset => exact h.set a ((h a).set hkey hset)
  | delete a key => exact h.set a ((h a).delete key)
  | push a vs => exact h.set a ((h a).pushed vs)
  | copy hc => exact h.copyTo h hc
  | decode hv hn => exact h.normalize hv hn

/-- What one operation keeps, a history keeps. -/
theorem history (h : store.Sound) (hh : History store store') : store'.Sound := by
  induction hh with
  | refl => exact h
  | tail _ hc ih => exact ih.change hc

/-- After a history every entry of every stem is read under the key that the stem lists for it. -/
theorem readable (h : store.Sound) (a : Address) (counted : Nat → Value) : (store.get a).Readable counted :=
  (h a).readable counted

end Sound

end Store

/-! ## Work on a memory -/

namespace Memory

variable {α β : Type}

def Records (Q : α → Prop) (x : Act α) : Prop :=
  ∀ mem, match x mem with
    | .ok a mem' => Q a ∧ mem.store.History mem'.store
    | .error _ mem' => mem.store.History mem'.store

abbrev Anything : α → Prop := fun _ => True

namespace Records

variable {Q Q' : α → Prop} {R : β → Prop}

theorem pure {a : α} (h : Q a) : Records Q (pure a) := fun _ => ⟨h, .refl⟩

theorem fail (f : Failure) : Records Q (Memory.fail f) := fun _ => .refl

theorem mono {x : Act α} (hx : Records Q x) (h : ∀ a, Q a → Q' a) : Records Q' x := by
  intro mem
  have hmem := hx mem
  cases hr : x mem with
  | ok a mem' =>
    rw [hr] at hmem
    exact ⟨h a hmem.1, hmem.2⟩
  | error p mem' =>
    rw [hr] at hmem
    exact hmem

theorem bind {x : Act α} {k : α → Act β} (hx : Records Q x) (hk : ∀ a, Q a → Records R (k a)) : Records R (x >>= k) := by
  intro mem
  have hmem := hx mem
  change match EStateM.bind x k mem with
    | .ok b mem' => R b ∧ mem.store.History mem'.store
    | .error _ mem' => mem.store.History mem'.store
  unfold EStateM.bind
  cases hr : x mem with
  | error p mem' =>
    rw [hr] at hmem
    exact hmem
  | ok a mem' =>
    rw [hr] at hmem
    have hrest := hk a hmem.1 mem'
    dsimp only
    cases hb : k a mem' with
    | ok b mem'' =>
      rw [hb] at hrest
      exact ⟨hrest.1, hmem.2.trans hrest.2⟩
    | error p mem'' =>
      rw [hb] at hrest
      exact hmem.2.trans hrest

theorem get : Records Anything (get : Act Memory) := fun _ => ⟨trivial, .refl⟩

theorem scope (f : Scope → Scope) : Records Anything (modify fun m : Memory => { m with scope := f m.scope }) :=
  fun _ => ⟨trivial, .refl⟩

theorem liftE (x : Except Failure α) : Records (fun a => x = .ok a) (Memory.liftE x) := by
  cases x with
  | ok a => exact .pure rfl
  | error f => exact .fail f

/-- A change of the store that is an operation on its stems. -/
theorem withStore {f : Store → Except Failure (α × Store)}
    (hf : ∀ store a store', f store = .ok (a, store') → store.History store') : Records Anything (Memory.withStore f) := by
  intro mem
  simp only [Memory.withStore, Bind.bind, EStateM.bind, get_apply]
  cases hr : f mem.store with
  | ok r => exact ⟨trivial, hf _ _ _ hr⟩
  | error e => exact .refl

end Records

theorem alloc_records : Records Anything (alloc {}) :=
  .withStore fun store _ _ h => by
    cases h
    exact .single (.new store)

theorem copy_records (v : Value) : Records Anything (copy v) := .withStore fun _ _ _ h => .single (.copy h)

theorem normalize_records {v : Value} (hv : v.Named) : Records Anything (normalize v) :=
  .withStore fun _ _ _ h => .single (.decode hv h)

theorem stemGet_records (a : Address) (key : Key) : Records Anything (stemGet a key) := fun _ => ⟨trivial, .refl⟩

theorem stemSet_records (a : Address) {key : Key} (hkey : key.Proper) (v : Value) : Records Anything (stemSet a key v) := by
  intro mem
  simp only [stemSet, Bind.bind, EStateM.bind, get_apply]
  cases hs : (mem.store.get a).set (.text "") (fun v => do (← (mem.store.tree v).mapError .failure).asCount) key v with
  | ok s => exact ⟨trivial, .single (.set hkey hs)⟩
  | error p => exact .refl

/-! ### Writing along a tail -/

theorem keyed_records (s : String) : Records Key.Proper (keyed (.text s)) :=
  (Records.liftE _).mono fun _ h => .of_text h

theorem childStem_records (a : Address) (s : String) : Records Anything (childStem a (.text s)) := by
  unfold childStem
  refine (keyed_records s).bind fun k hk => (stemGet_records a k).bind fun v _ => ?_
  split
  · exact .pure trivial
  · refine alloc_records.bind fun w _ => ?_
    split
    · next b _ => exact (stemSet_records a hk (.stem b)).bind fun _ _ => .pure trivial
    · exact .pure trivial

def Spelled (tail : List Tree) : Prop := ∀ t ∈ tail, ∃ s, t = .text s

theorem writeBelow_records (v : Value) (a : Address) {tail : List Tree} (h : Spelled tail) :
    Records Anything (writeBelow v a tail) := by
  induction tail generalizing a with
  | nil => exact .pure trivial
  | cons key rest ih =>
    obtain ⟨⟨s, rfl⟩, hrest⟩ := List.forall_mem_cons.mp h
    cases rest with
    | nil => exact (keyed_records s).bind fun k hk => stemSet_records a hk v
    | cons key' rest => exact (childStem_records a s).bind fun b _ => ih b hrest

theorem write_records (name : String) (v : Value) {tail : List Tree} (h : Spelled tail) :
    Records Anything (write name v tail) := by
  unfold write
  refine (Records.liftE _).bind fun key _ => ?_
  split
  · exact .scope _
  · refine Records.get.bind fun mem _ => ?_
    split
    · next a _ => exact writeBelow_records v a h
    · refine alloc_records.bind fun w _ => ?_
      split
      · next a _ => exact (Records.scope _).bind fun _ _ => writeBelow_records v a h
      · exact .pure trivial

theorem seed_records (bindings : List (String × Value)) : Records Anything (seed bindings) := by
  refine (Records.scope fun _ => []).bind fun _ _ => ?_
  induction bindings with
  | nil => exact .pure trivial
  | cons e rest ih =>
    refine Records.bind (Q := Anything) ?_ fun _ _ => ih
    exact (copy_records e.2).bind fun w _ => write_records e.1 w (by simp [Spelled])

end Memory

end Conductor
