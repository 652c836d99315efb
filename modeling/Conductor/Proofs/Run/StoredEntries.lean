import Conductor.Proofs.Memory.History
import Conductor.Proofs.Run.Meets
import Conductor.Run.Routine

/-!
# Stems in a run

What a program writes to a variable or to a tail of one, what it stores of an answer, what it
pushes onto a stem and what it gives to a routine are operations on the stems of the store. So
every entry that is stored by them is read; and as plain data a stem has every entry.

The exception is in what comes in: a dictionary may have keys of digits. Such an entry is kept,
and the stem lists its key, but to read the key leads to the row.
-/

set_option autoImplicit false

namespace Conductor

namespace Key

def spelled : Key → String
  | .index n => Nat.repr n
  | .name s => s

end Key

namespace Stem

variable {α β : Type}

theorem forall₂_entries {R : α → β → Prop} {s : Stem α} {items : List β} {named : List (String × β)}
    (hitems : List.Forall₂ R s.items items) (hnamed : List.Forall₂ (fun e e' => e'.1 = e.1 ∧ R e.2 e'.2) s.named named) :
    List.Forall₂ (fun e e' => e'.1 = e.1.spelled ∧ R e.2 e'.2) s.entries
      ((Tree.positionNames items.length).zip items ++ named) := by
  refine List.rel_append ?_ ?_
  · obtain ⟨hlength, hget⟩ := List.forall₂_iff_get.mp hitems
    rw [List.forall₂_map_left_iff, List.forall₂_iff_get]
    refine ⟨by simp [Tree.positionNames, hlength], fun i h h' => ?_⟩
    have hi : i < s.items.length := by simpa using h
    simpa [Tree.positionNames, Key.spelled] using hget i hi (hlength ▸ hi)
  · rw [List.forall₂_map_left_iff]
    exact hnamed

end Stem

/-- As plain data a stem of a sound store has all its entries: its items if it has no names, and else an entry for
every key that it lists. -/
theorem Store.Sound.plain_entries {store : Store} (h : store.Sound) {a : Address} {p : Value}
    (hp : store.plain (.stem a) = .ok p) :
    ((store.get a).named = [] ∧ ∃ ps, p = .list ps ∧
      List.Forall₂ (fun v p => store.unstem store.stems.size v = .ok p) (store.get a).items ps) ∨
    ∃ es : List (String × Value), p = .dict (es.map fun e => (.text e.1, e.2)) ∧
      List.Forall₂ (fun e e' => e'.1 = e.1.spelled ∧ store.unstem store.stems.size e.2 = .ok e'.2) (store.get a).entries es := by
  rw [plain, unstem] at hp
  obtain ⟨items, hitems, hp⟩ := bind_eq_ok_iff.mp hp
  obtain ⟨named, hnamed, hp⟩ := bind_eq_ok_iff.mp hp
  rw [traverse_eq_ok_iff] at hitems hnamed
  have hentries : List.Forall₂ (fun e e' => e'.1 = e.1 ∧ store.unstem store.stems.size e.2 = .ok e'.2) (store.get a).named
      named := by
    refine hnamed.imp fun e e' he => ?_
    cases hv : store.unstem store.stems.size e.2 with
    | error f =>
      rw [hv] at he
      cases he
    | ok w =>
      rw [hv] at he
      cases he
      exact ⟨rfl, rfl⟩
  have hkeys : Table.keys named = (store.get a).named.keys := Table.keys_of_forall₂ hentries
  have hsound : (⟨items, named⟩ : Stem Value).Sound := ⟨hkeys ▸ (h a).names, hkeys ▸ (h a).different⟩
  have hall := Stem.forall₂_entries hitems hentries
  cases hp
  split
  · next hempty =>
    obtain rfl := List.isEmpty_iff.mp hempty
    exact .inl ⟨List.forall₂_nil_right_iff.mp hentries, items, rfl, hitems⟩
  · split
    · next hempty =>
      obtain rfl := List.isEmpty_iff.mp hempty
      exact .inr ⟨named, rfl, hall⟩
    · exact .inr ⟨_, congrArg Value.dict (Store.mixed_sound hsound), hall⟩

namespace Play

variable {α β : Type}

/-- A computation that ends at once, in which the store goes through a history, with results of a kind. -/
def Records (Q : α → Prop) (x : Play α) : Prop :=
  ∀ m, match x m with
    | .done a m' => Q a ∧ m.world.store.History m'.world.store
    | .fail _ m' => m.world.store.History m'.world.store
    | .wait _ _ _ => False

namespace Records

variable {Q : α → Prop} {R : β → Prop}

theorem pure {a : α} (h : Q a) : Records Q (pure a) := fun _ => ⟨h, .refl⟩

theorem failure (f : Failure) : Records Q (Play.failure f) := fun _ => .refl

theorem bind {x : Play α} {k : α → Play β} (hx : Records Q x) (hk : ∀ a, Q a → Records R (k a)) : Records R (x >>= k) := by
  intro m
  have hm := hx m
  rw [Run.bind_apply]
  cases hr : x m with
  | wait w s resume =>
    rw [hr] at hm
    exact hm.elim
  | fail e m' =>
    rw [hr] at hm
    exact hm
  | done a m' =>
    rw [hr] at hm
    have hrest := hk a hm.1 m'
    simp only [Step.bind]
    cases hb : k a m' with
    | wait w s resume =>
      rw [hb] at hrest
      exact hrest.elim
    | fail e m'' =>
      rw [hb] at hrest
      exact hm.2.trans hrest
    | done b m'' =>
      rw [hb] at hrest
      exact ⟨hrest.1, hm.2.trans hrest.2⟩

theorem memory {act : Memory.Act α} (h : Memory.Records Q act) : Records Q (Play.memory act) := by
  intro m
  have hmem := h { scope := m.session.scope, store := m.world.store }
  simp only [Play.memory]
  cases hr : act { scope := m.session.scope, store := m.world.store } with
  | ok a mem =>
    rw [hr] at hmem
    exact hmem
  | error p mem =>
    rw [hr] at hmem
    exact hmem

theorem onSession (f : Session → Session) : Records Memory.Anything (Play.modifySession f) := fun _ => ⟨trivial, .refl⟩

theorem liftE (x : Except Failure α) : Records Memory.Anything (Play.liftE x) := by
  cases x with
  | ok a => exact .pure trivial
  | error f => exact .failure f

theorem mapM {f : α → Play β} (h : ∀ a, Records R (f a)) (l : List α) : Records (fun bs => ∀ b ∈ bs, R b) (l.mapM f) := by
  induction l with
  | nil =>
    rw [List.mapM_nil]
    exact .pure (by simp)
  | cons a rest ih =>
    rw [List.mapM_cons]
    exact (h a).bind fun b hb => ih.bind fun bs hbs => .pure (List.forall_mem_cons.mpr ⟨hb, hbs⟩)

end Records

/-! ## What programs do to stems -/

theorem tree_records (v : Value) : Records Memory.Anything (tree v) :=
  .memory (Memory.Records.get.bind fun _ _ => (Memory.Records.liftE _).mono fun _ _ => trivial)

theorem text_records (v : Value) : Records Memory.Anything (text v) :=
  (tree_records v).bind fun _ _ => .liftE _

theorem descend_records (v : Value) (tail : List Tree) : Memory.Records Memory.Anything (Memory.descend v tail) := by
  induction tail generalizing v with
  | nil => cases v <;> exact .pure trivial
  | cons key rest ih =>
    match v with
    | .scalar _ | .list _ | .dict _ => exact .pure trivial
    | .stem a => exact (Memory.Records.liftE _).bind fun k _ => (Memory.stemGet_records a k).bind fun w _ => ih w

theorem read_records (name : String) (tail : List Tree) : Memory.Records Memory.Anything (Memory.read name tail) :=
  (Memory.Records.liftE _).bind fun _ _ => Memory.Records.get.bind fun _ _ => descend_records _ tail

theorem segment_records (s : String) : Records (fun t => ∃ k, t = Tree.text k) (segment s) := by
  unfold segment
  split
  · exact .pure ⟨s, rfl⟩
  · refine Records.bind (.memory (read_records s [])) fun v _ => ?_
    split
    · exact .pure ⟨s, rfl⟩
    · exact (text_records v).bind fun k _ => .pure ⟨k, rfl⟩

theorem writeRef_records (r : Syntax.Ref) (v : Value) : Records Memory.Anything (writeRef r v) :=
  (Records.mapM segment_records r.tail).bind fun _ htail => .memory (Memory.write_records r.name v htail)

theorem storeResult_records (v : Value) : Records Memory.Anything (storeResult v) :=
  have hwrite (name : String) (v : Value) : Records Memory.Anything (write name v) :=
    .memory (Memory.write_records name v (by simp [Memory.Spelled]))
  (hwrite "RESULT" v).bind fun _ _ => hwrite "RC" (.int 0)

theorem enterRoutine_records (a : Arguments) : Records Memory.Anything (enterRoutine a) :=
  Records.bind (.memory (Memory.seed_records a.named)) fun _ _ =>
    (Records.mapM (fun v => .memory (Memory.copy_records v)) a.placed).bind fun _ _ => .onSession _

theorem normalize_records {v : Value} (hv : v.Named) : Records Memory.Anything (normalize v) :=
  .memory (Memory.normalize_records hv)

theorem arrayPush_records (g : Given) : Records Memory.Anything (arrayPush g) := by
  refine Records.bind (Q := Memory.Anything) ?_ fun a _ => ?_
  · unfold stem
    split
    · exact .pure trivial
    · exact (text_records _).bind fun _ _ _ => .refl
  · exact Records.bind (Q := Memory.Anything) (fun m => ⟨trivial, .single (.push m.world.store a g.rest)⟩) fun _ _ =>
      .pure trivial

end Play

/-- Every stored entry is read, in stores that begin with sound stems, an empty store for one, and in which dictionaries
that come in have names as keys: after any number of operations on stems, each key that a stem lists leads to the value
that is stored under it, and as plain data the stem has all its entries. What is written under a key is read under it at
once. The statements of a program and its built-in functions work on stems by these operations alone.

A dictionary that comes in keeps all its entries. Under a key that is a name the stem has what the entry becomes; under
a key of digits it has no entry at all. -/
theorem stored_entries_readable (store : Store) (counted : Nat → Value) :
    Store.Sound {} ∧
    (∀ (store' : Store) (a : Address), store.Sound → store.History store' →
      (store'.get a).Readable counted ∧ (store'.get a).entries.map Prod.fst = (store'.get a).keys ∧
      ∀ p, store'.plain (.stem a) = .ok p →
        ((store'.get a).named = [] ∧ ∃ ps, p = .list ps ∧
          List.Forall₂ (fun v p => store'.unstem store'.stems.size v = .ok p) (store'.get a).items ps) ∨
        ∃ es : List (String × Value), p = .dict (es.map fun e => (.text e.1, e.2)) ∧
          List.Forall₂ (fun e e' => e'.1 = e.1.spelled ∧ store'.unstem store'.stems.size e.2 = .ok e'.2)
            (store'.get a).entries es) ∧
    (∀ (s s' : Stem Value) (asCount : Value → Except Problem Nat) (key other : Key) (v : Value),
      key ≠ .index 0 → s.set (.text "") asCount key v = .ok s' → s'.get? counted key = some v ∧
        (other ≠ key → other ∈ s.keys → s'.get? counted other = s.get? counted other)) ∧
    ((∀ r v, Play.Records Memory.Anything (Play.writeRef r v)) ∧ (∀ v, Play.Records Memory.Anything (Play.storeResult v)) ∧
      (∀ a, Play.Records Memory.Anything (Play.enterRoutine a)) ∧ (∀ g, Play.Records Memory.Anything (Play.arrayPush g)) ∧
      ∀ v : Value, v.Named → Play.Records Memory.Anything (Play.normalize v)) ∧
    ∀ (named : List (String × Tree)) (s : Stem Tree) (counted : Nat → Tree), (Table.keys named).Nodup →
      (Tree.dict (Tree.textKeys named)).toStem = .ok s →
      s.named.keys = Table.keys named ∧ ∀ e ∈ named, ∃ t, e.2.normalize = .ok t ∧ s.named.get? e.1 = some t ∧
        (Key.isName e.1 = true → s.lookup counted (.text e.1) = .ok (some t)) ∧
        (Key.isName e.1 = false → s.lookup counted (.text e.1) = .ok none ∨
          s.lookup counted (.text e.1) = .ok (some (counted 0)) ∨ Fails (s.lookup counted (.text e.1))) := by
  refine ⟨.empty, ?_, ?_, ⟨?_, ?_, ?_, ?_, ?_⟩, ?_⟩
  · intro store' a h hh
    have hsound := h.history hh
    exact ⟨hsound.readable a counted, Stem.keys_entries _, fun p hp => hsound.plain_entries hp⟩
  · intro s s' asCount key other v hkey hs
    exact ⟨Stem.get?_set counted hkey hs, fun hne hother => Stem.get?_set_of_ne counted hkey hne hother hs⟩
  · exact Play.writeRef_records
  · exact Play.storeResult_records
  · exact Play.enterRoutine_records
  · exact Play.arrayPush_records
  · exact fun v hv => Play.normalize_records hv
  · intro named s counted hkeys hs
    refine ⟨Tree.keys_toStem_record hkeys hs, fun e he => ?_⟩
    obtain ⟨t, ht, hget⟩ := Tree.get?_toStem_record hkeys hs he
    refine ⟨t, ht, hget, fun hname => ?_, (Tree.lookup_toStem_record hkeys hs counted he).2⟩
    rw [Stem.lookup_name hname, hget]

/-- A new stem to which one entry is written, and a dictionary with a name and a digit as keys: the entry and the name
are read, and the digit leads to no entry. -/
theorem stored_entries_readable_mixed :
    (∃ store : Store, Store.History {} store ∧ (store.get 0).keys = [.name "k"] ∧ (store.get 0).Readable Value.ofNat) ∧
    ∃ s : Stem Tree, (Tree.dict (Tree.textKeys [("k", .text "a"), ("1", .text "b")])).toStem = .ok s ∧
      s.named.keys = ["k", "1"] ∧ s.lookup (fun n => .int n) (.text "k") = .ok (some (.text "a")) ∧
      s.lookup (fun n => .int n) (.text "1") = .ok none := by
  obtain ⟨hempty, hread, -, -, hdecoded⟩ := stored_entries_readable {} Value.ofNat
  constructor
  · have hnew : Store.Change {} (Store.alloc {} {}).2 := .new {}
    have hwrite : ((Store.alloc {} {}).2.get 0).set (.text "") (fun _ => .ok 0) (.name "k") (.text "a") =
        .ok ⟨[], [("k", .text "a")]⟩ := rfl
    have hset : Store.Change (Store.alloc {} {}).2 ((Store.alloc {} {}).2.set 0 ⟨[], [("k", .text "a")]⟩) :=
      .set (show (Key.name "k").Proper from (by decide : Key.isName "k" = true)) hwrite
    have hh : Store.History {} ((Store.alloc {} {}).2.set 0 ⟨[], [("k", .text "a")]⟩) :=
      (Relation.ReflTransGen.single hnew).tail hset
    exact ⟨_, hh, rfl, (hread _ 0 hempty hh).1⟩
  · have hs : (Tree.dict (Tree.textKeys [("k", .text "a"), ("1", .text "b")])).toStem =
        .ok ⟨[], [("k", .text "a"), ("1", .text "b")]⟩ := rfl
    obtain ⟨hkeys, hentries⟩ := hdecoded _ _ (fun n => .int n) (by simp [Table.keys]) hs
    obtain ⟨t, ht, -, hname, -⟩ := hentries ("k", .text "a") (by simp)
    obtain ⟨-, -, -, -, hdigits⟩ := hentries ("1", .text "b") (by simp)
    cases ht
    refine ⟨_, hs, hkeys, hname (by decide), ?_⟩
    rcases hdigits (by decide) with hnone | hcount | ⟨f, hf⟩
    · exact hnone
    · cases hcount
    · cases hf

end Conductor
