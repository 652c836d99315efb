import Conductor.Memory
import Conductor.Proofs.Memory.Entries

/-!
# Stems as rows

What the operations on a stem do to its row, place by place. A value written at a place stands
there, in a row that is as long as before or ends with it; a gap before it is filled with blanks
and nothing else changes. A count that is written cuts the row or fills it up. What is taken out
moves all that follows one place down. Names beside the row stay.

A gap of `Stem.room` places or more is refused, and a refused write leaves the stem as it was.
-/

set_option autoImplicit false

namespace Conductor

theorem Fails.mapError {ε ε' β : Type} {x : Except ε β} (h : Fails x) (f : ε → ε') : Fails (x.mapError f) := by
  obtain ⟨e, rfl⟩ := h
  exact ⟨f e, rfl⟩

namespace Stem

variable {α : Type} {blank v : α} {s s' : Stem α} {i n : Nat}

def room : Nat := Nat.pow 2 32

def item? (s : Stem α) : Nat → Option α
  | 0 => none
  | j + 1 => s.items[j]?

theorem get?_place (counted : Nat → α) (hi : 1 ≤ i) : s.get? counted (.index i) = s.item? i := by
  obtain ⟨j, rfl⟩ := Nat.exists_eq_add_of_le' hi
  rfl

theorem item?_eq_none (h : s.count < i) : s.item? i = none := by
  cases i with
  | zero => rfl
  | succ j => exact List.getElem?_eq_none (Nat.lt_succ_iff.mp h)

theorem exists_item? (hi : 1 ≤ i) (h : i ≤ s.count) : ∃ v ∈ s.items, s.item? i = some v := by
  obtain ⟨j, rfl⟩ := Nat.exists_eq_add_of_le' hi
  exact ⟨s.items[j], List.getElem_mem h, List.getElem?_eq_getElem h⟩

/-! ## The three changes of a row -/

structure Placed (blank v : α) (i : Nat) (s s' : Stem α) : Prop where
  value : s'.item? i = some v
  count : s'.count = max s.count i
  filled : ∀ j, s.count < j → j < i → s'.item? j = some blank
  others : ∀ j, j ≠ i → ¬ (s.count < j ∧ j < i) → s'.item? j = s.item? j
  named : s'.named = s.named

structure Resized (blank : α) (n : Nat) (s s' : Stem α) : Prop where
  count : s'.count = n
  kept : ∀ j, j ≤ min n s.count → s'.item? j = s.item? j
  padded : ∀ j, s.count < j → j ≤ n → s'.item? j = some blank
  named : s'.named = s.named

structure Removed (i : Nat) (s s' : Stem α) : Prop where
  count : s'.count = if i ≤ s.count then s.count - 1 else s.count
  earlier : ∀ j < i, s'.item? j = s.item? j
  later : ∀ j, i ≤ j → s'.item? j = s.item? (j + 1)
  named : s'.named = s.named

theorem checkGrowth_ok_iff {gap : Nat} : checkGrowth gap = .ok () ↔ gap < room := by
  have h32 : Nat.pow 2 32 = 4294967296 := by decide
  have h63 : Nat.pow 2 63 = 9223372036854775808 := by decide
  have hroom : room = 4294967296 := by decide
  unfold checkGrowth
  rw [h32, h63, hroom]
  split
  · simp
    omega
  · split <;> simp <;> omega

theorem checkGrowth_room {gap : Nat} (h : room ≤ gap) : Fails (checkGrowth gap) := by
  cases hgrowth : checkGrowth gap with
  | error f => exact ⟨f, rfl⟩
  | ok _ => exact absurd (checkGrowth_ok_iff.mp hgrowth) (Nat.not_lt.mpr h)

theorem getElem?_filled {items : List α} (hi : items.length ≤ i) (j : Nat) :
    (items ++ List.replicate (i - items.length) blank ++ [v])[j]? =
      if j < items.length then items[j]? else if j < i then some blank else if j = i then some v else none := by
  simp only [List.getElem?_append, List.getElem?_replicate, List.length_append, List.length_replicate]
  grind

theorem place_placed (h : place blank i v s = .ok s') : Placed blank v (i + 1) s s' := by
  unfold place at h
  split at h
  · next hi =>
    cases h
    refine ⟨List.getElem?_set_self hi, ?_, fun j hj hji => by omega, fun j hj _ => ?_, rfl⟩
    · simpa [count] using (Nat.max_eq_left (Nat.succ_le_of_lt hi)).symm
    · cases j with
      | zero => rfl
      | succ j => exact List.getElem?_set_ne (Ne.symm fun heq => hj (congrArg (· + 1) heq))
  · next hi =>
    obtain ⟨_, -, heq⟩ := bind_eq_ok_iff.mp h
    cases heq
    simp only [count, Nat.not_lt] at hi
    refine ⟨?_, ?_, fun j hj hji => ?_, fun j hj hgap => ?_, rfl⟩
    · exact (getElem?_filled hi i).trans (by simp [Nat.not_lt.mpr hi])
    · simp only [count, List.length_append, List.length_replicate, List.length_singleton]
      omega
    · cases j with
      | zero => exact absurd hj (Nat.not_lt_zero _)
      | succ j =>
        have hbehind : ¬ j < s.items.length := Nat.not_lt.mpr (Nat.lt_succ_iff.mp hj)
        exact (getElem?_filled hi j).trans (by simp [hbehind, Nat.lt_of_succ_lt_succ hji])
    · cases j with
      | zero => rfl
      | succ j =>
        simp only [count] at hgap
        refine (getElem?_filled hi j).trans ?_
        by_cases hold : j < s.items.length
        · exact if_pos hold
        · rw [if_neg hold, if_neg (by omega), if_neg (by omega)]
          exact (List.getElem?_eq_none (Nat.not_lt.mp hold)).symm

theorem resize_resized (h : resize blank n s = .ok s') : Resized blank n s s' := by
  refine ⟨count_resize h, ?_, ?_, resize_named h⟩
  all_goals
    unfold resize at h
    split at h
  · cases h
    intro j hj
    cases j with
    | zero => rfl
    | succ j => exact List.getElem?_take_of_lt (Nat.lt_of_lt_of_le (Nat.lt_of_succ_le hj) (Nat.min_le_left _ _))
  · obtain ⟨_, -, heq⟩ := bind_eq_ok_iff.mp h
    cases heq
    intro j hj
    cases j with
    | zero => rfl
    | succ j => exact List.getElem?_append_left (Nat.lt_of_lt_of_le (Nat.lt_of_succ_le hj) (Nat.min_le_right _ _))
  · next hn => exact fun j hj hjn => by omega
  · obtain ⟨_, -, heq⟩ := bind_eq_ok_iff.mp h
    cases heq
    intro j hj hjn
    cases j with
    | zero => exact absurd hj (Nat.not_lt_zero _)
    | succ j =>
      simp only [count] at hj
      rw [item?, List.getElem?_append_right (Nat.lt_succ_iff.mp hj), List.getElem?_replicate, count]
      exact if_pos (by omega)

theorem delete_removed (hi : 1 ≤ i) : Removed i s (s.delete (.index i)) := by
  obtain ⟨k, rfl⟩ := Nat.exists_eq_add_of_le' hi
  refine ⟨?_, fun j hj => ?_, fun j hj => ?_, rfl⟩
  · simp only [delete, count, List.length_eraseIdx]
    exact if_congr Nat.succ_le_iff.symm rfl rfl
  · cases j with
    | zero => rfl
    | succ j => exact List.getElem?_eraseIdx_of_lt (Nat.lt_of_succ_lt_succ hj)
  · cases j with
    | zero => exact absurd hj (Nat.not_succ_le_zero k)
    | succ j => exact List.getElem?_eraseIdx_of_ge (Nat.le_of_succ_le_succ hj)

/-! ## When a write is refused -/

theorem place_ok (blank v : α) (h : i < s.count + room) : ∃ s', place blank i v s = .ok s' := by
  unfold place
  split
  · exact ⟨_, rfl⟩
  · rw [checkGrowth_ok_iff.mpr (by omega)]
    exact ⟨_, rfl⟩

theorem place_fails (h : s.count + room ≤ i) : Fails (place blank i v s) := by
  unfold place
  rw [if_neg (by omega)]
  exact (Fails.then_pure _).mpr (checkGrowth_room (by omega))

theorem resize_ok (blank : α) (h : n < s.count + room) : ∃ s', resize blank n s = .ok s' := by
  unfold resize
  split
  · exact ⟨_, rfl⟩
  · rw [checkGrowth_ok_iff.mpr (by omega)]
    exact ⟨_, rfl⟩

theorem resize_fails (h : s.count + room ≤ n) : Fails (resize blank n s) := by
  unfold resize
  rw [if_neg (by omega)]
  exact (Fails.then_pure _).mpr (checkGrowth_room (by omega))

end Stem

/-! ## Keys as programs spell them -/

def Store.countOf (store : Store) (v : Value) : Except Problem Nat := do (← (store.tree v).mapError .failure).asCount

namespace Memory

theorem stemSet_apply (a : Address) (key : Key) (v : Value) (mem : Memory) : stemSet a key v mem =
    match (mem.store.get a).set (.text "") mem.store.countOf key v with
    | .ok s => .ok () { mem with store := mem.store.set a s }
    | .error p => .error p mem := by
  change EStateM.bind (liftP ((mem.store.get a).set (.text "") mem.store.countOf key v)) _ mem = _
  cases (mem.store.get a).set (.text "") mem.store.countOf key v <;> rfl

theorem keyed_apply (key : Tree) (mem : Memory) : keyed key mem =
    match Key.ofTree key with
    | .ok k => .ok k mem
    | .error f => .error (.failure f) mem := by
  unfold keyed
  cases Key.ofTree key <;> rfl

end Memory

namespace Stem

variable {s s' : Stem Value} {store : Store} {key : Tree} {v : Value} {i n : Nat}

def write (store : Store) (key : Tree) (v : Value) (s : Stem Value) : Except Problem (Stem Value) := do
  s.set (.text "") store.countOf (← (Key.ofTree key).mapError .failure) v

def remove (key : Tree) (s : Stem Value) : Except Failure (Stem Value) := (Key.ofTree key).map s.delete

theorem write_keyed {k : Key} (hkey : Key.ofTree key = .ok k) : s.write store key v = s.set (.text "") store.countOf k v := by
  rw [write, hkey]
  rfl

theorem remove_keyed {k : Key} (hkey : Key.ofTree key = .ok k) : s.remove key = .ok (s.delete k) := by
  rw [remove, hkey]
  rfl

theorem lookup_keyed {k : Key} (hkey : Key.ofTree key = .ok k) : s.lookup .ofNat key = .ok (s.get? .ofNat k) := by
  rw [lookup, hkey]
  rfl

theorem set_place (hi : 1 ≤ i) (h : i ≤ s.count + room) :
    ∃ s', s.set (.text "") store.countOf (.index i) v = .ok s' ∧ Placed (.text "") v i s s' := by
  obtain ⟨j, rfl⟩ := Nat.exists_eq_add_of_le' hi
  obtain ⟨s', hs⟩ := place_ok (.text "") v (Nat.lt_of_succ_le h)
  exact ⟨s', congrArg (·.mapError Problem.failure) hs, place_placed hs⟩

theorem set_place_fails (h : s.count + room < i) : Fails (s.set (.text "") store.countOf (.index i) v) := by
  cases i with
  | zero => exact absurd h (Nat.not_lt_zero _)
  | succ j => exact Fails.mapError (place_fails (Nat.lt_succ_iff.mp h)) _

theorem set_count (hv : store.countOf v = .ok n) :
    s.set (.text "") store.countOf (.index 0) v = (resize (.text "") n s).mapError .failure := by
  rw [set, hv]
  rfl

/-! ## Histories of a stem -/

/-- A stem that is made of the empty one by writing, counts included, by deletion and by appending. -/
inductive Reached : Stem Value → Prop
  | empty : Reached {}
  | write (store : Store) (key : Tree) {v : Value} {s s' : Stem Value} :
      Reached s → v.isUnbound = false → s.write store key v = .ok s' → Reached s'
  | remove (key : Tree) {s s' : Stem Value} : Reached s → s.remove key = .ok s' → Reached s'
  | append {v : Value} {s : Stem Value} : Reached s → v.isUnbound = false → Reached (s.append v)

def Filled (s : Stem Value) : Prop := ∀ v ∈ s.items, v.isUnbound = false

theorem Filled.place (h : s.Filled) (hv : v.isUnbound = false) (hs : place (.text "") i v s = .ok s') : s'.Filled := by
  unfold Stem.place at hs
  split at hs
  · cases hs
    exact fun w hw => (List.mem_or_eq_of_mem_set hw).elim (h w) fun heq => heq ▸ hv
  · obtain ⟨_, -, heq⟩ := bind_eq_ok_iff.mp hs
    cases heq
    intro w hw
    rcases List.mem_append.mp hw with hw | hw
    · rcases List.mem_append.mp hw with hw | hw
      · exact h w hw
      · rw [List.eq_of_mem_replicate hw]
        rfl
    · rw [List.mem_singleton.mp hw, hv]

theorem Filled.resize (h : s.Filled) (hs : resize (.text "") n s = .ok s') : s'.Filled := by
  unfold Stem.resize at hs
  split at hs
  · cases hs
    exact fun w hw => h w (List.mem_of_mem_take hw)
  · obtain ⟨_, -, heq⟩ := bind_eq_ok_iff.mp hs
    cases heq
    intro w hw
    rcases List.mem_append.mp hw with hw | hw
    · exact h w hw
    · rw [List.eq_of_mem_replicate hw]
      rfl

theorem Filled.write (h : s.Filled) (hv : v.isUnbound = false) (hs : s.write store key v = .ok s') : s'.Filled := by
  obtain ⟨k, -, hset⟩ := bind_eq_ok_iff.mp hs
  match k with
  | .name k =>
    cases hset
    exact h
  | .index 0 =>
    obtain ⟨n, -, hn⟩ := bind_eq_ok_iff.mp hset
    exact h.resize (mapError_eq_ok hn)
  | .index (j + 1) => exact h.place hv (mapError_eq_ok hset)

theorem Filled.delete (h : s.Filled) (k : Key) : (s.delete k).Filled := by
  match k with
  | .name _ => exact h
  | .index 0 => exact fun _ hw => absurd hw List.not_mem_nil
  | .index (j + 1) => exact fun w hw => h w (List.mem_of_mem_eraseIdx hw)

theorem Reached.filled (h : s.Reached) : s.Filled := by
  induction h with
  | empty => exact fun _ hw => absurd hw List.not_mem_nil
  | write _ _ _ hv hs ih => exact ih.write hv hs
  | remove key _ hs ih =>
    cases hkey : Key.ofTree key with
    | error f =>
      rw [Stem.remove, hkey] at hs
      cases hs
    | ok k =>
      rw [remove_keyed hkey] at hs
      cases hs
      exact ih.delete k
  | append _ hv ih =>
    intro w hw
    rcases List.mem_append.mp hw with hw | hw
    · exact ih w hw
    · rw [List.mem_singleton.mp hw, hv]

/-- The laws of a row, whatever the spelling of the keys. -/
structure RowLaws (s : Stem Value) : Prop where
  /-- Index zero is the number of items. -/
  counted : ∀ key, Key.ofTree key = .ok (.index 0) → s.lookup .ofNat key = .ok (some (.ofNat s.items.length))
  /-- The other indices lead to a value up to that number. -/
  bound : ∀ key i, Key.ofTree key = .ok (.index i) → 1 ≤ i →
    ((∃ v, s.lookup .ofNat key = .ok (some v) ∧ v.isUnbound = false) ↔ i ≤ s.items.length)
  /-- A value is written at a place unless the gap before it is too large. -/
  placed : ∀ store key i v, Key.ofTree key = .ok (.index i) → 1 ≤ i →
    (i ≤ s.count + room → ∃ s', s.write store key v = .ok s' ∧ Placed (.text "") v i s s') ∧
      (s.count + room < i → Fails (s.write store key v))
  /-- A count is written unless it is too large. -/
  resized : ∀ store key v n, Key.ofTree key = .ok (.index 0) → store.countOf v = .ok n →
    (n < s.count + room → ∃ s', s.write store key v = .ok s' ∧ Resized (.text "") n s s') ∧
      (s.count + room ≤ n → Fails (s.write store key v))
  /-- What is deleted makes room for what follows. -/
  removed : ∀ key i, Key.ofTree key = .ok (.index i) → 1 ≤ i → ∃ s', s.remove key = .ok s' ∧ Removed i s s'
  /-- A refused write leaves the memory, and so this stem, as it was. -/
  refused : ∀ mem mem' a key v p, mem.store.get a = s →
    (do Memory.stemSet a (← Memory.keyed key) v : Memory.Act Unit) mem = .error p mem' → Fails (s.write mem.store key v) ∧ mem' = mem

theorem write_refused {mem mem' : Memory} {a : Address} {p : Problem}
    (h : (do Memory.stemSet a (← Memory.keyed key) v : Memory.Act Unit) mem = .error p mem') :
    Fails ((mem.store.get a).write mem.store key v) ∧ mem' = mem := by
  change EStateM.bind (Memory.keyed key) (fun k => Memory.stemSet a k v) mem = _ at h
  rw [EStateM.bind, Memory.keyed_apply] at h
  rw [Stem.write]
  cases hkey : Key.ofTree key with
  | error f =>
    rw [hkey] at h
    cases h
    exact ⟨⟨_, rfl⟩, rfl⟩
  | ok k =>
    rw [hkey] at h
    simp only [Memory.stemSet_apply] at h
    cases hs : (mem.store.get a).set (.text "") mem.store.countOf k v with
    | ok s' => simp [hs] at h
    | error q =>
      simp only [hs] at h
      cases h
      exact ⟨⟨p, hs⟩, rfl⟩

/-- Every stem that operations make of the empty one follows the laws of a row. -/
theorem reached_follows_row_laws (h : s.Reached) : s.RowLaws where
  counted key hkey := lookup_keyed hkey
  bound key i hkey hi := by
    rw [lookup_keyed hkey, get?_place _ hi]
    constructor
    · rintro ⟨v, hv, -⟩
      by_contra hbehind
      rw [item?_eq_none (Nat.not_le.mp hbehind)] at hv
      cases hv
    · intro hle
      obtain ⟨v, hmem, hv⟩ := exists_item? hi hle
      exact ⟨v, by rw [hv], h.filled v hmem⟩
  placed store key i v hkey hi := by
    rw [write_keyed hkey]
    exact ⟨set_place hi, set_place_fails⟩
  resized store key v n hkey hv := by
    rw [write_keyed hkey, set_count hv]
    refine ⟨fun hn => ?_, fun hn => Fails.mapError (resize_fails hn) _⟩
    obtain ⟨s', hs⟩ := resize_ok (.text "") hn
    exact ⟨s', congrArg (·.mapError Problem.failure) hs, resize_resized hs⟩
  removed key i hkey hi := ⟨_, remove_keyed hkey, delete_removed hi⟩
  refused mem mem' a key v p hs hrefused := hs ▸ write_refused hrefused

/-- A gap was filled, an entry was made, an item was taken out of the gap and one was appended. -/
theorem reached_follows_row_laws_gapped :
    Reached ⟨[.text "", .text "c", .text "d"], [("name", .text "x")]⟩ ∧
      RowLaws ⟨[.text "", .text "c", .text "d"], [("name", .text "x")]⟩ := by
  have hgap : Reached ⟨[.text "", .text "", .text "c"], []⟩ := .write {} (.text "03") .empty rfl rfl
  have hname : Reached ⟨[.text "", .text "", .text "c"], [("name", .text "x")]⟩ :=
    .write {} (.text "name") hgap rfl rfl
  have hshort : Reached ⟨[.text "", .text "c"], [("name", .text "x")]⟩ := .remove (.int 2) hname rfl
  have h : Reached ⟨[.text "", .text "c", .text "d"], [("name", .text "x")]⟩ := .append hshort rfl
  exact ⟨h, reached_follows_row_laws h⟩

/-- No row is long enough for every index. -/
theorem far_index_refused : Reached {} ∧ Key.ofTree (.text "9223372036854775809") = .ok (.index 9223372036854775809) ∧
    ∀ store s', ({} : Stem Value).write store (.text "9223372036854775809") (.text "v") ≠ .ok s' := by
  have hkey : Key.ofTree (.text "9223372036854775809") = .ok (.index 9223372036854775809) := rfl
  refine ⟨.empty, hkey, fun store s' hs => ?_⟩
  obtain ⟨p, hp⟩ : Fails (({} : Stem Value).set (.text "") store.countOf (.index 9223372036854775809) (.text "v")) :=
    set_place_fails (by decide)
  rw [write_keyed hkey, hp] at hs
  cases hs

end Stem

end Conductor
