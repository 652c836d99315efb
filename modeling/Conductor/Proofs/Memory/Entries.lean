import Conductor.Proofs.Memory.Decoding
import Conductor.Stem
import Mathlib.Data.List.Nodup

/-!
# Entries that are read

A stem finds an entry by its key, and a key that is a text of digits leads to the row. So an
entry under a name is found exactly if the name is not such a text. A sound stem has only such
names, each of them once. Every entry of a sound stem is read under the key that the stem lists
for it, what is written under a key is read there, and as plain data the stem has all its entries.

Whatever changes a stem by a key keeps it sound. A stem that is made of a list is sound, and one
that is made of a dictionary if none of the keys is a text of digits.
-/

set_option autoImplicit false

namespace Conductor

/-! ## Keys -/

namespace Key

def listed : Key → Tree
  | .index n => .int n
  | .name s => .text s

/-- Whether a text is a name wherever it is a key: it is not made of digits. -/
def isName (s : String) : Bool := !(!s.isEmpty && s.toList.all Text.isDigit)

theorem ofText_of_isName {s : String} (h : isName s = true) : ofText s = .ok (.name s) := by
  rw [isName, Bool.not_eq_true'] at h
  rw [ofText, h]
  rfl

theorem ofText_of_digits {s : String} (h : isName s = false) :
    ofText s = (integerOfNumeral s s.toList).map fun n => .index n.toNat := by
  rw [isName, Bool.not_eq_false'] at h
  rw [ofText, if_pos h]

theorem ofText_eq_name_iff {s k : String} : ofText s = .ok (.name k) ↔ isName s = true ∧ s = k := by
  cases h : isName s with
  | true => simp [ofText_of_isName h]
  | false =>
    rw [ofText_of_digits h]
    cases integerOfNumeral s s.toList <;> simp [Except.map]

def Proper : Key → Prop
  | .index _ => True
  | .name s => isName s = true

theorem Proper.of_text {s : String} {k : Key} (h : ofText s = .ok k) : k.Proper := by
  cases k with
  | index n => trivial
  | name k =>
    obtain ⟨hname, rfl⟩ := ofText_eq_name_iff.mp h
    exact hname

end Key

namespace Stem

variable {α : Type}

/-! ## Sound stems -/

structure Sound (s : Stem α) : Prop where
  names : ∀ k ∈ s.named.keys, Key.isName k = true
  different : s.named.keys.Nodup

/-- The entries of a stem: the items, each at its place, then those under names. -/
def entries (s : Stem α) : List (Key × α) :=
  (s.items.zipIdx.map fun e => (.index (e.2 + 1), e.1)) ++ s.named.map fun e => (.name e.1, e.2)

theorem keys_entries (s : Stem α) : s.entries.map Prod.fst = s.keys := by
  have hplaces : (s.items.zipIdx.map fun e => Key.index (e.2 + 1)) = (List.range s.count).map fun i => Key.index (i + 1) := by
    rw [show (fun e : α × Nat => Key.index (e.2 + 1)) = (fun i => Key.index (i + 1)) ∘ Prod.snd from rfl, ← List.map_map,
      List.zipIdx_map_snd, ← List.range_eq_range', count]
  simp only [entries, keys, Table.keys, List.map_append, List.map_map, Function.comp_def, hplaces]

/-- What a stem has under a key that a program gives. -/
def lookup (counted : Nat → α) (s : Stem α) (key : Tree) : Except Failure (Option α) :=
  (Key.ofTree key).map (s.get? counted)

/-- Each key that a stem lists leads to the value that is stored under it. -/
def Readable (counted : Nat → α) (s : Stem α) : Prop := ∀ e ∈ s.entries, s.lookup counted e.1.listed = .ok (some e.2)

theorem lookup_name {counted : Nat → α} {s : Stem α} {k : String} (h : Key.isName k = true) :
    s.lookup counted (.text k) = .ok (s.named.get? k) := by
  rw [lookup, Key.ofTree, Key.ofText_of_isName h]
  rfl

/-- A key of digits never leads to an entry under a name. -/
theorem lookup_digits {counted : Nat → α} {named : List (String × α)} {k : String} (h : Key.isName k = false) :
    (⟨[], named⟩ : Stem α).lookup counted (.text k) = .ok none ∨
      (⟨[], named⟩ : Stem α).lookup counted (.text k) = .ok (some (counted 0)) ∨
      Fails ((⟨[], named⟩ : Stem α).lookup counted (.text k)) := by
  rw [lookup, Key.ofTree, Key.ofText_of_digits h]
  cases integerOfNumeral k k.toList with
  | error f => exact .inr (.inr ⟨f, rfl⟩)
  | ok n =>
    change Except.ok (get? counted _ (.index n.toNat)) = _ ∨ Except.ok (get? counted _ (.index n.toNat)) = _ ∨ _
    cases n.toNat with
    | zero => exact .inr (.inl rfl)
    | succ i => exact .inl rfl

theorem Sound.readable {s : Stem α} (h : s.Sound) (counted : Nat → α) : s.Readable counted := by
  intro e he
  rcases List.mem_append.mp he with he | he
  · obtain ⟨⟨v, i⟩, hi, rfl⟩ := List.mem_map.mp he
    exact congrArg Except.ok (List.mem_zipIdx_iff_getElem?.mp hi)
  · obtain ⟨e, hmem, rfl⟩ := List.mem_map.mp he
    exact (lookup_name (h.names e.1 (List.mem_map_of_mem hmem))).trans
      (congrArg Except.ok (Table.get?_of_mem h.different hmem))

/-! ## What keeps a stem sound -/

theorem Sound.of_named {s s' : Stem α} (h : s.Sound) (hnamed : s'.named = s.named) : s'.Sound :=
  ⟨hnamed ▸ h.names, hnamed ▸ h.different⟩

theorem sound_row (items : List α) : (⟨items, []⟩ : Stem α).Sound := ⟨by simp [Table.keys], by simp [Table.keys]⟩

theorem sound_record {named : List (String × α)} (h : ∀ k ∈ Table.keys named, Key.isName k = true) :
    (⟨[], Table.ofEntries named⟩ : Stem α).Sound := by
  refine ⟨fun k hk => ?_, Table.nodup_putAll (by simp [Table.keys]) named⟩
  rcases Table.mem_keys_putAll.mp hk with hk | hk
  · cases hk
  · exact h k hk

theorem resize_named {blank : α} {n : Nat} {s s' : Stem α} (h : resize blank n s = .ok s') : s'.named = s.named := by
  unfold resize at h
  split at h
  · cases h
    rfl
  · obtain ⟨_, -, heq⟩ := bind_eq_ok_iff.mp h
    cases heq
    rfl

theorem place_named {blank v : α} {i : Nat} {s s' : Stem α} (h : place blank i v s = .ok s') : s'.named = s.named := by
  unfold place at h
  split at h
  · cases h
    rfl
  · obtain ⟨_, -, heq⟩ := bind_eq_ok_iff.mp h
    cases heq
    rfl

theorem mapError_eq_ok {ε ε' β : Type} {f : ε → ε'} {x : Except ε β} {b : β} (h : x.mapError f = .ok b) : x = .ok b := by
  cases x with
  | error e => cases h
  | ok a =>
    cases h
    rfl

section

variable {s s' : Stem α} {blank v : α} {asCount : α → Except Problem Nat} {key : Key}

theorem Sound.set (h : s.Sound) (hkey : key.Proper) (hs : s.set blank asCount key v = .ok s') : s'.Sound := by
  match key with
  | .name k =>
    cases hs
    refine ⟨fun k' hk' => ?_, Table.nodup_put h.different k v⟩
    rcases Table.mem_keys_put.mp hk' with rfl | hk'
    · exact hkey
    · exact h.names k' hk'
  | .index 0 =>
    obtain ⟨n, -, hn⟩ := bind_eq_ok_iff.mp hs
    exact h.of_named (resize_named (mapError_eq_ok hn))
  | .index (i + 1) => exact h.of_named (place_named (mapError_eq_ok hs))

theorem Sound.delete (h : s.Sound) (key : Key) : (s.delete key).Sound := by
  match key with
  | .name k =>
    have hsub : (Table.erase k s.named).keys.Sublist s.named.keys := List.filter_sublist.map Prod.fst
    exact ⟨fun k' hk' => h.names k' (hsub.subset hk'), h.different.sublist hsub⟩
  | .index 0 => exact h.of_named rfl
  | .index (i + 1) => exact h.of_named rfl

theorem Sound.pushed (h : s.Sound) (vs : List α) : (vs.foldl (fun s v => s.append v) s).Sound := by
  induction vs generalizing s with
  | nil => exact h
  | cons v rest ih => exact ih (s := s.append v) (h.of_named rfl)

/-! ## Reading what was written -/

theorem getElem?_place {i : Nat} (h : place blank i v s = .ok s') : s'.items[i]? = some v := by
  unfold place at h
  split at h
  · next hi =>
    cases h
    exact List.getElem?_set_self hi
  · next hi =>
    obtain ⟨_, -, heq⟩ := bind_eq_ok_iff.mp h
    cases heq
    rw [count, Nat.not_lt] at hi
    rw [List.getElem?_append_right (by simp [count]; omega)]
    simp [count, Nat.add_sub_cancel' hi]

theorem get?_set (counted : Nat → α) (hkey : key ≠ .index 0) (hs : s.set blank asCount key v = .ok s') :
    s'.get? counted key = some v := by
  match key with
  | .name k =>
    cases hs
    exact Table.get?_put_self k v s.named
  | .index 0 => exact absurd rfl hkey
  | .index (i + 1) => exact getElem?_place (mapError_eq_ok hs)

theorem count_resize {n : Nat} (h : resize blank n s = .ok s') : s'.count = n := by
  unfold resize at h
  split at h
  · next hn =>
    cases h
    simpa [count] using Nat.min_eq_left (Nat.le_of_lt hn)
  · next hn =>
    obtain ⟨_, -, heq⟩ := bind_eq_ok_iff.mp h
    cases heq
    simp only [count] at hn
    simp only [count, List.length_append, List.length_replicate]
    omega

theorem get?_set_of_ne (counted : Nat → α) {other : Key} (hkey : key ≠ .index 0) (hne : other ≠ key)
    (hother : other ∈ s.keys) (hs : s.set blank asCount key v = .ok s') : s'.get? counted other = s.get? counted other := by
  match key, other with
  | .index 0, _ => exact absurd rfl hkey
  | .name k, .name k' =>
    cases hs
    exact Table.get?_put_of_ne (fun heq => hne (congrArg Key.name heq)) v s.named
  | .name k, .index i =>
    cases hs
    cases i <;> rfl
  | .index (i + 1), .name k' => exact congrArg (Table.get? k') (place_named (mapError_eq_ok hs))
  | .index (i + 1), .index 0 => simp [keys] at hother
  | .index (i + 1), .index (j + 1) =>
    have hj : j < s.count := by simpa [keys] using hother
    have hij : i ≠ j := fun heq => hne (by rw [heq])
    have hplace := mapError_eq_ok hs
    unfold place at hplace
    split at hplace
    · cases hplace
      exact List.getElem?_set_ne hij
    · obtain ⟨_, -, heq⟩ := bind_eq_ok_iff.mp hplace
      cases heq
      simp only [get?]
      rw [List.getElem?_append_left (by simp [count] at hj ⊢; omega), List.getElem?_append_left hj]

end

/-! ## All entries as plain data -/

theorem isName_position (n : Nat) : Key.isName (Nat.repr n) = false := by
  have hdigits : ∀ c ∈ (Nat.repr n).toList, Text.isDigit c = true := by
    intro c hc
    rw [Nat.toList_repr] at hc
    have hascii := Nat.isDigit_of_mem_toDigits (by decide) (by decide) hc
    have hsmall : c.toNat < 128 := by
      simp only [Char.isDigit, Bool.and_eq_true, decide_eq_true_eq] at hascii
      exact Nat.lt_of_le_of_lt (show c.toNat ≤ 57 from hascii.2) (by decide)
    rw [Text.isDigit, if_pos hsmall, hascii]
  have hfull : (Nat.repr n).isEmpty = false := by
    rw [← Bool.not_eq_true, String.isEmpty_iff]
    intro h
    have hnil := congrArg String.toList h
    rw [Nat.toList_repr] at hnil
    exact Nat.toDigits_ne_nil hnil
  rw [Key.isName, hfull, List.all_eq_true.mpr hdigits]
  rfl

theorem nodup_positionNames (n : Nat) : (Tree.positionNames n).Nodup := by
  refine List.Nodup.map (fun i j h => ?_) List.nodup_range
  have hdigits := congrArg String.toList h
  rw [Nat.toList_repr, Nat.toList_repr] at hdigits
  have hsame := congrArg (fun ds => Nat.ofDigitChars 10 ds 0) hdigits
  simpa [Nat.ofDigitChars_toDigits] using hsame

theorem Sound.putAll_positions {items : List α} {named : List (String × α)} (h : (⟨items, named⟩ : Stem α).Sound) :
    Table.putAll ((Tree.positionNames items.length).zip items) named =
      (Tree.positionNames items.length).zip items ++ named := by
  have hlength : (Tree.positionNames items.length).length = items.length := by simp [Tree.positionNames]
  have hkeys : Table.keys ((Tree.positionNames items.length).zip items ++ named) =
      Tree.positionNames items.length ++ Table.keys named := by
    simp only [Table.keys, List.map_append, List.map_fst_zip (Nat.le_of_eq hlength)]
  refine Table.putAll_of_nodup ?_
  rw [hkeys, List.nodup_append]
  refine ⟨nodup_positionNames _, h.different, fun p hp k hk heq => ?_⟩
  obtain ⟨i, -, rfl⟩ := List.mem_map.mp hp
  exact absurd (h.names k hk) (by rw [← heq, isName_position]; decide)

end Stem

theorem Store.mixed_sound {items : List Value} {named : List (String × Value)} (h : (⟨items, named⟩ : Stem Value).Sound) :
    mixed items named = ((Tree.positionNames items.length).zip items ++ named).map fun e => (.text e.1, e.2) := by
  rw [mixed, h.putAll_positions]

/-! ## Dictionaries from outside -/

namespace Tree

variable {named : List (String × Tree)} {s : Stem Tree}

theorem toStem_record (hkeys : (Table.keys named).Nodup) (hs : (Tree.dict (textKeys named)).toStem = .ok s) :
    s.items = [] ∧ List.Forall₂ (fun e e' => e'.1 = e.1 ∧ e.2.normalize = .ok e'.2) named s.named := by
  rw [toStem, bind_eq_ok_iff] at hs
  obtain ⟨rs, hrs, heq⟩ := hs
  rw [normalizeEntries_eq, traverse_eq_ok_iff, textKeys, List.forall₂_map_left_iff] at hrs
  have hall : List.Forall₂ (fun e e' => e'.1 = e.1 ∧ e.2.normalize = .ok e'.2) named rs := by
    refine hrs.imp fun e e' h => ?_
    obtain ⟨name, hname, hvalue⟩ := bind_eq_ok_iff.mp h
    cases hname
    obtain ⟨t, ht, heq⟩ := bind_eq_ok_iff.mp hvalue
    cases heq
    exact ⟨rfl, ht⟩
  have hnames : Table.keys rs = Table.keys named := Table.keys_of_forall₂ hall
  cases heq
  refine ⟨rfl, ?_⟩
  change List.Forall₂ _ named (Table.ofEntries rs)
  rw [Table.ofEntries_of_nodup (hnames ▸ hkeys)]
  exact hall

theorem keys_toStem_record (hkeys : (Table.keys named).Nodup) (hs : (Tree.dict (textKeys named)).toStem = .ok s) :
    s.named.keys = Table.keys named :=
  Table.keys_of_forall₂ (toStem_record hkeys hs).2

theorem get?_toStem_record (hkeys : (Table.keys named).Nodup) (hs : (Tree.dict (textKeys named)).toStem = .ok s)
    {e : String × Tree} (he : e ∈ named) : ∃ t, e.2.normalize = .ok t ∧ s.named.get? e.1 = some t := by
  obtain ⟨-, hall⟩ := toStem_record hkeys hs
  have hsame := keys_toStem_record hkeys hs
  obtain ⟨e', he', hname, ht⟩ : ∃ e' : String × Tree, e' ∈ s.named ∧ e'.1 = e.1 ∧ e.2.normalize = .ok e'.2 :=
    forall₂_mem_right hall.flip he
  exact ⟨e'.2, ht, hname ▸ Table.get?_of_mem (hsame ▸ hkeys) he'⟩

/-- An entry of a dictionary is read under its key if the key is a name; a key of digits leads to no entry. -/
theorem lookup_toStem_record (hkeys : (Table.keys named).Nodup) (hs : (Tree.dict (textKeys named)).toStem = .ok s)
    (counted : Nat → Tree) {e : String × Tree} (he : e ∈ named) :
    (Key.isName e.1 = true → ∃ t, e.2.normalize = .ok t ∧ s.lookup counted (.text e.1) = .ok (some t)) ∧
    (Key.isName e.1 = false → s.lookup counted (.text e.1) = .ok none ∨
      s.lookup counted (.text e.1) = .ok (some (counted 0)) ∨ Fails (s.lookup counted (.text e.1))) := by
  constructor
  · intro hname
    obtain ⟨t, ht, hget⟩ := get?_toStem_record hkeys hs he
    exact ⟨t, ht, by rw [Stem.lookup_name hname, hget]⟩
  · intro hdigits
    obtain ⟨items, names⟩ := s
    obtain rfl : items = [] := (toStem_record hkeys hs).1
    exact Stem.lookup_digits hdigits

end Tree

end Conductor
