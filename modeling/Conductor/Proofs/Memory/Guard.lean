import Conductor.Proofs.Memory.Tables
import Conductor.Proofs.Memory.Work
import Mathlib.Data.List.Basic
import Mathlib.Tactic.Common

/-!
# Guarded stems

A guard marks stems that have to stay as they are. They stay so as long as nobody else
gets hold of their addresses: a value is clear if it holds none of them, and a store is
intact if the guarded stems have their contents and all other stems are clear. Then
whatever is read from clear values is clear again, what is written is written elsewhere,
and a new stem gets an address that is not guarded. Copies of a guarded stem are clear,
provided that it holds no list or dictionary of the host with guarded stems inside: these
are not copied.

Whether data is clear is found by its type and by the operations that made it.
-/

set_option autoImplicit false

namespace Conductor

/-- What has to stay as it is: the stems at some addresses, and, if `trapped`, that every trap of a session
leads to a label. -/
structure Guard where
  guarded : Address → Prop
  content : Address → Stem Value
  trapped : Prop

/-! ## Clear data -/

namespace Value

theorem mem_addressesAll {b : Address} {vs : List Value} : b ∈ addressesAll vs ↔ ∃ v ∈ vs, b ∈ v.addresses := by
  induction vs with
  | nil => simp [addressesAll]
  | cons v rest ih => simp [addressesAll, ih]

theorem mem_addressesEntries {b : Address} {es : List (Value × Value)} :
    b ∈ addressesEntries es ↔ ∃ e ∈ es, b ∈ e.1.addresses ∨ b ∈ e.2.addresses := by
  induction es with
  | nil => simp [addressesEntries]
  | cons e rest ih => simp [addressesEntries, ih, or_assoc]

end Value

/-- What it takes for data of a type to be clear. -/
class Carrier (α : Type) where
  clear : Guard → α → Prop

/-- Data that holds no guarded address. -/
class Clear (G : Guard) {α : Type} [Carrier α] (a : α) : Prop where
  out : Carrier.clear G a

/-- A type whose data holds no addresses. -/
class Inert (α : Type) [Carrier α] : Prop where
  always : ∀ (G : Guard) (a : α), Carrier.clear G a

instance (priority := low) inertCarrier {α : Type} : Carrier α := ⟨fun _ _ => True⟩

instance (priority := low) {α : Type} : @Inert α inertCarrier := @Inert.mk α inertCarrier fun _ _ => trivial

instance {G : Guard} {α : Type} [Carrier α] [Inert α] (a : α) : Clear G a := ⟨Inert.always G a⟩

abbrev Clean (G : Guard) (α : Type) [Carrier α] := { a : α // Clear G a }

section

variable {G : Guard} {α β : Type}

instance [Carrier α] (a : Clean G α) : Clear G a.1 := a.2

instance : Carrier Value := ⟨fun G v => ∀ b ∈ v.addresses, ¬ G.guarded b⟩

instance [Carrier α] : Carrier (List α) := ⟨fun G l => ∀ a ∈ l, Carrier.clear G a⟩

instance [Carrier α] [h : Inert α] : Inert (List α) := ⟨fun G _ a _ => h.always G a⟩

instance [Carrier α] : Carrier (Array α) := ⟨fun G l => ∀ a ∈ l.toList, Carrier.clear G a⟩

instance [Carrier α] : Carrier (Option α) := ⟨fun G o => ∀ a ∈ o, Carrier.clear G a⟩

instance [Carrier α] [h : Inert α] : Inert (Option α) := ⟨fun G _ a _ => h.always G a⟩

instance [Carrier α] [Carrier β] : Carrier (α × β) := ⟨fun G p => Carrier.clear G p.1 ∧ Carrier.clear G p.2⟩

instance [Carrier α] [Carrier β] [h : Inert α] [h' : Inert β] : Inert (α × β) :=
  ⟨fun G p => ⟨h.always G p.1, h'.always G p.2⟩⟩

instance [Carrier α] [Carrier β] : Carrier (Except α β) where
  clear G
    | .ok b => Carrier.clear G b
    | .error a => Carrier.clear G a

instance [Carrier α] [Carrier β] [h : Inert α] [h' : Inert β] : Inert (Except α β) where
  always G x := by
    cases x with
    | ok b => exact h'.always G b
    | error a => exact h.always G a

instance [Carrier α] : Carrier (Stem α) := ⟨fun G s => Carrier.clear G s.items ∧ Carrier.clear G s.named⟩

/-! ### Values -/

theorem clear_stem {a : Address} : Carrier.clear G (Value.stem a) ↔ ¬ G.guarded a := by
  simp [Carrier.clear, Value.addresses]

theorem clear_list {vs : List Value} : Carrier.clear G (Value.list vs) ↔ Carrier.clear G vs := by
  simp only [Carrier.clear, Value.addresses, Value.mem_addressesAll]
  grind

theorem clear_dict {es : List (Value × Value)} : Carrier.clear G (Value.dict es) ↔ Carrier.clear G es := by
  simp only [Carrier.clear, Value.addresses, Value.mem_addressesEntries]
  constructor
  · exact fun h e he => ⟨fun b hb => h b ⟨e, he, Or.inl hb⟩, fun b hb => h b ⟨e, he, Or.inr hb⟩⟩
  · rintro h b ⟨e, he, hb | hb⟩
    · exact (h e he).1 b hb
    · exact (h e he).2 b hb

theorem Clear.free {a : Address} (h : Clear G (Value.stem a)) : ¬ G.guarded a := clear_stem.mp h.out

instance (s : Scalar) : Clear G (Value.scalar s) := ⟨by simp [Carrier.clear, Value.addresses]⟩

instance (vs : List Value) [h : Clear G vs] : Clear G (Value.list vs) := ⟨clear_list.mpr h.out⟩

instance (es : List (Value × Value)) [h : Clear G es] : Clear G (Value.dict es) := ⟨clear_dict.mpr h.out⟩

instance (b : Bool) : Clear G (Value.ofBool b) := inferInstanceAs (Clear G (Value.scalar _))

instance (n : Nat) : Clear G (Value.ofNat n) := inferInstanceAs (Clear G (Value.scalar _))

/-! ### Pairs, choices and rows -/

variable [Carrier α] [Carrier β]

instance (c : Prop) [Decidable c] (a b : α) [Clear G a] [Clear G b] : Clear G (if c then a else b) := by
  split <;> infer_instance

instance (a : α) (b : β) [ha : Clear G a] [hb : Clear G b] : Clear G (a, b) := ⟨⟨ha.out, hb.out⟩⟩

theorem clear_pair {a : α} {b : β} : Clear G (a, b) ↔ Clear G a ∧ Clear G b :=
  ⟨fun h => ⟨⟨h.out.1⟩, ⟨h.out.2⟩⟩, fun ⟨_, _⟩ => inferInstance⟩

instance (p : α × β) [h : Clear G p] : Clear G p.1 := ⟨h.out.1⟩

instance (p : α × β) [h : Clear G p] : Clear G p.2 := ⟨h.out.2⟩

instance : Clear G (none : Option α) := ⟨fun _ h => nomatch h⟩

instance (a : α) [h : Clear G a] : Clear G (some a) := ⟨fun _ hb => Option.mem_some.mp hb ▸ h.out⟩

theorem Clear.of_some {a : α} (h : Clear G (some a)) : Clear G a := ⟨h.out a rfl⟩

instance (o : Option α) (a : α) [h : Clear G o] [ha : Clear G a] : Clear G (o.getD a) := by
  cases o with
  | none => exact ha
  | some b => exact h.of_some

instance (o o' : Option α) [h : Clear G o] [Clear G o'] : Clear G (o <|> o') := by
  cases o with
  | none => simpa
  | some b => simpa

instance (o : Option α) (f : α → β) [h : Clear G o] [hf : ∀ a : Clean G α, Clear G (f a.1)] :
    Clear G (o.map f) := by
  cases o with
  | none => exact inferInstanceAs (Clear G none)
  | some a =>
    have := hf ⟨a, h.of_some⟩
    exact inferInstanceAs (Clear G (some (f a)))

theorem Clear.of_mem {l : List α} (h : Clear G l) {a : α} (ha : a ∈ l) : Clear G a := ⟨h.out a ha⟩

theorem Clear.of_forall {l : List α} (h : ∀ a ∈ l, Clear G a) : Clear G l := ⟨fun a ha => (h a ha).out⟩

theorem Clear.of_subset {l l' : List α} (h : Clear G l) (hl : l' ⊆ l) : Clear G l' :=
  .of_forall fun _ ha => h.of_mem (hl ha)

theorem clear_cons {a : α} {l : List α} : Clear G (a :: l) ↔ Clear G a ∧ Clear G l :=
  ⟨fun h => ⟨h.of_mem List.mem_cons_self, h.of_subset (List.subset_cons_self a l)⟩,
    fun h => .of_forall fun b hb => by
      obtain rfl | hb := List.mem_cons.mp hb
      · exact h.1
      · exact h.2.of_mem hb⟩

instance : Clear G ([] : List α) := .of_forall fun _ h => nomatch h

instance (a : α) (l : List α) [ha : Clear G a] [hl : Clear G l] : Clear G (a :: l) := clear_cons.mpr ⟨ha, hl⟩

instance (l l' : List α) [h : Clear G l] [h' : Clear G l'] : Clear G (l ++ l') :=
  .of_forall fun _ ha => (List.mem_append.mp ha).elim h.of_mem h'.of_mem

instance (l : List α) (p : α → Bool) [h : Clear G l] : Clear G (l.filter p) :=
  h.of_subset (List.filter_subset_self l)

instance (l : List α) (n : Nat) [h : Clear G l] : Clear G (l.take n) := h.of_subset (List.take_subset n l)

instance (l : List α) (n : Nat) [h : Clear G l] : Clear G (l.drop n) := h.of_subset (List.drop_subset n l)

instance (l : List α) (i : Nat) [h : Clear G l] : Clear G (l.eraseIdx i) := h.of_subset (List.eraseIdx_subset)

instance (n : Nat) (a : α) [h : Clear G a] : Clear G (List.replicate n a) :=
  .of_forall fun _ hb => List.eq_of_mem_replicate hb ▸ h

instance (l : List α) (i : Nat) (a : α) [h : Clear G l] [ha : Clear G a] : Clear G (l.set i a) :=
  .of_forall fun _ hb => (List.mem_or_eq_of_mem_set hb).elim h.of_mem fun he => he ▸ ha

instance (l : List α) (i : Nat) [h : Clear G l] : Clear G l[i]? :=
  ⟨fun _ ha => h.out _ (List.mem_of_getElem? ha)⟩

instance (l : Array α) (i : Nat) [h : Clear G l] : Clear G l[i]? :=
  ⟨fun _ ha => h.out _ (Array.mem_toList_iff.mpr (Array.mem_of_getElem? ha))⟩

instance (l : Array α) (a : α) [h : Clear G l] [ha : Clear G a] : Clear G (l.push a) := by
  refine ⟨fun b hb => ?_⟩
  obtain hb | rfl := Array.mem_push.mp (Array.mem_toList_iff.mp hb)
  · exact h.out b (Array.mem_toList_iff.mpr hb)
  · exact ha.out

instance (l : List α) [h : Clear G l] : Clear G l.head? := ⟨fun _ ha => h.out _ (List.mem_of_mem_head? ha)⟩

instance (l : List α) (p : α → Bool) [h : Clear G l] : Clear G (l.find? p) :=
  ⟨fun _ ha => h.out _ (List.mem_of_find?_eq_some ha)⟩

instance (l : List α) (f : α → β) [h : Clear G l] [hf : ∀ a : Clean G α, Clear G (f a.1)] : Clear G (l.map f) :=
  .of_forall fun _ hb => by
    obtain ⟨a, ha, rfl⟩ := List.mem_map.mp hb
    exact hf ⟨a, h.of_mem ha⟩

instance (l : List α) (f : α → Option β) [h : Clear G l] [hf : ∀ a : Clean G α, Clear G (f a.1)] :
    Clear G (l.filterMap f) :=
  .of_forall fun _ hb => by
    obtain ⟨a, ha, hfa⟩ := List.mem_filterMap.mp hb
    have := hf ⟨a, h.of_mem ha⟩
    rw [hfa] at this
    exact this.of_some

instance (l : List α) (f : α → Option β) [h : Clear G l] [hf : ∀ a : Clean G α, Clear G (f a.1)] :
    Clear G (l.findSome? f) := by
  refine ⟨fun b hb => ?_⟩
  obtain ⟨a, ha, hfa⟩ := List.exists_of_findSome?_eq_some hb
  exact (hf ⟨a, h.of_mem ha⟩).out b hfa

instance (l : List α) (l' : List β) [h : Clear G l] [h' : Clear G l'] : Clear G (l.zip l') :=
  .of_forall fun _ hp => ⟨h.out _ (List.of_mem_zip hp).1, h'.out _ (List.of_mem_zip hp).2⟩

theorem Clear.foldl {f : β → α → β} {l : List α} {b : β} (hl : Clear G l) (hb : Clear G b)
    (hf : ∀ b a, Clear G b → Clear G a → Clear G (f b a)) : Clear G (l.foldl f b) := by
  induction l generalizing b with
  | nil => exact hb
  | cons a l ih =>
    obtain ⟨ha, hl⟩ := clear_cons.mp hl
    exact ih hl (hf b a hb ha)

/-! ### Tables -/

section

variable {κ : Type} [Carrier κ] [Inert κ]

theorem clear_entry {k : κ} {a : α} : Clear G (k, a) ↔ Clear G a := ⟨fun h => ⟨h.out.2⟩, fun _ => inferInstance⟩

variable [BEq κ]

instance (key : κ) (t : Table κ α) [h : Clear G t] : Clear G (t.get? key) := by
  refine ⟨fun a ha => ?_⟩
  obtain ⟨k, hk⟩ := Table.mem_of_get? ha
  exact (clear_entry.mp (h.of_mem hk)).out

theorem Clear.put {t : List (κ × α)} (h : Clear G t) (key : κ) (a : α) [Clear G a] :
    Clear G (Table.put key a t) := by
  induction t with
  | nil => exact inferInstanceAs (Clear G [(key, a)])
  | cons e rest ih =>
    obtain ⟨he, hr⟩ := clear_cons.mp h
    have := ih hr
    simp only [Table.put]
    infer_instance

instance (key : κ) (a : α) (t : Table κ α) [h : Clear G t] [Clear G a] : Clear G (t.put key a) := h.put key a

instance (key : κ) (t : Table κ α) [h : Clear G t] : Clear G (t.erase key) := by
  unfold Table.erase
  infer_instance

instance (t u : Table κ α) [ht : Clear G t] [hu : Clear G u] : Clear G (t.putAll u) := by
  unfold Table.putAll
  exact .foldl hu ht fun b a _ _ => inferInstance

instance (entries : List (κ × α)) [Clear G entries] : Clear G (Table.ofEntries entries) := by
  unfold Table.ofEntries
  infer_instance

instance (t : Table κ α) [h : Clear G t] : Clear G t.values := by
  unfold Table.values
  infer_instance

end

/-! ### Results -/

instance {ε : Type} [Carrier ε] (a : α) [h : Clear G a] : Clear G (Except.ok a : Except ε α) := ⟨h.out⟩

instance {ε : Type} [Carrier ε] (e : ε) [h : Clear G e] : Clear G (Except.error e : Except ε α) := ⟨h.out⟩

theorem Clear.of_ok {ε : Type} [Carrier ε] {a : α} (h : Clear G (Except.ok a : Except ε α)) : Clear G a := ⟨h.out⟩

theorem Clear.traverse {ε : Type} [Carrier ε] [Inert ε] {f : α → Except ε β} {l : List α} (h : Clear G l)
    (hf : ∀ a, Clear G a → Clear G (f a)) : Clear G (traverse f l) := by
  fun_induction Conductor.traverse f l with
  | case1 => infer_instance
  | case2 a rest e hfa => infer_instance
  | case3 a rest b hfa e hrest ih => infer_instance
  | case4 a rest b hfa bs hrest ih =>
    obtain ⟨ha, hr⟩ := clear_cons.mp h
    have hb := hf a ha
    rw [hfa] at hb
    have hbs := ih hr
    rw [hrest] at hbs
    have := hb.of_ok
    have := hbs.of_ok
    infer_instance

/-! ### Stems -/

instance (items : List α) (named : Table String α) [hi : Clear G items] [hn : Clear G named] :
    Clear G (Stem.mk items named) := ⟨⟨hi.out, hn.out⟩⟩

instance (s : Stem α) [h : Clear G s] : Clear G s.items := ⟨h.out.1⟩

instance (s : Stem α) [h : Clear G s] : Clear G s.named := ⟨h.out.2⟩

instance (counted : Nat → α) (s : Stem α) (key : Key) [Clear G s] [∀ n, Clear G (counted n)] :
    Clear G (s.get? counted key) := by
  unfold Stem.get?
  split <;> infer_instance

instance (s : Stem α) (key : Key) [Clear G s] : Clear G (s.delete key) := by
  unfold Stem.delete
  split <;> infer_instance

instance (s : Stem α) (a : α) [Clear G s] [Clear G a] : Clear G (s.append a) := by
  unfold Stem.append
  infer_instance

instance (blank : α) (n : Nat) (s : Stem α) [Clear G s] [Clear G blank] : Clear G (s.resize blank n) := by
  unfold Stem.resize
  split
  · infer_instance
  · cases Stem.checkGrowth (n - s.count) with
    | error e => exact inferInstanceAs (Clear G (Except.error e : Except Failure (Stem α)))
    | ok u => exact inferInstanceAs (Clear G (Except.ok { s with items := _ } : Except Failure (Stem α)))

instance (blank : α) (i : Nat) (a : α) (s : Stem α) [Clear G s] [Clear G blank] [Clear G a] :
    Clear G (s.place blank i a) := by
  unfold Stem.place
  split
  · infer_instance
  · cases Stem.checkGrowth (i - s.count) with
    | error e => exact inferInstanceAs (Clear G (Except.error e : Except Failure (Stem α)))
    | ok u => exact inferInstanceAs (Clear G (Except.ok { s with items := _ } : Except Failure (Stem α)))

end

end Conductor
