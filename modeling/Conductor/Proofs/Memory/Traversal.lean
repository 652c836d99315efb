import Conductor.Tree.Plain
import Mathlib.Data.List.Forall2

/-!
# Results and failures

A computation over the elements of a list gives a result if each of its steps does, and it
fails if one of them fails.
-/

set_option autoImplicit false

namespace Conductor

theorem traverse_eq_ok_iff {α β ε : Type} {f : α → Except ε β} {xs : List α} {ys : List β} :
    traverse f xs = .ok ys ↔ List.Forall₂ (fun x y => f x = .ok y) xs ys := by
  induction xs generalizing ys with
  | nil => simp [traverse, eq_comm]
  | cons x rest ih =>
    cases hx : f x with
    | error e => simp [traverse, hx, List.forall₂_cons_left_iff]
    | ok y =>
      cases hrest : traverse f rest with
      | error e => simp [traverse, hx, hrest, List.forall₂_cons_left_iff, ← ih]
      | ok zs => simp [traverse, hx, hrest, List.forall₂_cons_left_iff, ← ih, eq_comm]

theorem ok_bind {α β ε : Type} (a : α) (f : α → Except ε β) : ((.ok a : Except ε α) >>= f) = f a := rfl

theorem bind_eq_ok_iff {α β ε : Type} {x : Except ε α} {f : α → Except ε β} {b : β} :
    (x >>= f) = .ok b ↔ ∃ a, x = .ok a ∧ f a = .ok b := by
  cases x <;> simp [bind, Except.bind]

theorem map_eq_ok_iff {α β ε : Type} {x : Except ε α} {f : α → β} {b : β} : x.map f = .ok b ↔ ∃ a, x = .ok a ∧ f a = b := by
  cases x <;> simp [Except.map]

theorem exists_forall₂_iff {α β : Type} {R : α → β → Prop} {xs : List α} :
    (∃ ys, List.Forall₂ R xs ys) ↔ ∀ x ∈ xs, ∃ y, R x y := by
  induction xs with
  | nil => simp
  | cons x rest ih =>
    simp only [List.forall₂_cons_left_iff, List.mem_cons, forall_eq_or_imp, ← ih]
    constructor
    · rintro ⟨ys, y, zs, hy, hzs, -⟩
      exact ⟨⟨y, hy⟩, zs, hzs⟩
    · rintro ⟨⟨y, hy⟩, zs, hzs⟩
      exact ⟨y :: zs, y, zs, hy, hzs, rfl⟩

theorem forall₂_congr_iff {α β : Type} {R S : α → β → Prop} (h : ∀ x y, R x y ↔ S x y) (xs : List α) (ys : List β) :
    List.Forall₂ R xs ys ↔ List.Forall₂ S xs ys :=
  ⟨List.Forall₂.imp fun x y => (h x y).mp, List.Forall₂.imp fun x y => (h x y).mpr⟩

theorem forall₂_mem_right {α β : Type} {R : α → β → Prop} {xs : List α} {ys : List β} (h : List.Forall₂ R xs ys)
    {y : β} (hy : y ∈ ys) : ∃ x ∈ xs, R x y := by
  induction h with
  | nil => cases hy
  | @cons x z _ _ hx _ ih =>
    rcases List.mem_cons.mp hy with rfl | hy
    · exact ⟨x, List.mem_cons_self, hx⟩
    · obtain ⟨x', hx', hR⟩ := ih hy
      exact ⟨x', List.mem_cons_of_mem x hx', hR⟩

theorem forall₂_imp_mem {α β : Type} {R S : α → β → Prop} {xs : List α} {ys : List β} (h : List.Forall₂ R xs ys)
    (hS : ∀ y ∈ ys, ∀ x, R x y → S x y) : List.Forall₂ S xs ys := by
  induction h with
  | nil => exact .nil
  | @cons x y _ _ hx _ ih =>
    exact .cons (hS y List.mem_cons_self x hx) (ih fun y' hy' => hS y' (List.mem_cons_of_mem y hy'))

theorem traverse_of_forall₂ {α β γ ε : Type} {f : α → Except ε β} {R : α → γ → Prop} {S : β → γ → Prop} {xs : List α}
    {zs : List γ} (h : List.Forall₂ R xs zs) (hf : ∀ z ∈ zs, ∀ x, R x z → ∃ y, f x = .ok y ∧ S y z) :
    ∃ ys, traverse f xs = .ok ys ∧ List.Forall₂ S ys zs := by
  induction h with
  | nil => exact ⟨[], rfl, .nil⟩
  | @cons x z _ _ hx _ ih =>
    obtain ⟨y, hy, hS⟩ := hf z List.mem_cons_self x hx
    obtain ⟨ys, hys, hSs⟩ := ih fun z' hz' => hf z' (List.mem_cons_of_mem z hz')
    exact ⟨y :: ys, by rw [traverse, hy, hys], .cons hS hSs⟩

def Fails {ε α : Type} (x : Except ε α) : Prop := ∃ e, x = .error e

namespace Fails

variable {ε α β : Type}

@[simp] theorem error (e : ε) : Fails (.error e : Except ε α) := ⟨e, rfl⟩

@[simp] theorem not_ok (a : α) : ¬ Fails (.ok a : Except ε α) := by rintro ⟨e, h⟩; cases h

@[simp] theorem not_pure (a : α) : ¬ Fails (pure a : Except ε α) := not_ok a

theorem bind_iff {Q : Prop} {x : Except ε α} {k : α → Except ε β} (h : ∀ a, Fails (k a) ↔ Q) :
    Fails (x >>= k) ↔ Fails x ∨ Q := by
  cases x with
  | error e => exact ⟨fun _ => .inl ⟨e, rfl⟩, fun _ => ⟨e, rfl⟩⟩
  | ok a => exact (h a).trans (by simp)

theorem then_pure {x : Except ε α} (f : α → β) : Fails (x >>= fun a => pure (f a)) ↔ Fails x := by
  rw [bind_iff (Q := False) fun a => by simp]
  simp

theorem not_iff {x : Except ε α} : ¬ Fails x ↔ ∃ a, x = .ok a := by
  cases x <;> simp

theorem traverse_iff (f : α → Except ε β) (l : List α) : Fails (traverse f l) ↔ ∃ a ∈ l, Fails (f a) := by
  induction l with
  | nil => simp [traverse]
  | cons a l ih =>
    rw [List.exists_mem_cons_iff, ← ih, traverse]
    cases f a with
    | error e => simp
    | ok b => cases traverse f l <;> simp

end Fails

end Conductor
