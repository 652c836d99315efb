import Conductor.Table
import Mathlib.Data.List.Forall2
import Mathlib.Data.List.Nodup

/-!
# Reading and writing tables

What a key finds after a write or in two tables put together, and which keys a table has
then. As long as its keys differ, a table is the list of its entries: each is found under
its key, and a second table whose keys are new is written behind the first.
-/

set_option autoImplicit false

namespace Conductor.Table

variable {κ α β : Type} [BEq κ]

/-! ## Reading -/

section Reading

variable {k key : κ} {v : α} {t u : Table κ α}

theorem get?_append : get? k (t ++ u) = (get? k t).or (get? k u) := by
  induction t with
  | nil => simp [get?]
  | cons e rest ih =>
    by_cases he : e.1 == k
    · simp [get?, he]
    · simp only [List.cons_append, get?, he, ih]
      simp

theorem get?_eq_none_iff [LawfulBEq κ] : t.get? k = none ↔ k ∉ t.map Prod.fst := by
  induction t with
  | nil => simp [get?]
  | cons e rest ih =>
    by_cases he : e.1 = k
    · simp [get?, he]
    · simp [get?, he, ih, Ne.symm he]

theorem contains_iff [LawfulBEq κ] : t.contains k = true ↔ k ∈ t.keys := by
  rw [contains, Option.isSome_iff_ne_none, ne_eq, get?_eq_none_iff, not_not]
  rfl

theorem get?_of_mem [LawfulBEq κ] (h : t.keys.Nodup) {e : κ × α} (he : e ∈ t) : get? e.1 t = some e.2 := by
  induction t with
  | nil => cases he
  | cons e' rest ih =>
    obtain ⟨hnew, hrest⟩ := List.nodup_cons.mp h
    rcases List.mem_cons.mp he with rfl | he
    · simp [get?]
    · have hne : e'.1 ≠ e.1 := fun heq => hnew (heq ▸ List.mem_map_of_mem he)
      rw [get?, if_neg (by simpa using hne), ih hrest he]

theorem mem_of_get? {a : α} (h : get? key t = some a) : ∃ k, (k, a) ∈ t := by
  induction t with
  | nil => cases h
  | cons e rest ih =>
    simp only [get?] at h
    split at h
    · cases h
      exact ⟨e.1, List.mem_cons_self⟩
    · obtain ⟨k, hk⟩ := ih h
      exact ⟨k, List.mem_cons_of_mem e hk⟩

theorem entry_mem_of_get? [LawfulBEq κ] (h : get? k t = some v) : (k, v) ∈ t := by
  induction t with
  | nil => cases h
  | cons e rest ih =>
    simp only [get?] at h
    split at h
    · next hk =>
      obtain rfl := eq_of_beq hk
      cases h
      exact List.mem_cons_self
    · exact List.mem_cons_of_mem e (ih h)

theorem filterMap_keys {κ : Type} {t : Table κ α} {f : κ → Option α} (h : ∀ e ∈ t, f e.1 = some e.2) :
    t.keys.filterMap f = t.values := by
  induction t with
  | nil => rfl
  | cons e rest ih =>
    have hrest := ih fun e' he' => h e' (List.mem_cons_of_mem e he')
    simp only [keys, values, List.map_cons] at hrest ⊢
    rw [List.filterMap_cons_some (h e List.mem_cons_self), hrest]

theorem keys_of_forall₂ {κ α β : Type} {R : κ × α → κ × β → Prop} {t : Table κ α} {t' : Table κ β}
    (h : List.Forall₂ (fun e e' => e'.1 = e.1 ∧ R e e') t t') : keys t' = keys t := by
  induction h with
  | nil => rfl
  | cons he _ ih => exact congrArg₂ List.cons he.1 ih

theorem keys_zip {κ : Type} (ks : List κ) (vs : List α) : keys (ks.zip vs) = ks.take vs.length := by
  induction ks generalizing vs with
  | nil => simp [keys]
  | cons k rest ih =>
    cases vs with
    | nil => rfl
    | cons v vs => exact congrArg (k :: ·) (ih vs)

theorem get?_zip [LawfulBEq κ] {ks : List κ} (h : ks.Nodup) (vs : List α) {i : Nat} (hi : ks[i]? = some k) :
    get? k (ks.zip vs) = vs[i]? := by
  induction ks generalizing vs i with
  | nil => simp at hi
  | cons key rest ih =>
    obtain ⟨hnew, hrest⟩ := List.nodup_cons.mp h
    cases vs with
    | nil => rfl
    | cons v vs =>
      cases i with
      | zero =>
        obtain rfl : key = k := by simpa using hi
        simp [get?]
      | succ i =>
        have hi : rest[i]? = some k := by simpa using hi
        have hne : ¬ key = k := fun heq => hnew (heq ▸ List.mem_of_getElem? hi)
        simpa [get?, hne] using ih hrest vs hi

theorem values_zip {κ : Type} (ks : List κ) (vs : List α) : values (ks.zip vs) = vs.take ks.length := by
  induction ks generalizing vs with
  | nil => simp [values]
  | cons k rest ih =>
    cases vs with
    | nil => rfl
    | cons v vs => exact congrArg (v :: ·) (ih vs)

theorem forall₂_zip {κ β : Type} {R : α → β → Prop} {vs : List α} {vs' : List β} (h : List.Forall₂ R vs vs') (ks : List κ) :
    List.Forall₂ (fun e e' => e.1 = e'.1 ∧ R e.2 e'.2) (ks.zip vs) (ks.zip vs') := by
  induction h generalizing ks with
  | nil => simp
  | cons hv _ ih =>
    cases ks with
    | nil => exact .nil
    | cons k ks => exact .cons ⟨rfl, hv⟩ (ih ks)

end Reading

/-! ## Writing -/

section Writing

variable {k key : κ} {v : α} {t u : Table κ α}

theorem put_of_get?_none (h : t.get? k = none) : t.put k v = t ++ [(k, v)] := by
  induction t with
  | nil => rfl
  | cons e rest ih =>
    by_cases he : e.1 == k
    · simp [get?, he] at h
    · simp only [get?, he] at h
      simp [put, he, ih h]

theorem put_of_notMem [LawfulBEq κ] (h : key ∉ t.keys) (v : α) : put key v t = t ++ [(key, v)] :=
  put_of_get?_none (get?_eq_none_iff.mpr h)

theorem putAll_of_nodup [LawfulBEq κ] (h : (keys (t ++ u)).Nodup) : putAll t u = t ++ u := by
  induction u generalizing t with
  | nil => simp [putAll]
  | cons e rest ih =>
    have hnew : e.1 ∉ keys t := by
      simp only [keys, List.map_append, List.map_cons] at h ⊢
      exact fun hmem => (List.nodup_append.mp h).2.2 _ hmem _ List.mem_cons_self rfl
    have hrest : putAll (t ++ [e]) rest = t ++ [e] ++ rest := ih (by simpa using h)
    simpa [putAll, put_of_notMem hnew] using hrest

theorem ofEntries_of_nodup [LawfulBEq κ] (h : u.keys.Nodup) : ofEntries u = u := putAll_of_nodup h

theorem mem_keys_put [LawfulBEq κ] : k ∈ keys (put key v t) ↔ k = key ∨ k ∈ keys t := by
  induction t with
  | nil => simp [put, keys]
  | cons e rest ih =>
    simp only [put]
    split
    · next h =>
      obtain rfl := eq_of_beq h
      simp [keys]
    · simp only [keys, List.map_cons, List.mem_cons] at ih ⊢
      rw [ih]
      exact or_left_comm

theorem nodup_put [LawfulBEq κ] (h : t.keys.Nodup) (key : κ) (v : α) : (put key v t).keys.Nodup := by
  induction t with
  | nil => simp [put, keys]
  | cons e rest ih =>
    obtain ⟨hnew, hrest⟩ := List.nodup_cons.mp h
    simp only [put]
    split
    · exact h
    · next hne =>
      refine List.nodup_cons.mpr ⟨?_, ih hrest⟩
      rw [show List.map Prod.fst (put key v rest) = keys (put key v rest) from rfl, mem_keys_put, not_or]
      exact ⟨fun heq => hne (beq_iff_eq.mpr heq), hnew⟩

theorem mem_keys_putAll [LawfulBEq κ] : k ∈ keys (putAll t u) ↔ k ∈ keys t ∨ k ∈ keys u := by
  induction u generalizing t with
  | nil => simp [putAll, keys]
  | cons e rest ih =>
    rw [show putAll t (e :: rest) = putAll (put e.1 e.2 t) rest from rfl, ih, mem_keys_put]
    simp only [keys, List.map_cons, List.mem_cons]
    tauto

theorem nodup_putAll [LawfulBEq κ] (h : t.keys.Nodup) (u : Table κ α) : (putAll t u).keys.Nodup := by
  induction u generalizing t with
  | nil => exact h
  | cons e rest ih => exact ih (nodup_put h e.1 e.2)

theorem get?_putAll [LawfulBEq κ] : get? k (putAll t u) = (get? k u.reverse).or (get? k t) := by
  induction u generalizing t with
  | nil => rfl
  | cons e rest ih =>
    rw [show putAll t (e :: rest) = putAll (put e.1 e.2 t) rest from rfl, ih, List.reverse_cons, get?_append,
      Option.or_assoc]
    congr 1
    by_cases he : e.1 = k
    · subst he
      simp [get?, get?_put_self]
    · simp [get?, he, get?_put_of_ne (Ne.symm he) e.2 t]

theorem get?_reverse [LawfulBEq κ] (h : t.keys.Nodup) : get? k t.reverse = get? k t := by
  induction t with
  | nil => rfl
  | cons e rest ih =>
    obtain ⟨hnew, hrest⟩ := List.nodup_cons.mp h
    rw [List.reverse_cons, get?_append, ih hrest]
    by_cases he : e.1 = k
    · subst he
      simp [get?, get?_eq_none_iff.mpr hnew]
    · simp [get?, he]

theorem get?_ofEntries [LawfulBEq κ] : get? k (ofEntries u) = get? k u.reverse := by
  rw [ofEntries, get?_putAll]
  simp [get?]

theorem mem_keys_ofEntries [LawfulBEq κ] : k ∈ keys (ofEntries u) ↔ k ∈ keys u := by
  rw [ofEntries, mem_keys_putAll]
  simp [keys]

theorem nodup_ofEntries [LawfulBEq κ] (u : Table κ α) : (ofEntries u).keys.Nodup :=
  nodup_putAll (show (keys ([] : Table κ α)).Nodup from List.nodup_nil) u

theorem mem_of_mem_ofEntries [LawfulBEq κ] {e : κ × α} (h : e ∈ ofEntries u) : e ∈ u := by
  have hfound := get?_of_mem (nodup_ofEntries u) h
  rw [get?_ofEntries] at hfound
  exact List.mem_reverse.mp (entry_mem_of_get? hfound)

theorem forall₂_put {R : α → β → Prop} {t : Table κ α} {t' : Table κ β}
    (h : List.Forall₂ (fun e e' => e.1 = e'.1 ∧ R e.2 e'.2) t t') (key : κ) {v : α} {v' : β} (hv : R v v') :
    List.Forall₂ (fun e e' => e.1 = e'.1 ∧ R e.2 e'.2) (put key v t) (put key v' t') := by
  induction h with
  | nil => exact .cons ⟨rfl, hv⟩ .nil
  | @cons e e' rest rest' he hrest ih =>
    simp only [put, ← he.1]
    split
    · exact .cons ⟨rfl, hv⟩ hrest
    · exact .cons ⟨rfl, he.2⟩ ih

theorem forall₂_putAll {R : α → β → Prop} {t u : Table κ α} {t' u' : Table κ β}
    (ht : List.Forall₂ (fun e e' => e.1 = e'.1 ∧ R e.2 e'.2) t t')
    (hu : List.Forall₂ (fun e e' => e.1 = e'.1 ∧ R e.2 e'.2) u u') :
    List.Forall₂ (fun e e' => e.1 = e'.1 ∧ R e.2 e'.2) (putAll t u) (putAll t' u') := by
  induction hu generalizing t t' with
  | nil => exact ht
  | @cons e e' _ _ he _ ih =>
    have hput := forall₂_put ht e.1 he.2
    rw [show put e.1 e'.2 t' = put e'.1 e'.2 t' by rw [he.1]] at hput
    exact ih hput

theorem forall_putAll {P : α → Prop} {t u : Table κ α} (ht : ∀ e ∈ t, P e.2) (hu : ∀ e ∈ u, P e.2) :
    ∀ e ∈ putAll t u, P e.2 := by
  have hboth := forall₂_putAll (R := fun a _ => P a) (List.forall₂_same.mpr fun e he => ⟨rfl, ht e he⟩)
    (List.forall₂_same.mpr fun e he => ⟨rfl, hu e he⟩)
  exact fun e he => (List.forall₂_same.mp hboth e he).2

end Writing

/-! ## Erasing -/

theorem get?_erase_self (key : κ) (t : Table κ α) : get? key (erase key t) = none := by
  induction t with
  | nil => rfl
  | cons e rest ih =>
    simp only [erase, List.filter_cons] at ih ⊢
    cases he : e.1 == key <;> simp [get?, he, ih]

theorem get?_erase_of_ne [LawfulBEq κ] {key other : κ} (h : key ≠ other) (t : Table κ α) :
    get? key (erase other t) = get? key t := by
  induction t with
  | nil => rfl
  | cons e rest ih =>
    simp only [erase, List.filter_cons] at ih ⊢
    cases he : e.1 == other with
    | true =>
      have hk : (e.1 == key) = false := beq_eq_false_iff_ne.mpr (eq_of_beq he ▸ h.symm)
      simpa [get?, hk] using ih
    | false => cases hk : e.1 == key <;> simp [get?, hk, ih]

theorem get?_of_erase [LawfulBEq κ] {key other : κ} {t : Table κ α} {a : α} (h : get? key (erase other t) = some a) :
    get? key t = some a := by
  have hne : key ≠ other := by
    rintro rfl
    rw [get?_erase_self] at h
    cases h
  rwa [get?_erase_of_ne hne] at h

end Conductor.Table
