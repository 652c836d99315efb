/-!
# Ordered tables

A table keeps its keys in the order of their first writing: writing to a key that
is there replaces its entry in place. Programs can see that order, so it is part
of the type. Main facts: a read after a write to the same key gives what was
written, and to another key what was there before.
-/

set_option autoImplicit false

namespace Conductor

variable {κ α : Type} [BEq κ]

abbrev Table (κ α : Type) := List (κ × α)

namespace Table

def get? (key : κ) : Table κ α → Option α
  | [] => none
  | (k, v) :: rest => if k == key then some v else get? key rest

def put (key : κ) (value : α) : Table κ α → Table κ α
  | [] => [(key, value)]
  | (k, v) :: rest => if k == key then (k, value) :: rest else (k, v) :: put key value rest

def erase (key : κ) (t : Table κ α) : Table κ α := t.filter fun e => !(e.1 == key)

def contains (key : κ) (t : Table κ α) : Bool := (get? key t).isSome

def keys (t : Table κ α) : List κ := t.map Prod.fst

def values (t : Table κ α) : List α := t.map Prod.snd

def putAll (t u : Table κ α) : Table κ α := u.foldl (fun acc e => put e.1 e.2 acc) t

def ofEntries (entries : List (κ × α)) : Table κ α := putAll [] entries

theorem get?_put_self [ReflBEq κ] (key : κ) (value : α) (t : Table κ α) :
    get? key (put key value t) = some value := by
  induction t with
  | nil => simp [put, get?]
  | cons e rest ih =>
    by_cases h : e.1 == key <;> simp [put, get?, h, ih]

theorem get?_put_of_ne [LawfulBEq κ] {key other : κ} (h : other ≠ key) (value : α) (t : Table κ α) :
    get? other (put key value t) = get? other t := by
  induction t with
  | nil => simp [put, get?, beq_eq_false_iff_ne.mpr (Ne.symm h)]
  | cons e rest ih =>
    by_cases hk : e.1 == key
    · have : (e.1 == other) = false := by
        rw [eq_of_beq hk]; exact beq_eq_false_iff_ne.mpr (Ne.symm h)
      simp [put, get?, hk, this]
    · simp [put, get?, hk, ih]

end Table

end Conductor
