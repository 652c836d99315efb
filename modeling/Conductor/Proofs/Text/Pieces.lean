import Conductor.Text.Split

/-!
# Pieces

The pieces of a text at one character: no piece holds it, and a text cut at one place has the pieces of
its two parts.
-/

set_option autoImplicit false

namespace Conductor.Text

theorem piecesFrom_ne_nil (sep : List Char) (skip : Nat) (piece cs : List Char) : piecesFrom sep skip piece cs ≠ [] := by
  fun_induction piecesFrom sep skip piece cs <;> simp_all

variable {sep x : Char} {word piece xs : List Char}

theorem piecesFrom_self (sep : Char) (piece rest : List Char) :
    piecesFrom [sep] 0 piece (sep :: rest) = piece.reverse :: piecesFrom [sep] 0 [] rest := by
  simp [piecesFrom]

theorem piecesFrom_of_ne (hx : x ≠ sep) (piece rest : List Char) :
    piecesFrom [sep] 0 piece (x :: rest) = piecesFrom [sep] 0 (x :: piece) rest := by
  simp [piecesFrom, hx.symm]

theorem piecesFrom_append (sep : Char) (piece xs ys : List Char) :
    piecesFrom [sep] 0 piece (xs ++ sep :: ys) = piecesFrom [sep] 0 piece xs ++ piecesFrom [sep] 0 [] ys := by
  induction xs generalizing piece with
  | nil => rw [List.nil_append, piecesFrom_self]; rfl
  | cons x xs ih =>
    by_cases hx : x = sep
    · subst hx
      rw [List.cons_append, piecesFrom_self, piecesFrom_self, ih, List.cons_append]
    · rw [List.cons_append, piecesFrom_of_ne hx, piecesFrom_of_ne hx, ih]

theorem piecesFrom_of_notMem (h : sep ∉ xs) : piecesFrom [sep] 0 piece xs = [piece.reverse ++ xs] := by
  induction xs generalizing piece with
  | nil => simp [piecesFrom]
  | cons x xs ih =>
    rw [List.mem_cons, not_or] at h
    rw [piecesFrom_of_ne (Ne.symm h.1), ih h.2]
    simp

theorem notMem_of_mem_piecesFrom (hp : sep ∉ piece) (h : word ∈ piecesFrom [sep] 0 piece xs) : sep ∉ word := by
  induction xs generalizing piece with
  | nil =>
    rw [piecesFrom, List.mem_singleton] at h
    rwa [h, List.mem_reverse]
  | cons x xs ih =>
    by_cases hx : x = sep
    · subst hx
      rw [piecesFrom_self, List.mem_cons] at h
      rcases h with rfl | h
      · rwa [List.mem_reverse]
      · exact ih (by simp) h
    · rw [piecesFrom_of_ne hx] at h
      exact ih (by simpa using ⟨Ne.symm hx, hp⟩) h

end Conductor.Text
