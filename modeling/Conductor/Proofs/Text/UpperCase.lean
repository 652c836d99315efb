import Conductor.Text.Case
import Conductor.Text.Split
import Mathlib.Data.List.DropRight

/-!
# Upper case and full stops

The upper case of a character other than the full stop is never empty and has no full stop in it. So upper
case loses no full stop at the end of a text and makes none, and it does not matter whether they are dropped
before the conversion or after it.
-/

set_option autoImplicit false

namespace Conductor.Text

theorem toList_upper (s : String) : (upper s).toList = s.toList.flatMap upperChar := String.toList_ofList

theorem upperChar_dot : upperChar '.' = ['.'] := rfl

theorem ofNat_ne {n : Nat} {c : Char} (hc : 0 < c.toNat) (h : c.toNat < n) : Char.ofNat n ≠ c := by
  intro heq
  by_cases hn : n.isValidChar
  · rw [Char.ofNat, dif_pos hn] at heq
    exact absurd (congrArg Char.toNat heq) (Nat.ne_of_gt h)
  · rw [Char.ofNat, dif_neg hn] at heq
    subst heq
    exact absurd hc (by decide)

theorem lt_shifted {n : Nat} (h : '.'.toNat < n) : '.'.toNat < shifted upperShifts n := by
  have hrows : ∀ r ∈ upperShifts, ('.'.toNat : Int) < r.1 + r.2.2.2 := by decide +kernel
  unfold shifted
  split
  · next r hr =>
    have hlow := List.find?_some hr
    simp only [Bool.and_eq_true, decide_eq_true_eq] at hlow
    have hrow := hrows r (List.mem_of_find?_eq_some hr)
    omega
  · exact h

theorem dot_notMem_upperChar {c : Char} (h : c ≠ '.') : '.' ∉ upperChar c := by
  unfold upperChar
  split
  · next hc =>
    have hascii : ∀ n < 128, (Char.ofNat n).toUpper = '.' → Char.ofNat n = '.' := by decide +kernel
    intro hmem
    refine h ?_
    have hdot := hascii c.toNat hc
    rw [Char.ofNat_toNat] at hdot
    exact hdot (List.mem_singleton.mp hmem).symm
  · next hc =>
    split
    · next cs hcs =>
      have htable : ∀ e ∈ upperExpansions, '.' ∉ e.2.map Char.ofNat := by decide +kernel
      obtain ⟨before, after, heq, -⟩ := List.lookup_eq_some_iff.mp hcs
      exact htable (c.toNat, cs) (by simp [heq])
    · intro hmem
      have hlt := lt_shifted (Nat.lt_of_lt_of_le (by decide) (Nat.le_of_not_lt hc))
      exact ofNat_ne (by decide) hlt (List.mem_singleton.mp hmem).symm

theorem upperChar_ne_nil (c : Char) : upperChar c ≠ [] := by
  unfold upperChar
  split
  · exact List.cons_ne_nil _ _
  · split
    · next cs hcs =>
      have htable : ∀ e ∈ upperExpansions, e.2.map Char.ofNat ≠ [] := by decide +kernel
      obtain ⟨before, after, heq, -⟩ := List.lookup_eq_some_iff.mp hcs
      exact htable (c.toNat, cs) (by simp [heq])
    · exact List.cons_ne_nil _ _

theorem upper_eq_empty_iff {s : String} : upper s = "" ↔ s = "" := by
  rw [← String.toList_eq_nil_iff, toList_upper, List.flatMap_eq_nil_iff, ← String.toList_eq_nil_iff, List.eq_nil_iff_forall_not_mem]
  exact forall_congr' fun c => imp_congr_right fun _ => iff_of_false (upperChar_ne_nil c) id

theorem upper_dropEndWhile_dot (cs : List Char) :
    (dropEndWhile (· == '.') cs).flatMap upperChar = dropEndWhile (· == '.') (cs.flatMap upperChar) := by
  induction cs using List.reverseRecOn with
  | nil => rfl
  | append_singleton cs c ih =>
    change (List.rdropWhile _ _).flatMap _ = List.rdropWhile _ _ at ih ⊢
    rw [List.flatMap_append, List.flatMap_singleton]
    by_cases hc : c = '.'
    · subst hc
      rw [upperChar_dot, List.rdropWhile_concat_pos _ _ _ (by decide), List.rdropWhile_concat_pos _ _ _ (by decide), ih]
    · obtain hnil | ⟨init, last, hlast⟩ := List.eq_nil_or_concat (upperChar c)
      · exact absurd hnil (upperChar_ne_nil c)
      · have hne : last ≠ '.' := by
          rintro rfl
          exact dot_notMem_upperChar hc (by simp [hlast])
        rw [List.rdropWhile_concat_neg _ _ _ (by simpa using hc), List.flatMap_append, List.flatMap_singleton, hlast,
          List.concat_eq_append, ← List.append_assoc,
          List.rdropWhile_concat_neg _ _ _ (by simpa using hne)]

end Conductor.Text
