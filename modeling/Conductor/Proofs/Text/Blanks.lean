import Conductor.Text.Split
import Mathlib.Data.List.TakeWhile

/-!
# Blanks at the ends

Stripping takes the blanks at the two ends of a text and nothing else: what has no blank at its ends is left
whole, and no character that is not a blank is lost.
-/

set_option autoImplicit false

namespace Conductor.Text

variable {blank : Char → Bool} {cs : List Char}

theorem mem_dropWhile {c : Char} (hc : c ∈ cs) (hblank : blank c = false) : c ∈ cs.dropWhile blank := by
  rw [← List.takeWhile_append_dropWhile (p := blank) (l := cs)] at hc
  rcases List.mem_append.mp hc with hc | hc
  · rw [List.mem_takeWhile_imp hc] at hblank
    cases hblank
  · exact hc

theorem mem_stripWhile {c : Char} (hc : c ∈ cs) (hblank : blank c = false) : c ∈ stripWhile blank cs := by
  rw [stripWhile, dropEndWhile, List.mem_reverse]
  exact mem_dropWhile (List.mem_reverse.mpr (mem_dropWhile hc hblank)) hblank

theorem dropWhile_append_of_head {lead w : List Char} (hlead : ∀ c ∈ lead, blank c = true)
    (hw : ∀ c ∈ w.head?, blank c = false) : (lead ++ w).dropWhile blank = w := by
  rw [List.dropWhile_append_of_pos hlead]
  cases w with
  | nil => rfl
  | cons c w => rw [List.dropWhile_cons_of_neg (by simp [hw c rfl])]

theorem dropEndWhile_append_of_last {w trail : List Char} (htrail : ∀ c ∈ trail, blank c = true)
    (hw : ∀ c ∈ w.getLast?, blank c = false) : dropEndWhile blank (w ++ trail) = w := by
  rw [dropEndWhile, List.reverse_append,
    dropWhile_append_of_head (fun c hc => htrail c (List.mem_reverse.mp hc)) (by rwa [List.head?_reverse]),
    List.reverse_reverse]

theorem stripWhile_between {lead w trail : List Char} (hlead : ∀ c ∈ lead, blank c = true)
    (htrail : ∀ c ∈ trail, blank c = true) (hne : w ≠ []) (hfirst : ∀ c ∈ w.head?, blank c = false)
    (hlast : ∀ c ∈ w.getLast?, blank c = false) : stripWhile blank (lead ++ (w ++ trail)) = w := by
  obtain ⟨c, rest, rfl⟩ := List.exists_cons_of_ne_nil hne
  rw [stripWhile, dropWhile_append_of_head hlead (by exact hfirst), dropEndWhile_append_of_last htrail hlast]

theorem stripWhile_eq_self (h : ∀ c ∈ cs, blank c = false) : stripWhile blank cs = cs := by
  cases cs with
  | nil => rfl
  | cons c cs =>
    have hbetween := stripWhile_between (List.forall_mem_nil _) (List.forall_mem_nil _) (List.cons_ne_nil c cs)
      (fun d hd => h d (List.mem_of_mem_head? hd)) (fun d hd => h d (List.mem_of_mem_getLast? hd))
    rwa [List.append_nil] at hbetween

theorem dropEndWhile_spec (blank : Char → Bool) (cs : List Char) :
    ∃ trail, cs = dropEndWhile blank cs ++ trail ∧ (∀ c ∈ trail, blank c = true) ∧
      ∀ c ∈ (dropEndWhile blank cs).getLast?, blank c = false := by
  refine ⟨(cs.reverse.takeWhile blank).reverse, ?_, fun c hc => List.mem_takeWhile_imp (List.mem_reverse.mp hc), ?_⟩
  · rw [dropEndWhile, ← List.reverse_append, List.takeWhile_append_dropWhile, List.reverse_reverse]
  · intro c hc
    rw [dropEndWhile, List.getLast?_reverse] at hc
    have hfirst := List.head?_dropWhile_not blank cs.reverse
    rw [hc] at hfirst
    simpa using hfirst

end Conductor.Text
