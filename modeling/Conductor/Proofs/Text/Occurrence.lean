import Conductor.Text.Split

/-!
# Occurrences

A search for a pattern gives the first place at which the pattern stands in the text, and it
gives none exactly if there is none. The pieces between points make up the text again.
-/

set_option autoImplicit false

namespace Conductor.Text

/-- A text cut at the first place at which a pattern stands in it. -/
structure FirstCut (pattern text before after : List Char) : Prop where
  eq : text = before ++ pattern ++ after
  first : ∀ u v, text = u ++ pattern ++ v → before.length ≤ u.length

section

variable {pattern text before after : List Char}

theorem FirstCut.unique {before' after' : List Char} (h : FirstCut pattern text before after)
    (h' : FirstCut pattern text before' after') : before = before' ∧ after = after' := by
  have hlength : before.length = before'.length := Nat.le_antisymm (h.first _ _ h'.eq) (h'.first _ _ h.eq)
  have heq : before ++ (pattern ++ after) = before' ++ (pattern ++ after') := by
    rw [← List.append_assoc, ← List.append_assoc, ← h.eq, ← h'.eq]
  obtain ⟨rfl, hrest⟩ := List.append_inj heq hlength
  exact ⟨rfl, List.append_cancel_left hrest⟩

theorem FirstCut.suffix (h : FirstCut pattern text before after) {u v : List Char} (huv : text = u ++ pattern ++ v) :
    v <:+ after := by
  have hlength := h.first u v huv
  have hsizes := congrArg List.length (h.eq.symm.trans huv)
  simp only [List.length_append] at hsizes
  exact List.suffix_of_suffix_length_le ⟨u ++ pattern, huv.symm⟩ ⟨before ++ pattern, h.eq.symm⟩ (by omega)

/-- In front of the first occurrence the search goes on by one character. -/
theorem FirstCut.next {c : Char} (h : FirstCut pattern text (c :: before) after) :
    ∃ rest, text = c :: rest ∧ ¬ pattern <+: c :: rest ∧ FirstCut pattern rest before after := by
  refine ⟨before ++ pattern ++ after, h.eq, ?_, rfl, fun u v huv => ?_⟩
  · rintro ⟨v, hv⟩
    have hzero : (c :: before).length ≤ 0 := h.first [] v (h.eq.trans hv.symm)
    exact absurd hzero (Nat.not_succ_le_zero _)
  · have hfirst := h.first (c :: u) v (by rw [h.eq]; exact congrArg (c :: ·) huv)
    exact Nat.le_of_succ_le_succ hfirst

theorem findSplit_first (h : findSplit pattern text = some (before, after)) : FirstCut pattern text before after := by
  induction text generalizing before after with
  | nil =>
    simp only [findSplit] at h
    split at h
    · next hempty =>
      obtain rfl := List.isEmpty_iff.mp hempty
      cases h
      exact ⟨rfl, fun _ _ _ => Nat.zero_le _⟩
    · cases h
  | cons c rest ih =>
    simp only [findSplit] at h
    split at h
    · next hstart =>
      cases h
      refine ⟨?_, fun _ _ _ => Nat.zero_le _⟩
      exact (List.prefix_iff_eq_append.mp (List.isPrefixOf_iff_prefix.mp hstart)).symm
    · next hstart =>
      obtain ⟨⟨before', after'⟩, hrest, heq⟩ := Option.map_eq_some_iff.mp h
      cases heq
      obtain ⟨hcut, hfirst⟩ := ih hrest
      refine ⟨by rw [hcut]; rfl, fun u v huv => ?_⟩
      cases u with
      | nil => exact absurd (List.isPrefixOf_iff_prefix.mpr ⟨v, huv.symm⟩) hstart
      | cons d u =>
        obtain ⟨-, hrest⟩ := List.cons.inj huv
        exact Nat.succ_le_succ (hfirst u v hrest)

theorem findSplit_eq_none_iff : findSplit pattern text = none ↔ ∀ u v, text ≠ u ++ pattern ++ v := by
  constructor
  · intro h
    induction text with
    | nil =>
      intro u v huv
      obtain ⟨hempty, -⟩ := List.append_eq_nil_iff.mp huv.symm
      rw [(List.append_eq_nil_iff.mp hempty).2] at h
      cases h
    | cons c rest ih =>
      simp only [findSplit] at h
      split at h
      · cases h
      · next hstart =>
        rintro (_ | ⟨d, u⟩) v huv
        · exact hstart (List.isPrefixOf_iff_prefix.mpr ⟨v, huv.symm⟩)
        · exact ih (Option.map_eq_none_iff.mp h) u v (List.cons.inj huv).2
  · intro h
    rw [Option.eq_none_iff_forall_ne_some]
    rintro ⟨before, after⟩ hcut
    exact h before after (findSplit_first hcut).eq

theorem findSplit_eq_some_iff : findSplit pattern text = some (before, after) ↔ FirstCut pattern text before after := by
  refine ⟨findSplit_first, fun h => ?_⟩
  cases hcut : findSplit pattern text with
  | none => exact absurd h.eq (findSplit_eq_none_iff.mp hcut before after)
  | some cut =>
    obtain ⟨rfl, rfl⟩ := (findSplit_first hcut).unique h
    rfl

end

/-! ## Pieces -/

theorem piecesFrom_point (acc text : List Char) : ∃ word words,
    piecesFrom ['.'] 0 acc text = (acc.reverse ++ word) :: words ∧ text = word ++ words.flatMap ('.' :: ·) := by
  induction text generalizing acc with
  | nil => exact ⟨[], [], by simp [piecesFrom], rfl⟩
  | cons c rest ih =>
    by_cases hc : c = '.'
    · obtain ⟨word, words, hpieces, hrest⟩ := ih []
      refine ⟨[], word :: words, ?_, ?_⟩
      · rw [piecesFrom, if_pos (by simp [hc]), List.length_singleton, Nat.sub_self, hpieces]
        simp
      · rw [hc, hrest]
        rfl
    · obtain ⟨word, words, hpieces, hrest⟩ := ih (c :: acc)
      refine ⟨c :: word, words, ?_, ?_⟩
      · rw [piecesFrom, if_neg (by simp [Ne.symm hc]), hpieces]
        simp
      · rw [hrest]
        rfl

end Conductor.Text
