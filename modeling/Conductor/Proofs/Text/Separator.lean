import Conductor.Proofs.Text.Occurrence
import Mathlib.Data.List.Infix

/-!
# Texts between separators

The pieces of a text are what its occurrences of a separator leave, found one after the other from the left without an
overlap. This determines them: joined with the separator they are the text, none of them holds the separator, and there is
one more of them than occurrences. A list is what its joined text is cut into if the separator stands in that text only
where it was put between two items.
-/

set_option autoImplicit false

namespace Conductor.Text

/-- The pieces that the occurrences of a separator leave, found from the left. -/
inductive Cuts (sep : List Char) : List Char → List (List Char) → Prop
  | last {cs : List Char} (h : ¬ sep <:+: cs) : Cuts sep cs [cs]
  | more {cs before after : List Char} {words : List (List Char)} (h : FirstCut sep cs before after)
      (rest : Cuts sep after words) : Cuts sep cs (before :: words)

/-- The number of occurrences of a separator that do not overlap, found from the left. -/
inductive Counted (sep : List Char) : List Char → Nat → Prop
  | none {cs : List Char} (h : ¬ sep <:+: cs) : Counted sep cs 0
  | next {cs before after : List Char} {n : Nat} (h : FirstCut sep cs before after) (rest : Counted sep after n) :
      Counted sep cs (n + 1)

/-- The separator stands in the joined text of the items only where it was put between two of them. -/
def OnlyBetween (sep : List Char) (items : List (List Char)) : Prop :=
  ∀ u v, sep.intercalate items = u ++ sep ++ v →
    ∃ k, 0 < k ∧ k < items.length ∧ u = sep.intercalate (items.take k)

variable {sep cs before after : List Char} {words items : List (List Char)}

theorem infix_iff : sep <:+: cs ↔ ∃ u v, cs = u ++ sep ++ v :=
  ⟨fun ⟨u, v, h⟩ => ⟨u, v, h.symm⟩, fun ⟨u, v, h⟩ => ⟨u, v, h.symm⟩⟩

theorem FirstCut.free (h : FirstCut sep cs before after) (hsep : sep ≠ []) : ¬ sep <:+: before := by
  rintro ⟨u, v, rfl⟩
  have hfirst := h.first u (v ++ sep ++ after) (by rw [h.eq]; simp)
  have hlength := List.length_pos_iff.mpr hsep
  simp only [List.length_append] at hfirst
  omega

theorem FirstCut.occurs (h : FirstCut sep cs before after) : sep <:+: cs := ⟨before, after, h.eq.symm⟩

/-! ## What determines the pieces -/

namespace Cuts

theorem exists_cons (h : Cuts sep cs words) : ∃ piece rest, words = piece :: rest := by
  cases h with
  | last => exact ⟨_, _, rfl⟩
  | more => exact ⟨_, _, rfl⟩

theorem join (h : Cuts sep cs words) : sep.intercalate words = cs := by
  induction h with
  | last => simp
  | more h rest ih =>
    obtain ⟨piece, words, rfl⟩ := rest.exists_cons
    rw [List.intercalate_cons_cons, ih, h.eq]

theorem free (h : Cuts sep cs words) (hsep : sep ≠ []) : ∀ piece ∈ words, ¬ sep <:+: piece := by
  induction h with
  | last h => exact List.forall_mem_singleton.mpr h
  | more h _ ih => exact List.forall_mem_cons.mpr ⟨h.free hsep, ih⟩

theorem counted (h : Cuts sep cs words) : ∃ n, Counted sep cs n ∧ words.length = n + 1 := by
  induction h with
  | last h => exact ⟨0, .none h, rfl⟩
  | more h _ ih =>
    obtain ⟨n, hcount, hlength⟩ := ih
    exact ⟨n + 1, .next h hcount, by rw [List.length_cons, hlength]⟩

theorem unique (h : Cuts sep cs words) (h' : Cuts sep cs items) : words = items := by
  induction h generalizing items with
  | last h =>
    cases h' with
    | last => rfl
    | more hcut => exact absurd hcut.occurs h
  | more h _ ih =>
    cases h' with
    | last hnone => exact absurd h.occurs hnone
    | more hcut rest =>
      obtain ⟨rfl, rfl⟩ := h.unique hcut
      rw [ih rest]

end Cuts

/-! ## The scan -/

theorem piecesFrom_skip (sep : List Char) (skip : Nat) (piece cs : List Char) :
    piecesFrom sep skip piece cs = piecesFrom sep 0 piece (cs.drop skip) := by
  induction skip generalizing cs with
  | zero => rfl
  | succ skip ih =>
    cases cs with
    | nil => rfl
    | cons c rest => rw [piecesFrom, ih, List.drop_succ_cons]

theorem piecesFrom_unbroken (h : ¬ sep <:+: cs) (piece : List Char) :
    piecesFrom sep 0 piece cs = [piece.reverse ++ cs] := by
  induction cs generalizing piece with
  | nil => simp [piecesFrom]
  | cons c rest ih =>
    have hstart : ¬ sep.isPrefixOf (c :: rest) = true := fun hstart => h (List.isPrefixOf_iff_prefix.mp hstart).isInfix
    have hrest : ¬ sep <:+: rest := fun hrest => h (hrest.trans (List.suffix_cons c rest).isInfix)
    rw [piecesFrom, if_neg hstart, ih hrest, List.reverse_cons, List.append_assoc, List.singleton_append]

theorem piecesFrom_of_firstCut (hsep : sep ≠ []) (h : FirstCut sep cs before after) (piece : List Char) :
    piecesFrom sep 0 piece cs = (piece.reverse ++ before) :: piecesFrom sep 0 [] after := by
  induction before generalizing cs piece with
  | nil =>
    obtain ⟨d, more, rfl⟩ := List.exists_cons_of_ne_nil hsep
    rw [h.eq, List.nil_append, List.cons_append, piecesFrom, if_pos (by simp), piecesFrom_skip, List.append_nil]
    simp
  | cons c before ih =>
    obtain ⟨rest, rfl, hstart, hrest⟩ := h.next
    rw [piecesFrom, if_neg (List.isPrefixOf_iff_prefix.not.mpr hstart), ih hrest, List.reverse_cons, List.append_assoc,
      List.singleton_append]

theorem exists_firstCut (h : sep <:+: cs) : ∃ before after, FirstCut sep cs before after := by
  cases hcut : findSplit sep cs with
  | none =>
    obtain ⟨u, v, huv⟩ := infix_iff.mp h
    exact absurd huv (findSplit_eq_none_iff.mp hcut u v)
  | some cut => exact ⟨cut.1, cut.2, findSplit_first hcut⟩

/-- The scan finds the pieces. -/
theorem cuts_piecesFrom (hsep : sep ≠ []) (cs : List Char) : Cuts sep cs (piecesFrom sep 0 [] cs) := by
  induction hn : cs.length using Nat.strongRecOn generalizing cs with
  | ind n ih =>
    by_cases h : sep <:+: cs
    · obtain ⟨before, after, hcut⟩ := exists_firstCut h
      have hlength := congrArg List.length hcut.eq
      have hpos := List.length_pos_iff.mpr hsep
      simp only [List.length_append] at hlength
      rw [piecesFrom_of_firstCut hsep hcut]
      exact .more hcut (ih after.length (by omega) after rfl)
    · rw [piecesFrom_unbroken h]
      exact .last h

theorem pieces_cuts {sep : String} (hsep : sep ≠ "") (s : String) :
    Cuts sep.toList s.toList ((pieces sep s).map String.toList) := by
  have hlists : (pieces sep s).map String.toList = piecesFrom sep.toList 0 [] s.toList := by
    simp [pieces, Function.comp_def]
  rw [hlists]
  exact cuts_piecesFrom (fun h => hsep (String.toList_eq_nil_iff.mp h)) s.toList

/-! ## Joined items -/

theorem onlyBetween_tail {a b : List Char} {rest : List (List Char)} (hsep : sep ≠ [])
    (h : OnlyBetween sep (a :: b :: rest)) : OnlyBetween sep (b :: rest) := by
  intro u v huv
  obtain ⟨k, hpos, hk, hu⟩ := h (a ++ sep ++ u) v (by rw [List.intercalate_cons_cons, huv]; simp)
  match k with
  | 1 =>
    rw [List.take_succ_cons, List.take_zero, List.intercalate_singleton] at hu
    have hlength := congrArg List.length hu
    have hsize := List.length_pos_iff.mpr hsep
    simp only [List.length_append] at hlength
    omega
  | k + 2 =>
    refine ⟨k + 1, Nat.succ_pos _, Nat.lt_of_succ_lt_succ hk, ?_⟩
    rw [List.take_succ_cons, List.take_succ_cons, List.intercalate_cons_cons] at hu
    exact List.append_cancel_left hu

/-- A text joined from items is cut into them. -/
theorem cuts_intercalate (hsep : sep ≠ []) (hne : items ≠ []) (h : OnlyBetween sep items) :
    Cuts sep (sep.intercalate items) items := by
  induction items with
  | nil => exact absurd rfl hne
  | cons a rest ih =>
    cases rest with
    | nil =>
      rw [List.intercalate_singleton]
      refine .last fun ⟨u, v, huv⟩ => ?_
      obtain ⟨k, hpos, hk, -⟩ := h u v (by rw [List.intercalate_singleton, huv])
      exact absurd hpos (Nat.not_lt_of_le (Nat.le_of_lt_succ hk))
    | cons b rest =>
      refine .more ⟨List.intercalate_cons_cons, fun u v huv => ?_⟩ (ih (List.cons_ne_nil _ _) (onlyBetween_tail hsep h))
      obtain ⟨k, hpos, -, rfl⟩ := h u v huv
      obtain ⟨k, rfl⟩ := Nat.exists_eq_succ_of_ne_zero (Nat.ne_of_gt hpos)
      rw [List.take_succ_cons]
      cases (b :: rest).take k with
      | nil => simp
      | cons c more => simp [List.intercalate_cons_cons]

theorem intercalate_pieces {sep : String} (hsep : sep ≠ "") (s : String) : String.intercalate sep (pieces sep s) = s := by
  rw [← String.toList_inj, String.toList_intercalate]
  exact (pieces_cuts hsep s).join

/-- The items of a joined text are its pieces, if the separator stands in it only between them. -/
theorem pieces_intercalate {sep : String} (hsep : sep ≠ "") {items : List String} (hne : items ≠ [])
    (h : OnlyBetween sep.toList (items.map String.toList)) : pieces sep (String.intercalate sep items) = items := by
  have hcuts := cuts_intercalate (fun h => hsep (String.toList_eq_nil_iff.mp h)) (List.map_eq_nil_iff.not.mpr hne) h
  rw [← String.toList_intercalate] at hcuts
  exact List.map_injective_iff.mpr (fun _ _ => String.toList_inj.mp) ((pieces_cuts hsep _).unique hcuts)

end Conductor.Text
