import Conductor.Proofs.Syntax.Written
import Conductor.Syntax.Line

/-!
# Texts whose strings are closed

The scan that removes comments and the scan that cuts a line at its semicolons change sides at every quote. A quote
that is written twice inside a string takes them out of the string and into it again, so both are outside where the
string ends. What is read of a text whose strings are closed has therefore no comment and no cut in it.
-/

set_option autoImplicit false

namespace Conductor.Syntax

def Marked (cs : List Char) : Prop := ['-', '-'] <+: cs ∨ ['/', '/'] <+: cs ∨ ['/', '*'] <+: cs

instance (cs : List Char) : Decidable (Marked cs) :=
  inferInstanceAs (Decidable (_ ∨ _ ∨ _))

def isOutside (c : Char) : Bool := !(['\'', '"', ';'].contains c)

/-- A text of strings, and of characters between them that open no comment. -/
inductive Sealed : List Char → Prop
  | nil : Sealed []
  | plain {c : Char} {rest : List Char} (hc : isOutside c = true) (hmark : ¬ Marked (c :: rest)) (h : Sealed rest) :
      Sealed (c :: rest)
  | string {quote : Char} {s rest : List Char} (hquote : quote = '\'' ∨ quote = '"') (h : Sealed rest) :
      Sealed (quote :: (doubled quote s ++ quote :: rest))

def Divided (tail : List Char) : Prop := ∀ c ∈ tail.head?, c = ';'

theorem divided_nil : Divided [] := nofun

theorem divided_semicolon (rest : List Char) : Divided (';' :: rest) := fun _ hc => (Option.some.inj hc).symm

theorem not_marked_of_divided {tail : List Char} (h : Divided tail) : ¬ Marked tail := by
  cases tail with
  | nil => rintro (h | h | h) <;> simp at h
  | cons d tail =>
    obtain rfl : d = ';' := h d rfl
    rintro (h | h | h) <;> simp at h

theorem not_marked_append {c : Char} {rest tail : List Char} (h : ¬ Marked (c :: rest)) (htail : Divided tail) :
    ¬ Marked (c :: (rest ++ tail)) := by
  cases rest with
  | cons d rest => simpa [Marked] using h
  | nil =>
    cases tail with
    | nil => simpa using h
    | cons d tail =>
      obtain rfl : d = ';' := htail d rfl
      rintro (h | h | h) <;> simp at h

theorem isOutside_iff {c : Char} : isOutside c = true ↔ ¬ (c == '\'' || c == '"') = true ∧ ¬ (c == ';') = true := by
  simp [isOutside, and_assoc]

theorem doubled_cons_self (quote : Char) (s : List Char) :
    doubled quote (quote :: s) = quote :: quote :: doubled quote s := by
  simp [doubled]

theorem doubled_cons_of_ne {quote c : Char} (h : c ≠ quote) (s : List Char) :
    doubled quote (c :: s) = c :: doubled quote s := by
  simp [doubled, h]

section

variable {quote : Char} (hquote : quote = '\'' ∨ quote = '"')

include hquote

theorem not_marked_quote (rest : List Char) : ¬ Marked (quote :: rest) := by
  rcases hquote with rfl | rfl <;> rintro (h | h | h) <;> simp at h

theorem is_a_quote : (quote == '\'' || quote == '"') = true := by
  rcases hquote with rfl | rfl <;> rfl

theorem quote_not_semicolon : ¬ (quote == ';') = true := by
  rcases hquote with rfl | rfl <;> decide

end

/-! ## Comments -/

theorem stripFrom_code {out : List Char} {c : Char} {rest : List Char} (h : ¬ Marked (c :: rest)) :
    stripFrom .code out (c :: rest) =
      stripFrom (if c == '\'' || c == '"' then .quote c else .code) (c :: out) rest := by
  rw [stripFrom]
  · rintro rest' rfl rfl
    exact h (.inr (.inr (by simp)))
  · rintro rest' rfl rfl
    exact h (.inl (by simp))
  · rintro rest' rfl rfl
    exact h (.inr (.inl (by simp)))

theorem stripFrom_string {quote : Char} (hquote : quote = '\'' ∨ quote = '"') (s out rest : List Char) :
    stripFrom (.quote quote) out (doubled quote s ++ quote :: rest) =
      stripFrom .code (quote :: ((doubled quote s).reverse ++ out)) rest := by
  induction s generalizing out with
  | nil => simp [doubled, stripFrom]
  | cons c s ih =>
    by_cases hc : c = quote
    · subst hc
      rw [doubled_cons_self, List.cons_append, List.cons_append, stripFrom, if_pos (beq_self_eq_true c),
        stripFrom_code (not_marked_quote hquote _), if_pos (is_a_quote hquote), ih]
      simp
    · rw [doubled_cons_of_ne hc, List.cons_append, stripFrom, if_neg (by simpa using hc), ih]
      simp

/-- A text whose strings are closed has no comment in it. -/
theorem Sealed.stripFrom {cs tail : List Char} (h : Sealed cs) (htail : Divided tail) (out : List Char) :
    stripFrom .code out (cs ++ tail) = Syntax.stripFrom .code (cs.reverse ++ out) tail := by
  induction h generalizing out with
  | nil => rfl
  | plain hc hmark _ ih =>
    rw [List.cons_append, stripFrom_code (not_marked_append hmark htail), if_neg (isOutside_iff.mp hc).1, ih]
    simp
  | string hquote _ ih =>
    rw [List.cons_append, List.append_assoc, List.cons_append, stripFrom_code (not_marked_quote hquote _),
      if_pos (is_a_quote hquote), stripFrom_string hquote, ih]
    simp

theorem stripComments_whole {cs : List Char} (h : stripFrom .code [] cs = (cs.reverse, false))
    (hend : ∀ c ∈ cs.getLast?, Text.isBlank c = false) : stripComments cs false = (cs, false) := by
  have hreverse : cs.reverse.dropWhile Text.isBlank = cs.reverse := by
    cases hreversed : cs.reverse with
    | nil => rfl
    | cons c before =>
      have hlast : cs.getLast? = some c := by
        rw [List.getLast?_eq_head?_reverse, hreversed]
        rfl
      rw [List.dropWhile_cons_of_neg (by simp [hend c hlast])]
  rw [stripComments, if_neg (by decide), h]
  dsimp only
  rw [hreverse, List.reverse_reverse]

/-! ## Semicolons -/

theorem segmentsFrom_string {quote : Char} (hquote : quote = '\'' ∨ quote = '"') (s : List Char) (start p : Nat)
    (piece rest : List Char) :
    segmentsFrom (some quote) start p piece (doubled quote s ++ quote :: rest) =
      segmentsFrom none start (p + (doubled quote s).length + 1) (quote :: ((doubled quote s).reverse ++ piece))
        rest := by
  induction s generalizing p piece with
  | nil => simp [doubled, segmentsFrom]
  | cons c s ih =>
    by_cases hc : c = quote
    · subst hc
      rw [doubled_cons_self, List.cons_append, List.cons_append, segmentsFrom, if_pos (beq_self_eq_true c), segmentsFrom,
        if_neg (quote_not_semicolon hquote), if_pos (is_a_quote hquote), ih, List.length_cons, List.length_cons]
      simp only [List.reverse_cons, List.append_assoc, List.cons_append, List.nil_append]
      congr 1
      omega
    · rw [doubled_cons_of_ne hc, List.cons_append, segmentsFrom, if_neg (by simpa using hc), ih, List.length_cons]
      simp only [List.reverse_cons, List.append_assoc, List.cons_append, List.nil_append]
      congr 1
      omega

/-- A text whose strings are closed is not cut. -/
theorem Sealed.segmentsFrom {cs : List Char} (h : Sealed cs) (start p : Nat) (piece tail : List Char) :
    segmentsFrom none start p piece (cs ++ tail) =
      Syntax.segmentsFrom none start (p + cs.length) (cs.reverse ++ piece) tail := by
  induction h generalizing p piece with
  | nil => rfl
  | plain hc _ _ ih =>
    obtain ⟨hquote, hsemicolon⟩ := isOutside_iff.mp hc
    rw [List.cons_append, Syntax.segmentsFrom, if_neg hsemicolon, if_neg hquote, ih, List.length_cons]
    simp only [List.reverse_cons, List.append_assoc, List.cons_append, List.nil_append]
    congr 1
    omega
  | string hquote _ ih =>
    rw [List.cons_append, List.append_assoc, List.cons_append, Syntax.segmentsFrom, if_neg (quote_not_semicolon hquote),
      if_pos (is_a_quote hquote), segmentsFrom_string hquote, ih]
    simp only [List.length_cons, List.length_append, List.reverse_cons, List.reverse_append, List.append_assoc,
      List.cons_append, List.nil_append]
    congr 1
    omega

end Conductor.Syntax
