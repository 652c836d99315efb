import Conductor.Proofs.Syntax.Columns
import Conductor.Proofs.Syntax.Quoting
import Conductor.Proofs.Text.Blanks
import Conductor.Proofs.Text.Occurrence

/-!
# Columns of a stripped line

A line is made of strings, block comments, at most one comment that takes the rest of the line, and characters
between them. Stripping leaves blanks for the block comments and everything else where it was, so what it leaves stands at
its columns. The blanks keep apart what was apart, so nothing that is left starts a comment, and to strip a second time
changes nothing. Only the blanks at the end of a line are lost, even those in a string that is not closed on it.
-/

set_option autoImplicit false

namespace Conductor.Syntax

/-! ## The parts of a line -/

inductive Stretch
  | code (c : Char)
  | string (quote : Char) (body : List Char) (closed : Bool)
  | comment (text : List Char)
  | remark (text : List Char)

namespace Stretch

def text : Stretch → List Char
  | code c => [c]
  | string quote body true => quote :: (body ++ [quote])
  | string quote body false => quote :: body
  | comment text => text
  | remark text => text

def left : Stretch → List Char
  | comment text => List.replicate text.length ' '
  | remark _ => []
  | p => p.text

end Stretch

def isQuote (c : Char) : Bool := c == '\'' || c == '"'

/-- The first part of a line, which starts and ends inside a block comment or outside of one. -/
inductive Begins : Bool → List Char → Stretch → List Char → Bool → Prop
  | code {c : Char} {rest : List Char} (hc : isQuote c = false) (hmark : ¬ Marked (c :: rest)) :
      Begins false (c :: rest) (.code c) rest false
  | string {quote : Char} {body rest : List Char} (hquote : isQuote quote = true) (hbody : quote ∉ body) :
      Begins false (quote :: (body ++ quote :: rest)) (.string quote body true) rest false
  | unclosed {quote : Char} {body : List Char} (hquote : isQuote quote = true) (hbody : quote ∉ body) :
      Begins false (quote :: body) (.string quote body false) [] false
  | remark {raw : List Char} (hmark : ['-', '-'] <+: raw ∨ ['/', '/'] <+: raw) : Begins false raw (.remark raw) [] false
  | comment (rest : List Char) : Begins false ('/' :: '*' :: rest) (.comment ['/', '*']) rest true
  | inside {raw body rest : List Char} (hcut : Text.FirstCut ['*', '/'] raw body rest) :
      Begins true raw (.comment (body ++ ['*', '/'])) rest false
  | unfinished {raw : List Char} (hne : raw ≠ []) (hopen : ∀ u v, raw ≠ u ++ ['*', '/'] ++ v) :
      Begins true raw (.comment raw) [] true

/-- The parts of a line, and whether it starts and ends inside a block comment. -/
inductive Stretches : Bool → List Char → List Stretch → Bool → Prop
  | nil (inside : Bool) : Stretches inside [] [] inside
  | cons {inside between after : Bool} {raw rest : List Char} {p : Stretch} {parts : List Stretch}
      (hfirst : Begins inside raw p rest between) (hrest : Stretches between rest parts after) :
      Stretches inside raw (p :: parts) after

/-- The part in which a column is, and the place in it. -/
def locate : List Stretch → Nat → Option (Stretch × Nat)
  | [], _ => none
  | p :: parts, i => if i < p.text.length then some (p, i) else locate parts (i - p.text.length)

/-! ## One part -/

namespace Begins

variable {inside after : Bool} {raw rest : List Char} {p : Stretch}

theorem eq (h : Begins inside raw p rest after) : raw = p.text ++ rest := by
  cases h with
  | code | comment => rfl
  | string => simp [Stretch.text]
  | unclosed | remark | unfinished => exact (List.append_nil _).symm
  | inside hcut => exact hcut.eq

theorem text_ne_nil (h : Begins inside raw p rest after) : p.text ≠ [] := by
  cases h with
  | remark hmark =>
    rintro (rfl : raw = [])
    rcases hmark with hmark | hmark <;> simp at hmark
  | unfinished hne => exact hne
  | inside => simp [Stretch.text]
  | code | string | unclosed | comment => exact List.cons_ne_nil _ _

theorem aligned (h : Begins inside raw p rest after) : p.left.length = p.text.length ∨ rest = [] ∧ p.left = [] := by
  cases h with
  | remark => exact .inr ⟨rfl, rfl⟩
  | comment | inside | unfinished => exact .inl List.length_replicate
  | code | string | unclosed => exact .inl rfl

end Begins

theorem exists_begins (inside : Bool) {raw : List Char} (hne : raw ≠ []) :
    ∃ p rest after, Begins inside raw p rest after := by
  cases inside with
  | true =>
    cases hcut : Text.findSplit ['*', '/'] raw with
    | none => exact ⟨_, _, _, .unfinished hne (Text.findSplit_eq_none_iff.mp hcut)⟩
    | some cut => exact ⟨_, _, _, .inside (Text.findSplit_eq_some_iff.mp hcut)⟩
  | false =>
    obtain ⟨c, cs, rfl⟩ := List.exists_cons_of_ne_nil hne
    by_cases hmark : Marked (c :: cs)
    · rcases hmark with h | h | ⟨rest, h⟩
      · exact ⟨_, _, _, .remark (.inl h)⟩
      · exact ⟨_, _, _, .remark (.inr h)⟩
      · obtain ⟨rfl, rfl⟩ := List.cons.inj h
        exact ⟨_, _, _, .comment rest⟩
    · cases hquote : isQuote c with
      | false => exact ⟨_, _, _, .code hquote hmark⟩
      | true =>
        by_cases hclosed : c ∈ cs
        · obtain ⟨body, rest, rfl, hbody⟩ := List.eq_append_cons_of_mem hclosed
          exact ⟨_, _, _, .string hquote hbody⟩
        · exact ⟨_, _, _, .unclosed hquote hclosed⟩

theorem exists_stretches (inside : Bool) (raw : List Char) : ∃ parts after, Stretches inside raw parts after := by
  induction hn : raw.length using Nat.strong_induction_on generalizing inside raw with
  | _ n ih =>
    subst hn
    by_cases hne : raw = []
    · subst hne
      exact ⟨[], inside, .nil inside⟩
    · obtain ⟨p, rest, between, hfirst⟩ := exists_begins inside hne
      have hshorter : rest.length < raw.length := by
        have htext := List.length_pos_iff.mpr hfirst.text_ne_nil
        rw [hfirst.eq, List.length_append]
        omega
      obtain ⟨parts, after, hrest⟩ := ih _ hshorter between rest rfl
      exact ⟨p :: parts, after, .cons hfirst hrest⟩

/-! ## The scan -/

def side (inComment : Bool) : Inside := if inComment then .comment else .code

theorem stripFrom_next {c : Char} {rest : List Char} (h : ¬ ['*', '/'] <+: c :: rest) (out : List Char) :
    stripFrom .comment out (c :: rest) = stripFrom .comment (' ' :: out) rest := by
  rw [stripFrom]
  rintro rest' rfl rfl
  exact h (by simp)

theorem stripFrom_finished {raw body rest : List Char} (h : Text.FirstCut ['*', '/'] raw body rest) (out : List Char) :
    stripFrom .comment out raw = stripFrom .code (List.replicate (body.length + 2) ' ' ++ out) rest := by
  induction body generalizing raw out with
  | nil => rw [h.eq]; rfl
  | cons c body ih =>
    obtain ⟨tail, rfl, hnot, htail⟩ := h.next
    rw [stripFrom_next hnot, ih htail, List.length_cons, List.append_cons, ← List.replicate_succ']

theorem stripFrom_unfinished {raw : List Char} (h : ∀ u v, raw ≠ u ++ ['*', '/'] ++ v) (out : List Char) :
    stripFrom .comment out raw = (List.replicate raw.length ' ' ++ out, true) := by
  induction raw generalizing out with
  | nil => rfl
  | cons c rest ih =>
    have hnot : ¬ ['*', '/'] <+: c :: rest := fun ⟨v, hv⟩ => h [] v hv.symm
    rw [stripFrom_next hnot, ih fun u v huv => h (c :: u) v (congrArg (c :: ·) huv), List.length_cons, List.append_cons,
      ← List.replicate_succ']

theorem stripFrom_body {quote : Char} {body : List Char} (h : quote ∉ body) (out rest : List Char) :
    stripFrom (.quote quote) out (body ++ rest) = stripFrom (.quote quote) (body.reverse ++ out) rest := by
  induction body generalizing out with
  | nil => rfl
  | cons c body ih =>
    obtain ⟨hc, hbody⟩ := not_or.mp (List.mem_cons.not.mp h)
    rw [List.cons_append, stripFrom, if_neg (by simpa using Ne.symm hc), ih hbody]
    simp

theorem isQuote_iff {c : Char} : isQuote c = true ↔ c = '\'' ∨ c = '"' := by simp [isQuote]

theorem stripFrom_opening {quote : Char} (h : isQuote quote = true) (out rest : List Char) :
    stripFrom .code out (quote :: rest) = stripFrom (.quote quote) (quote :: out) rest := by
  have hquote := isQuote_iff.mp h
  rw [stripFrom_code (not_marked_quote hquote rest), if_pos (is_a_quote hquote)]

theorem Begins.stripFrom {inside after : Bool} {raw rest : List Char} {p : Stretch} (h : Begins inside raw p rest after)
    (out : List Char) : stripFrom (side inside) out raw = Syntax.stripFrom (side after) (p.left.reverse ++ out) rest := by
  cases h with
  | code hc hmark =>
    have hplain : ¬ (_ == '\'' || _ == '"') = true := Bool.eq_false_iff.mp hc
    exact (stripFrom_code hmark).trans (by rw [if_neg hplain]; rfl)
  | @string quote body rest hquote hbody =>
    have hclosed : Syntax.stripFrom (.quote quote) (body.reverse ++ quote :: out) (quote :: rest) =
        Syntax.stripFrom .code (quote :: (body.reverse ++ quote :: out)) rest := by
      rw [Syntax.stripFrom, if_pos (beq_self_eq_true quote)]
    exact (stripFrom_opening hquote out _).trans
      (by rw [stripFrom_body hbody, hclosed]; simp [Stretch.left, Stretch.text, side])
  | @unclosed quote body hquote hbody =>
    have hbody := stripFrom_body hbody (quote :: out) []
    rw [List.append_nil] at hbody
    exact (stripFrom_opening hquote out _).trans (by rw [hbody]; simp [Syntax.stripFrom, Stretch.left, Stretch.text, side])
  | remark hmark =>
    rcases hmark with ⟨rest, rfl⟩ | ⟨rest, rfl⟩ <;> simp [Syntax.stripFrom, Stretch.left, side]
  | comment rest => rfl
  | inside hcut =>
    exact (stripFrom_finished hcut out).trans (by simp [Stretch.left, side])
  | unfinished _ hopen =>
    exact (stripFrom_unfinished hopen out).trans (by simp [Syntax.stripFrom, Stretch.left, side])

namespace Stretches

variable {inside after : Bool} {raw : List Char} {parts : List Stretch}

theorem stripFrom (h : Stretches inside raw parts after) (out : List Char) :
    stripFrom (side inside) out raw = ((parts.flatMap Stretch.left).reverse ++ out, after) := by
  induction h generalizing out with
  | nil inside => cases inside <;> rfl
  | cons hfirst _ ih => rw [hfirst.stripFrom, ih, List.flatMap_cons, List.reverse_append, List.append_assoc]

/-- What is left of a line is what is left of its parts, without the blanks at the end. -/
theorem stripComments (h : Stretches inside raw parts after) :
    stripComments raw inside = (Text.dropEndWhile Text.isBlank (parts.flatMap Stretch.left), after) := by
  have hscan := h.stripFrom []
  rw [side, List.append_nil] at hscan
  rw [Syntax.stripComments, hscan]
  rfl

end Stretches

/-! ## Columns -/

section

variable {parts : List Stretch} {i k : Nat} {p : Stretch}

theorem locate_lt (h : locate parts i = some (p, k)) : k < p.text.length := by
  induction parts generalizing i with
  | nil => cases h
  | cons q parts ih =>
    rw [locate] at h
    split at h
    · next hi =>
      cases h
      exact hi
    · exact ih h

theorem locate_within (h : locate parts i = some (p, k)) {n : Nat} (hn : n < p.text.length) :
    k ≤ i ∧ locate parts (i - k + n) = some (p, n) := by
  induction parts generalizing i with
  | nil => cases h
  | cons q parts ih =>
    rw [locate] at h
    split at h
    · cases h
      rw [locate, Nat.sub_self, Nat.zero_add, if_pos hn]
      exact ⟨Nat.le_refl _, rfl⟩
    · obtain ⟨hle, hfound⟩ := ih h
      rw [locate, if_neg (by omega), show i - k + n - q.text.length = i - q.text.length - k + n by omega]
      exact ⟨by omega, hfound⟩

end

namespace Stretches

variable {inside after : Bool} {raw : List Char} {parts : List Stretch} {i k : Nat} {c : Char} {p : Stretch}

theorem nil_parts (h : Stretches inside [] parts after) : parts = [] := by
  cases h with
  | nil => rfl
  | cons hfirst => exact absurd (List.append_eq_nil_iff.mp hfirst.eq.symm).1 hfirst.text_ne_nil

theorem getElem?_line (h : Stretches inside raw parts after) (i : Nat) :
    raw[i]? = (locate parts i).bind fun found => found.1.text[found.2]? := by
  induction h generalizing i with
  | nil => rfl
  | cons hfirst _ ih =>
    rw [hfirst.eq, locate]
    split
    · next hi => exact List.getElem?_append_left hi
    · next hi => rw [List.getElem?_append_right (Nat.not_lt.mp hi), ih]

theorem getElem?_left (h : Stretches inside raw parts after) (i : Nat) :
    (parts.flatMap Stretch.left)[i]? = (locate parts i).bind fun found => found.1.left[found.2]? := by
  induction h generalizing i with
  | nil => rfl
  | @cons _ _ _ _ _ p parts hfirst hrest ih =>
    rw [locate, List.flatMap_cons]
    rcases hfirst.aligned with hsame | ⟨rfl, hnone⟩
    · split
      · next hi => exact List.getElem?_append_left (hsame ▸ hi)
      · next hi => rw [List.getElem?_append_right (hsame ▸ Nat.not_lt.mp hi), ih, hsame]
    · -- nothing follows
      obtain rfl := hrest.nil_parts
      split <;> simp [hnone, locate]

/-- What is left at a column is what the line has there, or a blank in a block comment. -/
theorem left_column (h : Stretches inside raw parts after) (hc : (parts.flatMap Stretch.left)[i]? = some c) :
    raw[i]? = some c ∨ c = ' ' ∧ ∃ text k, locate parts i = some (.comment text, k) := by
  rw [h.getElem?_left] at hc
  rw [h.getElem?_line]
  cases hfound : locate parts i with
  | none =>
    rw [hfound] at hc
    cases hc
  | some found =>
    obtain ⟨p, k⟩ := found
    rw [hfound] at hc
    cases p with
    | code | string => exact .inl hc
    | comment text => exact .inr ⟨List.eq_of_mem_replicate (List.mem_of_getElem? hc), text, k, rfl⟩
    | remark => cases hc

theorem isQuote_of_locate (h : Stretches inside raw parts after) {quote : Char} {body : List Char} {closed : Bool}
    (hstring : locate parts i = some (.string quote body closed, k)) : isQuote quote = true := by
  induction h generalizing i with
  | nil => cases hstring
  | cons hfirst _ ih =>
    rw [locate] at hstring
    split at hstring
    · cases hstring
      cases hfirst <;> assumption
    · exact ih hstring

theorem behind_unclosed (h : Stretches inside raw parts after) {quote : Char} {body : List Char} {n : Nat}
    (hstring : locate parts i = some (.string quote body false, k)) (hle : i ≤ n) {found : Stretch × Nat}
    (hfound : locate parts n = some found) : found.1 = .string quote body false := by
  induction h generalizing i n with
  | nil => cases hstring
  | cons hfirst hrest ih =>
    rw [locate] at hstring hfound
    split at hstring
    · cases hstring
      cases hfirst
      obtain rfl := hrest.nil_parts
      split at hfound
      · cases hfound
        rfl
      · cases hfound
    · rw [if_neg (by omega)] at hfound
      exact ih hstring (by omega) hfound

end Stretches

/-! ## Stripping twice -/

/-- A line of strings, and of characters between them that open no comment. -/
inductive Uncommented : List Char → Prop
  | nil : Uncommented []
  | code {c : Char} {rest : List Char} (hc : isQuote c = false) (hmark : ¬ Marked (c :: rest)) (h : Uncommented rest) :
      Uncommented (c :: rest)
  | string {quote : Char} {body rest : List Char} (hquote : isQuote quote = true) (hbody : quote ∉ body)
      (h : Uncommented rest) : Uncommented (quote :: (body ++ quote :: rest))
  | unclosed {quote : Char} {body : List Char} (hquote : isQuote quote = true) (hbody : quote ∉ body) :
      Uncommented (quote :: body)

theorem Marked.second {c : Char} {cs : List Char} (h : Marked (c :: cs)) :
    ∃ d ∈ cs.head?, d ≠ ' ' ∧ ∀ rest : List Char, rest.head? = some d → Marked (c :: rest) := by
  have hmark {a b : Char} (hb : b ≠ ' ') (hstart : [a, b] <+: c :: cs) :
      ∃ d ∈ cs.head?, d ≠ ' ' ∧ ∀ rest : List Char, rest.head? = some d → [a, b] <+: c :: rest := by
    obtain ⟨tail, htail⟩ := hstart
    obtain ⟨rfl, rfl⟩ := List.cons.inj htail
    refine ⟨b, rfl, hb, fun rest hrest => ?_⟩
    obtain ⟨after, rfl⟩ := List.head?_eq_some_iff.mp hrest
    exact ⟨after, rfl⟩
  rcases h with h | h | h <;> obtain ⟨d, hd, hne, hall⟩ := hmark (by decide) h
  · exact ⟨d, hd, hne, fun rest hrest => .inl (hall rest hrest)⟩
  · exact ⟨d, hd, hne, fun rest hrest => .inr (.inl (hall rest hrest))⟩
  · exact ⟨d, hd, hne, fun rest hrest => .inr (.inr (hall rest hrest))⟩

theorem Marked.append {cs : List Char} (h : Marked cs) (tail : List Char) : Marked (cs ++ tail) := by
  have hstart {mark : List Char} (hmark : mark <+: cs) : mark <+: cs ++ tail := hmark.trans (List.prefix_append cs tail)
  exact h.imp hstart (Or.imp hstart hstart)

namespace Uncommented

variable {cs : List Char}

theorem blanks (h : Uncommented cs) (n : Nat) : Uncommented (List.replicate n ' ' ++ cs) := by
  induction n with
  | zero => exact h
  | succ n ih =>
    rw [List.replicate_succ, List.cons_append]
    exact .code rfl (by rintro (h | h | h) <;> simp at h) ih

theorem of_append {front back : List Char} (h : Uncommented (front ++ back)) : Uncommented front := by
  generalize hcs : front ++ back = cs at h
  induction h generalizing front with
  | nil =>
    obtain ⟨rfl, -⟩ := List.append_eq_nil_iff.mp hcs
    exact .nil
  | code hc hmark _ ih =>
    cases front with
    | nil => exact .nil
    | cons d front =>
      obtain ⟨rfl, rfl⟩ := List.cons.inj hcs
      exact .code hc (fun h => hmark (h.append back)) (ih rfl)
  | @string quote body rest hquote hbody _ ih =>
    cases front with
    | nil => exact .nil
    | cons d front =>
      obtain ⟨rfl, htail⟩ := List.cons.inj hcs
      -- the cut is inside the string or behind it
      rcases List.append_eq_append_iff.mp htail with ⟨more, rfl, -⟩ | ⟨more, rfl, hmore⟩
      · exact .unclosed hquote fun hmem => hbody (List.mem_append_left more hmem)
      · cases more with
        | nil => exact .unclosed hquote (by simpa using hbody)
        | cons e more =>
          obtain ⟨rfl, rfl⟩ := List.cons.inj hmore
          exact .string hquote hbody (ih rfl)
  | unclosed hquote hbody =>
    cases front with
    | nil => exact .nil
    | cons d front =>
      obtain ⟨rfl, rfl⟩ := List.cons.inj hcs
      exact .unclosed hquote fun hmem => hbody (List.mem_append_left back hmem)

theorem stretches (h : Uncommented cs) : ∃ parts, Stretches false cs parts false ∧ parts.flatMap Stretch.left = cs := by
  induction h with
  | nil => exact ⟨[], .nil false, rfl⟩
  | code hc hmark _ ih =>
    obtain ⟨parts, hparts, hleft⟩ := ih
    exact ⟨_, .cons (.code hc hmark) hparts, congrArg (_ :: ·) hleft⟩
  | string hquote hbody _ ih =>
    obtain ⟨parts, hparts, hleft⟩ := ih
    refine ⟨_, .cons (.string hquote hbody) hparts, ?_⟩
    rw [List.flatMap_cons, hleft]
    simp [Stretch.left, Stretch.text]
  | unclosed hquote hbody => exact ⟨_, .cons (.unclosed hquote hbody) (.nil false), List.append_nil _⟩

end Uncommented

theorem Begins.uncommented {inside after : Bool} {raw rest cs : List Char} {p : Stretch} (h : Begins inside raw p rest after)
    (hhead : ∀ c ∈ cs.head?, rest.head? = some c ∨ c = ' ') (hend : rest = [] → cs = []) (hcs : Uncommented cs) :
    Uncommented (p.left ++ cs) := by
  cases h with
  | code hc hmark =>
    refine .code hc (fun hmarked => ?_) hcs
    obtain ⟨d, hd, hblank, hall⟩ := hmarked.second
    exact hmark (hall rest ((hhead d hd).resolve_right hblank))
  | string hquote hbody =>
    simpa [Stretch.left, Stretch.text] using Uncommented.string hquote hbody hcs
  | unclosed hquote hbody =>
    rw [hend rfl, List.append_nil]
    exact .unclosed hquote hbody
  | remark => exact hcs
  | comment | inside | unfinished => exact hcs.blanks _

theorem Stretches.uncommented {inside after : Bool} {raw : List Char} {parts : List Stretch}
    (h : Stretches inside raw parts after) : Uncommented (parts.flatMap Stretch.left) := by
  induction h with
  | nil => exact .nil
  | cons hfirst hrest ih =>
    rw [List.flatMap_cons]
    refine hfirst.uncommented (fun c hc => ?_) (fun hnone => ?_) ih
    · rw [List.head?_eq_getElem?] at hc ⊢
      exact (hrest.left_column hc).imp id And.left
    · subst hnone
      rw [hrest.nil_parts, List.flatMap_nil]

/-! ## Stripped lines -/

namespace Stretches

variable {inside after : Bool} {raw : List Char} {parts : List Stretch} {i k n : Nat} {c quote : Char} {body : List Char}

/-- A stripped line is what is left of the parts, but for blanks at the end. -/
theorem stripped (h : Stretches inside raw parts after) :
    ∃ trail, parts.flatMap Stretch.left = (Syntax.stripComments raw inside).1 ++ trail ∧
      (∀ c ∈ trail, Text.isBlank c = true) ∧
      ∀ c ∈ (Syntax.stripComments raw inside).1.getLast?, Text.isBlank c = false := by
  rw [h.stripComments]
  exact Text.dropEndWhile_spec Text.isBlank (parts.flatMap Stretch.left)

theorem left_of_stripped (h : Stretches inside raw parts after) (hi : i < (Syntax.stripComments raw inside).1.length) :
    (Syntax.stripComments raw inside).1[i]? = (parts.flatMap Stretch.left)[i]? := by
  obtain ⟨trail, hleft, -⟩ := h.stripped
  rw [hleft, List.getElem?_append_left hi]

theorem blank_of_stripped (h : Stretches inside raw parts after) (hn : (Syntax.stripComments raw inside).1.length ≤ n)
    (hc : (parts.flatMap Stretch.left)[n]? = some c) : Text.isBlank c = true := by
  obtain ⟨trail, hleft, htrail, -⟩ := h.stripped
  rw [hleft, List.getElem?_append_right hn] at hc
  exact htrail c (List.mem_of_getElem? hc)

/-- A closed string ends in a quote, so no column of it is behind the stripped line. -/
theorem lt_of_string (h : Stretches inside raw parts after) (hstring : locate parts i = some (.string quote body true, k)) :
    i < (Syntax.stripComments raw inside).1.length := by
  by_contra hbehind
  have hlength : (Stretch.string quote body true).text.length = body.length + 2 := by simp [Stretch.text]
  have hk := locate_lt hstring
  have hlast : body.length + 1 < (Stretch.string quote body true).text.length := by omega
  obtain ⟨hki, hend⟩ := locate_within hstring hlast
  have hquote : (parts.flatMap Stretch.left)[i - k + (body.length + 1)]? = some quote := by
    rw [h.getElem?_left, hend]
    simp [Stretch.left, Stretch.text]
  have hblank := h.blank_of_stripped (by omega) hquote
  rcases isQuote_iff.mp (h.isQuote_of_locate hstring) with rfl | rfl <;> exact absurd hblank (by decide)

theorem blank_of_unclosed (h : Stretches inside raw parts after)
    (hstring : locate parts i = some (.string quote body false, k)) (hi : (Syntax.stripComments raw inside).1.length ≤ i) :
    ∀ c ∈ raw.drop i, Text.isBlank c = true := by
  intro c hc
  obtain ⟨j, hj⟩ := List.getElem?_of_mem hc
  rw [List.getElem?_drop] at hj
  refine h.blank_of_stripped (n := i + j) (by omega) ?_
  rw [h.getElem?_line] at hj
  obtain ⟨⟨p, place⟩, hfound, hchar⟩ := Option.bind_eq_some_iff.mp hj
  obtain rfl : p = .string quote body false := h.behind_unclosed hstring (Nat.le_add_right i j) hfound
  rw [h.getElem?_left, hfound]
  exact hchar

end Stretches

/-- Nothing is stripped from a stripped line. -/
theorem stripComments_stripped (raw : List Char) (inComment : Bool) :
    stripComments (stripComments raw inComment).1 false = ((stripComments raw inComment).1, false) := by
  obtain ⟨parts, after, hparts⟩ := exists_stretches inComment raw
  obtain ⟨trail, hleft, -, hlast⟩ := hparts.stripped
  have hplain : Uncommented (stripComments raw inComment).1 := (hleft ▸ hparts.uncommented).of_append
  obtain ⟨parts', hparts', hleft'⟩ := hplain.stretches
  have hscan := hparts'.stripFrom []
  rw [hleft', List.append_nil] at hscan
  exact stripComments_whole hscan hlast

/-- A stripped line is no longer than the line, and to strip it again changes nothing. It is what is left of the parts of
the line, without the blanks at the end. So its characters stand at their columns: each is the line's own, or a blank in a
block comment. What the line has in a string that starts outside of comments is there, but for blanks at the end of the
line in a string that is not closed on it. -/
theorem stripComments_columns (raw : List Char) (inComment : Bool) :
    (stripComments raw inComment).1.length ≤ raw.length ∧
    stripComments (stripComments raw inComment).1 false = ((stripComments raw inComment).1, false) ∧
    (∃ parts after, Stretches inComment raw parts after) ∧
    ∀ parts after, Stretches inComment raw parts after →
      stripComments raw inComment = (Text.dropEndWhile Text.isBlank (parts.flatMap Stretch.left), after) ∧
      (∀ i c, (stripComments raw inComment).1[i]? = some c →
        raw[i]? = some c ∨ c = ' ' ∧ ∃ text k, locate parts i = some (.comment text, k)) ∧
      ∀ i quote body closed k, locate parts i = some (.string quote body closed, k) →
        (stripComments raw inComment).1[i]? = raw[i]? ∨ closed = false ∧ ∀ c ∈ raw.drop i, Text.isBlank c = true := by
  have hlength := (over_stripComments raw inComment).length_le
  rw [Nat.zero_add] at hlength
  refine ⟨hlength, stripComments_stripped raw inComment, exists_stretches inComment raw, fun parts after h => ?_⟩
  refine ⟨h.stripComments, ?_, ?_⟩
  · intro i c hc
    have hi := (List.getElem?_eq_some_iff.mp hc).1
    rw [h.left_of_stripped hi] at hc
    exact h.left_column hc
  · intro i quote body closed k hstring
    by_cases hi : i < (stripComments raw inComment).1.length
    · left
      rw [h.left_of_stripped hi, h.getElem?_left, h.getElem?_line, hstring]
      cases closed <;> rfl
    · cases closed with
      | true => exact absurd (h.lt_of_string hstring) hi
      | false => exact .inr ⟨rfl, h.blank_of_unclosed hstring (Nat.not_lt.mp hi)⟩

/-- A block comment with a quote in it, a string with a mark in it, and a comment at the end. -/
def commentedString : List Char := ['/', '*', '\'', '*', '/', '\'', '-', '-', '\'', '/', '/']

theorem commentedString_stretches : Stretches false commentedString
    [.comment ['/', '*'], .comment ['\'', '*', '/'], .string '\'' ['-', '-'] true, .remark ['/', '/']] false := by
  have hcut : Text.FirstCut ['*', '/'] ['\'', '*', '/', '\'', '-', '-', '\'', '/', '/'] ['\'']
      ['\'', '-', '-', '\'', '/', '/'] :=
    Text.findSplit_first rfl
  have hstring := @Begins.string '\'' ['-', '-'] ['/', '/'] rfl (by decide)
  exact .cons (.comment _) (.cons (.inside hcut) (.cons hstring (.cons (.remark (.inr (List.prefix_refl _))) (.nil false))))

/-- The mark in the string is kept. -/
theorem stripComments_columns_quoted :
    locate [.comment ['/', '*'], .comment ['\'', '*', '/'], .string '\'' ['-', '-'] true, .remark ['/', '/']] 7 =
        some (.string '\'' ['-', '-'] true, 2) ∧
      (stripComments commentedString false).1[7]? = some '-' ∧ (stripComments commentedString false).2 = false := by
  obtain ⟨-, -, -, hall⟩ := stripComments_columns commentedString false
  obtain ⟨hwhole, -, hstrings⟩ := hall _ _ commentedString_stretches
  have hkept := hstrings 7 '\'' ['-', '-'] true 2 rfl
  exact ⟨rfl, hkept.resolve_right (fun h => nomatch h.1), congrArg Prod.snd hwhole⟩

/-- A blank at the end of the line is lost although a string that was not closed holds it. -/
theorem stripComments_blank_in_string :
    ¬ ∀ (raw : List Char) (inComment : Bool), (∀ c ∈ raw, Text.isLineBreak c = false) →
      ∀ parts after, Stretches inComment raw parts after →
        ∀ i quote body closed k, locate parts i = some (.string quote body closed, k) →
          (stripComments raw inComment).1[i]? = raw[i]? := by
  intro hkept
  have hparts : Stretches false ['\'', 'a', ' '] [.string '\'' ['a', ' '] false] false :=
    .cons (.unclosed rfl (by decide)) (.nil false)
  have hunbroken : ∀ c ∈ ['\'', 'a', ' '], Text.isLineBreak c = false := by
    simp only [List.forall_mem_cons]
    exact ⟨rfl, rfl, rfl, List.forall_mem_nil _⟩
  have hlost := hkept ['\'', 'a', ' '] false hunbroken _ _ hparts 2 '\'' ['a', ' '] false 2 rfl
  exact absurd hlost (by decide)

end Conductor.Syntax
