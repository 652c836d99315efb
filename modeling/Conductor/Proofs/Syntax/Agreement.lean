import Conductor.Proofs.Syntax.Lexing
import Conductor.Proofs.Syntax.Reading
import Mathlib

/-!
# The tokenizer and the grammar

Statements are cut at tokens, and what is between two cuts is read again by the grammar,
character by character. Wherever the grammar reads a text that a run of tokens covers, it
takes these tokens one by one: its terminals have their spans, and its literals their values.

Every terminal takes exactly the token at which it stands, but for the prefix operators: of
`!=` one could be taken for the prefix `!`. What is left then starts with an equals sign, and
no operand does.
-/

set_option autoImplicit false

namespace Conductor.Syntax

def TokenValue.literal? : TokenValue → Option Literal
  | .number n => some (.number n)
  | .string s quote => some (.text s (quote == '"'))
  | _ => none

mutual
/-- The literals of an expression with their positions, in the order in which they are written. -/
def Expr.literals : Expr → List (Literal × Pos)
  | .literal l pos => [(l, pos)]
  | .ref _ => []
  | .unary _ operand _ => operand.literals
  | .binary _ left right _ => left.literals ++ right.literals
  | .call _ args _ => argumentLiterals args
  | .pipe left _ args _ _ => left.literals ++ argumentLiterals args

def argumentLiterals : List (Option String × Expr) → List (Literal × Pos)
  | [] => []
  | arg :: rest => arg.2.literals ++ argumentLiterals rest
end

def CommandForm.literals (c : CommandForm) : List (Literal × Pos) := argumentLiterals c.args

theorem argumentLiterals_eq (args : List Arg) : argumentLiterals args = args.flatMap fun arg => arg.2.literals := by
  induction args with
  | nil => rfl
  | cons arg args ih => rw [argumentLiterals, ih, List.flatMap_cons]

/-! ## Terminals and lexemes -/

section

variable {cs : List Char} {v : TokenValue} {n m : Nat}

theorem Lexed.of_operator (h : Lexed cs v n) {s : String} (hs : s ∈ operators) (hstarts : s.toList <+: cs) :
    ∃ o ∈ operators, v = .op o ∧ n = o.length ∧ o.toList <+: cs ∧ s.toList <+: o.toList := by
  obtain ⟨c, rest, hc, hshort⟩ := operators_first s hs
  obtain ⟨after, hcs⟩ := hstarts
  obtain ⟨-, hword, -, hdigit, hpoint, hsingle, hdouble⟩ := shortOperators_apart c hshort
  rw [hc, List.cons_append] at hcs
  cases h with
  | string hquote =>
    obtain rfl := (List.cons.inj hcs).1
    rcases hquote with rfl | rfl
    · exact absurd rfl hsingle
    · exact absurd rfl hdouble
  | number hw =>
    obtain ⟨d, more, rfl, hd⟩ := hw.first
    obtain rfl := (List.cons.inj hcs).1
    rcases hd with hd | rfl
    · rw [hdigit] at hd
      cases hd
    · exact absurd rfl hpoint
  | word hc' =>
    obtain rfl := (List.cons.inj hcs).1
    rw [hword] at hc'
    cases hc'
  | operator ho =>
    obtain ⟨hmem, ho'⟩ := operator?_prefix ho
    rw [operator?_eq] at ho
    have hstarts : s.toList <+: _ := ⟨after, by rw [hc, List.cons_append, hcs]⟩
    exact ⟨_, hmem, rfl, rfl, ho', ordered_operators.longest ho hs hstarts⟩

def Sharp (fits : List Char → Option Nat) (V : TokenValue → List Char → Prop) : Prop :=
  ∀ cs m, fits cs = some m → Halts isTokenBlank cs ∧ ∀ v n, Lexed cs v n → n = m ∧ V v (cs.take m)

def Mark (v : TokenValue) (_ : List Char) : Prop := v.literal? = none

theorem halts_operator {s : String} (hs : s ∈ operators) (hstarts : s.toList <+: cs) : Halts isTokenBlank cs := by
  obtain ⟨c, rest, hc, hshort⟩ := operators_first s hs
  obtain ⟨after, rfl⟩ := hstarts
  rw [hc]
  exact halts_cons (shortOperators_apart c hshort).1 _

structure Choice (symbols : List String) : Prop where
  ordered : Ordered symbols
  subset : ∀ s ∈ symbols, s ∈ operators
  closed : ∀ s ∈ symbols, ∀ o ∈ operators, s.toList.isPrefixOf o.toList = true → o ∈ symbols

instance (symbols : List String) : Decidable (Choice symbols) :=
  decidable_of_iff (Ordered symbols ∧ (∀ s ∈ symbols, s ∈ operators) ∧
      ∀ s ∈ symbols, ∀ o ∈ operators, s.toList.isPrefixOf o.toList = true → o ∈ symbols)
    ⟨fun h => ⟨h.1, h.2.1, h.2.2⟩, fun h => ⟨h.ordered, h.subset, h.closed⟩⟩

theorem Choice.sharp {symbols : List String} (h : Choice symbols) : Sharp (Grammar.oneOf symbols) Mark := by
  intro cs m hfits
  obtain ⟨s, hfind, rfl⟩ := Option.map_eq_some_iff.mp hfits
  have hs := List.mem_of_find?_eq_some hfind
  have hstarts := List.find?_some hfind
  rw [List.isPrefixOf_iff_prefix] at hstarts
  refine ⟨halts_operator (h.subset s hs) hstarts, fun v n hlexed => ?_⟩
  obtain ⟨o, ho, rfl, rfl, hocs, hso⟩ := hlexed.of_operator (h.subset s hs) hstarts
  have hmem := h.closed s hs o ho (List.isPrefixOf_iff_prefix.mpr hso)
  have hsame := (h.ordered.longest hfind hmem hocs).eq_of_length_le hso.length_le
  exact ⟨by rw [← String.length_toList, hsame, String.length_toList], rfl⟩

theorem exactly_eq_oneOf (s : String) : Grammar.exactly s = Grammar.oneOf [s] := by
  funext cs
  simp only [Grammar.exactly, Grammar.oneOf, List.find?_cons, List.find?_nil]
  cases s.toList.isPrefixOf cs <;> rfl

theorem sharp_notBefore {s : String} {after : List Char} (hs : s ∈ operators)
    (hafter : ∀ o ∈ operators, s.toList.isPrefixOf o.toList = true →
      o = s ∨ (o.toList.drop s.length).head?.any after.contains = true) :
    Sharp (Grammar.notBefore s after) Mark := by
  intro cs m hfits
  unfold Grammar.notBefore at hfits
  split at hfits
  · next hstarts =>
    rw [List.isPrefixOf_iff_prefix] at hstarts
    have hshort : (cs.drop s.length).head?.any after.contains = false ∧ m = s.length := by
      split at hfits
      · next c more hmore =>
        split at hfits
        · cases hfits
        · next hc => exact ⟨by simpa [hmore] using hc, (Option.some.inj hfits).symm⟩
      · next hmore => exact ⟨by rw [hmore]; rfl, (Option.some.inj hfits).symm⟩
    refine ⟨halts_operator hs hstarts, fun v n hlexed => ?_⟩
    obtain ⟨o, ho, rfl, rfl, hocs, hso⟩ := hlexed.of_operator hs hstarts
    rcases hafter o ho (List.isPrefixOf_iff_prefix.mpr hso) with rfl | hlonger
    · exact ⟨hshort.2.symm, rfl⟩
    · -- the longer operator would show in the text
      obtain ⟨rest, rfl⟩ := hocs
      have hdrop : (o.toList ++ rest).drop s.length = o.toList.drop s.length ++ rest := by
        rw [List.drop_append_of_le_length (by rw [← String.length_toList]; exact hso.length_le)]
      rw [hdrop] at hshort
      cases hcut : o.toList.drop s.length with
      | nil => rw [hcut] at hlonger; cases hlonger
      | cons c more =>
        rw [hcut] at hlonger hshort
        have hnot : (some c).any after.contains = false := hshort.1
        rw [show (c :: more).head? = some c from rfl, hnot] at hlonger
        cases hlonger
  · cases hfits

theorem Sharp.or {f g : List Char → Option Nat} {V : TokenValue → List Char → Prop} (hf : Sharp f V) (hg : Sharp g V) :
    Sharp (fun cs => match f cs with | some n => some n | none => g cs) V := by
  intro cs m hfits
  dsimp only at hfits
  split at hfits
  · next n hn => exact hf cs m (hn.trans hfits)
  · exact hg cs m hfits

theorem sharp_identifier : Sharp Grammar.identifierExtent Mark := by
  intro cs m hfits
  cases cs with
  | nil => cases hfits
  | cons c rest =>
    simp only [Grammar.identifierExtent] at hfits
    split at hfits
    · next hstart =>
      have hsolid : isTokenBlank c = false := solid_of hstart (by decide)
      refine ⟨halts_cons hsolid rest, fun v n hlexed => ?_⟩
      generalize hcs : c :: rest = cs at hlexed
      cases hlexed with
      | string hquote =>
        obtain rfl := (List.cons.inj hcs).1
        rcases hquote with rfl | rfl <;> exact absurd hstart (by decide)
      | number hw hk =>
        obtain ⟨d, more, rfl, hd⟩ := hw.first
        obtain rfl := (List.cons.inj hcs).1
        rcases hd with hd | rfl
        · -- a digit that was converted is decimal
          have hdecimal := plain_of_numberOfNumeral hw hk c List.mem_cons_self hd
          simp only [Grammar.isIdentifierStart, hdecimal, Bool.not_true, Bool.and_false, Bool.false_or,
            Bool.or_eq_true, beq_iff_eq] at hstart
          rcases hstart with (rfl | rfl) | rfl <;> exact absurd hd (by decide)
        · exact absurd hstart (by decide)
      | word hc htail hend =>
        obtain ⟨rfl, rfl⟩ := List.cons.inj hcs
        rw [isIdentifierPart_eq, takeWhile_halts htail hend] at hfits
        exact ⟨Option.some.inj hfits, rfl⟩
      | operator ho =>
        subst hcs
        rw [(shortOperators_apart c (operator?_first ho)).2.2.1] at hstart
        cases hstart
    · cases hfits

theorem numberExtent_first (h : Grammar.numberExtent cs = some m) :
    ∃ c rest, cs = c :: rest ∧ (Text.isDecimal c = true ∨ c = '.') := by
  cases cs with
  | nil => cases h
  | cons c rest =>
    refine ⟨c, rest, rfl, ?_⟩
    by_contra hc
    simp only [not_or, Bool.not_eq_true] at hc
    have hfraction : decimalFraction (c :: rest) = 0 := by
      unfold decimalFraction
      split
      · next heq => exact absurd (List.cons.inj heq).1 hc.2
      · rfl
    rw [numberExtent_eq, List.takeWhile_cons_of_neg (by simp [hc.1]), List.dropWhile_cons_of_neg (by simp [hc.1]),
      hfraction] at h
    cases h

theorem sharp_number : Sharp Grammar.numberExtent fun v w => ∃ k, v = .number k ∧ numberOfNumeral w = .ok k := by
  intro cs m hfits
  obtain ⟨c, rest, rfl, hc⟩ := numberExtent_first hfits
  have hfirst : Text.isDigit c = true ∨ c = '.' := hc.imp_left Text.isDigit_of_isDecimal
  have hstart : isNumeralStart c = true := by simpa [isNumeralStart] using hfirst
  have hsolid : isTokenBlank c = false := solid_of hstart (by decide)
  refine ⟨halts_cons hsolid rest, fun v n hlexed => ?_⟩
  generalize hcs : c :: rest = cs at hlexed
  cases hlexed with
  | string hquote =>
    obtain rfl := (List.cons.inj hcs).1
    rcases hquote with rfl | rfl <;> exact absurd hfirst (by decide)
  | number hw hk hend =>
    rw [hcs, numberExtent_numeral hw (plain_of_numberOfNumeral hw hk) hend] at hfits
    obtain rfl := Option.some.inj hfits
    exact ⟨rfl, _, rfl, by rw [List.take_left]; exact hk⟩
  | word hstart =>
    obtain rfl := (List.cons.inj hcs).1
    rcases hfirst with hdigit | rfl
    · rw [isDigit_of_isWordStart hstart] at hdigit
      cases hdigit
    · exact absurd hstart (by decide)
  | operator ho =>
    subst hcs
    obtain ⟨-, -, -, hdigit, hpoint, -, -⟩ := shortOperators_apart c (operator?_first ho)
    rcases hfirst with hd | rfl
    · rw [hdigit] at hd
      cases hd
    · exact absurd rfl hpoint

theorem sharp_string {quote : Char} (hquote : quote = '\'' ∨ quote = '"') :
    Sharp (Grammar.stringExtent quote) fun v w => v = .string (Grammar.unquote w) quote := by
  intro cs m hfits
  cases cs with
  | nil => cases hfits
  | cons c rest =>
    simp only [Grammar.stringExtent] at hfits
    split at hfits
    · next hc =>
      obtain rfl : c = quote := beq_iff_eq.mp hc
      refine ⟨halts_cons (by rcases hquote with rfl | rfl <;> rfl) rest, fun v n hlexed => ?_⟩
      generalize hcs : c :: rest = cs at hlexed
      cases hlexed with
      | @string quote s after hquote' hshut =>
        obtain ⟨rfl, rfl⟩ := List.cons.inj hcs
        rw [closingExtent_doubled c s hshut] at hfits
        obtain rfl := Option.some.inj hfits
        have htake : (c :: (doubled c s ++ c :: after)).take ((doubled c s).length + 1 + 1) =
            c :: (doubled c s ++ [c]) := by
          rw [List.take_succ_cons, List.take_append, List.take_of_length_le (Nat.le_succ _), Nat.add_sub_cancel_left]
          rfl
        exact ⟨rfl, by rw [htake]; exact congrArg (TokenValue.string · c) (unquote_doubled c s).symm⟩
      | number hw =>
        obtain ⟨d, more, rfl, hd⟩ := hw.first
        obtain rfl := (List.cons.inj hcs).1
        rcases hquote with rfl | rfl <;> exact absurd hd (by decide)
      | word hstart =>
        obtain rfl := (List.cons.inj hcs).1
        rcases hquote with rfl | rfl <;> exact absurd hstart (by decide)
      | operator ho =>
        subst hcs
        obtain ⟨-, -, -, -, -, hsingle, hdouble⟩ := shortOperators_apart c (operator?_first ho)
        rcases hquote with rfl | rfl
        · exact absurd rfl hsingle
        · exact absurd rfl hdouble
    · cases hfits

end

/-! ## Rules -/

namespace Grammar

/-- The span of a token in the text that starts at `base`. -/
def span (base : Nat) (t : Token) : Nat × Nat := (t.start - base, t.stop - base)

/-- The literals of tokens, placed as the grammar places them. -/
def tokenLiterals (o : Origin) (base : Nat) (ts : List Token) : List (Literal × Pos) :=
  ts.filterMap fun t => t.value.literal?.map fun l => (l, o.pos (t.start - base))

variable {α β : Type} {o : Origin} {base : Nat}

/-- Where the text is cut into tokens, the rule takes some of them, one terminal each, and its result goes with their
literals. -/
def Tokenwise (o : Origin) (base : Nat) (r : Rule α) (P : α → List (Literal × Pos) → Prop) : Prop :=
  ∀ c far a c' far' ts, Lexes base c.position c.rest ts → r c far = (some (a, c'), far') →
    ∃ used left, ts = used ++ left ∧ Lexes base c'.position c'.rest left ∧
      c'.spans = (used.map (span base)).reverse ++ c.spans ∧ P a (tokenLiterals o base used)

namespace Tokenwise

variable {r s : Rule α} {P : α → List (Literal × Pos) → Prop} {Q : β → List (Literal × Pos) → Prop}

theorem pure {a : α} (h : P a []) : Tokenwise o base (Pure.pure a) P := by
  intro c far a' c' far' ts hts hrun
  cases hrun
  exact ⟨[], ts, rfl, hts, rfl, h⟩

theorem bind {f : α → Rule β} (h : Tokenwise o base r P)
    (hf : ∀ a us, P a us → Tokenwise o base (f a) fun b vs => Q b (us ++ vs)) : Tokenwise o base (r >>= f) Q := by
  intro c far b c' far' ts hts hrun
  simp only [Bind.bind, Rule.bind] at hrun
  split at hrun
  · next a c₁ far₁ hr =>
    obtain ⟨used, left, rfl, hleft, hspans, hP⟩ := h c far a c₁ far₁ ts hts hr
    obtain ⟨more, last, rfl, hlast, hspans', hQ⟩ := hf a _ hP c₁ far₁ b c' far' left hleft hrun
    refine ⟨used ++ more, last, by rw [List.append_assoc], hlast, ?_, ?_⟩
    · rw [hspans', hspans, List.map_append, List.reverse_append, List.append_assoc]
    · rwa [tokenLiterals, List.filterMap_append]
  · cases hrun

theorem mono {P' : α → List (Literal × Pos) → Prop} (h : Tokenwise o base r P) (hP : ∀ a us, P a us → P' a us) :
    Tokenwise o base r P' := by
  intro c far a c' far' ts hts hrun
  obtain ⟨used, left, hsplit, hleft, hspans, ha⟩ := h c far a c' far' ts hts hrun
  exact ⟨used, left, hsplit, hleft, hspans, hP a _ ha⟩

theorem orElse (hr : Tokenwise o base r P) (hs : Tokenwise o base s P) : Tokenwise o base (Rule.orElse r s) P := by
  intro c far a c' far' ts hts hrun
  simp only [Rule.orElse] at hrun
  split at hrun
  · next hfirst =>
    cases hrun
    exact hr _ _ _ _ _ _ hts hfirst
  · exact hs _ _ _ _ _ _ hts hrun

theorem skip {f : α → Rule β} (h : Tokenwise o base r fun _ us => us = []) (hf : ∀ a, Tokenwise o base (f a) Q) :
    Tokenwise o base (r >>= f) Q := by
  refine h.bind fun a us hus => ?_
  subst hus
  exact hf a

theorem next {g : α → List (Literal × Pos)} {f : α → Rule β} (h : Tokenwise o base r fun a us => us = g a)
    (hf : ∀ a, Tokenwise o base (f a) fun b us => Q b (g a ++ us)) : Tokenwise o base (r >>= f) Q := by
  refine h.bind fun a us hus => ?_
  subst hus
  exact hf a

theorem optional {g : α → List (Literal × Pos)} (h : Tokenwise o base r fun a us => us = g a) :
    Tokenwise o base (Rule.optional r) fun a us => us = (a.map g).getD [] :=
  orElse (h.next fun _ => pure (List.append_nil _)) (pure rfl)

theorem many {g : α → List (Literal × Pos)} (h : Tokenwise o base r fun a us => us = g a) (n : Nat) :
    Tokenwise o base (Rule.many r n) fun as us => us = as.flatMap g := by
  induction n with
  | zero => exact pure rfl
  | succ n ih =>
    refine orElse (h.next fun a => ih.next fun as => pure ?_) (pure rfl)
    rw [List.append_nil, List.flatMap_cons]

end Tokenwise

theorem take_terminal {fits : List Char → Option Nat} {V : TokenValue → List Char → Prop} {c c' : Cursor} {far far' : Nat}
    {l : Nat × List Char} {ts : List Token} (hts : Lexes base c.position c.rest ts)
    (hrun : terminal fits c far = (some (l, c'), far')) (hsolid : Halts isTokenBlank c.rest) (hne : c.rest ≠ [])
    (hsharp : ∀ v n m, Lexed c.rest v n → fits c.rest = some m → n = m ∧ V v (c.rest.take m)) :
    ∃ used left, ts = used ++ left ∧ Lexes base c'.position c'.rest left ∧
      c'.spans = (used.map (span base)).reverse ++ c.spans ∧
      ∃ v, V v l.2 ∧ tokenLiterals o base used = (v.literal?.map fun x => (x, o.pos l.1)).toList := by
  unfold terminal at hrun
  split at hrun
  · next m hm =>
    cases hrun
    generalize hcs : c.rest = cs at *
    generalize hp : c.position = p at *
    cases hts with
    | done => exact absurd rfl hne
    | @blank _ d rest _ hd =>
      rw [hsolid d rfl] at hd
      cases hd
    | @token _ n _ t left hlexed hstart hstop hleft =>
      obtain ⟨rfl, hV⟩ := hsharp t.value n m hlexed hm
      refine ⟨[t], left, rfl, hleft, ?_, t.value, hV, ?_⟩
      · simp [span, hstart, hstop, Nat.add_assoc]
      · simp only [tokenLiterals, hstart, Nat.add_sub_cancel_left, List.filterMap_cons, List.filterMap_nil]
        cases t.value.literal? <;> rfl
  · cases hrun

theorem tokenwise_terminal {fits : List Char → Option Nat} {V : TokenValue → List Char → Prop} (h : Sharp fits V)
    (hnil : fits [] = none) : Tokenwise o base (terminal fits) fun l us =>
      ∃ v, V v l.2 ∧ us = (v.literal?.map fun x => (x, o.pos l.1)).toList := by
  intro c far l c' far' ts hts hrun
  cases hfits : fits c.rest with
  | none =>
    simp only [terminal, hfits] at hrun
    cases hrun
  | some m =>
    obtain ⟨hsolid, hsharp⟩ := h c.rest m hfits
    refine take_terminal hts hrun hsolid (fun hempty => ?_) fun v n m' hlexed hm => ?_
    · rw [hempty, hnil] at hfits
      cases hfits
    · obtain rfl := Option.some.inj (hfits.symm.trans hm)
      exact hsharp v n hlexed

theorem tokenwise_mark {fits : List Char → Option Nat} (h : Sharp fits Mark) (hnil : fits [] = none) :
    Tokenwise o base (terminal fits) fun _ us => us = [] := by
  refine (tokenwise_terminal h hnil).mono fun l us hus => ?_
  obtain ⟨v, hv, rfl⟩ := hus
  rw [show v.literal? = none from hv]
  rfl

theorem Lexes.skip {p : Nat} {cs : List Char} {ts : List Token} (h : Lexes base p cs ts) :
    Lexes base (p + (cs.takeWhile isTokenBlank).length) (cs.drop (cs.takeWhile isTokenBlank).length) ts := by
  induction h with
  | done => exact .done
  | @blank p c rest ts hc _ ih =>
    rw [List.takeWhile_cons_of_pos hc, List.length_cons, List.drop_succ_cons, Nat.add_comm _ 1, ← Nat.add_assoc]
    exact ih
  | @token p n cs t ts hlexed hstart hstop h _ =>
    obtain ⟨c, rest, rfl, hc⟩ := hlexed.first
    rw [List.takeWhile_cons_of_neg (by simp [hc])]
    exact .token hlexed hstart hstop h

theorem tokenwise_blanks : Tokenwise o base blanks fun _ us => us = [] := by
  intro c far a c' far' ts hts hrun
  cases hrun
  exact ⟨[], ts, rfl, Lexes.skip hts, rfl, rfl⟩

theorem tokenwise_finish : Tokenwise o base finish fun _ us => us = [] := by
  intro c far a c' far' ts hts hrun
  unfold finish at hrun
  split at hrun
  · cases hrun
    exact ⟨[], ts, rfl, hts, rfl, rfl⟩
  · cases hrun

/-! ### Marks -/

theorem tokenwise_oneOf {symbols : List String} (h : Choice symbols) :
    Tokenwise o base (terminal (oneOf symbols)) fun _ us => us = [] := by
  refine tokenwise_mark h.sharp ?_
  have hnone : symbols.find? (fun s => s.toList.isPrefixOf []) = none := by
    rw [List.find?_eq_none]
    intro s hs
    obtain ⟨c, rest, hc, -⟩ := operators_first s (h.subset s hs)
    simp [hc]
  simp only [oneOf, hnone, Option.map_none]

theorem tokenwise_exactly {s : String} (h : Choice [s]) :
    Tokenwise o base (terminal (exactly s)) fun _ us => us = [] := by
  rw [exactly_eq_oneOf]
  exact tokenwise_oneOf h

theorem tokenwise_identifier : Tokenwise o base identifier fun _ us => us = [] := tokenwise_mark sharp_identifier rfl

theorem tokenwise_equals : Tokenwise o base equals fun _ us => us = [] :=
  tokenwise_mark (sharp_notBefore (by decide) (by decide)) rfl

theorem tokenwise_pipeOp : Tokenwise o base pipeOp fun _ us => us = [] :=
  tokenwise_exactly (by decide)

theorem tokenwise_powerOp : Tokenwise o base powerOp fun _ us => us = [] :=
  tokenwise_exactly (by decide)

theorem tokenwise_comma : Tokenwise o base comma fun _ us => us = [] :=
  tokenwise_exactly (by decide)

theorem tokenwise_leftParen : Tokenwise o base leftParen fun _ us => us = [] :=
  tokenwise_exactly (by decide)

theorem tokenwise_rightParen : Tokenwise o base rightParen fun _ us => us = [] :=
  tokenwise_exactly (by decide)

theorem tokenwise_operator (l : Level) : Tokenwise o base l.operator fun _ us => us = [] := by
  cases l with
  | or => exact tokenwise_mark (sharp_notBefore (by decide) (by decide)) rfl
  | and => exact tokenwise_oneOf (by decide)
  | comparison => exact tokenwise_oneOf (by decide)
  | concat => exact tokenwise_exactly (by decide)
  | additive => exact tokenwise_oneOf (by decide)
  | multiplicative =>
    have hdivide : Choice ["/", "%"] := by decide
    exact tokenwise_mark ((sharp_notBefore (by decide) (by decide)).or hdivide.sharp) rfl

/-! ### Leaves -/

theorem tokenwise_number : Tokenwise o base (number o) fun e us => us = e.literals := by
  intro c far e c' far' ts hts hrun
  unfold number at hrun
  split at hrun
  · next p w c₁ far₁ hterminal =>
    split at hrun
    · next n hn =>
      obtain ⟨he, rfl⟩ := Prod.mk.inj hrun
      obtain ⟨rfl, rfl⟩ := Prod.mk.inj (Option.some.inj he)
      obtain ⟨used, left, hsplit, hleft, hspans, v, ⟨k, rfl, hk⟩, hliterals⟩ :=
        tokenwise_terminal (o := o) sharp_number rfl c far (p, w) c₁ far₁ ts hts hterminal
      obtain rfl := Except.ok.inj (hk.symm.trans hn)
      exact ⟨used, left, hsplit, hleft, hspans, hliterals⟩
    · cases hrun
  · cases hrun

theorem tokenwise_quoted {quote : Char} (hquote : quote = '\'' ∨ quote = '"') :
    Tokenwise o base (terminal (stringExtent quote)) fun l us =>
      us = [(.text (unquote l.2) (quote == '"'), o.pos l.1)] := by
  refine (tokenwise_terminal (sharp_string hquote) rfl).mono fun l us hus => ?_
  obtain ⟨v, rfl, rfl⟩ := hus
  rfl

theorem tokenwise_string : Tokenwise o base (string o) fun e us => us = e.literals := by
  apply Tokenwise.orElse
  · exact (tokenwise_quoted (.inl rfl)).next fun _ => .pure rfl
  · exact (tokenwise_quoted (.inr rfl)).next fun _ => .pure rfl

theorem tokenwise_symbol : Tokenwise o base (symbol o) fun e us => us = e.literals :=
  tokenwise_identifier.skip fun _ => .pure rfl

/-! ### Prefixes -/

theorem refuses_primary_equals (o : Origin) (n : Nat) (rest : List Char) :
    Rule.Refuses (primary o n) ('=' :: rest) := by
  cases n with
  | zero => exact fun c far _ => ⟨far, rfl⟩
  | succ n =>
    have hidentifier := refuses_identifier_start rest (c := '=') (by decide)
    have hparen : Rule.Refuses leftParen ('=' :: rest) := refuses_terminal rfl
    exact .both (refuses_number_start o rest (by decide) (by decide)) <|
      .both (refuses_string_start o rest (by decide) (by decide)) <|
      .both (hidentifier.first _) <| .both (hidentifier.first _) (hparen.first _)

theorem refuses_unary_equals (o : Origin) (n : Nat) (rest : List Char) : Rule.Refuses (unary o n) ('=' :: rest) := by
  cases n with
  | zero => exact fun c far _ => ⟨far, rfl⟩
  | succ n =>
    have hop : Rule.Refuses unaryOp ('=' :: rest) := refuses_unaryOp_start rest (by decide)
    exact .both (hop.first _) (refuses_primary_equals o n rest)

theorem prefix_cases : ∀ s ∈ ["-", "+", "!", "\\"], s ∈ operators ∧
    ∀ o ∈ operators, s.toList.isPrefixOf o.toList = true → o = s ∨ (o.toList.drop s.length).head? = some '=' := by
  decide +kernel

def operandOf (o : Origin) (n : Nat) (op : Nat × List Char) : Rule Expr := do
  blanks
  let operand ← unary o n
  pure (.unary (unaryOf op.2) operand (o.pos op.1))

theorem tokenwise_prefixed {n : Nat} (h : Tokenwise o base (unary o n) fun e us => us = e.literals) :
    Tokenwise o base (unaryOp >>= operandOf o n) fun e us => us = e.literals := by
  have htail : ∀ op, Tokenwise o base (operandOf o n op) fun e us => us = e.literals :=
    fun op => tokenwise_blanks.skip fun _ => h.next fun operand => .pure (List.append_nil _)
  intro c far e c' far' ts hts hrun
  simp only [Bind.bind, Rule.bind] at hrun
  split at hrun
  · next op c₁ far₁ hop =>
    obtain ⟨m, hm⟩ : ∃ m, oneOf ["-", "+", "!", "\\"] c.rest = some m := by
      cases hfits : oneOf ["-", "+", "!", "\\"] c.rest with
      | some m => exact ⟨m, rfl⟩
      | none =>
        simp only [unaryOp, terminal, hfits] at hop
        cases hop
    obtain ⟨s, hfind, rfl⟩ := Option.map_eq_some_iff.mp hm
    obtain ⟨hs, hlonger⟩ := prefix_cases s (List.mem_of_find?_eq_some hfind)
    have hstarts := List.find?_some hfind
    rw [List.isPrefixOf_iff_prefix] at hstarts
    by_cases hequals : (c.rest.drop s.length).head? = some '='
    · -- what is left starts with the equals sign
      exfalso
      obtain ⟨more, hmore⟩ : ∃ more, c₁.rest = '=' :: more := by
        simp only [unaryOp, terminal, hm] at hop
        cases hop
        cases hdrop : c.rest.drop s.length with
        | nil => simp [hdrop] at hequals
        | cons d more =>
          rw [hdrop] at hequals
          exact ⟨more, by rw [Option.some.inj hequals]⟩
      have hrefuses : Rule.Refuses (operandOf o n op) ('=' :: more) :=
        .bind (reads_no_blank fun d hd => by rw [← Option.some.inj hd]; rfl) fun _ _ =>
          (refuses_unary_equals o n more).first _
      obtain ⟨far₂, hnone⟩ := hrefuses c₁ far₁ hmore
      have hsome := hrun.symm.trans hnone
      cases hsome
    · obtain ⟨used, left, rfl, hleft, hspans, v, hv, hliterals⟩ :=
        take_terminal (o := o) (V := Mark) hts hop (halts_operator hs hstarts) (fun hempty => by
          rw [hempty] at hm
          cases hm) fun v n m hlexed hm' => by
            obtain ⟨op', hop', rfl, rfl, hcs, hso⟩ := hlexed.of_operator hs hstarts
            obtain rfl := Option.some.inj (hm.symm.trans hm')
            rcases hlonger op' hop' (List.isPrefixOf_iff_prefix.mpr hso) with rfl | hlong
            · exact ⟨rfl, rfl⟩
            · refine absurd ?_ hequals
              obtain ⟨rest, hrest⟩ := hcs
              rw [← hrest, List.drop_append_of_le_length (by rw [← String.length_toList]; exact hso.length_le),
                List.head?_append, hlong]
              rfl
      obtain ⟨more, last, rfl, hlast, hspans', he⟩ := htail op c₁ far₁ e c' far' left hleft hrun
      refine ⟨used ++ more, last, by rw [List.append_assoc], hlast, ?_, ?_⟩
      · rw [hspans', hspans, List.map_append, List.reverse_append, List.append_assoc]
      · rw [show v.literal? = none from hv] at hliterals
        simp only [tokenLiterals] at hliterals he ⊢
        rw [List.filterMap_append, hliterals, he]
        rfl
  · cases hrun

/-! ### Expressions -/

theorem literals_foldLeft (first : Expr) (rest : List ((Nat × List Char) × Expr)) :
    (foldLeft o first rest).literals = first.literals ++ rest.flatMap fun step => step.2.literals := by
  unfold foldLeft
  induction rest generalizing first with
  | nil => simp
  | cons step rest ih => rw [List.foldl_cons, ih, List.flatMap_cons, ← List.append_assoc]; rfl

theorem literals_foldPipes (first : Expr) (stages : List ((Nat × List Char) × (Nat × List Char) × List Arg)) :
    (stages.foldl (fun left stage =>
      .pipe left (String.ofList stage.2.1.2) stage.2.2 (o.pos stage.2.1.1) (o.pos stage.1.1)) first).literals =
      first.literals ++ stages.flatMap fun stage => argumentLiterals stage.2.2 := by
  induction stages generalizing first with
  | nil => simp
  | cons stage stages ih => rw [List.foldl_cons, ih, List.flatMap_cons, ← List.append_assoc]; rfl

structure ReadsTokens (o : Origin) (base n : Nat) : Prop where
  expression : Tokenwise o base (expression o n) fun e us => us = e.literals
  level : ∀ l, Tokenwise o base (level o l n) fun e us => us = e.literals
  power : Tokenwise o base (power o n) fun e us => us = e.literals
  unary : Tokenwise o base (unary o n) fun e us => us = e.literals
  primary : Tokenwise o base (primary o n) fun e us => us = e.literals
  callSuffix : Tokenwise o base (callSuffix o n) fun args us => us = argumentLiterals args
  argumentList : Tokenwise o base (argumentList o n) fun args us => us = argumentLiterals args
  argument : Tokenwise o base (argument o n) fun arg us => us = arg.2.literals

theorem tokenwise_never {P : α → List (Literal × Pos) → Prop} : Tokenwise o base (fun _ far => (none, far)) P := by
  intro c far a c' far' ts _ hrun
  cases hrun

theorem getD_argumentLiterals (args : Option (List Arg)) :
    (args.map argumentLiterals).getD [] = argumentLiterals (args.getD []) := by
  cases args <;> rfl

theorem ReadsTokens.operand {n : Nat} (h : ReadsTokens o base n) (l : Level) :
    Tokenwise o base (match l.tighter with
      | some t => Grammar.level o t n
      | none => Grammar.power o n) fun e us => us = e.literals := by
  split
  · exact h.level _
  · exact h.power

theorem readsTokens (n : Nat) : ReadsTokens o base n := by
  induction n with
  | zero =>
    exact ⟨tokenwise_never, fun _ => tokenwise_never, tokenwise_never, tokenwise_never, tokenwise_never,
      tokenwise_never, tokenwise_never, tokenwise_never⟩
  | succ n ih =>
    constructor
    case expression =>
      refine (ih.level .or).next fun first => ?_
      refine Tokenwise.next (.many (g := fun stage => argumentLiterals stage.2.2) ?_ n) fun stages => .pure ?_
      · refine tokenwise_blanks.skip fun _ => tokenwise_pipeOp.skip fun op => tokenwise_blanks.skip fun _ =>
          tokenwise_identifier.skip fun name => ih.callSuffix.optional.next fun args => .pure ?_
        rw [List.append_nil, getD_argumentLiterals]
      · rw [literals_foldPipes, List.append_nil]
    case level =>
      intro l
      have hoperand := ih.operand l
      refine hoperand.next fun first => ?_
      refine Tokenwise.next (.many (g := fun step => step.2.literals) ?_ n) fun rest => .pure ?_
      · exact tokenwise_blanks.skip fun _ => (tokenwise_operator l).skip fun op => tokenwise_blanks.skip fun _ =>
          hoperand.next fun right => .pure (List.append_nil _)
      · rw [literals_foldLeft, List.append_nil]
    case power =>
      refine ih.unary.next fun e => ?_
      refine Tokenwise.next (.optional (g := fun step => step.2.literals) ?_) fun exponent => ?_
      · exact tokenwise_blanks.skip fun _ => tokenwise_powerOp.skip fun op => tokenwise_blanks.skip fun _ =>
          ih.power.next fun right => .pure (List.append_nil _)
      · cases exponent with
        | none => exact .pure (by simp)
        | some step => exact .pure (by simp [Expr.literals])
    case unary => exact (tokenwise_prefixed ih.unary).orElse ih.primary
    case primary =>
      refine tokenwise_number.orElse (tokenwise_string.orElse (.orElse ?_ (tokenwise_symbol.orElse ?_)))
      · exact tokenwise_identifier.skip fun name => ih.callSuffix.next fun args => .pure (List.append_nil _)
      · exact tokenwise_leftParen.skip fun _ => tokenwise_blanks.skip fun _ => ih.expression.next fun inner =>
          tokenwise_blanks.skip fun _ => tokenwise_rightParen.skip fun _ => .pure (List.append_nil _)
    case callSuffix =>
      refine tokenwise_blanks.skip fun _ => tokenwise_leftParen.skip fun _ => tokenwise_blanks.skip fun _ =>
        ih.argumentList.optional.next fun args => tokenwise_blanks.skip fun _ => tokenwise_rightParen.skip fun _ =>
        .pure ?_
      rw [List.append_nil, getD_argumentLiterals]
    case argumentList =>
      refine ih.argument.next fun first => Tokenwise.next (.many (g := fun arg => arg.2.literals) ?_ n) fun rest => .pure ?_
      · exact tokenwise_blanks.skip fun _ => tokenwise_comma.skip fun _ => tokenwise_blanks.skip fun _ => ih.argument
      · rw [argumentLiterals, argumentLiterals_eq, List.append_nil]
    case argument =>
      refine .orElse ?_ (ih.expression.next fun value => .pure (List.append_nil _))
      exact tokenwise_identifier.skip fun name => tokenwise_blanks.skip fun _ => tokenwise_equals.skip fun _ =>
        tokenwise_blanks.skip fun _ => ih.expression.next fun value => .pure (List.append_nil _)

theorem tokenwise_command (n : Nat) : Tokenwise o base (command o n) fun c us => us = c.literals := by
  refine tokenwise_identifier.skip fun name => Tokenwise.next (.many (g := fun arg => arg.2.literals) ?_ n) fun args => .pure ?_
  · refine tokenwise_blanks.skip fun _ => .orElse ?_ ((readsTokens n).unary.next fun value => .pure (List.append_nil _))
    exact tokenwise_identifier.skip fun name => tokenwise_blanks.skip fun _ => tokenwise_equals.skip fun _ =>
      tokenwise_blanks.skip fun _ => (readsTokens n).unary.next fun value => .pure (List.append_nil _)
  · rw [List.append_nil, CommandForm.literals, argumentLiterals_eq]

theorem tokenwise_callTail (n : Nat) : Tokenwise o base (callTail o n) fun args us => us = argumentLiterals args :=
  .orElse ((readsTokens n).callSuffix.next fun _ => tokenwise_finish.skip fun _ => .pure (List.append_nil _))
    (readsTokens n).argumentList

/-- A rule that reads a whole text takes all its tokens. -/
theorem run_whole {r : Rule α} {g : α → List (Literal × Pos)} (h : Tokenwise o base r fun a us => us = g a)
    {cs : List Char} {ts : List Token} (hts : Lexes base 0 cs ts) {a : α} {spans : List (Nat × Nat)}
    (hrun : run (whole r) cs = .ok (a, spans)) :
    spans = ts.map (span base) ∧ g a = tokenLiterals o base ts := by
  have hwhole : Tokenwise o base (whole r) fun a us => us = g a :=
    h.next fun a => tokenwise_finish.skip fun _ => .pure (List.append_nil _)
  unfold run at hrun
  split at hrun
  · next a' c far hc =>
    cases hrun
    obtain ⟨used, left, rfl, hleft, hspans, hg⟩ := hwhole _ _ _ _ _ _ hts hc
    -- nothing is left of the text, and so of the tokens
    have hend : c.rest = [] := by
      simp only [whole, Bind.bind, Rule.bind, finish] at hc
      split at hc
      · next a₁ c₁ far₁ _ =>
        by_cases hempty : c₁.rest.isEmpty = true
        · rw [if_pos hempty] at hc
          cases hc
          exact List.isEmpty_iff.mp hempty
        · rw [if_neg hempty] at hc
          cases hc
      · cases hc
    rw [hend] at hleft
    cases hleft with
    | done =>
      rw [List.append_nil]
      exact ⟨by simp [hspans], hg.symm⟩
    | token hlexed =>
      obtain ⟨d, rest, hcons, -⟩ := hlexed.first
      cases hcons
  · cases hrun

end Grammar

open Grammar in
/-- Wherever the grammar reads the text that a run of tokens covers, as an expression, as a command or as the arguments
of a call, its terminals are those tokens and its literals have their values. -/
theorem grammar_takes_tokens {text : String} {line offset : Nat} {tokens : List Token}
    (htokens : tokenize text line offset = .ok tokens) {taken : List Token} (htaken : taken <:+: tokens)
    (hsolid : ∀ t ∈ taken, t.isEof = false) {first last : Token} (hfirst : taken.head? = some first)
    (hlast : taken.getLast? = some last) (origin : Origin) (depth : Nat) :
    let covered := (text.toList.take last.stop).drop first.start
    let spans := taken.map (span first.start)
    let literals := tokenLiterals origin first.start taken
    (∀ e found, run (whole (expression origin depth)) covered = .ok (e, found) →
      found = spans ∧ e.literals = literals) ∧
    (∀ c found, run (whole (command origin depth)) covered = .ok (c, found) →
      found = spans ∧ c.literals = literals) ∧
    (∀ args found, run (whole (callTail origin depth)) covered = .ok (args, found) →
      found = spans ∧ argumentLiterals args = literals) := by
  have hts := lexes_slice htokens htaken hsolid hfirst hlast
  refine ⟨fun e found hrun => ?_, fun c found hrun => ?_, fun args found hrun => ?_⟩
  · exact run_whole (readsTokens depth).expression hts hrun
  · exact run_whole (tokenwise_command depth) hts hrun
  · exact run_whole (tokenwise_callTail depth) hts hrun

open Grammar in
/-- The condition of a line, with a string that has a quote in it. -/
theorem grammar_takes_tokens_condition :
    let before : List Token := [⟨.word (String.ofList ['I', 'F']), 1, 1, 0, 2⟩]
    let taken : List Token := [⟨.word (String.ofList ['x']), 1, 4, 3, 4⟩, ⟨.op "!=", 1, 6, 5, 7⟩,
      ⟨.string (String.ofList ['a', '\'', 'b']) '\'', 1, 9, 8, 14⟩]
    let after : List Token := [⟨.word (String.ofList ['T', 'H', 'E', 'N']), 1, 16, 15, 19⟩, ⟨.eof, 1, 20, 19, 19⟩]
    let covered := ("IF x != 'a''b' THEN".toList.take 14).drop 3
    let origin : Origin := ⟨covered, 1, 4⟩
    tokenize "IF x != 'a''b' THEN" 1 0 = .ok (before ++ taken ++ after) ∧
      ∃ e found, run (whole (expression origin 12)) covered = .ok (e, found) ∧
        found = [(0, 1), (2, 4), (5, 11)] ∧ e.literals = tokenLiterals origin 3 taken := by
  intro before taken after covered origin
  have htokens : tokenize "IF x != 'a''b' THEN" 1 0 = .ok (before ++ taken ++ after) := by
    simp only [before, taken, after]
    cbv
  have hok : (run (whole (expression origin 12)) covered).isOk = true := by decide +kernel
  obtain ⟨⟨e, found⟩, hrun⟩ : ∃ result, run (whole (expression origin 12)) covered = .ok result := by
    cases hresult : run (whole (expression origin 12)) covered with
    | ok result => exact ⟨result, rfl⟩
    | error _ => rw [hresult] at hok; cases hok
  have hinfix : taken <:+: before ++ taken ++ after := List.infix_append before taken after
  have hagrees := (grammar_takes_tokens htokens hinfix (by decide) rfl rfl origin 12).1 e found hrun
  exact ⟨htokens, e, found, hrun, hagrees⟩

end Conductor.Syntax
