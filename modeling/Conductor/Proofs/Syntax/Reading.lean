import Conductor.Proofs.Syntax.Lexeme

/-!
# What rules read

A rule reads a text up to what follows it, or refuses it, from wherever it is tried; what
it has recorded so far does not matter. The rules for choice, sequence and repetition say so
of ordered choice and greedy repetition: to show that a repetition stops, its rule has to be
refused.
-/

set_option autoImplicit false

namespace Conductor.Syntax.Grammar

namespace Rule

variable {α β : Type} {P : α → Prop} {Q : β → Prop} {input mid rest : List Char}

def Reads (r : Rule α) (P : α → Prop) (input rest : List Char) : Prop :=
  ∀ c far, c.rest = input → ∃ a c' far', r c far = (some (a, c'), far') ∧ c'.rest = rest ∧ P a

def Refuses (r : Rule α) (input : List Char) : Prop := ∀ c far, c.rest = input → ∃ far', r c far = (none, far')

theorem Reads.pure {a : α} (h : P a) : Reads (pure a) P input input := fun c far hc => ⟨a, c, far, rfl, hc, h⟩

theorem Reads.mono {P' : α → Prop} {r : Rule α} (h : Reads r P input rest) (hP : ∀ a, P a → P' a) :
    Reads r P' input rest := by
  intro c far hc
  obtain ⟨a, c', far', hr, hrest, ha⟩ := h c far hc
  exact ⟨a, c', far', hr, hrest, hP a ha⟩

theorem Reads.bind {r : Rule α} {f : α → Rule β} (h : Reads r P input mid) (hf : ∀ a, P a → Reads (f a) Q mid rest) :
    Reads (r >>= f) Q input rest := by
  intro c far hc
  obtain ⟨a, c', far', hr, hmid, ha⟩ := h c far hc
  obtain ⟨b, c'', far'', hb, hrest, hQ⟩ := hf a ha c' far' hmid
  refine ⟨b, c'', far'', ?_, hrest, hQ⟩
  show Rule.bind r f c far = _
  simp only [Rule.bind, hr, hb]

theorem Refuses.bind {r : Rule α} {f : α → Rule β} (h : Reads r P input mid) (hf : ∀ a, P a → Refuses (f a) mid) :
    Refuses (r >>= f) input := by
  intro c far hc
  obtain ⟨a, c', far', hr, hmid, ha⟩ := h c far hc
  obtain ⟨far'', hb⟩ := hf a ha c' far' hmid
  refine ⟨far'', ?_⟩
  show Rule.bind r f c far = _
  simp only [Rule.bind, hr, hb]

theorem Refuses.first {r : Rule α} (h : Refuses r input) (f : α → Rule β) : Refuses (r >>= f) input := by
  intro c far hc
  obtain ⟨far', hr⟩ := h c far hc
  refine ⟨far', ?_⟩
  show Rule.bind r f c far = _
  simp only [Rule.bind, hr]

theorem Reads.left {r : Rule α} (h : Reads r P input rest) (s : Rule α) : Reads (orElse r s) P input rest := by
  intro c far hc
  obtain ⟨a, c', far', hr, hrest, ha⟩ := h c far hc
  exact ⟨a, c', far', by simp only [orElse, hr], hrest, ha⟩

theorem Reads.right {r s : Rule α} (hr : Refuses r input) (h : Reads s P input rest) :
    Reads (orElse r s) P input rest := by
  intro c far hc
  obtain ⟨far', hr⟩ := hr c far hc
  obtain ⟨a, c', far'', hs, hrest, ha⟩ := h c far' hc
  exact ⟨a, c', far'', by simp only [orElse, hr, hs], hrest, ha⟩

theorem Refuses.both {r s : Rule α} (hr : Refuses r input) (hs : Refuses s input) : Refuses (orElse r s) input := by
  intro c far hc
  obtain ⟨far', hr⟩ := hr c far hc
  obtain ⟨far'', hs⟩ := hs c far' hc
  exact ⟨far'', by simp only [orElse, hr, hs]⟩

theorem Reads.present {r : Rule α} (h : Reads r P input rest) :
    Reads (optional r) (fun a => ∃ b, a = some b ∧ P b) input rest :=
  Reads.left (h.bind fun b hb => .pure ⟨b, rfl, hb⟩) _

theorem Reads.absent {r : Rule α} (h : Refuses r input) : Reads (optional r) (· = none) input input :=
  Reads.right (h.first _) (.pure rfl)

theorem Reads.many_nil {r : Rule α} (h : Refuses r input) (n : Nat) : Reads (many r n) (· = []) input input := by
  cases n with
  | zero => exact .pure rfl
  | succ n => exact Reads.right (h.first _) (.pure rfl)

theorem Reads.many_cons {r : Rule α} {n : Nat} {Ps : List α → Prop} (h : Reads r P input mid)
    (hmore : Reads (many r n) Ps mid rest) :
    Reads (many r (n + 1)) (fun as => ∃ b bs, as = b :: bs ∧ P b ∧ Ps bs) input rest :=
  Reads.left (h.bind fun b hb => hmore.bind fun bs hbs => .pure ⟨b, bs, rfl, hb, hbs⟩) _

end Rule

open Rule (Reads Refuses)

/-! ## Terminals -/

theorem reads_terminal {fits : List Char → Option Nat} {w rest : List Char} (h : fits (w ++ rest) = some w.length) :
    Reads (terminal fits) (fun l => l.2 = w) (w ++ rest) rest := by
  intro c far hc
  have hrun : terminal fits c far = (some ((c.position, (w ++ rest).take w.length),
      ⟨c.position + w.length, (w ++ rest).drop w.length, (c.position, c.position + w.length) :: c.spans⟩), far) := by
    simp only [terminal, hc, h]
  exact ⟨_, _, far, hrun, List.drop_left, List.take_left⟩

theorem refuses_terminal {fits : List Char → Option Nat} {input : List Char} (h : fits input = none) :
    Refuses (terminal fits) input := fun c far hc => ⟨max far c.position, by simp only [terminal, hc, h]⟩

theorem reads_blank {input : List Char} (h : ∀ c ∈ input.head?, isTokenBlank c = false) :
    Reads blanks (fun _ => True) (' ' :: input) input := by
  intro c far hc
  have hlength : ((' ' :: input).takeWhile isTokenBlank).length = 1 := by
    cases input with
    | nil => rfl
    | cons d input => simp [show isTokenBlank ' ' = true from rfl, h d rfl]
  exact ⟨(), _, far, rfl, by simp [hc, hlength], trivial⟩

theorem reads_no_blank {input : List Char} (h : ∀ c ∈ input.head?, isTokenBlank c = false) :
    Reads blanks (fun _ => True) input input := by
  intro c far hc
  have hlength : (input.takeWhile isTokenBlank).length = 0 := by
    cases input with
    | nil => rfl
    | cons d input => simp [h d rfl]
  exact ⟨(), _, far, rfl, by simp [hc, hlength], trivial⟩

theorem reads_space {t : String} (ht : IsLexeme t) (rest : List Char) :
    Reads blanks (fun _ => True) (' ' :: (t.toList ++ rest)) (t.toList ++ rest) := by
  obtain ⟨c, cs, hc, hsolid⟩ := ht.solid
  refine reads_blank fun d hd => ?_
  rw [hc] at hd
  exact Option.some.inj hd ▸ hsolid

/-- What must not come after an expression that binds at least as tightly as `k`, for it to end there. -/
inductive Stops (k : Nat) : String → Prop
  | close : Stops k ")"
  | comma : Stops k ","
  | pipe (h : 0 < k) : Stops k "|>"
  | operator (op : BinaryOp) (h : op.tightness < k) : Stops k op.symbol

theorem Stops.mono {k l : Nat} (hkl : k ≤ l) {t : String} (h : Stops k t) : Stops l t := by
  cases h with
  | close => exact .close
  | comma => exact .comma
  | pipe h => exact .pipe (Nat.lt_of_lt_of_le h hkl)
  | operator op h => exact .operator op (Nat.lt_of_lt_of_le h hkl)

theorem Stops.isLexeme {k : Nat} {t : String} (h : Stops k t) : IsLexeme t := by
  cases h with
  | close | comma | pipe => exact isLexeme_mark (by simp)
  | operator op => exact isLexeme_binary op

def Level.tightness : Level → Nat
  | or => 1
  | and => 2
  | comparison => 3
  | concat => 4
  | additive => 5
  | multiplicative => 6

def Level.fits : Level → List Char → Option Nat
  | or => notBefore "|" ['|', '>']
  | and => oneOf ["&&", "&"]
  | comparison => oneOf ["\\==", "\\=", "==", "!=", "<>", "<=", ">=", "=", "<", ">"]
  | concat => exactly "||"
  | additive => oneOf ["+", "-"]
  | multiplicative => fun cs =>
    match notBefore "*" ['*'] cs with
    | some n => some n
    | none => oneOf ["/", "%"] cs

theorem Level.operator_eq (l : Level) : l.operator = terminal l.fits := by cases l <;> rfl

def level? : BinaryOp → Option Level
  | .or => some .or
  | .and => some .and
  | .strictEq | .strictNe | .eq | .ne | .neBackslash | .neAngle | .lt | .gt | .le | .ge => some .comparison
  | .concat => some .concat
  | .add | .sub => some .additive
  | .mul | .div | .mod => some .multiplicative
  | .pow => none

theorem reads_operator {op : BinaryOp} {l : Level} (h : level? op = some l) {rest : List Char} (hrest : Apart rest) :
    Reads l.operator (fun lexeme => binaryOf lexeme.2 = op) (op.symbol.toList ++ rest) rest := by
  have hfits : l.fits (op.symbol.toList ++ rest) = some op.symbol.toList.length := by
    obtain rfl | ⟨more, rfl⟩ := hrest.cases <;> cases op <;> cases h <;> rfl
  have hop : binaryOf op.symbol.toList = op := by cases op <;> rfl
  rw [l.operator_eq]
  exact (reads_terminal hfits).mono fun lexeme hl => hl ▸ hop

section

variable {k : Nat} {t : String} {rest : List Char}

theorem refuses_operator {l : Level} (h : Stops l.tightness t) (hrest : Apart rest) :
    Refuses l.operator (t.toList ++ rest) := by
  rw [l.operator_eq]
  refine refuses_terminal ?_
  obtain rfl | ⟨more, rfl⟩ := hrest.cases <;> cases h with
  | close | comma | pipe => cases l <;> rfl
  | operator op h => cases l <;> cases op <;> first | exact absurd h (by decide) | rfl

theorem refuses_pow (h : Stops 7 t) (hrest : Apart rest) : Refuses powerOp (t.toList ++ rest) := by
  obtain rfl | ⟨more, rfl⟩ := hrest.cases <;> cases h with
  | close | comma | pipe => exact refuses_terminal rfl
  | operator op h => cases op <;> first | exact absurd h (by decide) | exact refuses_terminal rfl

theorem refuses_pipe (h : Stops 0 t) (hrest : Apart rest) : Refuses pipeOp (t.toList ++ rest) := by
  obtain rfl | ⟨more, rfl⟩ := hrest.cases <;> cases h with
  | close | comma => exact refuses_terminal rfl
  | pipe h => cases h
  | operator op h => cases h

theorem refuses_leftParen (h : Stops k t) (hrest : Apart rest) : Refuses leftParen (t.toList ++ rest) := by
  obtain rfl | ⟨more, rfl⟩ := hrest.cases <;> cases h with
  | close | comma | pipe => exact refuses_terminal rfl
  | operator op h => cases op <;> exact refuses_terminal rfl

theorem refuses_equals (h : Stops 0 t) (hrest : Apart rest) : Refuses equals (t.toList ++ rest) := by
  obtain rfl | ⟨more, rfl⟩ := hrest.cases <;> cases h with
  | close | comma => exact refuses_terminal rfl
  | pipe h => cases h
  | operator op h => cases h

end

/-! ## Leaves -/

section

variable (o : Origin) {rest : List Char}

theorem reads_mark {t : String} (h : exactly t (t.toList ++ rest) = some t.toList.length) :
    Reads (terminal (exactly t)) (fun _ => True) (t.toList ++ rest) rest :=
  (reads_terminal h).mono fun _ _ => trivial

theorem reads_equals (hrest : Apart rest) : Reads equals (fun _ => True) ("=".toList ++ rest) rest := by
  refine (reads_terminal ?_).mono fun _ _ => trivial
  obtain rfl | ⟨more, rfl⟩ := hrest.cases <;> rfl

theorem reads_identifier {name : String} (h : isWord name = true) (hrest : Apart rest) :
    Reads identifier (fun l => String.ofList l.2 = name) (name.toList ++ rest) rest :=
  (reads_terminal (identifierExtent_word h hrest)).mono fun l hl => by rw [hl, String.ofList_toList]

theorem reads_symbol {r : Ref} (h : r.writable = true) (hrest : Apart rest) :
    Reads (symbol o) (fun e => e.unplaced = (Expr.ref r).unplaced) (r.symbol.toList ++ rest) rest := by
  refine (reads_identifier (isWord_symbol h) hrest).bind fun l hl => .pure ?_
  rw [hl, ofText_symbol h]
  rfl

theorem reads_number {n : Nat} (hn : n < Nat.pow 10 digitLimit) (hrest : Apart rest) :
    Reads (number o) (fun e => e.unplaced = .literal (.number (.int n)) ⟨0, 0⟩) (Nat.toDigits 10 n ++ rest) rest := by
  intro c far hc
  obtain ⟨⟨p, cs⟩, c', far', hrun, hrest', hcs⟩ := reads_terminal (numberExtent_digits (n := n) hrest) c far hc
  subst hcs
  exact ⟨.literal (.number (.int n)) (o.pos p), c', far', by simp only [number, hrun, numberOfNumeral_digits hn], hrest', rfl⟩

theorem refuses_number {input : List Char} (h : numberExtent input = none) : Refuses (number o) input := by
  intro c far hc
  obtain ⟨far', hrun⟩ := refuses_terminal h c far hc
  exact ⟨far', by simp only [number, hrun]⟩

theorem reads_string (s : String) (interpolate : Bool) (hrest : Apart rest) :
    Reads (string o) (fun e => e.unplaced = .literal (.text s interpolate) ⟨0, 0⟩)
      ((Literal.text s interpolate).lexeme.toList ++ rest) rest := by
  cases interpolate with
  | false =>
    refine Reads.left ((reads_terminal (stringExtent_enquoted (.inl rfl) s hrest)).bind fun l hl => .pure ?_) _
    rw [hl, unquote_enquoted]
    rfl
  | true =>
    refine Reads.right ((refuses_terminal ?_).first _)
      ((reads_terminal (stringExtent_enquoted (.inr rfl) s hrest)).bind fun l hl => .pure ?_)
    · simp [Literal.lexeme, enquoted, stringExtent]
    · rw [hl, unquote_enquoted]
      rfl

end

/-! ## First characters -/

section

variable (o : Origin) {c : Char} (cs : List Char)

theorem refuses_number_start (hdecimal : Text.isDecimal c = false) (hpoint : c ≠ '.') : Refuses (number o) (c :: cs) := by
  refine refuses_number o ?_
  have hwhole : (c :: cs).takeWhile Text.isDecimal = [] := by simp [hdecimal]
  simp only [numberExtent, hwhole, List.length_nil, List.drop_zero]
  split
  · next h => exact absurd (List.cons.inj h).1 hpoint
  · rfl

theorem refuses_string_start (hsingle : c ≠ '\'') (hdouble : c ≠ '"') : Refuses (string o) (c :: cs) :=
  .both ((refuses_terminal (by simp [stringExtent, hsingle])).first _)
    ((refuses_terminal (by simp [stringExtent, hdouble])).first _)

theorem refuses_identifier_start (h : isIdentifierStart c = false) : Refuses identifier (c :: cs) :=
  refuses_terminal (by simp [identifierExtent, h])

theorem refuses_unaryOp_start (h : c ∉ ['-', '+', '!', '\\']) : Refuses unaryOp (c :: cs) := by
  refine refuses_terminal ?_
  simp only [List.mem_cons, List.not_mem_nil, or_false, not_or] at h
  have hminus : "-".toList = ['-'] := rfl
  have hplus : "+".toList = ['+'] := rfl
  have hnot : "!".toList = ['!'] := rfl
  have hslash : "\\".toList = ['\\'] := rfl
  simp [oneOf, hminus, hplus, hnot, hslash, List.isPrefixOf, Ne.symm h.1, Ne.symm h.2.1, Ne.symm h.2.2.1, Ne.symm h.2.2.2]

theorem refuses_unaryOp_word {s : String} (h : isWord s = true) : Refuses unaryOp (s.toList ++ cs) := by
  obtain ⟨c, tail, hs, hc, -⟩ := isWord_cons h
  rw [hs]
  refine refuses_unaryOp_start _ fun hmem => ?_
  simp only [List.mem_cons, List.not_mem_nil, or_false] at hmem
  rcases hmem with rfl | rfl | rfl | rfl <;> exact absurd hc (by decide)

theorem literal_start {l : Literal} (h : l.writable = true) :
    ∃ c cs, l.lexeme.toList = c :: cs ∧ (c.isDigit = true ∨ c = '\'' ∨ c = '"') := by
  match l with
  | .number (.int n) =>
    obtain ⟨k, rfl, -⟩ := writable_int h
    obtain ⟨d, ds, hds, hd⟩ := digits_cons k
    exact ⟨d, ds, by rw [toList_natural, hds], .inl hd⟩
  | .number (.float _) => cases h
  | .text s false => exact ⟨_, _, String.toList_ofList, .inr (.inl rfl)⟩
  | .text s true => exact ⟨_, _, String.toList_ofList, .inr (.inr rfl)⟩

theorem not_isIdentifierStart {c : Char} (h : c.isDigit = true ∨ c = '\'' ∨ c = '"') : isIdentifierStart c = false := by
  rcases h with h | rfl | rfl
  · have hother : (c == '$' || c == '@' || c == '#') = false := by
      simp only [Bool.or_eq_false_iff, beq_eq_false_iff_ne]
      refine ⟨⟨?_, ?_⟩, ?_⟩ <;> rintro rfl <;> exact absurd h (by decide)
    simp only [Bool.or_eq_false_iff] at hother
    simp [isIdentifierStart, (Text.isDigit_ascii h).2.1, hother]
  · rfl
  · rfl

end

end Conductor.Syntax.Grammar
