import Conductor.Proofs.Syntax.Numeral
import Conductor.Proofs.Syntax.Reading

/-!
# Where lexemes stand

A node of an expression remembers where its lexeme starts: a literal its numeral or its opening quote, a symbol its
text, an operator its sign, a call the name that is called.

The grammar keeps to its text: what is left at a place is the text from that place on. So what a terminal takes stands
in the text at the place where the terminal was tried, and the nodes that the rules build are where their lexemes are.
-/

set_option autoImplicit false

namespace Conductor.Syntax

/-! ## Lexemes and nodes -/

def UnaryOp.spellings : UnaryOp → List String
  | .not => ["!", "\\"]
  | op => [op.symbol]

def BinaryOp.spellings : BinaryOp → List String
  | .and => ["&", "&&"]
  | op => [op.symbol]

def Identifier (w : List Char) : Prop :=
  ∃ c rest, w = c :: rest ∧ Grammar.isIdentifierStart c = true ∧ ∀ d ∈ rest, Grammar.isIdentifierPart d = true

section

variable (S : Pos → List Char → Prop)

def Literal.Anchored (pos : Pos) : Literal → Prop
  | .number n => ∃ w, Numeral w ∧ numberOfNumeral w = .ok n ∧ S pos w
  | .text _ interpolate => S pos [if interpolate then '"' else '\'']

def Ref.Anchored (r : Ref) : Prop := ∃ w, Identifier w ∧ Ref.ofText (String.ofList w) r.pos = r ∧ S r.pos w

def Called (name : String) (pos : Pos) : Prop := Identifier name.toList ∧ S pos name.toList

mutual
def Expr.Anchored : Expr → Prop
  | .literal l pos => l.Anchored S pos
  | .ref r => r.Anchored S
  | .unary op operand pos => (∃ w ∈ op.spellings, S pos w.toList) ∧ operand.Anchored
  | .binary op left right pos => (∃ w ∈ op.spellings, S pos w.toList) ∧ left.Anchored ∧ right.Anchored
  | .call name args pos => Called S name pos ∧ argumentsAnchored args
  | .pipe left name args callPos pos =>
    S pos "|>".toList ∧ Called S name callPos ∧ left.Anchored ∧ argumentsAnchored args

def argumentsAnchored : List (Option String × Expr) → Prop
  | [] => True
  | (_, e) :: rest => e.Anchored ∧ argumentsAnchored rest
end

def CommandForm.Anchored (c : CommandForm) : Prop := Called S c.method c.pos ∧ argumentsAnchored S c.args

end

theorem argumentsAnchored_iff {S : Pos → List Char → Prop} {args : List (Option String × Expr)} :
    argumentsAnchored S args ↔ ∀ a ∈ args, a.2.Anchored S := by
  induction args with
  | nil => simp [argumentsAnchored]
  | cons a rest ih => simp [argumentsAnchored, ih]

/-! ## What the terminals fit -/

theorem Exponent.mem {w : List Char} (h : Exponent w) {c : Char} (hc : c ∈ w) :
    Text.isDigit c = true ∨ isDecimalMark c = true := by
  cases h with
  | none => cases hc
  | some he hsign hne hds =>
    rcases List.mem_cons.mp hc with rfl | hc
    · rcases he with rfl | rfl <;> exact .inr rfl
    rcases List.mem_append.mp hc with hc | hc
    · rcases hsign with rfl | rfl | rfl
      · cases hc
      all_goals exact .inr (by rw [List.mem_singleton.mp hc]; rfl)
    · exact .inl (hds c hc)

theorem Fraction.mem {w : List Char} (h : Fraction w) {c : Char} (hc : c ∈ w) :
    Text.isDigit c = true ∨ isDecimalMark c = true := by
  cases h with
  | none => cases hc
  | some hne hds =>
    rcases List.mem_cons.mp hc with rfl | hc
    · exact .inr rfl
    · exact .inl (hds c hc)

theorem Numeral.mem {w : List Char} (h : Numeral w) {c : Char} (hc : c ∈ w) :
    Text.isDigit c = true ∨ isDecimalMark c = true := by
  obtain @⟨whole, fraction, exponent, hwhole, hfraction, hexponent, -⟩ := h
  rcases List.mem_append.mp hc with hc | hc
  · exact .inl (hwhole c hc)
  rcases List.mem_append.mp hc with hc | hc
  · exact hfraction.mem hc
  · exact hexponent.mem hc

theorem Numeral.blank {w : List Char} (h : Numeral w) : ' ' ∉ w := fun hmem => absurd (h.mem hmem) (by decide)

theorem Identifier.blank {w : List Char} (h : Identifier w) : ' ' ∉ w := by
  obtain ⟨c, rest, rfl, hc, hrest⟩ := h
  intro hblank
  rcases List.mem_cons.mp hblank with rfl | hblank
  · exact absurd hc (by decide)
  · exact absurd (hrest _ hblank) (by decide)

theorem isDigit_of_mem_takeWhile {cs : List Char} : ∀ c ∈ cs.takeWhile Text.isDecimal, Text.isDigit c = true :=
  fun _ hc => Text.isDigit_of_isDecimal (List.mem_takeWhile_imp hc)

theorem decimalExponent_spec (cs : List Char) : ∃ exponent after, cs = exponent ++ after ∧ Exponent exponent ∧
    decimalExponent cs = exponent.length := by
  have hnone : ∃ exponent after, cs = exponent ++ after ∧ Exponent exponent ∧ 0 = exponent.length :=
    ⟨[], cs, rfl, .none, rfl⟩
  cases cs with
  | nil => exact hnone
  | cons e rest =>
    rw [decimalExponent]
    split
    · next he =>
      obtain ⟨sign, tail, rfl, hsign, hlength⟩ := signExtent_spec rest
      dsimp only
      rw [hlength, List.drop_left]
      split
      · exact hnone
      · next hds =>
        refine ⟨e :: (sign ++ tail.takeWhile Text.isDecimal), tail.dropWhile Text.isDecimal, ?_, ?_, ?_⟩
        · rw [List.cons_append, List.append_assoc, List.takeWhile_append_dropWhile]
        · exact .some (by simpa using he) hsign (by simpa using hds) isDigit_of_mem_takeWhile
        · rw [List.length_cons, List.length_append]
          omega
    · exact hnone

theorem decimalFraction_spec (cs : List Char) : ∃ fraction after, cs = fraction ++ after ∧ Fraction fraction ∧
    decimalFraction cs = fraction.length := by
  unfold decimalFraction
  split
  · next rest =>
    split
    · exact ⟨[], _, rfl, .none, rfl⟩
    · next hds =>
      refine ⟨'.' :: rest.takeWhile Text.isDecimal, rest.dropWhile Text.isDecimal, ?_, ?_, ?_⟩
      · rw [List.cons_append, List.takeWhile_append_dropWhile]
      · exact .some (by simpa using hds) isDigit_of_mem_takeWhile
      · rw [List.length_cons, Nat.add_comm]
  · exact ⟨[], cs, rfl, .none, rfl⟩

namespace Grammar

variable {cs : List Char} {n : Nat}

theorem numberExtent_spec (h : numberExtent cs = some n) : Numeral (cs.take n) := by
  rw [numberExtent_eq] at h
  split at h
  · cases h
  next hne =>
  obtain ⟨fraction, rest, hrest, hfraction, hlength⟩ := decimalFraction_spec (cs.dropWhile Text.isDecimal)
  obtain ⟨exponent, after, hafter, hexponent, hextent⟩ := decimalExponent_spec rest
  rw [hlength] at hne h
  rw [hrest, List.drop_left, hextent] at h
  have hcs : cs = cs.takeWhile Text.isDecimal ++ (fraction ++ exponent) ++ after := by
    rw [List.append_assoc, List.append_assoc, ← hafter, ← hrest, List.takeWhile_append_dropWhile]
  have hn : n = (cs.takeWhile Text.isDecimal ++ (fraction ++ exponent)).length := by
    rw [List.length_append, List.length_append, ← Nat.add_assoc]
    exact (Option.some.inj h).symm
  have htake : cs.take n = cs.takeWhile Text.isDecimal ++ (fraction ++ exponent) := by
    conv => lhs; rw [hcs, hn]
    exact List.take_left
  rw [htake]
  refine .intro isDigit_of_mem_takeWhile hfraction hexponent ?_
  by_contra hnone
  rw [not_or, not_not, not_not] at hnone
  rw [hnone.1, hnone.2] at hne
  exact hne rfl

theorem identifierExtent_spec (h : identifierExtent cs = some n) : Identifier (cs.take n) := by
  unfold identifierExtent at h
  split at h
  · next c rest =>
    split at h
    · next hc =>
      cases h
      refine ⟨c, rest.takeWhile isIdentifierPart, ?_, hc, fun d hd => List.mem_takeWhile_imp hd⟩
      rw [Nat.add_comm, List.take_succ_cons]
      congr 1
      exact List.prefix_iff_eq_take.mp (List.takeWhile_prefix _) |>.symm
    · cases h
  · cases h

theorem stringExtent_spec {quote : Char} (h : stringExtent quote cs = some n) : [quote] <+: cs.take n := by
  unfold stringExtent at h
  split at h
  · next c rest =>
    split at h
    · next hc =>
      obtain ⟨m, -, rfl⟩ := Option.map_eq_some_iff.mp h
      rw [eq_of_beq hc, List.take_succ_cons]
      exact List.cons_prefix_cons.mpr ⟨rfl, List.nil_prefix⟩
    · cases h
  · cases h

def FitsSymbols (symbols : List String) (fits : List Char → Option Nat) : Prop :=
  ∀ cs n, fits cs = some n → ∃ s ∈ symbols, cs.take n = s.toList

theorem take_of_isPrefixOf {s : String} (h : s.toList.isPrefixOf cs = true) : cs.take s.length = s.toList := by
  rw [← String.length_toList]
  exact (List.prefix_iff_eq_take.mp (List.isPrefixOf_iff_prefix.mp h)).symm

theorem fitsSymbols_exactly (s : String) : FitsSymbols [s] (exactly s) := by
  intro cs n h
  unfold exactly at h
  split at h
  · next hs =>
    cases h
    exact ⟨s, List.mem_singleton.mpr rfl, take_of_isPrefixOf hs⟩
  · cases h

theorem fitsSymbols_oneOf (symbols : List String) : FitsSymbols symbols (oneOf symbols) := by
  intro cs n h
  obtain ⟨s, hs, rfl⟩ := Option.map_eq_some_iff.mp h
  have hstarts := List.find?_some hs
  exact ⟨s, List.mem_of_find?_eq_some hs, take_of_isPrefixOf hstarts⟩

theorem fitsSymbols_notBefore (s : String) (after : List Char) : FitsSymbols [s] (notBefore s after) := by
  intro cs n h
  unfold notBefore at h
  split at h
  · next hs =>
    have hn : n = s.length := by
      split at h
      · split at h
        · cases h
        · exact (Option.some.inj h).symm
      · exact (Option.some.inj h).symm
    exact ⟨s, List.mem_singleton.mpr rfl, hn ▸ take_of_isPrefixOf hs⟩
  · cases h

def Level.symbols : Level → List String
  | or => ["|"]
  | and => ["&&", "&"]
  | comparison => ["\\==", "\\=", "==", "!=", "<>", "<=", ">=", "=", "<", ">"]
  | concat => ["||"]
  | additive => ["+", "-"]
  | multiplicative => ["*", "/", "%"]

theorem Level.fits_symbols (l : Level) : FitsSymbols l.symbols l.fits := by
  cases l with
  | or => exact fitsSymbols_notBefore _ _
  | and | comparison | additive => exact fitsSymbols_oneOf _
  | concat => exact fitsSymbols_exactly _
  | multiplicative =>
    intro cs n h
    unfold Level.fits at h
    dsimp only at h
    split at h
    · next m hm =>
      cases h
      obtain ⟨s, hs, htake⟩ := fitsSymbols_notBefore _ _ _ _ hm
      exact ⟨s, List.mem_cons.mpr (.inl (List.mem_singleton.mp hs)), htake⟩
    · obtain ⟨s, hs, htake⟩ := fitsSymbols_oneOf _ _ _ h
      exact ⟨s, List.mem_cons_of_mem _ hs, htake⟩

theorem Level.symbols_spell (l : Level) : ∀ s ∈ l.symbols, s ∈ (binaryOf s.toList).spellings ∧ ' ' ∉ s.toList := by
  cases l <;> decide

end Grammar

/-! ## Rules that keep to the text -/

namespace Grammar

/-- A rule keeps to the text: what it leaves is the text from where it stopped, and its results have a property. -/
def Rule.Sees {α : Type} (o : Origin) (P : α → Prop) (r : Rule α) : Prop :=
  ∀ ⦃c far a c' far'⦄, c.rest = o.text.drop c.position → r c far = (some (a, c'), far') →
    c'.rest = o.text.drop c'.position ∧ P a

namespace Rule.Sees

variable {α β : Type} {o : Origin} {P : α → Prop} {Q : β → Prop} {r s : Rule α}

theorem never : Sees o P fun _ far => (none, far) := by
  intro c far a c' far' _ h
  cases h

theorem pure {a : α} (h : P a) : Sees o P (pure a : Rule α) := by
  intro c far a' c' far' hc heq
  cases heq
  exact ⟨hc, h⟩

theorem mono {P' : α → Prop} (h : r.Sees o P) (hP : ∀ a, P a → P' a) : r.Sees o P' :=
  fun _ _ _ _ _ hc hr => ⟨(h hc hr).1, hP _ (h hc hr).2⟩

theorem bind {f : α → Rule β} (hr : r.Sees o P) (hf : ∀ a, P a → (f a).Sees o Q) : Sees o Q (r >>= f) := by
  intro c far b c' far' hc h
  change Rule.bind r f c far = _ at h
  unfold Rule.bind at h
  split at h
  · next a c₁ far₁ hr' =>
    obtain ⟨hc₁, ha⟩ := hr hc hr'
    exact hf a ha hc₁ h
  · cases h

theorem orElse (hr : r.Sees o P) (hs : s.Sees o P) : Sees o P (Rule.orElse r s) := by
  intro c far a c' far' hc h
  unfold Rule.orElse at h
  split at h
  · next hr' =>
    cases h
    exact hr hc hr'
  · exact hs hc h

theorem optional (hr : r.Sees o P) : Sees o (fun a? => ∀ a ∈ a?, P a) (Rule.optional r) := by
  refine .orElse (.bind hr fun a ha => .pure ?_) (.pure nofun)
  intro a' ha'
  cases ha'
  exact ha

theorem many (hr : r.Sees o P) (n : Nat) : Sees o (fun as => ∀ a ∈ as, P a) (Rule.many r n) := by
  induction n with
  | zero => exact .pure nofun
  | succ n ih =>
    exact .orElse (.bind hr fun a ha => .bind ih fun as has => .pure (List.forall_mem_cons.mpr ⟨ha, has⟩)) (.pure nofun)

end Rule.Sees

def Origin.Shows (S : Pos → List Char → Prop) (o : Origin) : Prop :=
  ∀ p w, ' ' ∉ w → w <+: o.text.drop p → S (o.pos p) w

variable {o : Origin}

theorem sees_blanks : blanks.Sees o fun _ => True := by
  intro c far a c' far' hc h
  cases h
  exact ⟨by rw [hc, List.drop_drop], trivial⟩

theorem sees_finish : finish.Sees o fun _ => True := by
  intro c far a c' far' hc h
  unfold finish at h
  split at h
  · cases h
    exact ⟨hc, trivial⟩
  · cases h

theorem sees_whole {α : Type} {P : α → Prop} {r : Rule α} (h : r.Sees o P) : (whole r).Sees o P :=
  .bind h fun _ ha => .bind sees_finish fun _ _ => .pure ha

/-- What a rule gives for the whole of its text. -/
theorem Rule.Sees.run {α : Type} {P : α → Prop} {r : Rule α} (h : r.Sees o P) {a : α} {spans : List (Nat × Nat)}
    (hrun : run (whole r) o.text = .ok (a, spans)) : P a := by
  unfold Grammar.run at hrun
  split at hrun
  · next heq =>
    cases hrun
    exact (sees_whole h (show o.text = o.text.drop 0 from rfl) heq).2
  · cases hrun

theorem sees_terminal {fits : List Char → Option Nat} {P : List Char → Prop}
    (hfits : ∀ cs n, fits cs = some n → P (cs.take n)) :
    (terminal fits).Sees o fun l => P l.2 ∧ l.2 <+: o.text.drop l.1 := by
  intro c far a c' far' hc h
  unfold terminal at h
  split at h
  · next n hn =>
    cases h
    refine ⟨by rw [hc, List.drop_drop], hfits _ _ hn, ?_⟩
    rw [hc]
    exact List.take_prefix _ _
  · cases h

theorem sees_mark (fits : List Char → Option Nat) : (terminal fits).Sees o fun _ => True :=
  (sees_terminal (P := fun _ => True) fun _ _ _ => trivial).mono fun _ _ => trivial

section

variable {S : Pos → List Char → Prop} (hS : o.Shows S)

include hS

theorem sees_identifier : identifier.Sees o fun l => Identifier l.2 ∧ S (o.pos l.1) l.2 :=
  (sees_terminal fun _ _ => identifierExtent_spec).mono fun l h => ⟨h.1, hS l.1 l.2 h.1.blank h.2⟩

theorem sees_called : identifier.Sees o fun l => Called S (String.ofList l.2) (o.pos l.1) := by
  refine (sees_identifier hS).mono fun l h => ?_
  unfold Called
  rwa [String.toList_ofList]

theorem sees_sign (spellings : List Char → List String) {fits : List Char → Option Nat} {symbols : List String}
    (hfits : FitsSymbols symbols fits) (hsymbols : ∀ s ∈ symbols, s ∈ spellings s.toList ∧ ' ' ∉ s.toList) :
    (terminal fits).Sees o fun l => ∃ s ∈ spellings l.2, S (o.pos l.1) s.toList := by
  refine (sees_terminal (P := fun w => ∃ s ∈ symbols, w = s.toList) hfits).mono fun l h => ?_
  obtain ⟨⟨s, hs, heq⟩, hprefix⟩ := h
  obtain ⟨hspelled, hblank⟩ := hsymbols s hs
  rw [heq] at hprefix ⊢
  exact ⟨s, hspelled, hS l.1 _ hblank hprefix⟩

theorem sees_operator (l : Level) :
    l.operator.Sees o fun t => ∃ s ∈ (binaryOf t.2).spellings, S (o.pos t.1) s.toList := by
  rw [l.operator_eq]
  exact sees_sign hS (fun w => (binaryOf w).spellings) l.fits_symbols l.symbols_spell

theorem sees_powerOp : powerOp.Sees o fun t => ∃ s ∈ BinaryOp.pow.spellings, S (o.pos t.1) s.toList :=
  sees_sign hS (fun _ => BinaryOp.pow.spellings) (fitsSymbols_exactly _) (by decide)

theorem sees_unaryOp : unaryOp.Sees o fun t => ∃ s ∈ (unaryOf t.2).spellings, S (o.pos t.1) s.toList :=
  sees_sign hS (fun w => (unaryOf w).spellings) (fitsSymbols_oneOf _) (by decide)

theorem sees_pipeOp : pipeOp.Sees o fun t => S (o.pos t.1) "|>".toList := by
  refine (sees_sign hS (fun _ => ["|>"]) (fitsSymbols_exactly _) (by decide)).mono fun t h => ?_
  obtain ⟨s, hs, hshown⟩ := h
  rwa [List.mem_singleton.mp hs] at hshown

/-! ## Leaves -/

theorem sees_number : (number o).Sees o (Expr.Anchored S) := by
  intro c far a c' far' hc h
  unfold number at h
  split at h
  · next p cs c₁ far₁ hterminal =>
    obtain ⟨hc₁, hnumeral, hprefix⟩ := sees_terminal (fun _ _ => numberExtent_spec) hc hterminal
    split at h
    · next n hn =>
      cases h
      refine ⟨hc₁, ?_⟩
      rw [Expr.Anchored]
      exact ⟨cs, hnumeral, hn, hS p cs hnumeral.blank hprefix⟩
    · cases h
  · cases h

theorem sees_quoted {quote : Char} (hquote : quote ≠ ' ') :
    (terminal (stringExtent quote)).Sees o fun l => S (o.pos l.1) [quote] := by
  refine (sees_terminal fun _ _ => stringExtent_spec).mono fun l h => hS l.1 [quote] ?_ (h.1.trans h.2)
  rw [List.mem_singleton]
  exact hquote.symm

theorem sees_string : (string o).Sees o (Expr.Anchored S) := by
  refine .orElse (.bind (sees_quoted hS (by decide)) fun l hl => .pure ?_)
    (.bind (sees_quoted hS (by decide)) fun l hl => .pure ?_)
  all_goals
    rw [Expr.Anchored]
    exact hl

theorem sees_symbol : (symbol o).Sees o (Expr.Anchored S) := by
  refine .bind (sees_identifier hS) fun l hl => .pure ?_
  have hpos : (Ref.ofText (String.ofList l.2) (o.pos l.1)).pos = o.pos l.1 := by
    unfold Ref.ofText
    split <;> rfl
  rw [Expr.Anchored]
  exact ⟨l.2, hl.1, by rw [hpos], by rw [hpos]; exact hl.2⟩

end

/-! ## Rules -/

variable {S : Pos → List Char → Prop}

theorem foldLeft_anchored {first : Expr} (hfirst : first.Anchored S) {steps : List ((Nat × List Char) × Expr)}
    (hsteps : ∀ s ∈ steps, (∃ w ∈ (binaryOf s.1.2).spellings, S (o.pos s.1.1) w.toList) ∧ s.2.Anchored S) :
    (foldLeft o first steps).Anchored S := by
  induction steps generalizing first with
  | nil => exact hfirst
  | cons s rest ih =>
    obtain ⟨⟨hsign, hs⟩, hrest⟩ := List.forall_mem_cons.mp hsteps
    refine ih ?_ hrest
    rw [Expr.Anchored]
    exact ⟨hsign, hfirst, hs⟩

theorem pipes_anchored {first : Expr} (hfirst : first.Anchored S)
    {stages : List ((Nat × List Char) × (Nat × List Char) × List Arg)}
    (hstages : ∀ s ∈ stages, S (o.pos s.1.1) "|>".toList ∧ Called S (String.ofList s.2.1.2) (o.pos s.2.1.1) ∧
      argumentsAnchored S s.2.2) :
    (stages.foldl (fun left stage =>
      .pipe left (String.ofList stage.2.1.2) stage.2.2 (o.pos stage.2.1.1) (o.pos stage.1.1)) first).Anchored S := by
  induction stages generalizing first with
  | nil => exact hfirst
  | cons s rest ih =>
    obtain ⟨⟨hsign, hcalled, hargs⟩, hrest⟩ := List.forall_mem_cons.mp hstages
    refine ih ?_ hrest
    rw [Expr.Anchored]
    exact ⟨hsign, hcalled, hfirst, hargs⟩

theorem getD_argumentsAnchored {args : Option (List Arg)} (h : ∀ as ∈ args, argumentsAnchored S as) :
    argumentsAnchored S (args.getD []) := by
  cases args with
  | none => trivial
  | some as => exact h as rfl

structure Anchors (S : Pos → List Char → Prop) (o : Origin) (fuel : Nat) : Prop where
  expression : (expression o fuel).Sees o (Expr.Anchored S)
  level : ∀ l, (level o l fuel).Sees o (Expr.Anchored S)
  power : (power o fuel).Sees o (Expr.Anchored S)
  unary : (unary o fuel).Sees o (Expr.Anchored S)
  primary : (primary o fuel).Sees o (Expr.Anchored S)
  callSuffix : (callSuffix o fuel).Sees o (argumentsAnchored S)
  argumentList : (argumentList o fuel).Sees o (argumentsAnchored S)
  argument : (argument o fuel).Sees o fun a => a.2.Anchored S

theorem leftFold_anchored (hS : o.Shows S) {operand : Rule Expr} (hoperand : operand.Sees o (Expr.Anchored S))
    (l : Level) (fuel : Nat) :
    Rule.Sees o (Expr.Anchored S) (do
      let first ← operand
      let rest ← Rule.many (do
        blanks
        let op ← l.operator
        blanks
        let right ← operand
        pure (op, right)) fuel
      pure (foldLeft o first rest)) := by
  refine .bind hoperand fun first hfirst => .bind (.many (P := fun s =>
    (∃ w ∈ (binaryOf s.1.2).spellings, S (o.pos s.1.1) w.toList) ∧ s.2.Anchored S) ?_ fuel)
    fun steps hsteps => .pure (foldLeft_anchored hfirst hsteps)
  exact .bind sees_blanks fun _ _ => .bind (sees_operator hS l) fun op hop => .bind sees_blanks fun _ _ =>
    .bind hoperand fun right hright => .pure ⟨hop, hright⟩

theorem named_anchored (hS : o.Shows S) {value : Rule Expr} (hvalue : value.Sees o (Expr.Anchored S)) :
    Rule.Sees o (fun a : Arg => a.2.Anchored S) (Rule.orElse (do
      let name ← identifier
      blanks
      let _ ← equals
      blanks
      let e ← value
      pure (some (String.ofList name.2), e))
    (do
      let e ← value
      pure (none, e))) := by
  refine .orElse ?_ (.bind hvalue fun e he => .pure he)
  exact .bind (sees_identifier hS) fun _ _ => .bind sees_blanks fun _ _ => .bind (sees_mark _) fun _ _ =>
    .bind sees_blanks fun _ _ => .bind hvalue fun e he => .pure he

theorem anchors (hS : o.Shows S) (fuel : Nat) : Anchors S o fuel := by
  induction fuel with
  | zero => exact ⟨.never, fun _ => .never, .never, .never, .never, .never, .never, .never⟩
  | succ fuel ih =>
    constructor
    case expression =>
      refine .bind (ih.level .or) fun first hfirst => .bind (.many (P := fun s =>
        S (o.pos s.1.1) "|>".toList ∧ Called S (String.ofList s.2.1.2) (o.pos s.2.1.1) ∧ argumentsAnchored S s.2.2)
        ?_ fuel) fun stages hstages => .pure (pipes_anchored hfirst hstages)
      exact .bind sees_blanks fun _ _ => .bind (sees_pipeOp hS) fun op hop => .bind sees_blanks fun _ _ =>
        .bind (sees_called hS) fun name hname => .bind (.optional ih.callSuffix) fun args hargs =>
          .pure ⟨hop, hname, getD_argumentsAnchored hargs⟩
    case level =>
      intro l
      unfold Grammar.level
      cases l.tighter with
      | none => exact leftFold_anchored hS ih.power l fuel
      | some t => exact leftFold_anchored hS (ih.level t) l fuel
    case power =>
      refine .bind ih.unary fun base hbase => .bind (.optional (P := fun s =>
        (∃ w ∈ BinaryOp.pow.spellings, S (o.pos s.1.1) w.toList) ∧ s.2.Anchored S) ?_) fun step hstep => ?_
      · exact .bind sees_blanks fun _ _ => .bind (sees_powerOp hS) fun op hop => .bind sees_blanks fun _ _ =>
          .bind ih.power fun right hright => .pure ⟨hop, hright⟩
      · cases step with
        | none => exact .pure hbase
        | some s =>
          obtain ⟨hsign, hright⟩ := hstep s rfl
          refine .pure ?_
          rw [Expr.Anchored]
          exact ⟨hsign, hbase, hright⟩
    case unary =>
      refine .orElse (.bind (sees_unaryOp hS) fun op hop => .bind sees_blanks fun _ _ =>
        .bind ih.unary fun operand hoperand => .pure ?_) ih.primary
      rw [Expr.Anchored]
      exact ⟨hop, hoperand⟩
    case primary =>
      refine .orElse (sees_number hS) <| .orElse (sees_string hS) <| .orElse ?_ <| .orElse (sees_symbol hS) ?_
      · refine .bind (sees_called hS) fun name hname => .bind ih.callSuffix fun args hargs => .pure ?_
        rw [Expr.Anchored]
        exact ⟨hname, hargs⟩
      · exact .bind (sees_mark _) fun _ _ => .bind sees_blanks fun _ _ => .bind ih.expression fun inner hinner =>
          .bind sees_blanks fun _ _ => .bind (sees_mark _) fun _ _ => .pure hinner
    case callSuffix =>
      exact .bind sees_blanks fun _ _ => .bind (sees_mark _) fun _ _ => .bind sees_blanks fun _ _ =>
        .bind (.optional ih.argumentList) fun args hargs => .bind sees_blanks fun _ _ =>
          .bind (sees_mark _) fun _ _ => .pure (getD_argumentsAnchored hargs)
    case argumentList =>
      refine .bind ih.argument fun first hfirst => .bind (.many (P := fun a : Arg => a.2.Anchored S) ?_ fuel)
        fun rest hrest => .pure (argumentsAnchored_iff.mpr (List.forall_mem_cons.mpr ⟨hfirst, hrest⟩))
      exact .bind sees_blanks fun _ _ => .bind (sees_mark _) fun _ _ => .bind sees_blanks fun _ _ => ih.argument
    case argument => exact named_anchored hS ih.expression

theorem command_anchored (hS : o.Shows S) (fuel : Nat) : (command o fuel).Sees o (CommandForm.Anchored S) := by
  have hoperand : (command.operand o fuel).Sees o (fun a => a.2.Anchored S) := named_anchored hS (anchors hS fuel).unary
  exact .bind (sees_called hS) fun name hname => .bind (.many (.bind sees_blanks fun _ _ => hoperand) fuel)
    fun args hargs => .pure ⟨hname, argumentsAnchored_iff.mpr hargs⟩

theorem callTail_anchored (hS : o.Shows S) (fuel : Nat) : (callTail o fuel).Sees o (argumentsAnchored S) :=
  .orElse (.bind (anchors hS fuel).callSuffix fun _ hargs => .bind sees_finish fun _ _ => .pure hargs)
    (anchors hS fuel).argumentList

end Grammar

end Conductor.Syntax
