import Conductor.Proofs.Syntax.Reading
import Conductor.Syntax.Program

/-!
# Reading what is written

The text of an expression is read as that expression, apart from lines and columns.

The rules of the grammar form a ladder: each rung reads what binds at least as tightly,
and where no operator of its own follows, it reads what the next rung reads. So it is
enough to read each expression at its own rung. There a chain of operators that group to
the left is read as its first operand and a repetition, which stops because what comes
after the chain binds more loosely.
-/

set_option autoImplicit false

namespace Conductor.Syntax

namespace Grammar

open Rule (Reads Refuses)

/-! ## The ladder -/

def ruleAt (o : Origin) : Nat → Nat → Rule Expr
  | 0 => expression o
  | 1 => level o .or
  | 2 => level o .and
  | 3 => level o .comparison
  | 4 => level o .concat
  | 5 => level o .additive
  | 6 => level o .multiplicative
  | 7 => power o
  | 8 => unary o
  | _ => primary o

def step (o : Origin) (l : Level) (fuel : Nat) : Rule ((Nat × List Char) × Expr) := do
  blanks
  let op ← l.operator
  blanks
  let right ← ruleAt o (l.tightness + 1) fuel
  pure (op, right)

theorem level_succ (o : Origin) (l : Level) (fuel : Nat) :
    level o l (fuel + 1) = (do
      let first ← ruleAt o (l.tightness + 1) fuel
      let rest ← Rule.many (step o l fuel) fuel
      pure (foldLeft o first rest)) := by
  cases l <;> rw [level] <;> rfl

def stage (o : Origin) (fuel : Nat) : Rule ((Nat × List Char) × (Nat × List Char) × List Arg) := do
  blanks
  let op ← pipeOp
  blanks
  let name ← identifier
  let args ← Rule.optional (callSuffix o fuel)
  pure (op, name, args.getD [])

theorem expression_succ (o : Origin) (fuel : Nat) :
    expression o (fuel + 1) = (do
      let first ← level o .or fuel
      let stages ← Rule.many (stage o fuel) fuel
      pure (stages.foldl (fun left stage =>
        .pipe left (String.ofList stage.2.1.2) stage.2.2 (o.pos stage.2.1.1) (o.pos stage.1.1)) first)) := by
  rw [expression]
  rfl

def called (o : Origin) (fuel : Nat) : Rule Expr := do
  let name ← identifier
  let args ← callSuffix o fuel
  pure (.call (String.ofList name.2) args (o.pos name.1))

def grouped (o : Origin) (fuel : Nat) : Rule Expr := do
  let _ ← leftParen
  blanks
  let inner ← expression o fuel
  blanks
  let _ ← rightParen
  pure inner

theorem primary_succ (o : Origin) (fuel : Nat) :
    primary o (fuel + 1) = Rule.orElse (number o) (Rule.orElse (string o)
      (Rule.orElse (called o fuel) (Rule.orElse (symbol o) (grouped o fuel)))) := by
  rw [primary]
  rfl

def Follows (k : Nat) (rest : List Char) : Prop :=
  rest = [] ∨ ∃ t more, rest = ' ' :: (t.toList ++ more) ∧ Apart more ∧ Stops k t

theorem Follows.mono {k l : Nat} (hkl : k ≤ l) {rest : List Char} (h : Follows k rest) : Follows l rest := by
  rcases h with h | ⟨t, more, h, hmore, ht⟩
  · exact .inl h
  · exact .inr ⟨t, more, h, hmore, ht.mono hkl⟩

theorem Follows.apart {k : Nat} {rest : List Char} (h : Follows k rest) : Apart rest := by
  rcases h with rfl | ⟨t, more, rfl, -, -⟩
  · exact apart_nil
  · exact apart_cons _

theorem Follows.refuses {α β : Type} {k : Nat} {rest : List Char} (h : Follows k rest) {r : Rule α} (f : α → Rule β)
    (hnil : Refuses r []) (hstop : ∀ t more, Stops k t → Apart more → Refuses r (t.toList ++ more)) :
    Refuses (do blanks; let a ← r; f a) rest := by
  rcases h with rfl | ⟨t, more, rfl, hmore, ht⟩
  · exact Refuses.bind (reads_no_blank fun _ h => nomatch h) fun _ _ => hnil.first f
  · exact Refuses.bind (reads_space ht.isLexeme more) fun _ _ => (hstop t more ht hmore).first f

theorem refuses_stage (o : Origin) (fuel : Nat) {rest : List Char} (h : Follows 0 rest) : Refuses (stage o fuel) rest :=
  h.refuses _ (refuses_terminal rfl) fun _ _ => refuses_pipe

theorem refuses_step (o : Origin) (l : Level) (fuel : Nat) {rest : List Char} (h : Follows l.tightness rest) :
    Refuses (step o l fuel) rest := by
  refine h.refuses _ ?_ fun _ _ => refuses_operator
  rw [l.operator_eq]
  exact refuses_terminal (by cases l <;> rfl)

theorem refuses_callSuffix (o : Origin) (fuel : Nat) {k : Nat} {rest : List Char} (h : Follows k rest) :
    Refuses (callSuffix o fuel) rest := by
  cases fuel with
  | zero => exact fun _ far _ => ⟨far, rfl⟩
  | succ fuel =>
    rw [callSuffix]
    exact h.refuses _ (refuses_terminal rfl) fun _ _ => refuses_leftParen

/-- Each rung reads what the next one reads, if nothing follows that belongs to it. -/
theorem reads_lift {o : Origin} {k fuel : Nat} {P : Expr → Prop} {input rest : List Char} (hk : k < 9)
    (h : Reads (ruleAt o (k + 1) fuel) P input rest) (hrest : Follows k rest) (hplain : k = 8 → Refuses unaryOp input) :
    Reads (ruleAt o k (fuel + 1)) P input rest := by
  have hlevel (l : Level) (hl : k = l.tightness) : Reads (level o l (fuel + 1)) P input rest := by
    subst hl
    rw [level_succ]
    refine h.bind fun e he => (Reads.many_nil (refuses_step o l fuel hrest) fuel).bind fun steps hsteps => .pure ?_
    rw [hsteps]
    exact he
  match k, hk with
  | 0, _ =>
    show Reads (expression o (fuel + 1)) P input rest
    rw [expression_succ]
    refine Reads.bind h fun e he => (Reads.many_nil (refuses_stage o fuel hrest) fuel).bind fun stages hstages => .pure ?_
    rw [hstages]
    exact he
  | 1, _ => exact hlevel .or rfl
  | 2, _ => exact hlevel .and rfl
  | 3, _ => exact hlevel .comparison rfl
  | 4, _ => exact hlevel .concat rfl
  | 5, _ => exact hlevel .additive rfl
  | 6, _ => exact hlevel .multiplicative rfl
  | 7, _ =>
    show Reads (power o (fuel + 1)) P input rest
    rw [power]
    refine Reads.bind h fun e he => Reads.bind
      (Reads.absent (hrest.refuses _ (refuses_terminal rfl) fun _ _ => refuses_pow)) fun exponent hexponent => ?_
    rw [hexponent]
    exact .pure he
  | 8, _ =>
    show Reads (unary o (fuel + 1)) P input rest
    rw [unary]
    exact Reads.right ((hplain rfl).first _) h

theorem reads_descend {o : Origin} {j k fuel : Nat} {P : Expr → Prop} {input rest : List Char} (hj : j ≤ 9) (hk : k ≤ j)
    (h : Reads (ruleAt o j fuel) P input rest) (hrest : Follows k rest) (hplain : j = 9 → Refuses unaryOp input) :
    Reads (ruleAt o k (fuel + (j - k))) P input rest := by
  obtain ⟨d, rfl⟩ := Nat.exists_eq_add_of_le hk
  rw [Nat.add_sub_cancel_left]
  induction d generalizing k with
  | zero => exact h
  | succ d ih =>
    have hstep : k + (d + 1) = k + 1 + d := by omega
    rw [hstep] at h hj hplain
    exact reads_lift (by omega) (ih (hrest.mono (by omega)) hj (by omega) h hplain) hrest
      fun h8 => hplain (by omega)

/-! ## Lexemes and their rests -/

section

variable (bare : Bool) {e : Expr}

theorem within_cons (he : e.writable = true) (k : Nat) :
    ∃ t ts, e.within bare k = t :: ts ∧ IsLexeme t ∧ ∀ u ∈ ts, IsLexeme u := by
  have hall : ∀ t ∈ e.within bare k, IsLexeme t := forall_enclosed (isLexeme_of_mem bare he)
  have hne : e.lexemes bare ≠ [] := by cases e <;> simp [Expr.lexemes]
  have hlength := List.length_pos_iff.mpr hne
  cases hts : e.within bare k with
  | nil =>
    have := e.length_lexemes_le bare k
    rw [hts, List.length_nil] at this
    omega
  | cons t ts => exact ⟨t, ts, rfl, List.forall_mem_cons.mp (hts ▸ hall)⟩

theorem reads_within_space (he : e.writable = true) (k : Nat) (rest : List Char) :
    Reads blanks (fun _ => True) (spaced (e.within bare k) rest) (spaced (e.within bare k) rest).tail := by
  obtain ⟨t, ts, hts, ht, -⟩ := within_cons bare he k
  rw [hts]
  exact reads_space ht _

end

/-! ## Reading an expression at its own rung -/

/-- An expression that is read at every rung, enclosed where it has to be. Three numbers bound the depth: the rungs
that are left and, for each lexeme, more than there are rungs. -/
def Legible (bare : Bool) (e : Expr) : Prop :=
  ∀ o k fuel rest, k ≤ 9 → Follows k rest → 14 * (e.within bare k).length + (10 - k) ≤ fuel →
    Reads (ruleAt o k fuel) (fun e' => e'.unplaced = e.unplaced) (spaced (e.within bare k) rest).tail rest

theorem reads_group {o : Origin} {fuel : Nat} {bare : Bool} {e : Expr} (he : e.writable = true) {rest : List Char}
    (h : Reads (expression o fuel) (fun e' => e'.unplaced = e.unplaced)
      (spaced (e.lexemes bare) (spaced [")"] rest)).tail (spaced [")"] rest)) :
    Reads (primary o (fuel + 1)) (fun e' => e'.unplaced = e.unplaced)
      ("(".toList ++ spaced (e.lexemes bare) (spaced [")"] rest)) rest := by
  have hopen := reads_within_space bare he 0 (spaced [")"] rest)
  rw [Expr.within_of_le (Nat.zero_le _)] at hopen
  rw [primary_succ]
  refine .right (refuses_number_start o _ rfl (by decide)) (.right (refuses_string_start o _ (by decide) (by decide))
    (.right ((refuses_identifier_start _ rfl).first _) (.right ((refuses_identifier_start _ rfl).first _) ?_)))
  refine (reads_mark rfl).bind fun _ _ => hopen.bind fun _ _ => h.bind fun inner hinner => ?_
  exact (reads_space (isLexeme_mark (by simp)) rest).bind fun _ _ => (reads_mark rfl).bind fun _ _ => .pure hinner

theorem refuses_unaryOp (bare : Bool) {e : Expr} (he : e.writable = true) (rest : List Char) :
    Refuses unaryOp (spaced (e.within bare 9) rest).tail := by
  rcases Nat.lt_or_ge e.tightness 9 with hlt | hge
  · rw [Expr.within_of_lt hlt]
    exact refuses_unaryOp_start _ (by decide)
  rw [Expr.within_of_le hge]
  cases e with
  | literal l pos =>
    obtain ⟨c, cs, hl, hc⟩ := literal_start he
    simp only [Expr.lexemes, spaced_cons, hl, List.cons_append, List.tail_cons]
    refine refuses_unaryOp_start _ fun hmem => ?_
    simp only [List.mem_cons, List.not_mem_nil, or_false] at hmem
    rcases hmem with rfl | rfl | rfl | rfl <;> exact absurd hc (by decide)
  | ref r => exact refuses_unaryOp_word _ (isWord_symbol he)
  | call name args pos => exact refuses_unaryOp_word _ ((Bool.and_eq_true _ _).mp he).1
  | unary op operand pos => simp [Expr.tightness] at hge
  | binary op left right pos => cases op <;> simp [Expr.tightness, BinaryOp.tightness] at hge
  | pipe left name args callPos pos => simp [Expr.tightness] at hge

theorem legible_of_own {bare : Bool} {e : Expr} (he : e.writable = true)
    (h : ∀ o fuel rest, Follows e.tightness rest → 14 * (e.lexemes bare).length + (9 - e.tightness) ≤ fuel →
      Reads (ruleAt o e.tightness (fuel + 1)) (fun e' => e'.unplaced = e.unplaced) (spaced (e.lexemes bare) rest).tail
        rest) :
    Legible bare e := by
  have htight := e.tightness_le
  -- at the looser rungs, as it stands
  have hloose (o : Origin) (k fuel : Nat) (rest : List Char) (hk : k ≤ e.tightness) (hrest : Follows k rest)
      (hfuel : 14 * (e.lexemes bare).length + (10 - k) ≤ fuel) :
      Reads (ruleAt o k fuel) (fun e' => e'.unplaced = e.unplaced) (spaced (e.lexemes bare) rest).tail rest := by
    obtain ⟨f, rfl⟩ : ∃ f, fuel = f + 1 + (e.tightness - k) := ⟨fuel - 1 - (e.tightness - k), by omega⟩
    refine reads_descend htight hk (h o f rest (hrest.mono hk) (by omega)) hrest fun h9 => ?_
    have := refuses_unaryOp bare he rest
    rwa [Expr.within_of_le (by omega)] at this
  intro o k fuel rest hk hrest hfuel
  rcases Nat.lt_or_ge e.tightness k with hlt | hge
  · -- at the tighter rungs, in parentheses
    rw [Expr.within_of_lt hlt, List.length_cons, List.length_append, List.length_singleton] at hfuel
    obtain ⟨f, rfl⟩ : ∃ f, fuel = f + 1 + (9 - k) := ⟨fuel - 1 - (9 - k), by omega⟩
    have hgroup : Reads (primary o (f + 1)) (fun e' => e'.unplaced = e.unplaced) (spaced (e.within bare k) rest).tail rest := by
      rw [Expr.within_of_lt hlt, spaced_cons, spaced_append, List.tail_cons]
      exact reads_group he
        (hloose o 0 f _ (Nat.zero_le _) (.inr ⟨")", rest, rfl, hrest.apart, .close⟩) (by omega))
    have hplain := refuses_unaryOp bare he rest
    rw [Expr.within_of_lt (by omega), ← Expr.within_of_lt hlt] at hplain
    exact reads_descend (Nat.le_refl 9) hk hgroup hrest fun _ => hplain
  · rw [Expr.within_of_le hge] at hfuel ⊢
    exact hloose o k fuel rest hge hrest hfuel

/-! ## Leaves and calls -/

theorem reads_literal {o : Origin} {fuel : Nat} {l : Literal} (h : l.writable = true) {rest : List Char}
    (hrest : Apart rest) :
    Reads (primary o (fuel + 1)) (fun e => e.unplaced = .literal l ⟨0, 0⟩) (l.lexeme.toList ++ rest) rest := by
  rw [primary_succ]
  match l with
  | .number (.int n) =>
    obtain ⟨k, rfl, hk⟩ := writable_int h
    rw [toList_natural]
    exact .left (reads_number o hk hrest) _
  | .number (.float _) => cases h
  | .text s interpolate =>
    refine .right ?_ (.left (reads_string o s interpolate hrest) _)
    cases interpolate <;> simp only [Literal.lexeme, enquoted, String.toList_ofList] <;>
      exact refuses_number_start o _ rfl (by decide)

theorem reads_word {o : Origin} {fuel : Nat} {name : String} (h : isWord name = true) {P : Expr → Prop}
    {input rest : List Char}
    (hname : Reads (Rule.orElse (called o fuel) (Rule.orElse (symbol o) (grouped o fuel))) P (name.toList ++ input) rest) :
    Reads (primary o (fuel + 1)) P (name.toList ++ input) rest := by
  obtain ⟨c, cs, hs, hc, -⟩ := isWord_cons h
  rw [hs] at hname ⊢
  rw [primary_succ]
  refine .right (refuses_number_start o _ ?_ ?_) (.right (refuses_string_start o _ ?_ ?_) hname)
  · exact Text.isDecimal_of_isDigit (isDigit_of_isWordStart hc)
  all_goals
    rintro rfl
    exact absurd hc (by decide)

theorem legible_literal (bare : Bool) {l : Literal} (h : l.writable = true) (pos : Pos) : Legible bare (.literal l pos) :=
  legible_of_own h fun _ _ _ hrest _ => reads_literal h hrest.apart

theorem legible_ref (bare : Bool) {r : Ref} (h : r.writable = true) : Legible bare (.ref r) := by
  refine legible_of_own h fun o fuel rest hrest hfuel => ?_
  have hword := isWord_symbol h
  refine reads_word hword (.right ?_ (.left (reads_symbol o h hrest.apart) _))
  exact .bind (reads_identifier hword hrest.apart) fun _ _ => (refuses_callSuffix o _ hrest).first _

/-! ## Arguments -/

def LegibleArgument (bare : Bool) (a : Arg) : Prop := a.1.all isWord = true ∧ a.2.writable = true ∧ Legible bare a.2

theorem refuses_named (bare : Bool) {e : Expr} (he : e.writable = true) {rest : List Char} (hrest : Follows 0 rest)
    {α : Type} (f : Nat × List Char → Rule α) :
    Refuses (do let name ← identifier; blanks; let _ ← equals; f name) (spaced (e.within bare 8) rest).tail := by
  rcases Nat.lt_or_ge e.tightness 8 with hlt | hge
  · rw [Expr.within_of_lt hlt]
    exact (refuses_identifier_start _ rfl).first _
  rw [Expr.within_of_le hge]
  cases e with
  | literal l pos =>
    obtain ⟨c, cs, hl, hc⟩ := literal_start he
    simp only [Expr.lexemes, spaced_cons, hl, List.cons_append, List.tail_cons]
    exact (refuses_identifier_start _ (not_isIdentifierStart hc)).first _
  | ref r =>
    exact .bind (reads_identifier (isWord_symbol he) hrest.apart) fun _ _ =>
      hrest.refuses _ (refuses_terminal rfl) fun _ _ => refuses_equals
  | call name args pos =>
    have hname := ((Bool.and_eq_true _ _).mp he).1
    refine .bind (reads_identifier hname (apart_spaced _ hrest.apart)) fun _ _ => ?_
    exact .bind (reads_space (isLexeme_mark (by simp)) _) fun _ _ => (refuses_terminal rfl).first _
  | unary op operand pos => cases op <;> exact (refuses_identifier_start _ rfl).first _
  | binary op left right pos => cases op <;> simp [Expr.tightness, BinaryOp.tightness] at hge
  | pipe left name args callPos pos => simp [Expr.tightness] at hge

theorem reads_argument {o : Origin} {bare : Bool} {a : Arg} (ha : LegibleArgument bare a) {fuel : Nat} {rest : List Char}
    (hrest : Follows 0 rest) (hfuel : 14 * (argumentLexeme bare a).length + 10 ≤ fuel) :
    Reads (argument o (fuel + 1)) (fun b => (b.1, b.2.unplaced) = (a.1, a.2.unplaced))
      (spaced (argumentLexeme bare a) rest).tail rest := by
  obtain ⟨name, value⟩ := a
  have hvalue : value.writable = true := ha.2.1
  have hlegible : Legible bare value := ha.2.2
  rw [argument]
  cases name with
  | some name =>
    have hwithin : value.within bare 0 = value.lexemes bare := Expr.within_of_le (Nat.zero_le _)
    simp only [argumentLexeme, List.length_cons] at hfuel
    have hspace := reads_within_space bare hvalue 0 rest
    have hread := hlegible o 0 fuel rest (by omega) hrest (by rw [hwithin]; omega)
    rw [hwithin] at hspace hread
    refine .left (.bind (reads_identifier ha.1 (apart_cons _)) fun l hl => ?_) _
    refine .bind (reads_space (isLexeme_mark (by simp)) _) fun _ _ => ?_
    refine .bind (reads_equals (apart_spaced _ hrest.apart)) fun _ _ => hspace.bind fun _ _ => ?_
    exact hread.bind fun e he => .pure (by rw [hl, he])
  | none =>
    refine .right (refuses_named bare hvalue hrest _) ?_
    obtain ⟨f, rfl⟩ : ∃ f, fuel = f + 8 := ⟨fuel - 8, by omega⟩
    have hlength : 14 * (value.within bare 8).length + 10 ≤ f + 8 := hfuel
    have hread := hlegible o 8 f rest (by omega) (hrest.mono (by omega)) (by omega)
    exact (reads_descend (by omega) (Nat.zero_le 8) hread hrest (by omega)).bind fun e he => .pure (by rw [he])

theorem reads_argument_space {bare : Bool} {a : Arg} (ha : LegibleArgument bare a) (rest : List Char) :
    Reads blanks (fun _ => True) (spaced (argumentLexeme bare a) rest) (spaced (argumentLexeme bare a) rest).tail := by
  obtain ⟨_ | name, value⟩ := a
  · exact reads_within_space bare ha.2.1 8 rest
  · exact reads_space (isLexeme_word ha.1) _

theorem follows_arguments (bare : Bool) (more : List Arg) {rest : List Char} (hrest : Apart rest) :
    Follows 0 (spaced (more.flatMap fun a => "," :: argumentLexeme bare a) (spaced [")"] rest)) := by
  cases more with
  | nil => exact .inr ⟨")", rest, rfl, hrest, .close⟩
  | cons a more =>
    refine .inr ⟨",", spaced (argumentLexeme bare a ++ more.flatMap fun a => "," :: argumentLexeme bare a)
      (spaced [")"] rest), rfl, apart_spaced _ (apart_cons _), .comma⟩

theorem reads_arguments {o : Origin} {bare : Bool} {fuel : Nat} {more : List Arg}
    (hmore : ∀ a ∈ more, LegibleArgument bare a ∧ 14 * (argumentLexeme bare a).length + 10 ≤ fuel)
    {rest : List Char} (hrest : Apart rest) {n : Nat} (hn : more.length ≤ n) :
    Reads (Rule.many (do blanks; let _ ← comma; blanks; argument o (fuel + 1)) n)
      (fun as => as.map (fun b => (b.1, b.2.unplaced)) = more.map fun a => (a.1, a.2.unplaced))
      (spaced (more.flatMap fun a => "," :: argumentLexeme bare a) (spaced [")"] rest)) (spaced [")"] rest) := by
  induction more generalizing n with
  | nil =>
    refine (Reads.many_nil (.bind (reads_space (isLexeme_mark (by simp)) _) fun _ _ => ?_) n).mono fun as has => by rw [has]
    exact (refuses_terminal rfl).first _
  | cons a more ih =>
    obtain ⟨⟨ha, hlength⟩, hmore⟩ := List.forall_mem_cons.mp hmore
    obtain ⟨n, rfl⟩ : ∃ k, n = k + 1 := ⟨n - 1, by rw [List.length_cons] at hn; omega⟩
    have hfollows := follows_arguments bare more hrest
    simp only [List.flatMap_cons, List.cons_append, spaced_cons, spaced_append]
    refine (Reads.many_cons (.bind (reads_space (isLexeme_mark (by simp)) _) fun _ _ =>
      .bind (reads_mark rfl) fun _ _ => .bind (reads_argument_space ha _) fun _ _ => reads_argument ha hfollows hlength)
      (ih hmore (Nat.le_of_succ_le_succ hn))).mono ?_
    rintro _ ⟨b, bs, rfl, hb, hbs⟩
    rw [List.map_cons, List.map_cons, hb, hbs]

theorem refuses_close (o : Origin) (fuel k : Nat) (rest : List Char) : Refuses (ruleAt o k fuel) (')' :: rest) := by
  induction fuel generalizing k with
  | zero =>
    match k with
    | 0 | 1 | 2 | 3 | 4 | 5 | 6 | 7 | 8 | _ + 9 => exact fun _ far _ => ⟨far, rfl⟩
  | succ fuel ih =>
    have hlevel (l : Level) : Refuses (level o l (fuel + 1)) (')' :: rest) := by
      rw [level_succ]
      exact (ih (l.tightness + 1)).first _
    match k with
    | 0 =>
      show Refuses (expression o (fuel + 1)) _
      rw [expression_succ]
      exact Refuses.first (ih 1) _
    | 1 => exact hlevel .or
    | 2 => exact hlevel .and
    | 3 => exact hlevel .comparison
    | 4 => exact hlevel .concat
    | 5 => exact hlevel .additive
    | 6 => exact hlevel .multiplicative
    | 7 =>
      show Refuses (power o (fuel + 1)) _
      rw [power]
      exact Refuses.first (ih 8) _
    | 8 =>
      show Refuses (unary o (fuel + 1)) _
      rw [unary]
      exact .both ((refuses_unaryOp_start _ (by decide)).first _) (ih 9)
    | _ + 9 =>
      show Refuses (primary o (fuel + 1)) _
      rw [primary_succ]
      refine .both (refuses_number_start o _ rfl (by decide)) (.both (refuses_string_start o _ (by decide) (by decide)) ?_)
      exact .both ((refuses_identifier_start _ rfl).first _)
        (.both ((refuses_identifier_start _ rfl).first _) ((refuses_terminal rfl).first _))

theorem refuses_argumentList (o : Origin) (fuel : Nat) (rest : List Char) :
    Refuses (argumentList o fuel) (')' :: rest) := by
  match fuel with
  | 0 => exact fun _ far _ => ⟨far, rfl⟩
  | 1 =>
    rw [argumentList]
    exact Refuses.first (fun _ far _ => ⟨far, rfl⟩) _
  | fuel + 2 =>
    rw [argumentList]
    refine Refuses.first ?_ _
    rw [argument]
    exact .both ((refuses_identifier_start _ rfl).first _) (Refuses.first (refuses_close o fuel 0 rest) _)

theorem inCall_cons (bare : Bool) (a : Arg) (more : List Arg) :
    inCall (argumentLexemes bare (a :: more)) =
      "(" :: (argumentLexeme bare a ++ (more.flatMap (fun b => "," :: argumentLexeme bare b) ++ [")"])) := by
  rw [inCall, argumentLexemes_eq, List.map_cons, intercalate_cons, List.flatMap_map, List.append_assoc]
  rfl

theorem length_argument_lt (bare : Bool) {args : List Arg} {a : Arg} (h : a ∈ args) :
    (argumentLexeme bare a).length + 1 < (inCall (argumentLexemes bare args)).length := by
  cases args with
  | nil => cases h
  | cons b more =>
    simp only [inCall_cons, List.length_cons, List.length_append, List.length_nil]
    rcases List.mem_cons.mp h with rfl | h
    · omega
    · have := length_le_flatMap (fun b => "," :: argumentLexeme bare b) h
      rw [List.length_cons] at this
      omega

theorem length_arguments_le (bare : Bool) (args : List Arg) :
    args.length ≤ (inCall (argumentLexemes bare args)).length := by
  cases args with
  | nil => exact Nat.zero_le _
  | cons a more =>
    have := count_le_flatMap (f := fun b => "," :: argumentLexeme bare b) (fun _ => Nat.succ_pos _) more
    simp only [inCall_cons, List.length_cons, List.length_append, List.length_nil]
    omega

theorem reads_callSuffix {o : Origin} {bare : Bool} {fuel : Nat} {args : List Arg}
    (hargs : ∀ a ∈ args, LegibleArgument bare a)
    (hfuel : 14 * (inCall (argumentLexemes bare args)).length ≤ fuel) {rest : List Char} (hrest : Apart rest) :
    Reads (callSuffix o (fuel + 1)) (fun as => unplacedArguments as = unplacedArguments args)
      (spaced (inCall (argumentLexemes bare args)) rest) rest := by
  rw [callSuffix]
  cases args with
  | nil =>
    refine .bind (reads_space (isLexeme_mark (by simp)) _) fun _ _ => .bind (reads_mark rfl) fun _ _ => ?_
    refine .bind (reads_space (isLexeme_mark (by simp)) _) fun _ _ => ?_
    refine .bind (Reads.absent (refuses_argumentList o fuel _)) fun as has => ?_
    refine .bind (reads_no_blank fun c hc => Option.some.inj hc ▸ rfl) fun _ _ => .bind (reads_mark rfl) fun _ _ => .pure ?_
    rw [has]
    rfl
  | cons a more =>
    obtain ⟨ha, hmore⟩ := List.forall_mem_cons.mp hargs
    have hlength (b : Arg) (hb : b ∈ a :: more) : 14 * (argumentLexeme bare b).length + 12 ≤ fuel := by
      have := length_argument_lt bare hb
      omega
    have hcount := length_arguments_le bare (a :: more)
    rw [List.length_cons] at hcount
    obtain ⟨fuel, rfl⟩ : ∃ f, fuel = f + 2 := ⟨fuel - 2, by have := hlength a (by simp); omega⟩
    have hlist : Reads (argumentList o (fuel + 2)) (fun as => unplacedArguments as = unplacedArguments (a :: more))
        (spaced (argumentLexeme bare a) (spaced (more.flatMap fun b => "," :: argumentLexeme bare b)
          (spaced [")"] rest))).tail (spaced [")"] rest) := by
      rw [argumentList]
      have hfirst := hlength a (by simp)
      refine (reads_argument ha (follows_arguments bare more hrest) (by omega)).bind fun b hb => ?_
      refine (reads_arguments (fun c hc => ⟨hmore c hc, ?_⟩) hrest (by omega)).bind fun bs hbs => .pure ?_
      · have := hlength c (by simp [hc])
        omega
      · rw [unplacedArguments_eq, unplacedArguments_eq, List.map_cons, List.map_cons, hb, hbs]
    rw [inCall_cons, spaced_cons, spaced_append, spaced_append]
    refine .bind (reads_space (isLexeme_mark (by simp)) _) fun _ _ => .bind (reads_mark rfl) fun _ _ => ?_
    refine (reads_argument_space ha _).bind fun _ _ => hlist.present.bind fun as has => ?_
    obtain ⟨bs, rfl, hbs⟩ := has
    exact .bind (reads_space (isLexeme_mark (by simp)) _) fun _ _ => .bind (reads_mark rfl) fun _ _ => .pure hbs

theorem legibleArguments {bare : Bool} {args : List Arg} {n : Nat} (hargs : argumentsWritable args = true)
    (ih : ∀ e : Expr, e.writable = true → (e.lexemes bare).length < n → Legible bare e)
    (hn : (inCall (argumentLexemes bare args)).length ≤ n) : ∀ a ∈ args, LegibleArgument bare a := by
  intro a ha
  obtain ⟨hname, hvalue⟩ := (argumentsWritable_iff args).mp hargs a ha
  refine ⟨hname, hvalue, ih a.2 hvalue ?_⟩
  have hlength := length_argument_lt bare ha
  have hle : (a.2.lexemes bare).length ≤ (argumentLexeme bare a).length := by
    obtain ⟨_ | name, value⟩ := a
    · exact value.length_lexemes_le bare 8
    · simp only [argumentLexeme, List.length_cons]
      omega
  omega

theorem legible_call {bare : Bool} {name : String} {args : List Arg} (hname : isWord name = true)
    (hargs : ∀ a ∈ args, LegibleArgument bare a) (pos : Pos) : Legible bare (.call name args pos) := by
  have hwritable : (Expr.call name args pos).writable = true :=
    (Bool.and_eq_true _ _).mpr ⟨hname, (argumentsWritable_iff args).mpr fun a ha => ⟨(hargs a ha).1, (hargs a ha).2.1⟩⟩
  refine legible_of_own hwritable fun o fuel rest hrest hfuel => ?_
  simp only [Expr.lexemes, List.length_cons] at hfuel
  obtain ⟨fuel, rfl⟩ : ∃ f, fuel = f + 1 := ⟨fuel - 1, by omega⟩
  refine reads_word hname (.left (.bind (reads_identifier hname (apart_spaced _ hrest.apart)) fun l hl => ?_) _)
  refine (reads_callSuffix hargs (by omega) hrest.apart).bind fun as has => .pure ?_
  simp only [Expr.unplaced, hl, has]

/-! ## Operators -/

section

variable {bare : Bool}

theorem legible_unary {operand : Expr} (hwritable : operand.writable = true) (hlegible : Legible bare operand)
    (op : UnaryOp) (pos : Pos) : Legible bare (.unary op operand pos) := by
  refine legible_of_own hwritable fun o fuel rest hrest hfuel => ?_
  have hop : Reads unaryOp (fun l => unaryOf l.2 = op) (op.symbol.toList ++ spaced (operand.within bare 8) rest)
      (spaced (operand.within bare 8) rest) := by
    refine (reads_terminal ?_).mono fun l hl => by rw [hl]; cases op <;> rfl
    cases op <;> rfl
  have hlength : 14 * ((operand.within bare 8).length + 1) + (9 - 8) ≤ fuel := hfuel
  show Reads (unary o (fuel + 1)) _ _ rest
  rw [unary]
  refine .left (hop.bind fun l hl => (reads_within_space bare hwritable 8 rest).bind fun _ _ => ?_) _
  refine (hlegible o 8 fuel rest (by omega) hrest (by omega)).bind fun e he => .pure ?_
  simp only [Expr.unplaced, hl, he]

theorem legible_pow {left right : Expr} (hleft : left.writable = true) (hright : right.writable = true)
    (hlegible : Legible bare left) (hlegible' : Legible bare right) (pos : Pos) :
    Legible bare (.binary .pow left right pos) := by
  refine legible_of_own ((Bool.and_eq_true _ _).mpr ⟨hleft, hright⟩) fun o fuel rest hrest hfuel => ?_
  have hlexemes : (Expr.binary .pow left right pos).lexemes bare = left.within bare 8 ++ "**" :: right.within bare 7 := rfl
  rw [hlexemes, List.length_append, List.length_cons] at hfuel
  have hlength : 14 * ((left.within bare 8).length + ((right.within bare 7).length + 1)) + (9 - 7) ≤ fuel := hfuel
  have happart := apart_spaced (right.within bare 7) hrest.apart
  rw [hlexemes, spaced_append, spaced_cons]
  show Reads (power o (fuel + 1)) _ _ rest
  rw [power]
  refine .bind (hlegible o 8 fuel _ (by omega) (.inr ⟨"**", _, rfl, happart, .operator .pow (by decide)⟩) (by omega))
    fun base hbase => ?_
  have hexponent := hlegible' o 7 fuel rest (by omega) hrest (by omega)
  refine .bind (Reads.present (P := fun p => p.2.unplaced = right.unplaced) (.bind (reads_space (isLexeme_binary .pow) _)
    fun _ _ => .bind (reads_mark (t := "**") ?_) fun op _ => (reads_within_space bare hright 7 rest).bind fun _ _ =>
      hexponent.bind fun e he => .pure he)) fun exponent hexponent => ?_
  · obtain h | ⟨more, h⟩ := happart.cases <;> rw [h] <;> rfl
  · obtain ⟨⟨op, e⟩, rfl, he⟩ := hexponent
    refine .pure ?_
    simp only [Expr.unplaced, hbase, he]

/-! ### Chains that group to the left -/

def chain (l : Level) : Expr → Expr × List (BinaryOp × Expr)
  | .binary op left right pos =>
    if level? op = some l then ((chain l left).1, (chain l left).2 ++ [(op, right)]) else (.binary op left right pos, [])
  | e => (e, [])

theorem level?_bounds {op : BinaryOp} {l : Level} (h : level? op = some l) :
    op.tightness = l.tightness ∧ op.leftBound = l.tightness ∧ op.rightBound = l.tightness + 1 := by
  cases op <;> cases h <;> exact ⟨rfl, rfl, rfl⟩

theorem within_succ {l : Level} {e : Expr} (h : e.tightness ≠ l.tightness) :
    e.within bare l.tightness = e.within bare (l.tightness + 1) := by
  rcases Nat.lt_or_ge e.tightness l.tightness with hlt | hge
  · rw [Expr.within_of_lt hlt, Expr.within_of_lt (by omega)]
  · rw [Expr.within_of_le hge, Expr.within_of_le (by omega)]

theorem tightness_ne {op : BinaryOp} {l : Level} (h : level? op ≠ some l) : op.tightness ≠ l.tightness := by
  intro ht
  cases op <;> cases l <;> first | exact h rfl | cases ht

theorem chain_within (bare : Bool) (l : Level) (e : Expr) :
    e.within bare l.tightness = (chain l e).1.within bare (l.tightness + 1) ++
      (chain l e).2.flatMap fun s => s.1.symbol :: s.2.within bare (l.tightness + 1) := by
  fun_induction chain l e with
  | case1 op left right pos h ih =>
    obtain ⟨htight, hleft, hright⟩ := level?_bounds h
    have hlexemes : (Expr.binary op left right pos).lexemes bare =
        left.within bare op.leftBound ++ op.symbol :: right.within bare op.rightBound := by rw [Expr.lexemes]; rfl
    rw [Expr.within_of_le (Nat.le_of_eq htight.symm), hlexemes, hleft, hright, ih]
    simp
  | case2 op left right pos h => rw [within_succ (e := .binary op left right pos) (tightness_ne h), List.flatMap_nil, List.append_nil]
  | case3 e h =>
    rw [List.flatMap_nil, List.append_nil]
    refine within_succ ?_
    cases e with
    | binary op left right pos => exact absurd rfl (h op left right pos)
    | _ => cases l <;> simp [Expr.tightness, Level.tightness]

theorem chain_unplaced (l : Level) (e : Expr) :
    e.unplaced = ((chain l e).2.map fun s => (s.1, s.2.unplaced)).foldl
      (fun left s => .binary s.1 left s.2 ⟨0, 0⟩) (chain l e).1.unplaced := by
  fun_induction chain l e with
  | case1 op left right pos h ih => simp [Expr.unplaced, ih]
  | case2 | case3 => rfl

theorem chain_writable (l : Level) {e : Expr} (he : e.writable = true) :
    (chain l e).1.writable = true ∧ ∀ s ∈ (chain l e).2, level? s.1 = some l ∧ s.2.writable = true := by
  fun_induction chain l e with
  | case1 op left right pos h ih =>
    obtain ⟨hleft, hright⟩ := (Bool.and_eq_true _ _).mp he
    refine ⟨(ih hleft).1, ?_⟩
    rw [List.forall_mem_append, List.forall_mem_singleton]
    exact ⟨(ih hleft).2, h, hright⟩
  | case2 | case3 => exact ⟨he, fun _ h => nomatch h⟩

theorem foldLeft_unplaced (o : Origin) (first : Expr) (steps : List ((Nat × List Char) × Expr)) :
    (foldLeft o first steps).unplaced = (steps.map fun s => (binaryOf s.1.2, s.2.unplaced)).foldl
      (fun left s => .binary s.1 left s.2 ⟨0, 0⟩) first.unplaced := by
  unfold foldLeft
  induction steps generalizing first with
  | nil => rfl
  | cons s steps ih => rw [List.foldl_cons, ih]; rfl

theorem follows_steps (bare : Bool) {l : Level} {steps : List (BinaryOp × Expr)} (hsteps : ∀ s ∈ steps, level? s.1 = some l)
    {rest : List Char} (hrest : Follows l.tightness rest) :
    Follows (l.tightness + 1)
      (spaced (steps.flatMap fun s => s.1.symbol :: s.2.within bare (l.tightness + 1)) rest) := by
  cases steps with
  | nil => exact hrest.mono (Nat.le_succ _)
  | cons s steps =>
    have htight := (level?_bounds (hsteps s (by simp))).1
    rw [List.flatMap_cons, List.cons_append]
    exact .inr ⟨s.1.symbol, _, rfl, apart_spaced _ hrest.apart, .operator s.1 (by omega)⟩

theorem reads_steps {o : Origin} {l : Level} {fuel : Nat} {steps : List (BinaryOp × Expr)}
    (hsteps : ∀ s ∈ steps, level? s.1 = some l ∧ s.2.writable = true ∧ Legible bare s.2 ∧
      14 * (s.2.within bare (l.tightness + 1)).length + (10 - (l.tightness + 1)) ≤ fuel)
    {rest : List Char} (hrest : Follows l.tightness rest) {n : Nat} (hn : steps.length ≤ n) :
    Reads (Rule.many (step o l fuel) n)
      (fun ss => ss.map (fun s => (binaryOf s.1.2, s.2.unplaced)) = steps.map fun s => (s.1, s.2.unplaced))
      (spaced (steps.flatMap fun s => s.1.symbol :: s.2.within bare (l.tightness + 1)) rest) rest := by
  induction steps generalizing n with
  | nil => exact (Reads.many_nil (refuses_step o l fuel hrest) n).mono fun ss hss => hss ▸ rfl
  | cons s steps ih =>
    obtain ⟨⟨hl, hwritable, hlegible, hlength⟩, hsteps⟩ := List.forall_mem_cons.mp hsteps
    obtain ⟨n, rfl⟩ : ∃ k, n = k + 1 := ⟨n - 1, by rw [List.length_cons] at hn; omega⟩
    have hfollows := follows_steps bare (fun s hs => (hsteps s hs).1) hrest
    have hk : l.tightness + 1 ≤ 9 := by cases l <;> decide
    simp only [List.flatMap_cons, List.cons_append, spaced_cons, spaced_append]
    refine (Reads.many_cons (P := fun t => (binaryOf t.1.2, t.2.unplaced) = (s.1, s.2.unplaced))
      (.bind (reads_space (isLexeme_binary s.1) _) fun _ _ => .bind (reads_operator hl (apart_spaced _ hfollows.apart))
        fun op hop => (reads_within_space bare hwritable _ _).bind fun _ _ =>
          (hlegible o _ fuel _ hk hfollows hlength).bind fun e he => .pure (by rw [hop, he]))
      (ih hsteps (Nat.le_of_succ_le_succ hn))).mono ?_
    rintro _ ⟨t, ts, rfl, ht, hts⟩
    rw [List.map_cons, List.map_cons, ht, hts]

theorem legible_infix {op : BinaryOp} {l : Level} (hl : level? op = some l) {left right : Expr} {pos : Pos}
    (he : (Expr.binary op left right pos).writable = true)
    (ih : ∀ e : Expr, e.writable = true →
      (e.lexemes bare).length < ((Expr.binary op left right pos).lexemes bare).length → Legible bare e) :
    Legible bare (.binary op left right pos) := by
  have htight : (Expr.binary op left right pos).tightness = l.tightness := (level?_bounds hl).1
  have hlexemes := chain_within bare l (.binary op left right pos)
  rw [Expr.within_of_le (Nat.le_of_eq htight.symm)] at hlexemes
  obtain ⟨hfirst, hsteps⟩ := chain_writable l he
  have hunplaced := chain_unplaced l (.binary op left right pos)
  have hne : (chain l (.binary op left right pos)).2 ≠ [] := by simp [chain, hl]
  generalize (chain l (.binary op left right pos)).1 = first at *
  generalize (chain l (.binary op left right pos)).2 = steps at *
  have hcount := count_le_flatMap (f := fun s : BinaryOp × Expr => s.1.symbol :: s.2.within bare (l.tightness + 1))
    (fun _ => Nat.succ_pos _) steps
  have hpos := List.length_pos_iff.mpr hne
  have hlength := congrArg List.length hlexemes
  rw [List.length_append] at hlength
  refine legible_of_own he fun o fuel rest hrest hfuel => ?_
  have hrule : ruleAt o l.tightness (fuel + 1) = level o l (fuel + 1) := by cases l <;> rfl
  have hbound : l.tightness + 1 ≤ 9 := by cases l <;> decide
  rw [htight] at hrest hfuel ⊢
  have hfollows := follows_steps bare (fun s hs => (hsteps s hs).1) hrest
  have hsmall := first.length_lexemes_le bare (l.tightness + 1)
  rw [hrule, level_succ, hlexemes, spaced_append]
  refine (ih first hfirst (by omega) o _ fuel _ hbound hfollows (by omega)).bind fun e he' => ?_
  refine (reads_steps (fun s hs => ?_) hrest (by omega)).bind fun ss hss => .pure ?_
  · have hstep := length_le_flatMap (fun s : BinaryOp × Expr => s.1.symbol :: s.2.within bare (l.tightness + 1)) hs
    have hsmall := s.2.length_lexemes_le bare (l.tightness + 1)
    rw [List.length_cons] at hstep
    exact ⟨(hsteps s hs).1, (hsteps s hs).2, ih s.2 (hsteps s hs).2 (by omega), by omega⟩
  · rw [foldLeft_unplaced, hss, he', hunplaced]

/-! ### Pipes -/

def pipeline : Expr → Expr × List (String × List Arg)
  | .pipe left name args _ _ => ((pipeline left).1, (pipeline left).2 ++ [(name, args)])
  | e => (e, [])

def stageLexemes (bare : Bool) (s : String × List Arg) : List String :=
  "|>" :: s.1 :: if bare && s.2.isEmpty then [] else inCall (argumentLexemes bare s.2)

theorem pipeline_lexemes (bare : Bool) (e : Expr) :
    e.lexemes bare = (pipeline e).1.lexemes bare ++ (pipeline e).2.flatMap (stageLexemes bare) := by
  fun_induction pipeline e with
  | case1 left name args callPos pos ih => simp [Expr.lexemes, ih, stageLexemes]
  | case2 e h => simp

theorem pipeline_unplaced (e : Expr) :
    e.unplaced = ((pipeline e).2.map fun s => (s.1, unplacedArguments s.2)).foldl
      (fun left s => .pipe left s.1 s.2 ⟨0, 0⟩ ⟨0, 0⟩) (pipeline e).1.unplaced := by
  fun_induction pipeline e with
  | case1 left name args callPos pos ih => simp [Expr.unplaced, ih]
  | case2 => rfl

theorem pipeline_first (e : Expr) : 1 ≤ (pipeline e).1.tightness := by
  fun_induction pipeline e with
  | case1 left name args callPos pos ih => exact ih
  | case2 e h =>
    cases e with
    | pipe left name args callPos pos => exact absurd rfl (h left name args callPos pos)
    | binary op left right pos => cases op <;> simp [Expr.tightness, BinaryOp.tightness]
    | _ => simp [Expr.tightness]

theorem pipeline_writable {e : Expr} (he : e.writable = true) :
    (pipeline e).1.writable = true ∧ ∀ s ∈ (pipeline e).2, isWord s.1 = true ∧ argumentsWritable s.2 = true := by
  fun_induction pipeline e with
  | case1 left name args callPos pos ih =>
    simp only [Expr.writable, Bool.and_eq_true] at he
    refine ⟨(ih he.1.1).1, ?_⟩
    rw [List.forall_mem_append, List.forall_mem_singleton]
    exact ⟨(ih he.1.1).2, he.1.2, he.2⟩
  | case2 => exact ⟨he, fun _ h => nomatch h⟩

theorem pipes_unplaced (o : Origin) (first : Expr) (stages : List ((Nat × List Char) × (Nat × List Char) × List Arg)) :
    (stages.foldl (fun left stage =>
      .pipe left (String.ofList stage.2.1.2) stage.2.2 (o.pos stage.2.1.1) (o.pos stage.1.1)) first).unplaced =
      (stages.map fun s => (String.ofList s.2.1.2, unplacedArguments s.2.2)).foldl
        (fun left s => .pipe left s.1 s.2 ⟨0, 0⟩ ⟨0, 0⟩) first.unplaced := by
  induction stages generalizing first with
  | nil => rfl
  | cons s stages ih => rw [List.foldl_cons, ih]; rfl

theorem follows_stages (bare : Bool) (stages : List (String × List Arg)) {rest : List Char} (hrest : Follows 0 rest) :
    Follows 1 (spaced (stages.flatMap (stageLexemes bare)) rest) := by
  cases stages with
  | nil => exact hrest.mono (Nat.zero_le 1)
  | cons s stages =>
    rw [List.flatMap_cons, stageLexemes, List.cons_append]
    exact .inr ⟨"|>", _, rfl, apart_spaced _ hrest.apart, .pipe Nat.one_pos⟩

theorem reads_stage {o : Origin} {fuel : Nat} {name : String} {args : List Arg} (hname : isWord name = true)
    (hargs : ∀ a ∈ args, LegibleArgument bare a) (hfuel : 14 * (stageLexemes bare (name, args)).length ≤ fuel)
    {rest : List Char} (hrest : Follows 1 rest) :
    Reads (stage o fuel) (fun t => (String.ofList t.2.1.2, unplacedArguments t.2.2) = (name, unplacedArguments args))
      (spaced (stageLexemes bare (name, args)) rest) rest := by
  simp only [stageLexemes, List.length_cons] at hfuel
  refine .bind (reads_space (isLexeme_mark (by simp)) _) fun _ _ => .bind (reads_mark rfl) fun _ _ => ?_
  refine .bind (reads_space (isLexeme_word hname) _) fun _ _ => ?_
  refine .bind (reads_identifier hname (apart_spaced _ hrest.apart)) fun l hl => ?_
  by_cases hbare : (bare && args.isEmpty) = true
  · rw [if_pos hbare]
    refine .bind (.absent (refuses_callSuffix o fuel hrest)) fun as has => .pure ?_
    obtain rfl : args = [] := by simpa using ((Bool.and_eq_true _ _).mp hbare).2
    simp only [hl, has]
    rfl
  · rw [if_neg hbare] at hfuel ⊢
    obtain ⟨fuel, rfl⟩ : ∃ f, fuel = f + 1 := ⟨fuel - 1, by omega⟩
    refine .bind (reads_callSuffix hargs (by omega) hrest.apart).present fun as has => .pure ?_
    obtain ⟨bs, rfl, hbs⟩ := has
    simp only [hl, Option.getD_some, hbs]

theorem reads_stages {o : Origin} {fuel : Nat} {stages : List (String × List Arg)}
    (hstages : ∀ s ∈ stages, isWord s.1 = true ∧ (∀ a ∈ s.2, LegibleArgument bare a) ∧
      14 * (stageLexemes bare s).length ≤ fuel)
    {rest : List Char} (hrest : Follows 0 rest) {n : Nat} (hn : stages.length ≤ n) :
    Reads (Rule.many (stage o fuel) n)
      (fun ts => ts.map (fun t => (String.ofList t.2.1.2, unplacedArguments t.2.2)) =
        stages.map fun s => (s.1, unplacedArguments s.2))
      (spaced (stages.flatMap (stageLexemes bare)) rest) rest := by
  induction stages generalizing n with
  | nil => exact (Reads.many_nil (refuses_stage o fuel hrest) n).mono fun ts hts => hts ▸ rfl
  | cons s stages ih =>
    obtain ⟨⟨hname, hargs, hlength⟩, hstages⟩ := List.forall_mem_cons.mp hstages
    obtain ⟨n, rfl⟩ : ∃ k, n = k + 1 := ⟨n - 1, by rw [List.length_cons] at hn; omega⟩
    have hfollows := follows_stages bare stages hrest
    rw [List.flatMap_cons, spaced_append]
    refine (Reads.many_cons (reads_stage hname hargs hlength hfollows) (ih hstages (Nat.le_of_succ_le_succ hn))).mono ?_
    rintro _ ⟨t, ts, rfl, ht, hts⟩
    rw [List.map_cons, List.map_cons, ht, hts]

theorem legible_pipe {left : Expr} {name : String} {args : List Arg} {callPos pos : Pos}
    (he : (Expr.pipe left name args callPos pos).writable = true)
    (ih : ∀ e : Expr, e.writable = true →
      (e.lexemes bare).length < ((Expr.pipe left name args callPos pos).lexemes bare).length → Legible bare e) :
    Legible bare (.pipe left name args callPos pos) := by
  have hlexemes := pipeline_lexemes bare (.pipe left name args callPos pos)
  obtain ⟨hfirst, hstages⟩ := pipeline_writable he
  have htight := pipeline_first (.pipe left name args callPos pos)
  have hunplaced := pipeline_unplaced (.pipe left name args callPos pos)
  have hne : (pipeline (.pipe left name args callPos pos)).2 ≠ [] := by simp [pipeline]
  generalize (pipeline (.pipe left name args callPos pos)).1 = first at *
  generalize (pipeline (.pipe left name args callPos pos)).2 = stages at *
  have hcount := count_le_flatMap (f := stageLexemes bare) (fun _ => Nat.succ_pos _) stages
  have hpos := List.length_pos_iff.mpr hne
  have hlength := congrArg List.length hlexemes
  rw [List.length_append] at hlength
  refine legible_of_own he fun o fuel rest hrest hfuel => ?_
  have hread := ih first hfirst (by omega) o 1 fuel _ (by omega) (follows_stages bare stages hrest)
  rw [Expr.within_of_le htight] at hread
  show Reads (expression o (fuel + 1)) _ _ rest
  rw [expression_succ, hlexemes, spaced_append]
  refine .bind (hread (by omega)) fun e he' => ?_
  refine (reads_stages (fun s hs => ?_) hrest (by omega)).bind fun ts hts => .pure ?_
  · have hstage := length_le_flatMap (stageLexemes bare) hs
    refine ⟨(hstages s hs).1, fun a ha => ?_, by omega⟩
    have hargs : (bare && s.2.isEmpty) = false := by
      rw [List.isEmpty_eq_false_iff.mpr (List.ne_nil_of_mem ha), Bool.and_false]
    simp only [stageLexemes, hargs, List.length_cons, Bool.false_eq_true, if_false] at hstage
    exact legibleArguments (hstages s hs).2 ih (by omega) a ha
  · rw [pipes_unplaced, hts, he', hunplaced]

end

/-! ## All expressions -/

theorem legible (bare : Bool) {e : Expr} (he : e.writable = true) : Legible bare e := by
  -- by the number of lexemes: the operands of a chain lie deeper than the operation itself
  induction hn : (e.lexemes bare).length using Nat.strongRecOn generalizing e with
  | _ n ih =>
    subst hn
    have ih' (e' : Expr) (he' : e'.writable = true) (hlt : (e'.lexemes bare).length < (e.lexemes bare).length) :
        Legible bare e' := ih _ hlt he' rfl
    cases e with
    | literal l pos => exact legible_literal bare he pos
    | ref r => exact legible_ref bare he
    | unary op operand pos =>
      have hlength : ((Expr.unary op operand pos).lexemes bare).length = (operand.within bare 8).length + 1 := rfl
      have hle := operand.length_lexemes_le bare 8
      have hoperand : operand.writable = true := he
      exact legible_unary hoperand (ih' operand hoperand (by omega)) op pos
    | binary op left right pos =>
      cases hl : level? op with
      | some l => exact legible_infix hl he ih'
      | none =>
        obtain rfl : op = .pow := by cases op <;> first | rfl | cases hl
        obtain ⟨hleft, hright⟩ := (Bool.and_eq_true _ _).mp he
        have hlength : ((Expr.binary .pow left right pos).lexemes bare).length =
          (left.within bare 8 ++ "**" :: right.within bare 7).length := rfl
        rw [List.length_append, List.length_cons] at hlength
        have hle := left.length_lexemes_le bare 8
        have hle' := right.length_lexemes_le bare 7
        exact legible_pow hleft hright (ih' left hleft (by omega)) (ih' right hright (by omega)) pos
    | call name args pos =>
      obtain ⟨hname, hargs⟩ := (Bool.and_eq_true _ _).mp he
      refine legible_call hname (legibleArguments hargs ih' ?_) pos
      simp only [Expr.lexemes, List.length_cons]
      omega
    | pipe left name args callPos pos => exact legible_pipe he ih'

theorem written_cons (bare : Bool) {e : Expr} (he : e.writable = true) :
    ∃ t ts, e.lexemes bare = t :: ts ∧ (e.written bare).toList = t.toList ++ spaced ts [] ∧ IsLexeme t ∧
      ∀ u ∈ ts, IsLexeme u := by
  obtain ⟨t, ts, hts, ht⟩ := within_cons bare he 0
  rw [Expr.within_of_le (Nat.zero_le _)] at hts
  exact ⟨t, ts, hts, by rw [Expr.written, hts, toList_intercalate_space], ht⟩

theorem length_le_spaced (ts : List String) (rest : List Char) : ts.length ≤ (spaced ts rest).length := by
  induction ts with
  | nil => exact Nat.zero_le _
  | cons t ts ih =>
    simp only [spaced_cons, List.length_cons, List.length_append]
    omega

theorem reads_finish : Reads finish (fun _ => True) [] [] := fun c far hc => ⟨(), c, far, by simp [finish, hc], hc, trivial⟩

/-- The text of an expression is read as a whole. -/
theorem run_written (bare : Bool) {e : Expr} (he : e.writable = true) (o : Origin) :
    ∃ e' spans, run (whole (expression o (depthFor (e.written bare).toList))) (e.written bare).toList = .ok (e', spans) ∧
      e'.unplaced = e.unplaced := by
  obtain ⟨t, ts, hts, htext, -⟩ := written_cons bare he
  have hwithin : e.within bare 0 = t :: ts := by rw [Expr.within_of_le (Nat.zero_le _), hts]
  have hdepth : 14 * (e.within bare 0).length + (10 - 0) ≤ depthFor (e.written bare).toList := by
    have := length_le_spaced ts []
    rw [hwithin, htext, depthFor, List.length_append, List.length_cons]
    omega
  have hread := legible bare he o 0 _ [] (Nat.zero_le _) (.inl rfl) hdepth
  rw [hwithin, spaced_cons, List.tail_cons, ← htext] at hread
  have hwhole : Reads (whole (expression o (depthFor (e.written bare).toList))) (fun e' => e'.unplaced = e.unplaced)
      (e.written bare).toList [] :=
    Reads.bind hread fun _ he' => reads_finish.bind fun _ _ => .pure he'
  obtain ⟨e', c, far, hrun, -, he'⟩ := hwhole ⟨0, (e.written bare).toList, []⟩ 0 rfl
  exact ⟨e', c.spans.reverse, by simp only [run, hrun], he'⟩

end Grammar

/-- Reading an expression gives back the tree that was written, apart from lines and columns: for every expression of
literals, symbols, operators, calls and pipes, with parentheses only where the operators ask for them. -/
theorem parseExpression_written (bare : Bool) (e : Expr) (he : e.writable = true) (line offset : Nat) :
    ∃ e', parseExpression (e.written bare) line offset = .ok e' ∧ e'.unplaced = e.unplaced := by
  obtain ⟨t, ts, -, htext, ht, hts⟩ := Grammar.written_cons bare he
  obtain ⟨first, more, last, eof, htokens, hlast, hstart, hstop, hsolid, heof⟩ :=
    tokensFrom_spaced line offset ht hts 0 (Nat.lt_succ_self _)
  have hspan : (first :: more ++ [eof]).filter (fun t => !t.isEof) = first :: more := by
    rw [List.filter_append, List.filter_eq_self.mpr fun t ht => by rw [hsolid t ht]; rfl]
    simp [heof]
  obtain ⟨e', spans, hrun, he'⟩ := Grammar.run_written bare he ⟨(e.written bare).toList, first.line, first.col⟩
  refine ⟨e', ?_, he'⟩
  -- the tokens cover the text, so the grammar reads all of it
  have hcover : ((e.written bare).toList.take last.stop).drop first.start = (e.written bare).toList := by
    rw [hstop, hstart, Nat.zero_add, ← htext, List.take_length, List.drop_zero]
  have htokenize : tokenize (e.written bare) line offset = .ok (first :: more ++ [eof]) := by
    rw [tokenize, htext, htokens]
  rw [parseExpression, htokenize]
  show readExpression (e.written bare).toList (first :: more ++ [eof]) = .ok e'
  simp only [readExpression, readTokens, hspan, hlast, hcover, hrun]

/-- A call with arguments of both sorts, piped to another function. -/
theorem parseExpression_written_pipe :
    let pos : Pos := ⟨1, 1⟩
    let symbol : Expr := .ref ⟨"a", ["b", "1"], pos⟩
    let power : Expr := .binary .pow (.unary .negate symbol pos) (.literal (.number (.int 2)) pos) pos
    let call : Expr := .call "f" [(none, .binary .eq symbol power pos),
      (some "k", .binary .concat (.literal (.text "it's" false) pos) symbol pos)] pos
    let e : Expr := .pipe (.binary .sub call (.binary .sub symbol symbol pos) pos) "g" [] pos pos
    e.written true = "f ( ( a.b.1 = - a.b.1 ** 2 ) , k = 'it''s' || a.b.1 ) - ( a.b.1 - a.b.1 ) |> g" ∧
      e.writable = true ∧ ∃ e', parseExpression (e.written true) 1 0 = .ok e' ∧ e'.unplaced = e.unplaced :=
  ⟨by decide +kernel, by decide +kernel, parseExpression_written true _ (by decide +kernel) 1 0⟩

end Conductor.Syntax
