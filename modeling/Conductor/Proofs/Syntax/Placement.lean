import Conductor.Proofs.Syntax.Discipline

/-!
# Where the parts of a statement stand

A logical line holds no line feed, so every node of an expression in it stands on the line on
which its statement starts; and what a block literal belongs to starts on the line that opens
it. Hence the parts of a statement that is read from a program, and those of the statements
inside it, stand on the line of their own statement.
-/

set_option autoImplicit false

namespace Conductor.Syntax

/-! ## On a line -/

mutual
def Expr.On (line : Nat) : Expr → Prop
  | .literal _ _ | .ref _ => True
  | .unary _ operand pos => pos.line = line ∧ operand.On line
  | .binary _ left right pos => pos.line = line ∧ left.On line ∧ right.On line
  | .call _ args pos => pos.line = line ∧ argumentsOn line args
  | .pipe left _ args callPos _ => callPos.line = line ∧ left.On line ∧ argumentsOn line args

def argumentsOn (line : Nat) : List (Option String × Expr) → Prop
  | [] => True
  | (_, e) :: rest => e.On line ∧ argumentsOn line rest
end

theorem argumentsOn_iff {line : Nat} {args : List (Option String × Expr)} :
    argumentsOn line args ↔ ∀ a ∈ args, a.2.On line := by
  induction args with
  | nil => simp [argumentsOn]
  | cons a rest ih => simp [argumentsOn, ih]

def Source.On (line : Nat) : Source → Prop
  | .expr e => e.On line
  | .command c => argumentsOn line c.args
  | .block b => b.line = line

def LoopHead.On (line : Nat) : LoopHead → Prop
  | .block | .forever => True
  | .count e | .while e | .until e | .over _ e => e.On line
  | .range _ start stop step => start.On line ∧ (∀ e ∈ stop, e.On line) ∧ ∀ e ∈ step, e.On line

def AddressAction.On (line : Nat) : AddressAction → Prop
  | .reset => True
  | .switch _ _ rule => ∀ e ∈ rule, e.On line
  | .send _ command => command.On line

mutual
/-- The parts of a statement, and those of the statements inside it, stand on the line of their own statement. The
fault that a clause is kept with is one of reading. -/
def Statement.Placed : Statement → Prop
  | .assign _ source _ p => source.On p.line
  | .say e p | .require e p => e.On p.line
  | .cond condition thenBody elseBody p => condition.On p.line ∧ allPlaced thenBody ∧ allPlaced elseBody
  | .loop head body p => head.On p.line ∧ allPlaced body
  | .call _ args p => argumentsOn p.line args
  | .address action p => action.On p.line
  | .block literal p => literal.line = p.line
  | .ret value _ p => ∀ e ∈ value, e.On p.line
  | .clause expr command error p =>
    (∀ e ∈ expr, e.On p.line) ∧ (∀ c ∈ command, argumentsOn p.line c.args) ∧ ∀ c ∈ error, c.kind = .parse
  | .leave _ | .iterate _ | .signal _ _ | .label _ _ | .arg _ _ | .interpolation _ _ | .nop _ => True

def allPlaced : List Statement → Prop
  | [] => True
  | s :: rest => s.Placed ∧ allPlaced rest
end

/-! ## Expressions -/

namespace Grammar

def Rule.Gives {α : Type} (P : α → Prop) (r : Rule α) : Prop :=
  ∀ ⦃c far a c' far'⦄, r c far = (some (a, c'), far') → P a

namespace Rule.Gives

variable {α β : Type} {P : α → Prop} {Q : β → Prop} {r s : Rule α}

theorem never : Gives P fun _ far => (none, far) := by
  intro c far a c' far' h
  cases h

theorem pure {a : α} (h : P a) : Gives P (pure a : Rule α) := by
  intro c far a' c' far' heq
  cases heq
  exact h

theorem bind {f : α → Rule β} (hr : r.Gives P) (hf : ∀ a, P a → (f a).Gives Q) : Gives Q (r >>= f) := by
  intro c far b c' far' h
  change Rule.bind r f c far = _ at h
  unfold Rule.bind at h
  split at h
  · next a c₁ far₁ hr' => exact hf a (hr hr') h
  · cases h

theorem skip {f : α → Rule β} (hf : ∀ a, (f a).Gives Q) : Gives Q (r >>= f) :=
  .bind (P := fun _ => True) (fun _ _ _ _ _ _ => trivial) fun a _ => hf a

theorem orElse (hr : r.Gives P) (hs : s.Gives P) : Gives P (Rule.orElse r s) := by
  intro c far a c' far' h
  unfold Rule.orElse at h
  split at h
  · next hr' =>
    cases h
    exact hr hr'
  · exact hs h

theorem optional (hr : r.Gives P) : Gives (fun a? => ∀ a ∈ a?, P a) (Rule.optional r) := by
  refine .orElse (.bind hr fun a ha => .pure ?_) (.pure nofun)
  intro a' ha'
  cases ha'
  exact ha

theorem many (hr : r.Gives P) (n : Nat) : Gives (fun as => ∀ a ∈ as, P a) (Rule.many r n) := by
  induction n with
  | zero => exact .pure nofun
  | succ n ih =>
    exact .orElse (.bind hr fun a ha => .bind ih fun as has => .pure (List.forall_mem_cons.mpr ⟨ha, has⟩)) (.pure nofun)

end Rule.Gives

variable {o : Origin}

theorem Origin.line_pos (h : '\n' ∉ o.text) (p : Nat) : (o.pos p).line = o.line := by
  have hnone : (o.text.take p).count '\n' = 0 := List.count_eq_zero.mpr fun hmem => h (List.mem_of_mem_take hmem)
  simp only [Origin.pos, hnone, Nat.add_zero]

theorem foldLeft_on (h : '\n' ∉ o.text) {first : Expr} (hfirst : first.On o.line)
    {steps : List ((Nat × List Char) × Expr)} (hsteps : ∀ s ∈ steps, s.2.On o.line) :
    (foldLeft o first steps).On o.line := by
  induction steps generalizing first with
  | nil => exact hfirst
  | cons s rest ih =>
    obtain ⟨hs, hrest⟩ := List.forall_mem_cons.mp hsteps
    refine ih ?_ hrest
    rw [Expr.On]
    exact ⟨Origin.line_pos h _, hfirst, hs⟩

theorem leftFold_on (h : '\n' ∉ o.text) {operand : Rule Expr} (hoperand : operand.Gives (·.On o.line))
    (operator : Rule (Nat × List Char)) (fuel : Nat) :
    Rule.Gives (·.On o.line) (do
      let first ← operand
      let rest ← Rule.many (do
        blanks
        let op ← operator
        blanks
        let right ← operand
        pure (op, right)) fuel
      pure (foldLeft o first rest)) := by
  refine .bind hoperand fun first hfirst => .bind (P := fun steps => ∀ s ∈ steps, s.2.On o.line)
    (.many ?_ fuel) fun steps hsteps => .pure (foldLeft_on h hfirst hsteps)
  exact .skip fun _ => .skip fun _ => .skip fun _ => .bind hoperand fun right hright => .pure hright

theorem pipes_on (h : '\n' ∉ o.text) {first : Expr} (hfirst : first.On o.line)
    {stages : List ((Nat × List Char) × (Nat × List Char) × List Arg)}
    (hstages : ∀ s ∈ stages, argumentsOn o.line s.2.2) :
    (stages.foldl (fun left stage =>
      .pipe left (String.ofList stage.2.1.2) stage.2.2 (o.pos stage.2.1.1) (o.pos stage.1.1)) first).On o.line := by
  induction stages generalizing first with
  | nil => exact hfirst
  | cons s rest ih =>
    obtain ⟨hs, hrest⟩ := List.forall_mem_cons.mp hstages
    refine ih ?_ hrest
    rw [Expr.On]
    exact ⟨Origin.line_pos h _, hfirst, hs⟩

theorem getD_argumentsOn {line : Nat} {args : Option (List Arg)} (h : ∀ as ∈ args, argumentsOn line as) :
    argumentsOn line (args.getD []) := by
  cases args with
  | none => trivial
  | some as => exact h as rfl

structure OnLine (o : Origin) (fuel : Nat) : Prop where
  expression : (expression o fuel).Gives (·.On o.line)
  level : ∀ l, (level o l fuel).Gives (·.On o.line)
  power : (power o fuel).Gives (·.On o.line)
  unary : (unary o fuel).Gives (·.On o.line)
  primary : (primary o fuel).Gives (·.On o.line)
  callSuffix : (callSuffix o fuel).Gives (argumentsOn o.line)
  argumentList : (argumentList o fuel).Gives (argumentsOn o.line)
  argument : (argument o fuel).Gives (fun a => a.2.On o.line)

theorem number_on (o : Origin) (line : Nat) : (number o).Gives (·.On line) := by
  intro c far a c' far' h
  unfold number at h
  split at h
  · split at h
    · cases h
      trivial
    · cases h
  · cases h

theorem string_on (o : Origin) (line : Nat) : (string o).Gives (·.On line) :=
  .orElse (.skip fun _ => .pure trivial) (.skip fun _ => .pure trivial)

theorem onLine (h : '\n' ∉ o.text) (fuel : Nat) : OnLine o fuel := by
  induction fuel with
  | zero => exact ⟨.never, fun _ => .never, .never, .never, .never, .never, .never, .never⟩
  | succ fuel ih =>
    have hpos := Origin.line_pos h
    constructor
    case expression =>
      refine .bind (ih.level .or) fun first hfirst => .bind (P := fun stages =>
        ∀ s ∈ stages, argumentsOn o.line s.2.2) (.many ?_ fuel) fun stages hstages => .pure (pipes_on h hfirst hstages)
      exact .skip fun _ => .skip fun _ => .skip fun _ => .skip fun _ =>
        .bind (.optional ih.callSuffix) fun args hargs => .pure (getD_argumentsOn hargs)
    case level =>
      intro l
      have hfold {operand : Rule Expr} (hoperand : operand.Gives (·.On o.line)) :=
        leftFold_on h hoperand l.operator fuel
      unfold Grammar.level
      cases l.tighter with
      | none => exact hfold ih.power
      | some t => exact hfold (ih.level t)
    case power =>
      refine .bind ih.unary fun base hbase => .bind (P := fun step => ∀ s ∈ step, s.2.On o.line)
        (.optional ?_) fun step hstep => ?_
      · exact .skip fun _ => .skip fun _ => .skip fun _ => .bind ih.power fun right hright => .pure hright
      · cases step with
        | none => exact .pure hbase
        | some s =>
          refine .pure ?_
          rw [Expr.On]
          exact ⟨hpos _, hbase, hstep s rfl⟩
    case unary =>
      refine .orElse (.skip fun op => .skip fun _ => .bind ih.unary fun operand hoperand => .pure ?_) ih.primary
      rw [Expr.On]
      exact ⟨hpos _, hoperand⟩
    case primary =>
      refine .orElse (number_on o _) <| .orElse (string_on o _) <| .orElse ?_ <| .orElse ?_ ?_
      · refine .skip fun name => .bind ih.callSuffix fun args hargs => .pure ?_
        rw [Expr.On]
        exact ⟨hpos _, hargs⟩
      · exact .skip fun _ => .pure trivial
      · exact .skip fun _ => .skip fun _ => .bind ih.expression fun inner hinner => .skip fun _ => .skip fun _ =>
          .pure hinner
    case callSuffix =>
      exact .skip fun _ => .skip fun _ => .skip fun _ => .bind (.optional ih.argumentList) fun args hargs =>
        .skip fun _ => .skip fun _ => .pure (getD_argumentsOn hargs)
    case argumentList =>
      refine .bind ih.argument fun first hfirst => .bind (P := fun rest => ∀ a ∈ rest, a.2.On o.line)
        (.many ?_ fuel) fun rest hrest => .pure (argumentsOn_iff.mpr (List.forall_mem_cons.mpr ⟨hfirst, hrest⟩))
      exact .skip fun _ => .skip fun _ => .skip fun _ => ih.argument
    case argument =>
      refine .orElse ?_ (.bind ih.expression fun value hvalue => .pure hvalue)
      exact .skip fun _ => .skip fun _ => .skip fun _ => .skip fun _ =>
        .bind ih.expression fun value hvalue => .pure hvalue

theorem command_on (h : '\n' ∉ o.text) (fuel : Nat) : (command o fuel).Gives (fun c => argumentsOn o.line c.args) := by
  have hunary := (onLine h fuel).unary
  have hoperand : (command.operand o fuel).Gives (fun a => a.2.On o.line) := by
    refine .orElse ?_ (.bind hunary fun value hvalue => .pure hvalue)
    exact .skip fun _ => .skip fun _ => .skip fun _ => .skip fun _ => .bind hunary fun value hvalue => .pure hvalue
  exact .skip fun _ => .bind (.many (.skip fun _ => hoperand) fuel) fun args hargs => .pure (argumentsOn_iff.mpr hargs)

theorem callTail_on (h : '\n' ∉ o.text) (fuel : Nat) : (callTail o fuel).Gives (argumentsOn o.line) :=
  .orElse (.bind (onLine h fuel).callSuffix fun _ hargs => .skip fun _ => .pure hargs) (onLine h fuel).argumentList

end Grammar

/-! ## Tokens -/

theorem tokensFrom_line (line offset fuel p : Nat) (cs : List Char) :
    Gives (fun ts => ∀ t ∈ ts, t.line = line) (tokensFrom line offset fuel p cs) := by
  induction fuel generalizing p cs with
  | zero => exact .ok nofun
  | succ fuel ih =>
    cases cs with
    | nil => exact .ok (List.forall_mem_singleton.mpr rfl)
    | cons c rest =>
      rw [tokensFrom]
      split
      · exact ih _ _
      split
      · exact .error _
      · exact .error _
      · split
        · exact .error _
        · next ts hts => exact .ok (List.forall_mem_cons.mpr ⟨rfl, ih _ _ ts hts⟩)

theorem tokenize_line (text : String) (line offset : Nat) :
    Gives (fun ts => ∀ t ∈ ts, t.line = line) (tokenize text line offset) := tokensFrom_line _ _ _ _ _

theorem readTokens_gives {α : Type} {P : α → Prop} {line : Nat} {rule : Grammar.Origin → Nat → Grammar.Rule α}
    (hrule : ∀ o fuel, '\n' ∉ o.text → o.line = line → (rule o fuel).Gives P) {source : List Char}
    (hsource : '\n' ∉ source) {tokens : List Token} (htokens : ∀ t ∈ tokens, t.line = line) :
    Gives P (readTokens rule source tokens) := by
  unfold readTokens
  dsimp only
  split
  · next first rest last hspan hlast =>
    have hfirst : first.line = line := by
      have hmem : first ∈ tokens.filter fun t => !t.isEof := hspan ▸ List.mem_cons_self
      exact htokens first (List.mem_filter.mp hmem).1
    have htext : '\n' ∉ (source.take last.stop).drop first.start := fun hmem =>
      hsource (List.mem_of_mem_take (List.mem_of_mem_drop hmem))
    split
    · next a spans hrun =>
      refine .ok ?_
      have hwhole : (Grammar.whole (rule ⟨(source.take last.stop).drop first.start, first.line, first.col⟩
          (Grammar.depthFor ((source.take last.stop).drop first.start)))).Gives P :=
        .bind (hrule _ _ htext hfirst) fun a ha => .skip fun _ => .pure ha
      unfold Grammar.run at hrun
      split at hrun
      · next heq =>
        cases hrun
        exact hwhole heq
      · cases hrun
    · exact .error _
  · split <;> exact .error _

theorem some_on {line : Nat} {e : Expr} (h : e.On line) : Gives (fun x => ∀ e ∈ x, e.On line) (.ok (some e)) := by
  refine .ok fun e' he' => ?_
  cases he'
  exact h

theorem none_on (line : Nat) : Gives (fun x : Option Expr => ∀ e ∈ x, e.On line) (.ok none) := .ok nofun

section

variable {source : List Char} (hsource : '\n' ∉ source) {line : Nat} {tokens : List Token}
  (htokens : ∀ t ∈ tokens, t.line = line)

include hsource htokens

theorem readExpression_on : Gives (·.On line) (readExpression source tokens) :=
  readTokens_gives (fun _ fuel htext hline => hline ▸ (Grammar.onLine htext fuel).expression) hsource htokens

theorem readCommand_on : Gives (fun c => argumentsOn line c.args) (readCommand source tokens) :=
  readTokens_gives (fun _ fuel htext hline => hline ▸ Grammar.command_on htext fuel) hsource htokens

theorem readArguments_on : Gives (argumentsOn line) (readArguments source tokens) :=
  readTokens_gives (fun _ fuel htext hline => hline ▸ Grammar.callTail_on htext fuel) hsource htokens

theorem readBound_on (word other : String) :
    Gives (fun x => ∀ e ∈ x, e.On line) (readBound source tokens word other) := by
  unfold readBound
  split
  · exact (readExpression_on hsource fun t ht => htokens t (List.mem_of_mem_take (List.mem_of_mem_drop ht))).bind
      fun e he => some_on he
  · exact none_on line

theorem readLoopHead_on : Gives (·.On line) (readLoopHead source tokens) := by
  have hread (i j : Nat) : Gives (·.On line) (readExpression source ((tokens.take j).drop i)) :=
    readExpression_on hsource fun t ht => htokens t (List.mem_of_mem_take (List.mem_of_mem_drop ht))
  have hbound := readBound_on hsource htokens
  rw [readLoopHead_eq]
  dsimp only
  split
  · exact .ok trivial
  split
  · exact .ok trivial
  split
  · exact (hread _ _).bind fun e he => .ok he
  split
  · exact (hread _ _).bind fun e he => .ok he
  split
  · split
    · exact (hread _ _).bind fun start hstart => (hbound _ _).bind fun limit hlimit => (hbound _ _).bind
        fun step hstep => .ok ⟨hstart, hlimit, hstep⟩
    · split <;> exact (hread _ _).bind fun e he => .ok he
  · exact (hread _ _).bind fun e he => .ok he

end

/-! ## Statements of one line -/

structure SourceLine.Single (l : SourceLine) : Prop where
  code : '\n' ∉ l.code.toList
  block : ∀ b ∈ l.block, b.line = l.line

theorem OfParse.kind {c : Condition} (h : OfParse (.condition c)) : c.kind = .parse := by
  obtain ⟨c', heq, hfault⟩ := h
  cases heq
  exact Cause.kind_of_isFault hfault

theorem InText.kind {text : List Char} {c : Condition} (h : InText text (.condition c)) : c.kind = .parse := by
  rcases h with h | ⟨f, heq, -⟩
  · exact h.kind
  · cases heq

theorem eq_ok_of_toOption {ε α : Type} {x : Except ε α} {a : α} (h : x.toOption = some a) : x = .ok a := by
  cases x with
  | error e => cases h
  | ok a' =>
    cases h
    rfl

section

variable {l : SourceLine}

theorem Gives.ofLine {α : Type} {P : α → Prop} {k : List Token → Except Problem α}
    (hk : ∀ tokens, (∀ t ∈ tokens, t.line = l.line) → Gives P (k tokens)) : Gives P (lineTokens l >>= k) :=
  .bind (tokenize_line _ _ _) hk

theorem readArg_placed : Gives Statement.Placed (readArg l) := .skip fun _ => .skip fun _ => .ok trivial

theorem readSignal_placed : Gives Statement.Placed (readSignal l) := by
  refine .skip fun tokens => ?_
  dsimp only
  split
  · exact .error _
  split
  · split
    · exact .skip fun _ => .error _
    · next trap _ =>
      have hend (on : Bool) (label : String) (t : Token) : Gives Statement.Placed (if !t.isEof then
            shownOf t >>= fun shown => throw (parseFault (.unexpectedToken shown) t.line t.col)
          else if on then .ok (Statement.signal (.on trap label) (place l))
          else .ok (Statement.signal (.off trap) (place l))) := by
        split
        · exact .skip fun _ => .error _
        · split <;> exact .ok trivial
      split
      · split
        · exact .error _
        · exact hend _ _ _
      · exact hend _ _ _
  · split
    · split
      · exact .ok trivial
      · exact .error _
    · exact .error _

theorem readInterpolation_placed : Gives Statement.Placed (readInterpolation l) := by
  refine .skip fun tokens => ?_
  dsimp only
  split
  · split
    · split
      · exact .ok trivial
      · exact .error _
    · exact .error _
  split
  · exact .ok trivial
  split
  · exact .ok trivial
  · exact .error _

variable (hl : l.Single)

include hl

theorem readAssignment_placed (target : String) (start stop : Nat) :
    Gives Statement.Placed (readAssignment l target start stop) := by
  have hsource : '\n' ∉ l.code.toList.drop stop := fun hmem => hl.code (List.mem_of_mem_drop hmem)
  refine .bind (tokenize_line _ _ _) fun tokens htokens => ?_
  split
  · exact .error _
  dsimp only
  split
  · next e he => exact .ok (readExpression_on hsource htokens e he)
  · exact .error _
  · split
    · next c hc => exact .ok (readCommand_on hsource htokens c hc)
    · exact .error _
    · exact .error _

theorem asCommand_on {tokens : List Token} (htokens : ∀ t ∈ tokens, t.line = l.line) (asked : Bool) :
    Gives (fun command => ∀ c ∈ command, argumentsOn l.line c.args) (if asked then
        match readCommand l.code.toList tokens with
        | .ok c => .ok (some c)
        | .error (.failure f) => .error (.failure f)
        | .error (.condition _) => .ok none
      else .ok none) := by
  split
  · split
    · next c hc =>
      refine .ok fun c' hc' => ?_
      cases hc'
      exact readCommand_on hl.code htokens c hc
    · exact .error _
    · exact .ok nofun
  · exact .ok nofun

theorem readClause_placed : Gives Statement.Placed (readClause l) := by
  unfold readClause
  split
  · exact .error _
  · next c hc => exact .ok ⟨nofun, nofun, fun c' hc' => by cases hc'; exact (fails_lineTokens l _ hc).kind⟩
  · next tokens htokens =>
    have hlines := tokenize_line _ _ _ tokens htokens
    have htold := told_of_tokenize htokens
    dsimp only
    split
    · exact .error _
    · split
      · exact .error _
      · next command hcommand =>
        refine .ok ⟨fun e he => ?_, fun c hc => ?_, fun c hc => ?_⟩
        · exact readExpression_on hl.code hlines e (eq_ok_of_toOption he)
        · exact asCommand_on hl hlines _ command hcommand c hc
        · split at hc
          · next hread =>
            split at hc
            · cases hc
              exact (fails_readTokens htold _ _ _ hread).kind
            · cases hc
          · cases hc

theorem readBlockLine_placed {literal : BlockLiteral} (hliteral : literal ∈ l.block) :
    Gives Statement.Placed (readBlockLine l literal) := by
  unfold readBlockLine
  split
  · exact .ok (hl.block literal hliteral)
  split
  · split
    · exact .ok (hl.block literal hliteral)
    · exact .error _
  · exact .error _

theorem readOptional_on : Gives (fun value => ∀ e ∈ value, e.On l.line) (readOptional l) := by
  have hsource : '\n' ∉ l.afterWord.1.toList := fun hmem => hl.code ((afterWord_suffix l).subset hmem)
  unfold readOptional
  refine .bind (tokenize_line _ _ _) fun tokens htokens => ?_
  split
  · exact none_on _
  · exact (readExpression_on hsource htokens).bind fun e he => some_on he

theorem readSay_placed : Gives Statement.Placed (readSay l) := by
  refine (readOptional_on hl).bind fun value hvalue => ?_
  split
  · exact .ok (hvalue _ rfl)
  · exact .ok trivial

theorem readRequire_placed : Gives Statement.Placed (readRequire l) := by
  refine (readOptional_on hl).bind fun value hvalue => ?_
  split
  · exact .ok (hvalue _ rfl)
  · exact .error _

theorem readCall_placed : Gives Statement.Placed (readCall l) := by
  refine .ofLine fun tokens htokens => ?_
  split
  · exact .error _
  · split
    · exact .ok trivial
    · exact (readArguments_on hl.code fun t ht => htokens t (List.mem_of_mem_drop ht)).bind fun args hargs => .ok hargs

theorem readAddress_placed : Gives Statement.Placed (readAddress l) := by
  refine .ofLine fun tokens htokens => ?_
  have hread (n : Nat) : Gives (·.On l.line) (readExpression l.code.toList (tokens.drop n)) :=
    readExpression_on hl.code fun t ht => htokens t (List.mem_of_mem_drop ht)
  dsimp only
  split
  · exact .ok trivial
  split
  · exact .error _
  split
  · exact .ok nofun
  split
  · split
    · split
      · exact .ok nofun
      split
      · exact .error _
      · exact (hread 3).bind fun e he => .ok fun e' he' => by cases he'; exact he
    · split
      · exact .error _
      · exact (hread 2).bind fun e he => .ok he
  · exact (hread 2).bind fun e he => .ok he

theorem readSimple_placed (word : String) : Gives Statement.Placed (readSimple l word) := by
  unfold readSimple
  split
  · exact .error _
  · exact .ok trivial
  · exact readSay_placed hl
  · exact .ok trivial
  · exact .ok trivial
  · exact (readOptional_on hl).bind fun value hvalue => .ok hvalue
  · exact (readOptional_on hl).bind fun value hvalue => .ok hvalue
  · exact readRequire_placed hl
  · exact readArg_placed
  · exact readCall_placed hl
  · exact readAddress_placed hl
  · exact readSignal_placed
  · exact readInterpolation_placed
  · exact readClause_placed hl

theorem simple_placed {top : Bool} {read : Except Problem Statement} (h : form top l = .simple read) :
    Gives Statement.Placed read := by
  unfold form at h
  split at h
  · next literal hblock _ =>
    cases h
    exact readBlockLine_placed hl hblock
  split at h
  · cases h
    split
    · exact .ok trivial
    · exact .error _
  split at h
  · cases h
    exact readAssignment_placed hl _ _ _
  split at h
  · cases h
  split at h
  · cases h
  · cases h
    exact readSimple_placed hl _

theorem loop_on {top : Bool} {head : Except Problem LoopHead} (h : form top l = .loop head) :
    Gives (·.On l.line) head := by
  unfold form at h
  split at h
  · cases h
  split at h
  · cases h
  split at h
  · cases h
  split at h
  · cases h
  split at h
  · cases h
    exact .ofLine fun tokens htokens => readLoopHead_on hl.code fun t ht => htokens t (List.mem_of_mem_drop ht)
  · cases h

theorem single_part {inner : SourceLine} (h : Part inner l) : inner.Single := by
  obtain ⟨k, -, -, hcode⟩ := h.code
  exact ⟨fun hmem => hl.code (List.mem_of_mem_drop (hcode.subset hmem)),
    fun b hb => (hl.block b (h.block b hb)).trans h.line.symm⟩

theorem branches_placed : Gives (fun b => b.1.On l.line) (branches l) := by
  refine .ofLine fun tokens htokens => ?_
  dsimp only
  split
  · exact .error _
  · refine Gives.bind (readExpression_on hl.code fun t ht => htokens t ?_) fun condition hcondition => ?_
    · exact List.mem_of_mem_take (List.mem_of_mem_drop ht)
    split
    · exact .ok hcondition
    split
    · exact .ok hcondition
    · exact .ok hcondition

end

/-! ## Blocks -/

theorem allPlaced_iff {ss : List Statement} : allPlaced ss ↔ ∀ s ∈ ss, s.Placed := by
  induction ss with
  | nil => simp [allPlaced]
  | cons s rest ih => simp [allPlaced, ih]

theorem Gives.ends {α : Type} {P : α → Prop} {x : Except Problem α} (h : Gives P x) : Ends P (fun _ => True) x :=
  ⟨h, fun _ _ => trivial⟩

/-- Lines that are each one line of the text give statements with their parts on their own lines. -/
theorem discipline_placed : Discipline SourceLine.Single Statement.Placed fun _ => True where
  inside hinner hl := single_part hl hinner.part
  simple hl hform := (simple_placed hl hform).ends
  cond hl _ := (branches_placed hl).ends.mono fun _ hcondition _ _ hfirst hsecond =>
    ⟨hcondition, allPlaced_iff.mpr hfirst, allPlaced_iff.mpr hsecond⟩
  loop hl hform := (loop_on hl hform).ends.mono fun _ hhead _ hbody => ⟨hhead, allPlaced_iff.mpr hbody⟩
  stray _ := trivial
  missing _ _ := trivial
  nesting := trivial

/-! ## The lines of a text -/

theorem not_mem_linesFrom (opened : Bool) (line cs : List Char) (hline : '\n' ∉ line) :
    ∀ raw ∈ Text.linesFrom opened line cs, '\n' ∉ raw := by
  fun_induction Text.linesFrom opened line cs with
  | case1 line => simpa using hline
  | case2 => simp
  | case3 opened line rest ih => simpa [hline] using ih (by simp)
  | case4 opened line c rest _ _ ih => simpa [hline] using ih (by simp)
  | case5 opened line c rest _ hbreak ih =>
    refine ih ?_
    rw [List.mem_cons, not_or]
    refine ⟨?_, hline⟩
    rintro rfl
    exact hbreak rfl

theorem not_mem_stripFrom (inside : Inside) (out line : List Char) (hout : '\n' ∉ out) (hline : '\n' ∉ line) :
    '\n' ∉ (stripFrom inside out line).1 := by
  fun_induction stripFrom inside out line <;> simp_all

theorem not_mem_stripComments {line : List Char} (hline : '\n' ∉ line) (inComment : Bool) :
    '\n' ∉ (stripComments line inComment).1 := by
  intro hmem
  simp only [stripComments, List.mem_reverse] at hmem
  exact not_mem_stripFrom _ _ _ List.not_mem_nil hline ((List.dropWhile_suffix _).subset hmem)

theorem not_mem_segmentsFrom (quote : Option Char) (start p : Nat) (piece cs : List Char) (hpiece : '\n' ∉ piece)
    (hcs : '\n' ∉ cs) : ∀ seg ∈ segmentsFrom quote start p piece cs, '\n' ∉ seg.1 := by
  fun_induction segmentsFrom quote start p piece cs with
  | case1 => simpa using hpiece
  | case2 q start p piece c rest ih | case4 start p piece c rest _ ih =>
    obtain ⟨hc, hrest⟩ := List.ne_and_not_mem_of_not_mem_cons hcs
    exact ih (List.not_mem_cons_of_ne_of_not_mem hc hpiece) hrest
  | case3 start p piece c rest _ ih =>
    have hrest := (List.ne_and_not_mem_of_not_mem_cons hcs).2
    exact List.forall_mem_cons.mpr ⟨by simpa using hpiece, ih List.not_mem_nil hrest⟩

theorem takeBody_subset {delimiter : String} {raws body after : List String}
    (h : takeBody delimiter raws = some (body, after)) : after ⊆ raws := by
  induction raws generalizing body with
  | nil => cases h
  | cons raw raws ih =>
    rw [takeBody] at h
    split at h
    · cases h
      exact List.subset_cons_self _ _
    · obtain ⟨⟨body', after'⟩, hcut, hsame⟩ := Option.map_eq_some_iff.mp h
      cases hsame
      exact List.Subset.trans (ih hcut) (List.subset_cons_self _ _)

theorem segmentLines_single {line : Nat} {raws after : List String} {segs : List (List Char × Nat)}
    {ls : List SourceLine} (hsegs : ∀ seg ∈ segs, '\n' ∉ seg.1) (h : segmentLines line raws segs = .ok (ls, after)) :
    (∀ l ∈ ls, l.Single) ∧ after ⊆ raws := by
  have hcode {seg : List Char} (hseg : '\n' ∉ seg) : '\n' ∉ (String.ofList seg).toList := by
    rwa [String.toList_ofList]
  fun_induction segmentLines line raws segs generalizing ls after with
  | case1 | case2 =>
    cases h
    exact ⟨List.forall_mem_nil _, List.Subset.refl _⟩
  | case3 seg off =>
    cases h
    refine ⟨List.forall_mem_singleton.mpr ⟨hcode (hsegs (seg, off) List.mem_cons_self), fun b hb => ?_⟩,
      List.Subset.refl _⟩
    cases hb
  | case4 => cases h
  | case5 seg off _ start delimiter _ body rest hbody =>
    cases h
    have hstart : '\n' ∉ seg.take start := fun hmem => hsegs (seg, off) List.mem_cons_self (List.mem_of_mem_take hmem)
    refine ⟨List.forall_mem_singleton.mpr ⟨hcode hstart, fun b hb => ?_⟩, takeBody_subset hbody⟩
    cases hb
    rfl
  | case6 => cases h
  | case7 seg off segs _ ls' rest hrest _ ih =>
    cases h
    exact ih (List.forall_mem_cons.mp hsegs).2 hrest
  | case8 seg off segs _ ls' rest hrest _ ih =>
    cases h
    obtain ⟨hseg, hsegs⟩ := List.forall_mem_cons.mp hsegs
    obtain ⟨hls, hsubset⟩ := ih hsegs hrest
    refine ⟨List.forall_mem_cons.mpr ⟨⟨hcode hseg, fun b hb => ?_⟩, hls⟩, hsubset⟩
    cases hb

theorem sourceLinesFrom_single {fuel number : Nat} {inComment : Bool} {raws : List String} {ls : List SourceLine}
    (hraws : ∀ raw ∈ raws, '\n' ∉ raw.toList) (h : sourceLinesFrom fuel number inComment raws = .ok ls) :
    ∀ l ∈ ls, l.Single := by
  induction fuel generalizing number inComment raws ls with
  | zero =>
    cases h
    exact nofun
  | succ fuel ih =>
    cases raws with
    | nil =>
      cases h
      exact nofun
    | cons raw raws =>
      obtain ⟨hraw, hraws⟩ := List.forall_mem_cons.mp hraws
      rw [sourceLinesFrom] at h
      dsimp only at h
      split at h
      · exact ih hraws h
      split at h
      · cases h
      next ls' after hsegments =>
        obtain ⟨hls, hafter⟩ :=
          segmentLines_single (not_mem_segmentsFrom _ _ _ _ _ List.not_mem_nil (not_mem_stripComments hraw _)) hsegments
        split at h
        · cases h
        · next more hmore =>
          cases h
          exact List.forall_mem_append.mpr ⟨hls, ih (fun raw hmem => hraws raw (hafter hmem)) hmore⟩

theorem sourceLines_single {source : String} {ls : List SourceLine} (h : sourceLines source = .ok ls) :
    ∀ l ∈ ls, l.Single := by
  refine sourceLinesFrom_single (fun raw hraw => ?_) h
  obtain ⟨cs, hcs, rfl⟩ := List.mem_map.mp hraw
  rw [String.toList_ofList]
  exact not_mem_linesFrom _ _ _ List.not_mem_nil cs hcs

/-- The parts of the statements of a program stand on the lines of their statements. -/
theorem parse_placed {source : String} {p : Program} (h : parse source = .ok p) : allPlaced p := by
  cases hlines : sourceLines source with
  | error c =>
    rw [parse_eq, hlines] at h
    cases h
  | ok lines => exact allPlaced_iff.mpr ((discipline_placed.parse hlines (sourceLines_single hlines)).gives p h)

end Conductor.Syntax
