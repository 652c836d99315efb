import Conductor.Proofs.Syntax.Faults
import Conductor.Proofs.Syntax.RoundTrip

/-!
# Trees without places

Statements can be compared apart from the lines and columns of their parts. What a text is read as depends on its place
in no other way: the rules of the grammar take the same characters wherever their text stands, and the tokens of a text
are the same but for their lines and columns.
-/

set_option autoImplicit false

namespace Conductor.Syntax

/-! ## Statements without places -/

def Ref.unplaced (r : Ref) : Ref := { r with pos := ⟨0, 0⟩ }

def CommandForm.unplaced (c : CommandForm) : CommandForm := { c with args := unplacedArguments c.args, pos := ⟨0, 0⟩ }

def Source.unplaced : Source → Source
  | .expr e => .expr e.unplaced
  | .command c => .command c.unplaced
  | .block b => .block { b with line := 0, col := 0 }

def LoopHead.unplaced : LoopHead → LoopHead
  | .block => .block
  | .forever => .forever
  | .count n => .count n.unplaced
  | .range var start stop step => .range var.unplaced start.unplaced (stop.map Expr.unplaced) (step.map Expr.unplaced)
  | .while condition => .while condition.unplaced
  | .until condition => .until condition.unplaced
  | .over var collection => .over var.unplaced collection.unplaced

def AddressAction.unplaced : AddressAction → AddressAction
  | .reset => .reset
  | .switch domain mode rule => .switch domain mode (rule.map Expr.unplaced)
  | .send domain command => .send domain command.unplaced

def Place.unplaced (p : Place) : Place := { p with line := 0 }

def fault (c : Condition) : Condition := { c with line := none, col := none }

mutual
def Statement.unplaced : Statement → Statement
  | .assign target source text p => .assign target.unplaced source.unplaced text p.unplaced
  | .say e p => .say e.unplaced p.unplaced
  | .cond condition thenBody elseBody p =>
    .cond condition.unplaced (allUnplaced thenBody) (allUnplaced elseBody) p.unplaced
  | .loop head body p => .loop head.unplaced (allUnplaced body) p.unplaced
  | .leave p => .leave p.unplaced
  | .iterate p => .iterate p.unplaced
  | .call name args p => .call name (unplacedArguments args) p.unplaced
  | .address action p => .address action.unplaced p.unplaced
  | .block literal p => .block { literal with line := 0, col := 0 } p.unplaced
  | .signal action p => .signal action p.unplaced
  | .ret value exit p => .ret (value.map Expr.unplaced) exit p.unplaced
  | .label name p => .label name p.unplaced
  | .arg names p => .arg names p.unplaced
  | .require identifier p => .require identifier.unplaced p.unplaced
  | .interpolation action p => .interpolation action p.unplaced
  | .clause expr command error p =>
    .clause (expr.map Expr.unplaced) (command.map CommandForm.unplaced) (error.map fault) p.unplaced
  | .nop p => .nop p.unplaced

def allUnplaced : List Statement → List Statement
  | [] => []
  | s :: rest => s.unplaced :: allUnplaced rest
end

theorem unplaced_ofText (text : String) (pos : Pos) : (Ref.ofText text pos).unplaced = Ref.ofText text ⟨0, 0⟩ := by
  unfold Ref.ofText
  split <;> rfl

/-! ## Rules -/

namespace Grammar

variable {α β γ δ : Type}

/-- Two outcomes of rules: the same characters taken, with results that a function does not tell apart, or none. -/
inductive Outcome (f : α → γ) : Option (α × Cursor) × Nat → Option (α × Cursor) × Nat → Prop
  | some {a b : α} {c : Cursor} {far : Nat} (h : f a = f b) : Outcome f (some (a, c), far) (some (b, c), far)
  | none {far : Nat} : Outcome f (none, far) (none, far)

def Rule.Alike (f : α → γ) (r s : Rule α) : Prop := ∀ c far, Outcome f (r c far) (s c far)

namespace Rule.Alike

variable {f : α → γ} {g : β → δ} {r s r' s' : Rule α}

theorem refl (f : α → γ) (r : Rule α) : Alike f r r := by
  intro c far
  rcases r c far with ⟨_ | ⟨a, c'⟩, far'⟩
  · exact .none
  · exact .some rfl

theorem pure {a b : α} (h : f a = f b) : Alike f (pure a : Rule α) (pure b) := fun _ _ => .some h

theorem bind {k k' : α → Rule β} (hr : Alike f r s) (hk : ∀ a b, f a = f b → Alike g (k a) (k' b)) :
    Alike g (r >>= k) (s >>= k') := by
  intro c far
  show Outcome g (Rule.bind r k c far) (Rule.bind s k' c far)
  unfold Rule.bind
  have h := hr c far
  generalize r c far = x at h
  generalize s c far = y at h
  cases h with
  | some h => exact hk _ _ h _ _
  | none => exact .none

theorem skip {k k' : α → Rule β} (hk : ∀ a, Alike g (k a) (k' a)) : Alike g (r >>= k) (r >>= k') :=
  .bind (.refl id r) fun a b h => (show a = b from h) ▸ hk a

theorem orElse (h : Alike f r s) (h' : Alike f r' s') : Alike f (Rule.orElse r r') (Rule.orElse s s') := by
  intro c far
  unfold Rule.orElse
  have h := h c far
  generalize r c far = x at h
  generalize s c far = y at h
  cases h with
  | some h => exact .some h
  | none => exact h' c _

theorem optional (h : Alike f r s) : Alike (Option.map f) (Rule.optional r) (Rule.optional s) :=
  .orElse (.bind h fun _ _ hab => .pure (congrArg some hab)) (.pure rfl)

theorem many (h : Alike f r s) (n : Nat) : Alike (List.map f) (Rule.many r n) (Rule.many s n) := by
  induction n with
  | zero => exact .pure rfl
  | succ n ih =>
    refine .orElse (.bind h fun a b hab => .bind ih fun as bs hrest => .pure ?_) (.pure rfl)
    rw [List.map_cons, List.map_cons, hab, hrest]

end Rule.Alike

variable {o o' : Origin}

theorem number_alike (o o' : Origin) : Rule.Alike Expr.unplaced (number o) (number o') := by
  intro c far
  unfold number
  split
  · split
    · exact .some rfl
    · exact .none
  · exact .none

theorem string_alike (o o' : Origin) : Rule.Alike Expr.unplaced (string o) (string o') :=
  .orElse (.skip fun _ => .pure rfl) (.skip fun _ => .pure rfl)

structure AnyPlace (o o' : Origin) (fuel : Nat) : Prop where
  expression : Rule.Alike Expr.unplaced (expression o fuel) (expression o' fuel)
  level : ∀ l, Rule.Alike Expr.unplaced (level o l fuel) (level o' l fuel)
  power : Rule.Alike Expr.unplaced (power o fuel) (power o' fuel)
  unary : Rule.Alike Expr.unplaced (unary o fuel) (unary o' fuel)
  primary : Rule.Alike Expr.unplaced (primary o fuel) (primary o' fuel)
  callSuffix : Rule.Alike unplacedArguments (callSuffix o fuel) (callSuffix o' fuel)
  argumentList : Rule.Alike unplacedArguments (argumentList o fuel) (argumentList o' fuel)
  argument : Rule.Alike (fun a : Arg => (a.1, a.2.unplaced)) (argument o fuel) (argument o' fuel)

theorem getD_unplacedArguments {as bs : Option (List Arg)} (h : as.map unplacedArguments = bs.map unplacedArguments) :
    unplacedArguments (as.getD []) = unplacedArguments (bs.getD []) := by
  cases as <;> cases bs
  · rfl
  · cases h
  · cases h
  · exact Option.some.inj h

theorem leftFold_alike {operand operand' : Rule Expr} (h : Rule.Alike Expr.unplaced operand operand')
    (operator : Rule (Nat × List Char)) (fuel : Nat) :
    Rule.Alike Expr.unplaced (do
      let first ← operand
      let rest ← Rule.many (do
        blanks
        let op ← operator
        blanks
        let right ← operand
        pure (op, right)) fuel
      pure (foldLeft o first rest)) (do
      let first ← operand'
      let rest ← Rule.many (do
        blanks
        let op ← operator
        blanks
        let right ← operand'
        pure (op, right)) fuel
      pure (foldLeft o' first rest)) := by
  refine .bind h fun first first' hfirst => .bind (f := List.map fun s : (Nat × List Char) × Expr =>
    (binaryOf s.1.2, s.2.unplaced)) (.many ?_ fuel) fun steps steps' hsteps => .pure ?_
  · exact .skip fun _ => .skip fun op => .skip fun _ => .bind h fun right right' hright => .pure (by rw [hright])
  · rw [foldLeft_unplaced, foldLeft_unplaced, hfirst, hsteps]

theorem anyPlace (o o' : Origin) (fuel : Nat) : AnyPlace o o' fuel := by
  induction fuel with
  | zero =>
    exact ⟨.refl _ _, fun _ => .refl _ _, .refl _ _, .refl _ _, .refl _ _, .refl _ _, .refl _ _, .refl _ _⟩
  | succ fuel ih =>
    constructor
    case expression =>
      refine .bind (ih.level .or) fun first first' hfirst => .bind (f := List.map fun s : (Nat × List Char) ×
        (Nat × List Char) × List Arg => (String.ofList s.2.1.2, unplacedArguments s.2.2)) (.many ?_ fuel)
        fun stages stages' hstages => .pure ?_
      · exact .skip fun _ => .skip fun _ => .skip fun _ => .skip fun name => .bind (.optional ih.callSuffix)
          fun args args' hargs => .pure (by rw [getD_unplacedArguments hargs])
      · rw [pipes_unplaced, pipes_unplaced, hfirst, hstages]
    case level =>
      intro l
      unfold Grammar.level
      cases l.tighter with
      | none => exact leftFold_alike ih.power l.operator fuel
      | some t => exact leftFold_alike (ih.level t) l.operator fuel
    case power =>
      refine .bind ih.unary fun base base' hbase => .bind (f := Option.map fun s : (Nat × List Char) × Expr =>
        s.2.unplaced) (.optional ?_) fun step step' hstep => ?_
      · exact .skip fun _ => .skip fun _ => .skip fun _ => .bind ih.power fun right right' hright => .pure hright
      · rcases step with - | ⟨op, right⟩ <;> rcases step' with - | ⟨op', right'⟩
        · exact .pure hbase
        · cases hstep
        · cases hstep
        · have hright : right.unplaced = right'.unplaced := Option.some.inj hstep
          exact .pure (by rw [Expr.unplaced, Expr.unplaced, hbase, hright])
    case unary =>
      refine .orElse (.skip fun op => .skip fun _ => .bind ih.unary fun operand operand' hoperand => .pure ?_) ih.primary
      rw [Expr.unplaced, Expr.unplaced, hoperand]
    case primary =>
      refine .orElse (number_alike o o') <| .orElse (string_alike o o') <| .orElse ?_ <| .orElse ?_ ?_
      · refine .skip fun name => .bind ih.callSuffix fun args args' hargs => .pure ?_
        rw [Expr.unplaced, Expr.unplaced, hargs]
      · refine .skip fun name => .pure ?_
        rw [Expr.unplaced, Expr.unplaced]
        exact congrArg Expr.ref ((unplaced_ofText _ _).trans (unplaced_ofText _ _).symm)
      · exact .skip fun _ => .skip fun _ => .bind ih.expression fun inner inner' hinner => .skip fun _ => .skip fun _ =>
          .pure hinner
    case callSuffix =>
      exact .skip fun _ => .skip fun _ => .skip fun _ => .bind (.optional ih.argumentList) fun args args' hargs =>
        .skip fun _ => .skip fun _ => .pure (getD_unplacedArguments hargs)
    case argumentList =>
      refine .bind ih.argument fun first first' hfirst => .bind (f := List.map fun a : Arg => (a.1, a.2.unplaced))
        (.many ?_ fuel) fun rest rest' hrest => .pure ?_
      · exact .skip fun _ => .skip fun _ => .skip fun _ => ih.argument
      · rw [unplacedArguments_eq, unplacedArguments_eq, List.map_cons, List.map_cons, hfirst, hrest]
    case argument =>
      refine .orElse ?_ (.bind ih.expression fun value value' hvalue => .pure (by rw [hvalue]))
      exact .skip fun _ => .skip fun _ => .skip fun _ => .skip fun _ =>
        .bind ih.expression fun value value' hvalue => .pure (by rw [hvalue])

theorem command_alike (o o' : Origin) (fuel : Nat) :
    Rule.Alike CommandForm.unplaced (command o fuel) (command o' fuel) := by
  have hunary := (anyPlace o o' fuel).unary
  have hoperand : Rule.Alike (fun a : Arg => (a.1, a.2.unplaced)) (command.operand o fuel) (command.operand o' fuel) := by
    refine .orElse ?_ (.bind hunary fun value value' hvalue => .pure (by rw [hvalue]))
    exact .skip fun _ => .skip fun _ => .skip fun _ => .skip fun _ =>
      .bind hunary fun value value' hvalue => .pure (by rw [hvalue])
  refine .skip fun name => .bind (.many (.skip fun _ => hoperand) fuel) fun args args' hargs => .pure ?_
  rw [CommandForm.unplaced, CommandForm.unplaced, unplacedArguments_eq, unplacedArguments_eq, hargs]

theorem callTail_alike (o o' : Origin) (fuel : Nat) :
    Rule.Alike unplacedArguments (callTail o fuel) (callTail o' fuel) :=
  .orElse (.bind (anyPlace o o' fuel).callSuffix fun _ _ hargs => .skip fun _ => .pure hargs)
    (anyPlace o o' fuel).argumentList

theorem run_alike {α γ : Type} {f : α → γ} {r s : Rule α} (h : Rule.Alike f r s) (cs : List Char) :
    (∃ a b spans, run (whole r) cs = .ok (a, spans) ∧ run (whole s) cs = .ok (b, spans) ∧ f a = f b) ∨
      ∃ far, run (whole r) cs = .error far ∧ run (whole s) cs = .error far := by
  have hwhole : Rule.Alike f (whole r) (whole s) := .bind h fun a b hab => .skip fun _ => .pure hab
  have hrun := hwhole ⟨0, cs, []⟩ 0
  unfold run
  generalize whole r ⟨0, cs, []⟩ 0 = x at hrun
  generalize whole s ⟨0, cs, []⟩ 0 = y at hrun
  cases hrun with
  | some h => exact .inl ⟨_, _, _, rfl, rfl, h⟩
  | none => exact .inr ⟨_, rfl, rfl⟩

end Grammar

/-! ## Tokens -/

def Token.unplaced (t : Token) : Token := if t.isEof then eofToken else { t with line := 0, col := 0 }

theorem Token.value_unplaced (t : Token) : t.unplaced.value = t.value := by
  unfold Token.unplaced
  split
  · next h =>
    unfold Token.isEof at h
    split at h
    · next heof => exact heof.symm
    · cases h
  · rfl

theorem Token.isEof_unplaced (t : Token) : t.unplaced.isEof = t.isEof := by
  unfold Token.isEof
  rw [t.value_unplaced]

theorem Token.span_unplaced {t : Token} (h : t.isEof = false) : t.unplaced.start = t.start ∧ t.unplaced.stop = t.stop := by
  unfold Token.unplaced
  rw [h]
  exact ⟨rfl, rfl⟩

/-- Results that a function does not tell apart, the same fault apart from its place, or the same failure. -/
inductive Alike {α γ : Type} (f : α → γ) : Except Problem α → Except Problem α → Prop
  | ok {a b : α} (h : f a = f b) : Alike f (.ok a) (.ok b)
  | fault {c d : Condition} (h : fault c = fault d) : Alike f (.error (.condition c)) (.error (.condition d))
  | failure (e : Failure) : Alike f (.error (.failure e)) (.error (.failure e))

/-- The same tokens in two sources that agree up to the end of each of them. -/
structure Echoes (source source' : List Char) (ts ts' : List Token) : Prop where
  same : ts.map Token.unplaced = ts'.map Token.unplaced
  col : ∃ offset, ∀ t ∈ ts, t.col = offset + t.start + 1
  col' : ∃ offset, ∀ t ∈ ts', t.col = offset + t.start + 1
  source : ∀ t ∈ ts, t.isEof = false → source.take t.stop = source'.take t.stop

namespace Echoes

variable {source source' : List Char} {ts ts' : List Token}

theorem drop (h : Echoes source source' ts ts') (n : Nat) : Echoes source source' (ts.drop n) (ts'.drop n) where
  same := by rw [List.map_drop, List.map_drop, h.same]
  col := h.col.imp fun _ h t ht => h t (List.mem_of_mem_drop ht)
  col' := h.col'.imp fun _ h t ht => h t (List.mem_of_mem_drop ht)
  source := fun t ht => h.source t (List.mem_of_mem_drop ht)

theorem take (h : Echoes source source' ts ts') (n : Nat) : Echoes source source' (ts.take n) (ts'.take n) where
  same := by rw [List.map_take, List.map_take, h.same]
  col := h.col.imp fun _ h t ht => h t (List.mem_of_mem_take ht)
  col' := h.col'.imp fun _ h t ht => h t (List.mem_of_mem_take ht)
  source := fun t ht => h.source t (List.mem_of_mem_take ht)

theorem tokenAt (h : Echoes source source' ts ts') (i : Nat) :
    (Syntax.tokenAt ts i).unplaced = (Syntax.tokenAt ts' i).unplaced := by
  have hat (us : List Token) : (Syntax.tokenAt us i).unplaced = Syntax.tokenAt (us.map Token.unplaced) i := by
    unfold Syntax.tokenAt
    rw [List.getElem?_map]
    cases us[i]? with
    | some t => rfl
    | none => exact (List.getLastD_map (f := Token.unplaced) (a := eofToken)).symm
  rw [hat, hat, h.same]

theorem value (h : Echoes source source' ts ts') (i : Nat) :
    (Syntax.tokenAt ts i).value = (Syntax.tokenAt ts' i).value := by
  rw [← Token.value_unplaced, h.tokenAt, Token.value_unplaced]

end Echoes

structure Spans (ts ts' : List Token) (offset offset' : Nat) : Prop where
  same : ts.map Token.unplaced = ts'.map Token.unplaced
  solid : ∀ t ∈ ts, t.isEof = false
  col : ∀ t ∈ ts, t.col = offset + t.start + 1
  col' : ∀ t ∈ ts', t.col = offset' + t.start + 1

theorem find_alike {ts ts' : List Token} {offset offset' : Nat} (h : Spans ts ts' offset offset') (k : Nat) :
    (ts.find? fun t => t.col ≥ offset + 1 + k).map Token.unplaced =
      (ts'.find? fun t => t.col ≥ offset' + 1 + k).map Token.unplaced := by
  obtain ⟨hsame, hsolid, hcol, hcol'⟩ := h
  induction ts generalizing ts' with
  | nil =>
    cases ts' with
    | nil => rfl
    | cons t' ts' => cases hsame
  | cons t ts ih =>
    cases ts' with
    | nil => cases hsame
    | cons t' ts' =>
      obtain ⟨ht, hts⟩ := List.cons.inj hsame
      obtain ⟨hsolid, hsolids⟩ := List.forall_mem_cons.mp hsolid
      obtain ⟨hcol, hcols⟩ := List.forall_mem_cons.mp hcol
      obtain ⟨hcol', hcols'⟩ := List.forall_mem_cons.mp hcol'
      have hsolid' : t'.isEof = false := by rw [← Token.isEof_unplaced, ← ht, Token.isEof_unplaced, hsolid]
      have hstart : t.start = t'.start := by
        rw [← (Token.span_unplaced hsolid).1, ht, (Token.span_unplaced hsolid').1]
      have hdecide : decide (t.col ≥ offset + 1 + k) = decide (t'.col ≥ offset' + 1 + k) := by
        rw [hcol, hcol', hstart]
        exact decide_eq_decide.mpr (by omega)
      rw [List.find?_cons, List.find?_cons, hdecide]
      split
      · rw [Option.map_some, Option.map_some, ht]
      · exact ih hts hsolids hcols hcols'

theorem shown_unplaced (t : Token) : t.unplaced.shown = t.shown := by
  unfold Token.shown
  rw [t.value_unplaced]

theorem furthestFault_alike {α γ : Type} (f : α → γ) (text : List Char) {span span' : List Token} {offset offset' : Nat}
    (h : Spans span span' offset offset') {first first' : Token} (hfirst : first ∈ span) (hfirst' : first' ∈ span')
    (hstart : first.start = first'.start) (last last' : Token) (far : Nat) :
    Alike f (.error (furthestFault text span first last far)) (.error (furthestFault text span' first' last' far)) := by
  have hfound := find_alike h (first.start + ((text.take far).reverse.takeWhile (· != '\n')).length)
  have hcol : offset + 1 + (first.start + ((text.take far).reverse.takeWhile (· != '\n')).length) =
      first.col + ((text.take far).reverse.takeWhile (· != '\n')).length := by
    rw [h.col first hfirst]
    omega
  have hcol' : offset' + 1 + (first.start + ((text.take far).reverse.takeWhile (· != '\n')).length) =
      first'.col + ((text.take far).reverse.takeWhile (· != '\n')).length := by
    rw [h.col' first' hfirst', hstart]
    omega
  rw [hcol, hcol'] at hfound
  unfold furthestFault
  dsimp only
  generalize (span.find? _) = found at hfound ⊢
  generalize (span'.find? _) = found' at hfound ⊢
  rcases found with - | t <;> rcases found' with - | t'
  · exact .fault rfl
  · cases hfound
  · cases hfound
  · have hshown : t.shown = t'.shown := by rw [← shown_unplaced, Option.some.inj hfound, shown_unplaced]
    dsimp only
    rw [hshown]
    cases t'.shown with
    | ok shown => exact .fault rfl
    | error e => exact .failure e

theorem empty_alike {α γ : Type} (f : α → γ) (ts ts' : List Token) : ts.length = ts'.length →
    Alike f (match ts with
      | t :: _ => .error (parseFault .endOfExpression t.line t.col)
      | [] => .error (parseFault .endOfExpression 0 0)) (match ts' with
      | t :: _ => .error (parseFault .endOfExpression t.line t.col)
      | [] => .error (parseFault .endOfExpression 0 0)) := by
  intro h
  cases ts <;> cases ts'
  · exact .fault rfl
  · cases h
  · cases h
  · exact .fault rfl

theorem Spans.span {ts ts' : List Token} {offset offset' : Nat} (h : Spans ts ts' offset offset') {t t' : Token}
    (ht : t ∈ ts) (hsame : t.unplaced = t'.unplaced) : t.start = t'.start ∧ t.stop = t'.stop := by
  have hsolid := h.solid t ht
  have hsolid' : t'.isEof = false := by rw [← Token.isEof_unplaced, ← hsame, Token.isEof_unplaced, hsolid]
  obtain ⟨hstart, hstop⟩ := Token.span_unplaced hsolid
  obtain ⟨hstart', hstop'⟩ := Token.span_unplaced hsolid'
  exact ⟨by rw [← hstart, hsame, hstart'], by rw [← hstop, hsame, hstop']⟩

namespace Echoes

variable {source source' : List Char} {ts ts' : List Token}

theorem filter (h : Echoes source source' ts ts') : ∃ offset offset',
    Spans (ts.filter fun t => !t.isEof) (ts'.filter fun t => !t.isEof) offset offset' := by
  obtain ⟨offset, hcol⟩ := h.col
  obtain ⟨offset', hcol'⟩ := h.col'
  refine ⟨offset, offset', ⟨?_, fun t ht => ?_, fun t ht => hcol t (List.mem_filter.mp ht).1,
    fun t ht => hcol' t (List.mem_filter.mp ht).1⟩⟩
  · have hfilter (us : List Token) : (us.filter fun t => !t.isEof).map Token.unplaced =
        (us.map Token.unplaced).filter fun t => !t.isEof := by
      have hsame : ((fun t : Token => !t.isEof) ∘ Token.unplaced) = fun t => !t.isEof := by
        funext t
        simp [Token.isEof_unplaced]
      rw [List.filter_map, hsame]
    rw [hfilter, hfilter, h.same]
  · simpa using (List.mem_filter.mp ht).2

theorem readTokens {α γ : Type} {f : α → γ} {rule : Grammar.Origin → Nat → Grammar.Rule α}
    (hrule : ∀ o o' fuel, Grammar.Rule.Alike f (rule o fuel) (rule o' fuel)) (h : Echoes source source' ts ts') :
    Alike f (Syntax.readTokens rule source ts) (Syntax.readTokens rule source' ts') := by
  obtain ⟨offset, offset', hspans⟩ := h.filter
  have hsource : ∀ t ∈ ts.filter fun t => !t.isEof, source.take t.stop = source'.take t.stop := fun t ht =>
    h.source t (List.mem_filter.mp ht).1 (hspans.solid t ht)
  have hempty := empty_alike f ts ts' (by simpa using congrArg List.length h.same)
  unfold Syntax.readTokens
  generalize (ts.filter fun t => !t.isEof) = span at hspans hsource
  generalize (ts'.filter fun t => !t.isEof) = span' at hspans
  dsimp only
  have hsame := hspans.same
  rcases span with - | ⟨first, more⟩ <;> rcases span' with - | ⟨first', more'⟩
  · exact hempty
  · cases hsame
  · cases hsame
  · have hlast := congrArg List.getLast? hsame
    rw [List.getLast?_map, List.getLast?_map] at hlast
    cases hx : (first :: more).getLast? with
    | none => simp at hx
    | some last =>
      cases hy : (first' :: more').getLast? with
      | none => simp at hy
      | some last' =>
        have hmem := List.mem_of_getLast? hx
        rw [hx, hy] at hlast
        obtain ⟨hstart, -⟩ := hspans.span List.mem_cons_self (List.cons.inj hsame).1
        obtain ⟨-, hstop⟩ := hspans.span hmem (Option.some.inj hlast)
        dsimp only
        rw [hsource last hmem, hstart, hstop]
        generalize htext : (source'.take last'.stop).drop first'.start = text
        rcases Grammar.run_alike (hrule ⟨text, first.line, first.col⟩ ⟨text, first'.line, first'.col⟩
          (Grammar.depthFor text)) text with ⟨a, b, spans, ha, hb, hab⟩ | ⟨far, ha, hb⟩
        · rw [ha, hb]
          exact .ok hab
        · rw [ha, hb]
          exact furthestFault_alike f text hspans List.mem_cons_self List.mem_cons_self hstart last last' far

end Echoes

end Conductor.Syntax
