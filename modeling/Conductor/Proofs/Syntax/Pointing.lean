import Conductor.Proofs.Syntax.Columns
import Conductor.Proofs.Syntax.Literals
import Conductor.Proofs.Syntax.Positions

/-!
# Positions in a source

The text that a statement is read from stands in its raw line from its offset on, however it was cut out: behind
comments and semicolons, behind a keyword, between THEN and ELSE. So the nodes of its expressions stand where their
lexemes do, and a fault in it points to one of its characters or behind the last of them.

One fault points nowhere. An operand is read from the tokens between two keywords, and where there are none the fault
has no token to take a position from: an IF with nothing before its THEN, and a DO over a range without a bound.
-/

set_option autoImplicit false

namespace Conductor.Syntax

/-! ## Statements and nodes -/

section

variable (S : Pos → List Char → Prop)

def Source.Anchored : Source → Prop
  | .expr e => e.Anchored S
  | .command c => c.Anchored S
  | .block _ => True

def LoopHead.Anchored : LoopHead → Prop
  | .block | .forever => True
  | .count e | .while e | .until e | .over _ e => e.Anchored S
  | .range _ start stop step => start.Anchored S ∧ (∀ e ∈ stop, e.Anchored S) ∧ ∀ e ∈ step, e.Anchored S

def AddressAction.Anchored : AddressAction → Prop
  | .reset => True
  | .switch _ _ rule => ∀ e ∈ rule, e.Anchored S
  | .send _ command => command.Anchored S

def Bare (e : Expr) (p : Place) : Prop := e = .literal (.text "" false) ⟨0, 0⟩ ∧ Text.upper p.text = "SAY"

mutual
/-- The nodes of a statement's expressions, and of those inside it, stand where their lexemes do. -/
def Statement.Anchored : Statement → Prop
  | .assign _ source _ _ => source.Anchored S
  | .say e p => e.Anchored S ∨ Bare e p
  | .require e _ => e.Anchored S
  | .cond condition thenBody elseBody _ => condition.Anchored S ∧ allAnchored thenBody ∧ allAnchored elseBody
  | .loop head body _ => head.Anchored S ∧ allAnchored body
  | .call _ args _ => argumentsAnchored S args
  | .address action _ => action.Anchored S
  | .ret value _ _ => ∀ e ∈ value, e.Anchored S
  | .clause expr command _ _ => (∀ e ∈ expr, e.Anchored S) ∧ ∀ c ∈ command, c.Anchored S
  | .block _ _ | .leave _ | .iterate _ | .signal _ _ | .label _ _ | .arg _ _ | .interpolation _ _ | .nop _ => True

def allAnchored : List Statement → Prop
  | [] => True
  | s :: rest => s.Anchored ∧ allAnchored rest
end

end

theorem allAnchored_iff {S : Pos → List Char → Prop} {ss : List Statement} :
    allAnchored S ss ↔ ∀ s ∈ ss, s.Anchored S := by
  induction ss with
  | nil => simp [allAnchored]
  | cons s rest ih => simp [allAnchored, ih]

/-! ## Operands that are not there -/

def Bounds (t : Token) : Prop := t.isEof = true ∨ t.isOneOf ["TO", "BY"] = true

theorem min_bounds {tokens : List Token} {i j : Nat} (hi : Bounds (tokenAt tokens i)) (hj : Bounds (tokenAt tokens j)) :
    Bounds (tokenAt tokens (min i j)) := by
  rcases Nat.le_total i j with hle | hle
  · rwa [Nat.min_eq_left hle]
  · rwa [Nat.min_eq_right hle]

/-- A range with an operand of no token: nothing stands between the equals sign or a keyword and what ends the operand. -/
def HollowRange (ts : List Token) : Prop :=
  (tokenAt ts 1).isOp "=" = true ∧
    ∃ i, (i = 1 ∨ 1 < i ∧ (tokenAt ts i).isOneOf ["TO", "BY"] = true) ∧ Bounds (tokenAt ts (i + 1))

/-- A line on which an operand is to be read from no token at all. -/
inductive Hollow (l : SourceLine) : Prop
  | condition {tokens : List Token} (hword : l.word = "IF") (htokens : lineTokens l = .ok tokens)
      (hthen : (tokenAt tokens 1).isOneOf ["THEN"] = true)
  | range {tokens : List Token} (hword : l.word = "DO") (htokens : lineTokens l = .ok tokens)
      (hrange : HollowRange (tokens.drop 1))

/-- A line of a source: its text stands there, and its faults may point to it. -/
structure Marks (S : Pos → List Char → Prop) (E : Problem → Prop) (l : SourceLine) : Prop where
  region : Region S E l.line l.offset l.code.toList
  start : ∀ cause, E (parseFault cause l.line 1)
  block : ∀ b ∈ l.block, E (parseFault .blockLiteralPlace l.line b.col)
  hollow : Hollow l → E (parseFault .endOfExpression 0 0)

/-! ## The statements of one line -/

section

variable {S : Pos → List Char → Prop} {E : Problem → Prop}

theorem opens_of_findWord {tokens : List Token} {word : String} (hword : word ∈ ["TO", "BY"]) {n i : Nat}
    (h : findWord tokens word n = some i) : n ≤ i ∧ (tokenAt tokens i).isOneOf ["TO", "BY"] = true := by
  obtain ⟨k, t, rfl, ht, hfound⟩ := mem_of_findWordFrom h
  rw [List.getElem?_drop] at ht
  have hat : tokenAt tokens (n + k) = t := by rw [tokenAt, ht]
  refine ⟨Nat.le_add_right n k, ?_⟩
  rw [hat]
  unfold Token.isOneOf at hfound ⊢
  split at hfound
  · simp only [List.contains_eq_mem, decide_eq_true_eq, List.mem_singleton] at hfound ⊢
    rwa [hfound]
  · cases hfound

theorem some_ends {e : Expr} (h : e.Anchored S) : Ends (fun x => ∀ e ∈ x, e.Anchored S) E (.ok (some e)) := by
  refine .ok fun e' he' => ?_
  cases he'
  exact h

variable (S E) in
theorem none_ends : Ends (fun x : Option Expr => ∀ e ∈ x, e.Anchored S) E (.ok none) := .ok nofun

section

variable {line offset : Nat} {source : List Char} (h : Region S E line offset source) {tokens : List Token}

section

variable (htokens : Laid line offset source.length tokens)

include h htokens

theorem read_ends {i j : Nat} (hi : i < j) (hi' : i < tokens.length) :
    Ends (Expr.Anchored S) E (readExpression source ((tokens.take j).drop i)) := by
  refine readExpression_ends h (fun t ht => htokens.seated t (List.mem_of_mem_take (List.mem_of_mem_drop ht))) ?_
  rw [← List.length_pos_iff, List.length_drop, List.length_take]
  omega

variable (hsign : (tokenAt tokens 1).isOp "=" = true)
  (hollow : HollowRange tokens → E (parseFault .endOfExpression 0 0))

include hsign hollow

theorem operand_ends {i j : Nat} (hi : i = 1 ∨ 1 < i ∧ (tokenAt tokens i).isOneOf ["TO", "BY"] = true) (hij : i < j)
    (hj : Bounds (tokenAt tokens j)) :
    Ends (Expr.Anchored S) E (readExpression source ((tokens.take j).drop (i + 1))) := by
  have hsolid : (tokenAt tokens i).isEof = false := by
    rcases hi with rfl | ⟨-, hword⟩
    · exact not_isEof_of_isOp hsign
    · exact not_isEof_of_isOneOf hword
  rcases Nat.lt_or_ge (i + 1) j with hlt | hge
  · exact read_ends h htokens hlt (htokens.lt_length hsolid)
  · obtain rfl : j = i + 1 := by omega
    have hempty : (tokens.take (i + 1)).drop (i + 1) = [] := List.drop_of_length_le (List.length_take_le _ _)
    rw [hempty]
    exact .error (hollow ⟨hsign, i, hi, hj⟩)

theorem rangeStart_ends :
    Ends (Expr.Anchored S) E (readExpression source ((tokens.take (rangeStop tokens)).drop 2)) := by
  have hlength := htokens.lt_length (not_isEof_of_isOp hsign)
  have hstop : 1 < tokens.length - 1 ∧ Bounds (tokenAt tokens (tokens.length - 1)) :=
    ⟨by omega, .inl htokens.isEof_last⟩
  have hfirst {word : String} (hword : word ∈ ["TO", "BY"]) :
      1 < (findWord tokens word 2).getD (tokens.length - 1) ∧
        Bounds (tokenAt tokens ((findWord tokens word 2).getD (tokens.length - 1))) := by
    cases hfound : findWord tokens word 2 with
    | none => exact hstop
    | some i =>
      obtain ⟨hi, hbound⟩ := opens_of_findWord hword hfound
      exact ⟨hi, .inr hbound⟩
  obtain ⟨hto, hto'⟩ := hfirst (.head _)
  obtain ⟨hby, hby'⟩ := hfirst (.tail _ (.head _))
  exact operand_ends h htokens hsign hollow (.inl rfl) (lt_min hto (lt_min hby hstop.1))
    (min_bounds hto' (min_bounds hby' hstop.2))

theorem readBound_ends {word other : String} (hword : word ∈ ["TO", "BY"]) (hother : other ∈ ["TO", "BY"]) :
    Ends (fun x => ∀ e ∈ x, e.Anchored S) E (readBound source tokens word other) := by
  unfold readBound
  split
  · next i hi =>
    obtain ⟨hlow, hopens⟩ := opens_of_findWord hword hi
    have hbefore := htokens.lt_length (not_isEof_of_isOneOf hopens)
    have hoperand {j : Nat} (hij : i < j) (hj : Bounds (tokenAt tokens j)) :
        Ends (Expr.Anchored S) E (readExpression source ((tokens.take j).drop (i + 1))) :=
      operand_ends h htokens hsign hollow (.inr ⟨hlow, hopens⟩) hij hj
    have hend := hoperand (show i < tokens.length - 1 by omega) (.inl htokens.isEof_last)
    have hread : Ends (Expr.Anchored S) E (readExpression source
        ((tokens.take (boundStop tokens other i)).drop (i + 1))) := by
      unfold boundStop
      split
      · next j hj =>
        split
        · next hlt => exact hoperand hlt (.inr (opens_of_findWord hother hj).2)
        · exact hend
      · exact hend
    exact hread.bind fun e _ he => some_ends he
  · exact none_ends S E

end

include h

theorem readLoopHead_ends (htokens : tokens ≠ [] → Laid line offset source.length tokens)
    (hollow : HollowRange tokens → E (parseFault .endOfExpression 0 0)) :
    Ends (LoopHead.Anchored S) E (readLoopHead source tokens) := by
  by_cases hnil : tokens = []
  · rw [hnil]
    exact .ok trivial
  have hlaid := htokens hnil
  have hall {i : Nat} (hi : i < tokens.length) := read_ends h hlaid hi hi
  have hbehind {i : Nat} {words : List String} (hword : (tokenAt tokens i).isOneOf words = true) :=
    hall (hlaid.lt_length (not_isEof_of_isOneOf hword))
  have hwhole := hall (List.length_pos_iff.mpr hnil)
  have hto : "TO" ∈ ["TO", "BY"] := .head _
  have hby : "BY" ∈ ["TO", "BY"] := .tail _ (.head _)
  rw [readLoopHead_eq]
  dsimp only
  split
  · exact .ok trivial
  split
  · exact .ok trivial
  split
  · next hword => exact (hbehind hword).bind fun e _ he => .ok he
  split
  · next hword => exact (hbehind hword).bind fun e _ he => .ok he
  split
  · split
    · next hsign =>
      have hbound {word other : String} (hword : word ∈ ["TO", "BY"]) (hother : other ∈ ["TO", "BY"]) :=
        readBound_ends h hlaid hsign hollow hword hother
      refine (rangeStart_ends h hlaid hsign hollow).bind fun start _ hstart => ?_
      exact (hbound hto hby).bind fun limit _ hlimit => (hbound hby hto).bind fun step _ hstep =>
        .ok ⟨hstart, hlimit, hstep⟩
    · split
      · next hword => exact (hbehind hword).bind fun e _ he => .ok he
      · exact hwhole.bind fun e _ he => .ok he
  · exact hwhole.bind fun e _ he => .ok he

end

theorem isBlank_of_isTokenBlank {c : Char} (h : isTokenBlank c = true) : Text.isBlank c = true := by
  simp only [isTokenBlank, Bool.or_eq_true, beq_iff_eq] at h
  rcases h with (rfl | rfl) | rfl <;> rfl

theorem blank_of_tokenize {text : String} {line offset : Nat} {tokens : List Token}
    (h : tokenize text line offset = .ok tokens) (heof : (tokenAt tokens 0).isEof = true) :
    ∀ c ∈ text.toList, Text.isBlank c = true := by
  rw [tokenize] at h
  obtain ⟨body, eof, rfl, -, hbody⟩ := lexes_of_tokensFrom (Nat.lt_succ_self _) h
  cases body with
  | nil => exact fun c hc => isBlank_of_isTokenBlank (hbody.blank_of_nil c hc)
  | cons t body =>
    have hsolid := hbody.solid t List.mem_cons_self
    rw [List.cons_append, tokenAt, List.getElem?_cons_zero] at heof
    rw [hsolid] at heof
    cases heof

theorem upper_strip_of_blank {l : SourceLine} (hword : l.word ≠ "")
    (hblank : ∀ c ∈ l.afterWord.1.toList, Text.isBlank c = true) : Text.upper (Text.strip l.code) = l.word := by
  unfold SourceLine.word at hword ⊢
  unfold SourceLine.afterWord at hblank
  split
  · next name after hname =>
    rw [hname, String.toList_ofList] at hblank
    obtain ⟨c, w, hcs, rfl, hw, -⟩ := takeName_eq_some hname
    have hsolid : ∀ d ∈ (c :: w).reverse, ¬ Text.isBlank d = true := by
      intro d hd
      rcases List.mem_cons.mp (List.mem_reverse.mp hd) with rfl | hd
      · have hstart := List.head?_dropWhile_not Text.isBlank l.code.toList
        rw [hcs] at hstart
        simpa using hstart
      · simp [Text.isBlank_of_isWordChar (hw d hd)]
    have hstrip : Text.stripWhile Text.isBlank l.code.toList = c :: w := by
      rw [Text.stripWhile, hcs, ← List.cons_append, Text.dropEndWhile, List.reverse_append,
        List.dropWhile_append_of_pos fun d hd => hblank d (List.mem_reverse.mp hd),
        List.dropWhile_eq_self_iff.mpr fun hne => hsolid _ (List.getElem_mem _), List.reverse_reverse]
    rw [Text.strip, hstrip]
  · next hname => exact absurd (by rw [hname]) hword

theorem targetAt_le {p : Nat} {cs : List Char} {found : String × Nat × Nat} (h : targetAt p cs = some found) :
    found.2.2 ≤ p + cs.length := by
  unfold targetAt at h
  split at h
  · next c rest =>
    split at h
    · dsimp only at h
      split at h
      · next more hmore =>
        split at h
        · cases h
        · cases h
          have hlength := congrArg List.length hmore
          have htail := (List.takeWhile_prefix (l := rest) isTargetPart).length_le
          have hgap := (List.takeWhile_prefix (l := rest.drop (rest.takeWhile isTargetPart).length) Text.isBlank).length_le
          simp only [List.length_drop, List.length_cons] at hlength hgap ⊢
          omega
      · cases h
    · cases h
  · cases h

theorem assignment?_le {code target : String} {start stop : Nat} (h : assignment? code = some (target, start, stop)) :
    stop ≤ code.toList.length := by
  have hlead := (List.takeWhile_prefix (l := code.toList) Text.isBlank).length_le
  unfold assignment? at h
  dsimp only at h
  split at h
  · next found hlet =>
    split at hlet
    · next _ _ _ rest hbody =>
      split at hlet
      · split at hlet
        · cases hlet
        · have hle := targetAt_le hlet
          have hgap := (List.takeWhile_prefix (l := rest) Text.isBlank).length_le
          have hlength := congrArg List.length hbody
          cases h
          simp only [List.length_drop, List.length_cons] at hle hlength
          omega
      · cases hlet
    · cases hlet
  · have hle := targetAt_le h
    simp only [List.length_drop] at hle
    omega

section

variable {l : SourceLine} (m : Marks S E l)

include m

theorem Marks.ofLine {α : Type} {P : α → Prop} {k : List Token → Except Problem α}
    (hk : ∀ tokens, lineTokens l = .ok tokens → Laid l.line l.offset l.code.toList.length tokens → Ends P E (k tokens)) :
    Ends P E (lineTokens l >>= k) := m.region.tokenize.bind hk

theorem readArg_ends : Ends (Statement.Anchored S) E (readArg l) := by
  refine m.ofLine fun tokens _ htokens => .bind (P := fun _ => True) ⟨fun _ _ => trivial, ?_⟩ fun _ _ _ => .ok trivial
  refine fails_traverse fun t ht => ?_
  split
  · exact .ok _
  · split
    · exact .ok _
    · exact (m.region.shown (P := fun _ => True) (htokens.seated t (List.mem_of_mem_drop ht)) _).fails

theorem readSignal_ends : Ends (Statement.Anchored S) E (readSignal l) := by
  refine m.ofLine fun tokens _ htokens => ?_
  have hfault (i : Nat) (cause : Cause) : E (parseFault cause (tokenAt tokens i).line (tokenAt tokens i).col) :=
    m.region.token (htokens.seated_at i) cause
  dsimp only
  split
  · exact .error (hfault 1 _)
  split
  · split
    · exact m.region.shown (htokens.seated_at 2) _
    · next trap _ =>
      have hend (on : Bool) (label : String) (i : Nat) : Ends (Statement.Anchored S) E (if !(tokenAt tokens i).isEof then
            shownOf (tokenAt tokens i) >>= fun shown =>
              throw (parseFault (.unexpectedToken shown) (tokenAt tokens i).line (tokenAt tokens i).col)
          else if on then .ok (Statement.signal (.on trap label) (place l))
          else .ok (Statement.signal (.off trap) (place l))) := by
        split
        · exact m.region.shown (htokens.seated_at i) _
        · split <;> exact .ok trivial
      split
      · split
        · exact .error (hfault 4 _)
        · exact hend _ _ 5
      · exact hend _ _ 3
  · split
    · split
      · exact .ok trivial
      · exact .error (hfault 1 _)
    · exact .error (hfault 1 _)

theorem readInterpolation_ends : Ends (Statement.Anchored S) E (readInterpolation l) := by
  refine m.ofLine fun tokens _ htokens => ?_
  have hfault (cause : Cause) : E (parseFault cause (tokenAt tokens 1).line (tokenAt tokens 1).col) :=
    m.region.token (htokens.seated_at 1) cause
  dsimp only
  split
  · split
    · split
      · exact .ok trivial
      · exact .error (hfault _)
    · exact .error (hfault _)
  split
  · exact .ok trivial
  split
  · exact .ok trivial
  · exact .error (hfault _)

theorem readAssignment_ends {target : String} {start stop : Nat} (hstop : stop ≤ l.code.toList.length) :
    Ends (Statement.Anchored S) E (readAssignment l target start stop) := by
  have hregion := m.region.part hstop List.prefix_rfl
  have htokenize := (String.toList_ofList (l := l.code.toList.drop stop)).symm ▸ hregion
  refine htokenize.tokenize.bind fun tokens _ htokens => ?_
  rw [String.toList_ofList] at htokens
  have hexpression := readExpression_ends hregion htokens.seated htokens.ne_nil
  have hcommand := readCommand_ends hregion htokens.seated htokens.ne_nil
  split
  · exact .error (hregion.first _)
  dsimp only
  split
  · next e he => exact .ok (hexpression.gives e he)
  · exact .error (hregion.failure _)
  · next hfault =>
    split
    · next c hc => exact .ok (hcommand.gives c hc)
    · exact .error (hregion.failure _)
    · exact .error (hexpression.fails _ hfault)

theorem asCommand_ends {tokens : List Token} (htokens : Laid l.line l.offset l.code.toList.length tokens) (asked : Bool) :
    Ends (fun command => ∀ c ∈ command, c.Anchored S) E (if asked then
        match readCommand l.code.toList tokens with
        | .ok c => .ok (some c)
        | .error (.failure f) => .error (.failure f)
        | .error (.condition _) => .ok none
      else .ok none) := by
  split
  · split
    · next c hc =>
      refine .ok fun c' hc' => ?_
      cases hc'
      exact (readCommand_ends m.region htokens.seated htokens.ne_nil).gives c hc
    · exact .error (m.region.failure _)
    · exact .ok nofun
  · exact .ok nofun

theorem readClause_ends : Ends (Statement.Anchored S) E (readClause l) := by
  unfold readClause
  split
  · exact .error (m.region.failure _)
  · exact .ok ⟨nofun, nofun⟩
  · next tokens htokens =>
    have hlaid := m.region.tokenize.gives tokens htokens
    have hexpression := readExpression_ends m.region hlaid.seated hlaid.ne_nil
    dsimp only
    split
    · exact .error (m.region.failure _)
    · split
      · next e he => exact .error ((asCommand_ends m hlaid _).fails e he)
      · next command hcommand =>
        exact .ok ⟨fun e he => hexpression.gives e (eq_ok_of_toOption he),
          (asCommand_ends m hlaid _).gives command hcommand⟩

theorem readBlockLine_ends {literal : BlockLiteral} (hliteral : literal ∈ l.block) :
    Ends (Statement.Anchored S) E (readBlockLine l literal) := by
  unfold readBlockLine
  split
  · exact .ok trivial
  split
  · split
    · exact .ok trivial
    · exact .error (m.block literal hliteral)
  · exact .error (m.block literal hliteral)

theorem Marks.afterWord : Region S E l.line l.afterWord.2 l.afterWord.1.toList := by
  obtain ⟨k, hk, hoffset, htext⟩ := afterWord_drop l
  rw [hoffset]
  exact m.region.part hk (htext ▸ List.prefix_rfl)

theorem readOptional_ends : Ends (fun value => (∀ e ∈ value, e.Anchored S) ∧
    (value = none → ∀ c ∈ l.afterWord.1.toList, Text.isBlank c = true)) E (readOptional l) := by
  unfold readOptional
  refine m.afterWord.tokenize.bind fun tokens htokens hlaid => ?_
  split
  · next heof => exact .ok ⟨nofun, fun _ => blank_of_tokenize htokens heof⟩
  · refine (readExpression_ends m.afterWord hlaid.seated hlaid.ne_nil).bind fun e _ he => .ok ⟨?_, nofun⟩
    exact fun e' he' => Option.some.inj he' ▸ he

theorem readSay_ends (hword : l.word = "SAY") : Ends (Statement.Anchored S) E (readSay l) := by
  refine (readOptional_ends m).bind fun value _ hvalue => ?_
  split
  · exact .ok (.inl (hvalue.1 _ rfl))
  · exact .ok (.inr ⟨rfl, (upper_strip_of_blank (by rw [hword]; decide) (hvalue.2 rfl)).trans hword⟩)

theorem readRequire_ends : Ends (Statement.Anchored S) E (readRequire l) := by
  refine (readOptional_ends m).bind fun value _ hvalue => ?_
  split
  · exact .ok (hvalue.1 _ rfl)
  · exact .error (m.afterWord.first _)

theorem readCall_ends : Ends (Statement.Anchored S) E (readCall l) := by
  refine m.ofLine fun tokens _ htokens => ?_
  split
  · have hfault := m.region.token (htokens.seated_at 1) .callForm
    rw [(htokens.seated_at 1).line] at hfault
    exact .error hfault
  · split
    · exact .ok trivial
    · next hsolid =>
      have hbehind := htokens.drop (Nat.lt_of_succ_lt (htokens.lt_length (Bool.eq_false_iff.mpr hsolid)))
      exact (readArguments_ends m.region hbehind.seated hbehind.ne_nil).bind fun args _ hargs => .ok hargs

theorem readAddress_ends : Ends (Statement.Anchored S) E (readAddress l) := by
  refine m.ofLine fun tokens _ htokens => ?_
  have hread {n : Nat} (hn : (tokenAt tokens n).isEof = false) :
      Ends (Expr.Anchored S) E (readExpression l.code.toList (tokens.drop n)) := by
    have hbehind := htokens.drop (Nat.lt_of_succ_lt (htokens.lt_length hn))
    exact readExpression_ends m.region hbehind.seated hbehind.ne_nil
  have hfault (i : Nat) (cause : Cause) : E (parseFault cause (tokenAt tokens i).line (tokenAt tokens i).col) :=
    m.region.token (htokens.seated_at i) cause
  dsimp only
  split
  · exact .ok trivial
  split
  · exact .error (hfault 1 _)
  split
  · exact .ok nofun
  · next hnext =>
    have hsend := hread (Bool.eq_false_iff.mpr hnext)
    split
    · split
      · split
        · exact .ok nofun
        · next hafter =>
          split
          · exact .error (hfault 3 _)
          · exact (hread (Bool.eq_false_iff.mpr hafter)).bind fun e _ he => .ok fun e' he' => by cases he'; exact he
      · split
        · exact .error (hfault 2 _)
        · exact hsend.bind fun e _ he => .ok he
    · exact hsend.bind fun e _ he => .ok he

theorem readSimple_ends : Ends (Statement.Anchored S) E (readSimple l l.word) := by
  unfold readSimple
  split
  · exact .error (m.region.first _)
  · exact .ok trivial
  · next hword => exact readSay_ends m hword
  · exact .ok trivial
  · exact .ok trivial
  · exact (readOptional_ends m).bind fun value _ hvalue => .ok hvalue.1
  · exact (readOptional_ends m).bind fun value _ hvalue => .ok hvalue.1
  · exact readRequire_ends m
  · exact readArg_ends m
  · exact readCall_ends m
  · exact readAddress_ends m
  · exact readSignal_ends m
  · exact readInterpolation_ends m
  · exact readClause_ends m

theorem simple_ends {top : Bool} {read : Except Problem Statement} (h : form top l = .simple read) :
    Ends (Statement.Anchored S) E read := by
  unfold form at h
  split at h
  · next literal hblock _ =>
    cases h
    exact readBlockLine_ends m hblock
  split at h
  · cases h
    split
    · exact .ok trivial
    · exact .error (m.region.first _)
  split at h
  · next hassignment =>
    cases h
    exact readAssignment_ends m (assignment?_le hassignment)
  split at h
  · cases h
  split at h
  · cases h
  · cases h
    exact readSimple_ends m

theorem loop_ends {top : Bool} {head : Except Problem LoopHead} (h : form top l = .loop head) :
    Ends (LoopHead.Anchored S) E head := by
  unfold form at h
  split at h
  · cases h
  split at h
  · cases h
  split at h
  · cases h
  split at h
  · cases h
  split at h
  · next hword =>
    cases h
    refine m.ofLine fun tokens htokens hlaid => readLoopHead_ends m.region (fun hne => hlaid.drop ?_) fun hollow =>
      m.hollow (.range (eq_of_beq hword) htokens hollow)
    rw [← List.length_pos_iff, List.length_drop] at hne
    omega
  · cases h

theorem branches_ends {top : Bool} (h : form top l = .cond) :
    Ends (fun b => b.1.Anchored S) E (branches l) := by
  have hword := word_of_cond ((form_cond_iff top l).mp h)
  refine m.ofLine fun tokens htokens hlaid => ?_
  dsimp only
  split
  · exact .error (m.region.first _)
  · next i hi =>
    obtain ⟨k, t, hk, ht, hthen⟩ := mem_of_findWordFrom hi
    have hat : tokenAt tokens i = t := by
      rw [List.getElem?_drop, ← hk] at ht
      rw [tokenAt, ht]
    rw [← hat] at hthen
    have hlast := hlaid.lt_length (not_isEof_of_isOneOf hthen)
    have hcondition : Ends (Expr.Anchored S) E (readExpression l.code.toList ((tokens.take i).drop 1)) := by
      rcases Nat.lt_or_ge 1 i with hlt | hge
      · exact read_ends m.region hlaid hlt (by omega)
      · obtain rfl : i = 1 := by omega
        have hempty : (tokens.take 1).drop 1 = [] := List.drop_of_length_le (List.length_take_le _ _)
        rw [hempty]
        exact .error (m.hollow (.condition hword htokens hthen))
    refine hcondition.bind fun condition _ hcondition => ?_
    split
    · exact .ok hcondition
    split <;> exact .ok hcondition

end

/-- The statements of a program stand where its lines do. -/
theorem discipline_anchored {I : SourceLine → Prop} (hI : ∀ l, I l → Marks S E l)
    (hinside : ∀ {inner outer : SourceLine}, Inline inner outer → I outer → I inner) (hnesting : E (.failure .nesting)) :
    Discipline I (Statement.Anchored S) E where
  inside := hinside
  simple hl hform := simple_ends (hI _ hl) hform
  cond hl hform := by
    refine (branches_ends (hI _ hl) hform).mono fun b hb first second hfirst hsecond => ?_
    rw [Statement.Anchored]
    exact ⟨hb, allAnchored_iff.mpr hfirst, allAnchored_iff.mpr hsecond⟩
  loop hl hform := by
    refine (loop_ends (hI _ hl) hform).mono fun head hhead body hbody => ?_
    rw [Statement.Anchored]
    exact ⟨hhead, allAnchored_iff.mpr hbody⟩
  stray hl := (hI _ hl).region.first _
  missing hl _ := (hI _ hl).start _
  nesting := hnesting

end

/-! ## Sources -/

/-- A lexeme stands in a source at a position: from the column on, the raw line starts with it. -/
def Shown (source : String) (pos : Pos) (w : List Char) : Prop :=
  1 ≤ pos.col ∧ ∃ raw, lineAt? source pos.line = some raw ∧ w <+: raw.toList.drop (pos.col - 1)

/-- A line of a source that a statement is read from: a logical line, or one inside it. -/
def IsRead (source : String) (l : SourceLine) : Prop :=
  ∃ lines, sourceLines source = .ok lines ∧ ∃ outer ∈ lines, Nested l outer

def Located (source : String) (problem : Problem) : Prop :=
  ∀ c, problem = .condition c → PointsInto source c ∨
    (problem = parseFault .endOfExpression 0 0 ∧ ∃ l, IsRead source l ∧ Hollow l)

theorem lineAt?_bounds {source raw : String} {line : Nat} (h : lineAt? source line = some raw) :
    1 ≤ line ∧ line ≤ (Text.lines source).length := by
  cases line with
  | zero => cases h
  | succ n => exact ⟨Nat.succ_pos n, (List.getElem?_eq_some_iff.mp h).1⟩

theorem located_failure (source : String) (f : Failure) : Located source (.failure f) := by
  intro c hc
  cases hc

theorem IsRead.inside {source : String} {inner outer : SourceLine} (h : Inline inner outer)
    (houter : IsRead source outer) : IsRead source inner := by
  obtain ⟨lines, hlines, l, hl, hnested⟩ := houter
  exact ⟨lines, hlines, l, hl, .head h hnested⟩

theorem IsRead.marks {source : String} {l : SourceLine} (h : IsRead source l) :
    Marks (Shown source) (Located source) l := by
  have hhollow (hollow : Hollow l) : Located source (parseFault .endOfExpression 0 0) :=
    fun _ _ => .inr ⟨rfl, l, h, hollow⟩
  obtain ⟨lines, hlines, outer, houter, hnested⟩ := h
  obtain ⟨raw, hraw, hover, hblock⟩ := sourceLines_drawn hlines outer houter
  have hsingle := (sourceLines_single hlines outer houter).code
  obtain ⟨hline, ⟨k, hk, hoffset, hcode⟩, hsub⟩ := hnested.part
  have hover := (hover.drop hk).shorter hcode
  rw [← hline] at hraw
  rw [← hoffset] at hover
  have hpoints (cause : Cause) {col : Nat} (hcol : 1 ≤ col ∧ col ≤ raw.length + 1) :
      Located source (parseFault cause l.line col) := by
    rintro c hc
    cases hc
    exact .inl ⟨l.line, col, raw, rfl, rfl, hraw, hcol⟩
  have hlength := hover.length_le
  have hraw' : raw.toList.length = raw.length := String.length_toList
  refine ⟨⟨fun hmem => hsingle (List.mem_of_mem_drop (hcode.subset hmem)), ?_, ?_, located_failure source⟩, ?_, ?_,
    hhollow⟩
  · intro q w hblank hw
    exact ⟨Nat.succ_pos _, raw, hraw, hover.prefix_drop hw hblank⟩
  · intro k hk cause
    exact hpoints cause ⟨Nat.succ_pos _, by omega⟩
  · intro cause
    exact hpoints cause ⟨Nat.le_refl 1, Nat.succ_pos _⟩
  · intro b hb
    exact hpoints _ (hblock b (hsub b hb))

/-- The statements of a program show their lexemes in the source, and a fault is located there. -/
theorem parse_ends (source : String) :
    Ends (fun program => ∀ s ∈ program, s.Anchored (Shown source)) (Located source) (parse source) := by
  cases hlines : sourceLines source with
  | error c =>
    rw [parse_eq, hlines]
    refine .error fun c' hc' => ?_
    cases hc'
    exact .inl (sourceLines_points hlines)
  | ok lines =>
    have hdiscipline : Discipline (IsRead source) (Statement.Anchored (Shown source)) (Located source) :=
      discipline_anchored (fun _ => IsRead.marks) IsRead.inside (located_failure source _)
    exact hdiscipline.parse hlines fun l hl => ⟨lines, hlines, l, hl, .refl⟩

/-- The nodes of a program's expressions stand where their lexemes do. -/
theorem parse_anchored {source : String} {program : Program} (h : parse source = .ok program) :
    ∀ s ∈ program, s.Anchored (Shown source) := (parse_ends source).gives program h

/-- Behind a comment and a semicolon, and on both sides of an ELSE. -/
theorem parse_anchored_inline : ∃ program,
    parse "/* a */ x = 1; IF x > 0 THEN SAY x |> upper ELSE y = -f(2) -- b" = .ok program ∧ program.length = 2 ∧
      ∀ s ∈ program, s.Anchored (Shown "/* a */ x = 1; IF x > 0 THEN SAY x |> upper ELSE y = -f(2) -- b") := by
  have hread : (parse "/* a */ x = 1; IF x > 0 THEN SAY x |> upper ELSE y = -f(2) -- b").toOption.map List.length =
      some 2 := by decide +kernel
  cases hprogram : parse "/* a */ x = 1; IF x > 0 THEN SAY x |> upper ELSE y = -f(2) -- b" with
  | error e =>
    rw [hprogram] at hread
    cases hread
  | ok program =>
    rw [hprogram] at hread
    exact ⟨program, rfl, Option.some.inj hread, parse_anchored hprogram⟩

/-- A fault points to a character of the source or behind the last one of a line, unless an operand has no token. -/
theorem parse_fault_located {source : String} {c : Condition} (h : parse source = .error (.condition c)) :
    (∃ line col raw, c.line = some line ∧ c.col = some col ∧ (1 ≤ line ∧ line ≤ (Text.lines source).length) ∧
        lineAt? source line = some raw ∧ 1 ≤ col ∧ col ≤ raw.length + 1) ∨
      (Problem.condition c = parseFault .endOfExpression 0 0 ∧ ∃ l, IsRead source l ∧ Hollow l) := by
  rcases (parse_ends source).fails _ h c rfl with ⟨line, col, raw, hline, hcol, hraw, hbounds⟩ | hhollow
  · exact .inl ⟨line, col, raw, hline, hcol, lineAt?_bounds hraw, hraw, hbounds⟩
  · exact .inr hhollow

def refusal? : Except Problem Program → Option Condition
  | .error (.condition c) => some c
  | _ => none

theorem refusal?_eq_some {read : Except Problem Program} {c : Condition} (h : refusal? read = some c) :
    read = .error (.condition c) := by
  unfold refusal? at h
  split at h
  · cases h
    rfl
  · cases h

/-- Where a loop breaks off behind its keyword the fault is behind the keyword; where the condition of an IF is not
there the fault is nowhere. -/
theorem parse_fault_located_breaks :
    (∃ c, parse "x = 1\nDO WHILE" = .error (.condition c) ∧ ∃ raw, lineAt? "x = 1\nDO WHILE" 2 = some raw ∧
      c.line = some 2 ∧ c.col = some (raw.length + 1)) ∧
    ∃ c, parse "IF THEN" = .error (.condition c) ∧ ∃ l, IsRead "IF THEN" l ∧ Hollow l := by
  have hbreaks : (refusal? (parse "x = 1\nDO WHILE")).map (fun c => (c.line, c.col)) = some (some 2, some 9) := by
    decide +kernel
  have hempty : (refusal? (parse "IF THEN")).map Condition.line = some (some 0) := by decide +kernel
  have hsecond : lineAt? "x = 1\nDO WHILE" 2 = some "DO WHILE" := by decide +kernel
  obtain ⟨c, hrefused, hplace⟩ := Option.map_eq_some_iff.mp hbreaks
  obtain ⟨c', hrefused', hnowhere⟩ := Option.map_eq_some_iff.mp hempty
  obtain ⟨hline, hcol⟩ := Prod.mk.inj hplace
  have hread := refusal?_eq_some hrefused
  have hread' := refusal?_eq_some hrefused'
  constructor
  · rcases parse_fault_located hread with ⟨line, col, raw, hline', -, -, hraw, -⟩ | ⟨hhollow, -⟩
    · obtain rfl := Option.some.inj (hline.symm.trans hline')
      refine ⟨c, hread, raw, hraw, hline, ?_⟩
      rw [← Option.some.inj (hsecond.symm.trans hraw)]
      exact hcol
    · cases hhollow
      cases hline
  · rcases parse_fault_located hread' with ⟨line, col, raw, hline', -, hbounds, -⟩ | ⟨-, hhollow⟩
    · obtain rfl := Option.some.inj (hnowhere.symm.trans hline')
      exact absurd hbounds.1 (Nat.not_succ_le_zero 0)
    · exact ⟨c', hread', hhollow⟩

end Conductor.Syntax
