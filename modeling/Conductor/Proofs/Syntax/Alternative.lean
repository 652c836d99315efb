import Conductor.Proofs.Syntax.Branching
import Conductor.Proofs.Syntax.Literals
import Conductor.Proofs.Text.Blanks

/-!
# What an alternative belongs to

An ELSE on the line of a condition belongs to the first IF of the line. An ELSE at the start of the next line belongs to
the last IF of the line before it. So the two layouts have one meaning unless an IF follows the first THEN.
-/

set_option autoImplicit false

namespace Conductor.Syntax

/-! ## Lines alone -/

/-- The statement that a line makes with no line after it. -/
inductive Alone : SourceLine → Statement → Prop
  | simple {l : SourceLine} {read : Except Problem Statement} {s : Statement} (hform : form false l = .simple read)
    (hread : read = .ok s) : Alone l s
  | first {l first : SourceLine} {condition : Expr} {s : Statement} (hform : form false l = .cond)
    (hbranches : branches l = .ok (condition, .inline first none)) (hfirst : Alone first s) :
    Alone l (.cond condition [s] [] (place l))
  | both {l first second : SourceLine} {condition : Expr} {s t : Statement} (hform : form false l = .cond)
    (hbranches : branches l = .ok (condition, .inline first (some second))) (hfirst : Alone first s)
    (hsecond : Alone second t) : Alone l (.cond condition [s] [t] (place l))

theorem readBlock_without_end {fuel : Nat} {terminators : List String} {top : Bool} {opener stop : Option SourceLine}
    {rest : Lines} {body : List Statement} (hne : terminators.isEmpty = false) :
    readBlock fuel terminators top opener [] ≠ .ok (body, stop, rest) := by
  intro h
  cases fuel with
  | zero => cases h
  | succ fuel =>
    cases readsBlock h with
    | nothing hnone =>
      rw [hne] at hnone
      cases hnone

structure Last (fuel : Nat) : Prop where
  statement : ∀ {l : SourceLine} {s : Statement} {rest : Lines}, readStatement fuel false l [] = .ok (s, rest) →
    rest = [] ∧ Alone l s
  cond : ∀ {l : SourceLine} {s : Statement} {rest : Lines}, form false l = .cond → readIf fuel l [] = .ok (s, rest) →
    rest = [] ∧ Alone l s

theorem last (fuel : Nat) : Last fuel := by
  induction fuel with
  | zero => exact ⟨nofun, nofun⟩
  | succ fuel ih =>
    constructor
    case statement =>
      intro l s rest h
      cases readsStatement h with
      | simple hform => exact ⟨rfl, .simple hform rfl⟩
      | cond hform hread => exact ih.cond hform hread
      | loop _ hbody => exact absurd hbody (readBlock_without_end rfl)
    case cond =>
      intro l s rest hform h
      cases readsIf h with
      | block _ hbody => exact absurd hbody (readBlock_without_end rfl)
      | blockElse _ hbody => exact absurd hbody (readBlock_without_end rfl)
      | inline hbranches hs =>
        obtain ⟨rfl, hfirst⟩ := ih.statement hs
        exact ⟨rfl, .first hform hbranches hfirst⟩
      | inlineElse _ hs => cases (ih.statement hs).1
      | both hbranches hs ht =>
        obtain ⟨rfl, hfirst⟩ := ih.statement hs
        obtain ⟨rfl, hsecond⟩ := ih.statement ht
        exact ⟨rfl, .both hform hbranches hfirst hsecond⟩

theorem Echo.form_cond {l l' : SourceLine} (h : Echo l l') (hform : Syntax.form false l = .cond) :
    Syntax.form false l' = .cond := by
  rcases h.form with ⟨_, _, hform', -⟩ | ⟨-, hform'⟩ | ⟨_, _, hform', -⟩
  · rw [hform] at hform'
    cases hform'
  · exact hform'
  · rw [hform] at hform'
    cases hform'

theorem Alone.echo {l l' : SourceLine} {s s' : Statement} (h : Alone l s) (h' : Alone l' s') (hecho : Echo l l') :
    s.unplaced = s'.unplaced := by
  induction h generalizing l' s' with
  | simple hform hread =>
    rcases hecho.form with ⟨_, _, hform₁, hform₂, hboth⟩ | ⟨hform₁, -⟩ | ⟨_, _, hform₁, -⟩
    · obtain rfl := Form.simple.inj (hform.symm.trans hform₁)
      cases h' with
      | simple hform' hread' =>
        obtain rfl := Form.simple.inj (hform'.symm.trans hform₂)
        exact hboth _ _ hread hread'
      | first hform' => cases hform'.symm.trans hform₂
      | both hform' => cases hform'.symm.trans hform₂
    · cases hform.symm.trans hform₁
    · cases hform.symm.trans hform₁
  | first hform hbranches _ ih =>
    have hform₂ := hecho.form_cond hform
    cases h' with
    | simple hform' => cases hform'.symm.trans hform₂
    | first _ hbranches' hfirst' =>
      obtain ⟨hcondition, hfound⟩ := hecho.branches hbranches hbranches'
      cases hfound with
      | first hfirst => simp only [Statement.unplaced, allUnplaced, hcondition, ih hfirst' hfirst, hecho.place]
    | both _ hbranches' => cases (hecho.branches hbranches hbranches').2
  | both hform hbranches _ _ ih ih' =>
    have hform₂ := hecho.form_cond hform
    cases h' with
    | simple hform' => cases hform'.symm.trans hform₂
    | first _ hbranches' => cases (hecho.branches hbranches hbranches').2
    | both _ hbranches' hfirst' hsecond' =>
      obtain ⟨hcondition, hfound⟩ := hecho.branches hbranches hbranches'
      cases hfound with
      | both hfirst hsecond =>
        simp only [Statement.unplaced, allUnplaced, hcondition, ih hfirst' hfirst, ih' hsecond' hsecond, hecho.place]

/-! ## Lines without ELSE -/

def SourceLine.Elseless (l : SourceLine) : Prop := ∃ tokens, lineTokens l = .ok tokens ∧ findWord tokens "ELSE" 0 = none

theorem takeName_operator {c : Char} (hc : c ∈ shortOperators) (rest : List Char) : takeName (c :: rest) = none := by
  have hall : (shortOperators.any fun c => Text.isBlank c || isNameStart c) = false := by decide
  obtain ⟨hblank, hname⟩ : Text.isBlank c = false ∧ isNameStart c = false := by
    simpa using List.any_eq_false.mp hall c hc
  rw [takeName, List.dropWhile_cons_of_neg (by simp [hblank])]
  exact if_neg (by simp [hname])

theorem not_isOp_of_takeName {line offset p : Nat} {cs : List Char} {t : Token} {ts : List Token}
    (htokens : tokensAt line offset p cs = .ok (t :: ts)) (h : takeName cs ≠ none) (s : String) : t.isOp s = false := by
  induction cs generalizing p with
  | nil => exact absurd rfl h
  | cons c rest ih =>
    rcases tokensAt_ok htokens with ⟨hnil, -⟩ | ⟨_, _, hcons, hblank, hrest⟩ | ⟨_, _, v, n, us, hcons, -, hlexeme, -, -, -, hts⟩
    · cases hnil
    · obtain ⟨rfl, rfl⟩ := List.cons.inj hcons
      refine ih hrest fun hnone => h ?_
      have hblank' : Text.isBlank c = true := by
        simp only [isTokenBlank, Bool.or_eq_true, beq_iff_eq] at hblank
        obtain (rfl | rfl) | rfl := hblank <;> rfl
      rw [← hnone, takeName, takeName, List.dropWhile_cons_of_pos hblank']
    · obtain ⟨rfl, rfl⟩ := List.cons.inj hcons
      obtain ⟨rfl, -⟩ := List.cons.inj hts
      have hlexed := lexed_of_lexeme (List.cons_ne_nil c rest) hlexeme
      generalize hcs : c :: rest = cs at hlexed
      cases hlexed with
      | operator ho => exact absurd (takeName_operator (operator?_first (hcs ▸ ho)) rest) h
      | _ => rfl

theorem SourceLine.Elseless.branches {l first : SourceLine} {second : Option SourceLine} {condition : Expr} (h : l.Elseless)
    (hform : form false l = .cond) (hbranches : branches l = .ok (condition, .inline first second)) :
    second = none ∧ first.Elseless := by
  obtain ⟨tokens, htokens, hnone⟩ := h
  obtain ⟨tokens', thenAt, htokens', hthen, -, hfound⟩ := branches_ok hbranches
  obtain rfl := Except.ok.inj (htokens.symm.trans htokens')
  obtain ⟨head, before, t, after, rfl, hhead, rfl, hdeep, hat, hword⟩ := findWord_eq_some hthen
  obtain ⟨t₀, rfl⟩ := List.length_eq_one_iff.mp hhead
  have hop (s : String) : t.isOp s = false := not_isOp_of_isOneOf hword s
  have hop₀ (s : String) : t₀.isOp s = false := by
    refine not_isOp_of_takeName ((tokenize_eq _ _ _).symm.trans htokens) (fun hname => ?_) s
    have hword := word_of_cond hform
    rw [SourceLine.word, hname] at hword
    exact absurd hword (by decide)
  have hzero : deepening ([t₀] ++ before) = 0 := by
    rw [deepening_append, hdeep, deepening, hop₀, hop₀]
    rfl
  have hafter : findWordFrom ["ELSE"] 0 0 after = none := by
    rw [findWord, List.drop_zero, findWordFrom_append, Option.or_eq_none_iff, findWordFrom_cons (hop _) (hop _), hzero] at hnone
    obtain ⟨-, hnone⟩ := hnone
    split at hnone
    · cases hnone
    · exact findWordFrom_eq_none hnone 0
  have hlater : findWord ([t₀] ++ before ++ t :: after) "ELSE" (1 + before.length + 1) = none := by
    rw [findWord, List.append_cons, List.drop_left' (by simp; omega)]
    exact findWordFrom_eq_none hafter _
  rw [following, hlater, hat] at hfound
  dsimp only at hfound
  split at hfound
  · cases hfound
  · obtain ⟨rfl, rfl⟩ := Branches.inline.inj hfound
    have hcut := (tokensAt_after ((tokenize_eq _ _ _).symm.trans htokens) (not_isEof_of_isOneOf hword)).2.2
    rw [Nat.sub_zero] at hcut
    obtain ⟨us, hus, hsame⟩ := lineTokens_inlineLine hcut l (l.offset + t.stop) true
    exact ⟨rfl, us, hus, (findWordFrom_congr hsame).trans hafter⟩

/-! ## Alternatives on the next line -/

def Statement.isCond : Statement → Bool
  | .cond .. => true
  | _ => false

/-- A condition with no alternative, once the innermost of the conditions that follow its THEN one behind the other has
been given one. -/
def innermostElse (u : Statement) : Statement → Statement
  | .cond condition [.cond condition' thenBody elseBody p'] [] p =>
    .cond condition [innermostElse u (.cond condition' thenBody elseBody p')] [] p
  | .cond condition thenBody _ p => .cond condition thenBody [u] p
  | s => s

theorem innermostElse_cond (u : Statement) (condition : Expr) {s : Statement} (h : s.isCond = true) (p : Place) :
    innermostElse u (.cond condition [s] [] p) = .cond condition [innermostElse u s] [] p := by
  cases s with
  | cond => rw [innermostElse]
  | _ => cases h

theorem innermostElse_other (u : Statement) (condition : Expr) {s : Statement} (h : s.isCond = false) (p : Place) :
    innermostElse u (.cond condition [s] [] p) = .cond condition [s] [u] p := by
  cases s with
  | cond => cases h
  | _ => rfl

theorem isCond_unplaced (s : Statement) : s.unplaced.isCond = s.isCond := by cases s <;> rfl

theorem Statement.Flat.isCond {s : Statement} (h : s.Flat) : s.isCond = false := by
  cases s with
  | cond => exact h.elim
  | _ => rfl

/-- What a line makes of an ELSE on the next and last line, beside the statement that it makes alone: a condition takes
it, and any other statement leaves it. -/
inductive Followed (term : SourceLine) (s : Statement) : Statement → Lines → Prop
  | left {s' : Statement} (hcond : s.isCond = false) (hsame : s'.unplaced = s.unplaced) : Followed term s s' [term]
  | taken {s' u : Statement} {inner : SourceLine} (hcond : s.isCond = true) (hinner : alternative? term = some inner)
    (hu : Alone inner u) (hsame : s'.unplaced = innermostElse u.unplaced s.unplaced) : Followed term s s' []

theorem readElse_last {fuel : Nat} {term : SourceLine} {body : List Statement} {rest : Lines}
    (h : readElse fuel term false [] = .ok (body, rest)) :
    rest = [] ∧ ∃ inner u, alternative? term = some inner ∧ Alone inner u ∧ body = [u] := by
  cases fuel with
  | zero => cases h
  | succ fuel =>
    cases readsElse h with
    | block _ hbody => exact absurd hbody (readBlock_without_end rfl)
    | inline hinner hs =>
      obtain ⟨rfl, hu⟩ := (last fuel).statement hs
      exact ⟨rfl, _, _, hinner, hu, rfl⟩
    | inlineBlock _ _ hends => simp at hends

theorem followed_cond {l first term : SourceLine} {condition condition' : Expr} {s s' : Statement} {p : Place} {fuel : Nat}
    {rest : Lines} (hterm : term.word = "ELSE") (hbranches : branches l = .ok (condition', .inline first none))
    (hfirst : ∀ {fuel : Nat} {s' : Statement} {rest : Lines}, readStatement fuel false first [term] = .ok (s', rest) →
      Followed term s s' rest) (hcondition : condition'.unplaced = condition.unplaced)
    (hplace : (place l).unplaced = p.unplaced) (hread : readIf fuel l [term] = .ok (s', rest)) :
    Followed term (.cond condition [s] [] p) s' rest := by
  cases fuel with
  | zero => cases hread
  | succ fuel =>
    cases readsIf hread with
    | block hfound | blockElse hfound | both hfound => cases hbranches.symm.trans hfound
    | inline hfound ht hother =>
      cases hbranches.symm.trans hfound
      cases hfirst ht with
      | left =>
        have hword := hother term rfl
        rw [hterm] at hword
        cases hword
      | taken hcond hinner hu hsame =>
        refine .taken rfl hinner hu ?_
        simp only [Statement.unplaced, allUnplaced]
        rw [innermostElse_cond _ _ ((isCond_unplaced s).trans hcond), hcondition, hsame, hplace]
    | inlineElse hfound ht _ helse =>
      cases hbranches.symm.trans hfound
      cases hfirst ht with
      | left hcond hsame =>
        obtain ⟨rfl, inner, u, hinner, hu, rfl⟩ := readElse_last helse
        refine .taken rfl hinner hu ?_
        simp only [Statement.unplaced, allUnplaced]
        rw [innermostElse_other _ _ ((isCond_unplaced s).trans hcond), hcondition, hsame, hplace]

theorem branches_of_readIf {fuel : Nat} {l : SourceLine} {lines rest : Lines} {s : Statement}
    (h : readIf fuel l lines = .ok (s, rest)) : ∃ condition found, branches l = .ok (condition, found) := by
  cases fuel with
  | zero => cases h
  | succ fuel =>
    rw [readIf_succ] at h
    obtain ⟨⟨condition, found⟩, hbranches, -⟩ := bind_eq_ok_iff.mp h
    exact ⟨condition, found, hbranches⟩

theorem Alone.followed {l l' term : SourceLine} {s s' : Statement} {fuel : Nat} {rest : Lines} (h : Alone l s)
    (hecho : Echo l l') (hplain : l'.Elseless) (hterm : term.word = "ELSE")
    (hread : readStatement fuel false l' [term] = .ok (s', rest)) : Followed term s s' rest := by
  induction h generalizing l' s' fuel rest with
  | simple hform hs =>
    rcases hecho.form with ⟨_, _, hform₁, hform₂, hboth⟩ | ⟨hform₁, -⟩ | ⟨_, _, hform₁, -⟩
    · obtain rfl := Form.simple.inj (hform.symm.trans hform₁)
      cases fuel with
      | zero => cases hread
      | succ fuel =>
        rw [readStatement_succ, hform₂] at hread
        obtain ⟨t, ht, hread⟩ := bind_eq_ok_iff.mp hread
        cases hread
        exact .left (simple_flat hform (by simp [hecho.block]) _ hs).isCond (hboth _ _ hs ht).symm
    · cases hform.symm.trans hform₁
    · cases hform.symm.trans hform₁
  | first hform hbranches _ ih =>
    have hform' := hecho.form_cond hform
    cases fuel with
    | zero => cases hread
    | succ fuel =>
      rw [readStatement_succ, hform'] at hread
      obtain ⟨condition', found, hbranches'⟩ := branches_of_readIf hread
      obtain ⟨hcondition, hfound⟩ := hecho.branches hbranches hbranches'
      cases hfound with
      | first hfirst =>
        have hplain' := (hplain.branches hform' hbranches').2
        exact followed_cond hterm hbranches' (fun ht => ih hfirst hplain' ht) hcondition.symm hecho.place.symm hread
  | both hform hbranches =>
    have hform' := hecho.form_cond hform
    cases fuel with
    | zero => cases hread
    | succ fuel =>
      rw [readStatement_succ, hform'] at hread
      obtain ⟨condition', found, hbranches'⟩ := branches_of_readIf hread
      cases (hecho.branches hbranches hbranches').2 with
      | both => cases (hplain.branches hform' hbranches').1

/-! ## The two layouts -/

section

variable {l : SourceLine} {c : String} {z : List Char} (hcode : l.code.toList = conditional c z)

include hcode

theorem takeName_conditional : takeName l.code.toList =
    some ("IF".toList, ' ' :: (c.toList ++ ' ' :: ("THEN".toList ++ ' ' :: z))) := by
  rw [hcode]
  rfl

theorem label_conditional : label? l.code = none := by
  rw [label?, takeName_conditional hcode]
  dsimp only
  have hmem : 'T' ∈ (' ' :: (c.toList ++ ' ' :: ("THEN".toList ++ ' ' :: z))).dropWhile Text.isBlank :=
    Text.mem_dropWhile (by simp) rfl
  split
  · next rest hrest =>
    rw [hrest, List.mem_cons] at hmem
    have hmem : 'T' ∈ rest := hmem.resolve_left (by decide)
    exact if_neg fun hall => absurd (List.all_eq_true.mp hall 'T' hmem) (by decide)
  · rfl

theorem assignment_conditional (hequals : (c.toList.dropWhile Text.isBlank).head? ≠ some '=') : assignment? l.code = none := by
  have hafter : ((' ' :: (c.toList ++ ' ' :: ("THEN".toList ++ ' ' :: z))).dropWhile Text.isBlank).head? ≠ some '=' := by
    rw [List.dropWhile_cons_of_pos rfl, List.dropWhile_append]
    split
    · rw [List.dropWhile_cons_of_pos rfl]
      exact fun h => absurd (Option.some.inj h) (by decide)
    · next hne =>
      rw [List.isEmpty_iff] at hne
      rwa [List.head?_append_of_ne_nil _ hne]
  have htarget : targetAt 0 ('I' :: 'F' :: ' ' :: (c.toList ++ ' ' :: ("THEN".toList ++ ' ' :: z))) = none := by
    have htail : ('F' :: ' ' :: (c.toList ++ ' ' :: ("THEN".toList ++ ' ' :: z))).takeWhile isTargetPart = ['F'] := rfl
    rw [targetAt, if_pos (by decide)]
    dsimp only
    rw [htail, List.length_singleton, List.drop_succ_cons, List.drop_zero, drop_takeWhile]
    split
    · next more hmore =>
      rw [hmore] at hafter
      exact absurd rfl hafter
    · rfl
  rw [assignment?_eq, hcode]
  exact htarget

theorem form_conditional (hblock : l.block = none) (hequals : (c.toList.dropWhile Text.isBlank).head? ≠ some '=') :
    form false l = .cond := by
  have hword : l.word = "IF" := by
    rw [SourceLine.word, takeName_conditional hcode]
    rfl
  rw [form, hblock, label_conditional hcode, assignment_conditional hcode hequals, hword]
  rfl

end

theorem parse_cond {source : String} {l : SourceLine} {lines : Lines} {p : Program}
    (hlines : sourceLines source = .ok (l :: lines)) (hform : form false l = .cond) (h : parse source = .ok p) :
    ∃ fuel s rest more, readIf fuel l lines = .ok (s, rest) ∧ p = s :: more ∧ (rest = [] → more = []) := by
  rw [parse_eq, hlines] at h
  dsimp only at h
  rw [Nat.add_comm] at h
  cases hread : readBlock (weight (l :: lines) + 10) [] true none (l :: lines) with
  | error e =>
    rw [hread] at h
    cases h
  | ok found =>
    obtain ⟨body, stop, rest⟩ := found
    rw [hread] at h
    cases h
    cases readsBlock hread with
    | ended hends => simp [endsBlock, isWordLine] at hends
    | more _ _ hs hmore =>
      rw [readStatement_succ, (form_cond_iff true l).mpr hform] at hs
      refine ⟨_, _, _, _, hs, rfl, ?_⟩
      rintro rfl
      rw [readBlock_nil] at hmore
      cases hmore
      rfl

section

variable {term : SourceLine} {z : List Char} (hcode : term.code.toList = "ELSE".toList ++ ' ' :: z)

include hcode

theorem takeName_else : takeName term.code.toList = some ("ELSE".toList, ' ' :: z) := by
  rw [hcode]
  rfl

theorem word_else : term.word = "ELSE" := by
  rw [SourceLine.word, takeName_else hcode]
  rfl

theorem alternative_else {inner : SourceLine} (h : alternative? term = some inner) :
    ∃ offset, inner = inlineLine term (' ' :: z) offset true := by
  have hafter : term.afterWord.1.toList = ' ' :: z := by
    rw [SourceLine.afterWord, takeName_else hcode, String.toList_ofList]
  rw [alternative?] at h
  split at h
  · cases h
  · obtain rfl := Option.some.inj h
    exact ⟨_, by rw [hafter]⟩

end

section

variable {l : SourceLine} {c s₁ : String} (hc : lacks "THEN" c = true) (hs₁ : lacks "ELSE" s₁ = true)
  (hblank : Text.allBlank s₁ = false)

include hc hs₁ hblank

/-- A condition on one line with its alternative. -/
theorem Alone.of_else {s₂ : List Char} {s : Statement} (h : Alone l s) (hform : form false l = .cond)
    (hcode : l.code.toList = conditional c (s₁.toList ++ ' ' :: ("ELSE".toList ++ ' ' :: s₂))) :
    ∃ condition t u offset, Tests l c condition ∧ s = .cond condition [t] [u] (place l) ∧
      Alone (inlineLine l (' ' :: s₁.toList ++ [' ']) (l.offset + (c.toList.length + 8)) false) t ∧
      Alone (inlineLine l (' ' :: s₂) offset true) u := by
  cases h with
  | simple hform' => cases hform'.symm.trans hform
  | first _ hbranches =>
    obtain ⟨-, _, hfound⟩ := branches_else hc hs₁ hblank hcode hbranches
    cases hfound
  | both _ hbranches hfirst hsecond =>
    obtain ⟨htests, offset, hfound⟩ := branches_else hc hs₁ hblank hcode hbranches
    cases hfound
    exact ⟨_, _, _, offset, htests, rfl, hfirst, hsecond⟩

theorem readIf_then {term : SourceLine} {t s : Statement} {fuel : Nat} {rest : Lines} {first : SourceLine}
    (hcode : l.code.toList = conditional c s₁.toList) (hblock : l.block = none) (hterm : term.word = "ELSE")
    (hfirst : Alone first t) (hcodeFirst : first.code.toList = ' ' :: s₁.toList ++ [' ']) (hblockFirst : first.block = none)
    (h : readIf fuel l [term] = .ok (s, rest)) : rest = [] ∧ ∃ condition inner u, Tests l c condition ∧
      alternative? term = some inner ∧ Alone inner u ∧
      s.unplaced = innermostElse u.unplaced (.cond condition.unplaced [t.unplaced] [] (place l).unplaced) := by
  obtain ⟨condition, found, hbranches⟩ := branches_of_readIf h
  obtain ⟨htests, rfl⟩ := branches_then hc hs₁ hblank hcode hbranches
  obtain ⟨body, htokens, -, -, hfind, hdeep⟩ := tokens_of_lacks hs₁ l.line l.offset 1
  rw [← tokensAt_blank (show isTokenBlank ' ' = true from rfl)] at htokens
  obtain ⟨us, hus, hsame⟩ := lineTokens_inlineLine htokens l (l.offset + (c.toList.length + 8)) true
  have hecho : Echo first (inlineLine l (' ' :: s₁.toList) (l.offset + (c.toList.length + 8)) true) := by
    refine ⟨.inr ⟨?_, us, hus⟩, hblockFirst, by simp [inlineLine, hblock]⟩
    rw [hcodeFirst, inlineLine, String.toList_ofList]
  have hplain : (inlineLine l (' ' :: s₁.toList) (l.offset + (c.toList.length + 8)) true).Elseless := by
    refine ⟨us, hus, (findWordFrom_congr hsame).trans ?_⟩
    rw [findWordFrom_append, hfind, hdeep]
    rfl
  have hfollowed := followed_cond hterm hbranches (fun ht => hfirst.followed hecho hplain hterm ht) rfl rfl h
  cases hfollowed with
  | left hcond => cases hcond
  | @taken u inner _ hinner hu hsame =>
    simp only [Statement.unplaced, allUnplaced] at hsame
    exact ⟨rfl, condition, inner, u, htests, hinner, hu, hsame⟩

end

/-- The two layouts of a condition with an alternative. -/
theorem layouts {l l' term : SourceLine} {c s₁ source source' : String} {z : List Char} {p p' : Program}
    (hc : lacks "THEN" c = true) (hequals : (c.toList.dropWhile Text.isBlank).head? ≠ some '=')
    (hs₁ : lacks "ELSE" s₁ = true) (hblank : Text.allBlank s₁ = false)
    (hcode : l.code.toList = conditional c (s₁.toList ++ ' ' :: ("ELSE".toList ++ ' ' :: z)))
    (hcode' : l'.code.toList = conditional c s₁.toList) (hterm : term.code.toList = "ELSE".toList ++ ' ' :: z)
    (hblocks : l.block = none ∧ l'.block = none ∧ term.block = none) (hlines : sourceLines source = .ok [l])
    (hlines' : sourceLines source' = .ok [l', term]) (h : parse source = .ok p) (h' : parse source' = .ok p') :
    ∃ condition first second, allUnplaced p = [.cond condition [first] [second] (place l).unplaced] ∧
      allUnplaced p' = [innermostElse second (.cond condition [first] [] (place l').unplaced)] := by
  obtain ⟨hblock, hblock', hblockTerm⟩ := hblocks
  have hform := form_conditional hcode hblock hequals
  have hform' := form_conditional hcode' hblock' hequals
  obtain ⟨fuel, s, rest, more, hread, rfl, hmore⟩ := parse_cond hlines hform h
  obtain ⟨rfl, halone⟩ := (last fuel).cond hform hread
  obtain rfl := hmore rfl
  obtain ⟨condition, t, u, offset, htests, rfl, ht, hu⟩ := halone.of_else hc hs₁ hblank hform hcode
  obtain ⟨fuel', s', rest', more', hread', rfl, hmore'⟩ := parse_cond hlines' hform' h'
  obtain ⟨rfl, condition', inner, u', htests', hinner, hu', hsame⟩ :=
    readIf_then hc hs₁ hblank hcode' hblock' (word_else hterm) ht String.toList_ofList rfl hread'
  obtain rfl := hmore' rfl
  obtain ⟨offset', rfl⟩ := alternative_else hterm hinner
  have hcondition := htests.unplaced htests' hcode hcode'
  have hsecond := hu.echo hu' (echo_inlineLine hblock hblockTerm (.inl rfl) _ _ _ _)
  refine ⟨condition.unplaced, t.unplaced, u.unplaced, rfl, ?_⟩
  rw [allUnplaced, hsame, hcondition, hsecond]
  rfl

/-- On the line of a condition, ELSE gives the condition itself its alternative; at the start of the next line it gives
one to the last condition of the line before it. The trees of the two layouts are the same but for that, and so they are
the same if no condition follows the THEN. -/
theorem parse_alternative {c s₁ s₂ source source' : String} {n o n' o' m k : Nat} {p p' : Program}
    (hc : lacks "THEN" c = true) (hequals : (c.toList.dropWhile Text.isBlank).head? ≠ some '=')
    (hs₁ : lacks "ELSE" s₁ = true) (hblank : Text.allBlank s₁ = false)
    (hlines : sourceLines source = .ok [⟨"IF " ++ c ++ " THEN " ++ s₁ ++ " ELSE " ++ s₂, n, o, none⟩])
    (hlines' : sourceLines source' = .ok [⟨"IF " ++ c ++ " THEN " ++ s₁, n', o', none⟩, ⟨"ELSE " ++ s₂, m, k, none⟩])
    (h : parse source = .ok p) (h' : parse source' = .ok p') :
    ∃ condition first second,
      allUnplaced p = [.cond condition [first] [second] ⟨0, Text.strip ("IF " ++ c ++ " THEN " ++ s₁ ++ " ELSE " ++ s₂)⟩] ∧
      (first.isCond = false →
        allUnplaced p' = [.cond condition [first] [second] ⟨0, Text.strip ("IF " ++ c ++ " THEN " ++ s₁)⟩]) ∧
      (first.isCond = true → allUnplaced p' =
        [.cond condition [innermostElse second first] [] ⟨0, Text.strip ("IF " ++ c ++ " THEN " ++ s₁)⟩]) := by
  obtain ⟨condition, first, second, htree, htree'⟩ := layouts (z := s₂.toList) hc hequals hs₁ hblank (by simp [conditional])
    (by simp [conditional]) (by simp) ⟨rfl, rfl, rfl⟩ hlines hlines' h h'
  refine ⟨condition, first, second, htree, fun hcond => ?_, fun hcond => ?_⟩
  · rw [htree', innermostElse_other _ _ hcond]
    rfl
  · rw [htree', innermostElse_cond _ _ hcond]
    rfl

def Statement.thenBranch : Statement → List Statement
  | .cond _ thenBody _ _ => thenBody
  | _ => []

/-- Two conditions one behind the other, and one ELSE: it is the first one's on their line, and the second one's behind it. -/
theorem parse_alternative_nested : ∃ p p' condition first second q q',
    parse "IF a THEN IF b THEN SAY 1 ELSE SAY 2" = .ok p ∧ parse "IF a THEN IF b THEN SAY 1\nELSE SAY 2" = .ok p' ∧
      first.isCond = true ∧ allUnplaced p = [.cond condition [first] [second] q] ∧
      allUnplaced p' = [.cond condition [innermostElse second first] [] q'] := by
  have haccepted : (parse "IF a THEN IF b THEN SAY 1\nELSE SAY 2").isOk = true := by decide +kernel
  have hnested : ((parse "IF a THEN IF b THEN SAY 1 ELSE SAY 2").toOption.map fun p =>
      ((allUnplaced p).flatMap Statement.thenBranch).all Statement.isCond) = some true := by decide +kernel
  cases hp : parse "IF a THEN IF b THEN SAY 1 ELSE SAY 2" with
  | error e =>
    rw [hp] at hnested
    cases hnested
  | ok p =>
    cases hp' : parse "IF a THEN IF b THEN SAY 1\nELSE SAY 2" with
    | error e =>
      rw [hp'] at haccepted
      cases haccepted
    | ok p' =>
      have hlines : sourceLines "IF a THEN IF b THEN SAY 1 ELSE SAY 2" =
          .ok [⟨"IF " ++ "a" ++ " THEN " ++ "IF b THEN SAY 1" ++ " ELSE " ++ "SAY 2", 1, 0, none⟩] := rfl
      have hlines' : sourceLines "IF a THEN IF b THEN SAY 1\nELSE SAY 2" =
          .ok [⟨"IF " ++ "a" ++ " THEN " ++ "IF b THEN SAY 1", 1, 0, none⟩, ⟨"ELSE " ++ "SAY 2", 2, 0, none⟩] := rfl
      obtain ⟨condition, first, second, htree, -, htree'⟩ := parse_alternative (by decide) (by decide)
        (by decide) (by decide) hlines hlines' hp hp'
      have hfirst : first.isCond = true := by
        simpa [hp, htree, Except.toOption, Statement.thenBranch] using hnested
      exact ⟨p, p', condition, first, second, _, _, rfl, rfl, hfirst, htree, htree' hfirst⟩

end Conductor.Syntax
