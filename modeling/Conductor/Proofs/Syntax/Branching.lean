import Conductor.Proofs.Syntax.Echo
import Conductor.Proofs.Syntax.Outline

/-!
# The words that divide a condition

THEN and ELSE are looked for outside parentheses. What a search finds in a text is told here by the depth in parentheses
that a part of the text leaves behind, and what the two words make of a line by the texts between them.
-/

set_option autoImplicit false

namespace Conductor.Syntax

/-! ## Depth in parentheses -/

def deepening : List Token → Int
  | [] => 0
  | t :: rest => (if t.isOp "(" then 1 else if t.isOp ")" then -1 else 0) + deepening rest

theorem not_isOp_of_isOneOf {t : Token} {words : List String} (h : t.isOneOf words = true) (s : String) :
    t.isOp s = false := by
  unfold Token.isOneOf at h
  unfold Token.isOp
  split at h
  · next hword => rw [hword]
  · cases h

section

variable {words : List String} {i j : Nat} {depth : Int} {ts us : List Token}

theorem findWordFrom_index (words : List String) (i k : Nat) (depth : Int) (ts : List Token) :
    findWordFrom words (i + k) depth ts = (findWordFrom words i depth ts).map (· + k) := by
  induction ts generalizing i depth with
  | nil => rfl
  | cons t ts ih =>
    have hnext (depth : Int) : findWordFrom words (i + k + 1) depth ts = (findWordFrom words (i + 1) depth ts).map (· + k) := by
      rw [Nat.add_right_comm, ih]
    rw [findWordFrom, findWordFrom, hnext, hnext, hnext]
    split
    · rfl
    split
    · rfl
    split
    · rfl
    · rfl

theorem findWordFrom_eq_none (h : findWordFrom words i depth ts = none) (j : Nat) : findWordFrom words j depth ts = none := by
  rw [← Nat.zero_add i, findWordFrom_index, Option.map_eq_none_iff] at h
  rw [← Nat.zero_add j, findWordFrom_index, h]
  rfl

theorem findWordFrom_append (words : List String) (i : Nat) (depth : Int) (ts us : List Token) :
    findWordFrom words i depth (ts ++ us) =
      (findWordFrom words i depth ts).or (findWordFrom words (i + ts.length) (depth + deepening ts) us) := by
  induction ts generalizing i depth with
  | nil => simp [findWordFrom, deepening]
  | cons t ts ih =>
    rw [List.cons_append, findWordFrom, findWordFrom, deepening, List.length_cons, ← Int.add_assoc, ih, ih, ih,
      Nat.add_right_comm i 1, Nat.add_assoc i ts.length 1]
    split
    · rfl
    split
    · rw [Int.sub_eq_add_neg]
    split
    · rfl
    · rw [Int.add_zero]

theorem findWordFrom_eq_some (h : findWordFrom words i depth ts = some j) : ∃ before t after, ts = before ++ t :: after ∧
    j = i + before.length ∧ depth + deepening before = 0 ∧ t.isOneOf words = true := by
  induction ts generalizing i depth with
  | nil => cases h
  | cons t ts ih =>
    have hnext {depth' : Int} (hdepth : depth' = depth + (if t.isOp "(" then 1 else if t.isOp ")" then -1 else 0))
        (h : findWordFrom words (i + 1) depth' ts = some j) : ∃ before u after, t :: ts = before ++ u :: after ∧
          j = i + before.length ∧ depth + deepening before = 0 ∧ u.isOneOf words = true := by
      obtain ⟨before, u, after, rfl, rfl, hzero, hu⟩ := ih h
      refine ⟨t :: before, u, after, rfl, by rw [List.length_cons]; omega, ?_, hu⟩
      rw [deepening, ← Int.add_assoc, ← hdepth, hzero]
    rw [findWordFrom] at h
    split at h
    · next hopen => exact hnext (by rw [if_pos hopen]) h
    · next hopen =>
      split at h
      · next hclose => exact hnext (by rw [if_neg hopen, if_pos hclose, Int.sub_eq_add_neg]) h
      · next hclose =>
        split at h
        · next hfound =>
          obtain ⟨hzero, hword⟩ := (Bool.and_eq_true _ _).mp hfound
          cases h
          exact ⟨[], t, ts, rfl, rfl, (Int.add_zero depth).trans (eq_of_beq hzero), hword⟩
        · exact hnext (by rw [if_neg hopen, if_neg hclose, Int.add_zero]) h

theorem findWordFrom_cons {t : Token} (hopen : t.isOp "(" = false) (hclose : t.isOp ")" = false) :
    findWordFrom words i depth (t :: ts) =
      if depth == 0 && t.isOneOf words then some i else findWordFrom words (i + 1) depth ts := by
  rw [findWordFrom, hopen, hclose]
  rfl

theorem findWordFrom_congr (h : ts.map Token.value = us.map Token.value) :
    findWordFrom words i depth ts = findWordFrom words i depth us := by
  induction ts generalizing us i depth with
  | nil =>
    cases us with
    | nil => rfl
    | cons u us => cases h
  | cons t ts ih =>
    cases us with
    | nil => cases h
    | cons u us =>
      obtain ⟨ht, hts⟩ := List.cons.inj h
      rw [findWordFrom, findWordFrom, isOp_congr ht, isOp_congr ht, isOneOf_congr ht, ih hts, ih hts, ih hts]

theorem deepening_congr (h : ts.map Token.value = us.map Token.value) : deepening ts = deepening us := by
  induction ts generalizing us with
  | nil =>
    cases us with
    | nil => rfl
    | cons u us => cases h
  | cons t ts ih =>
    cases us with
    | nil => cases h
    | cons u us =>
      obtain ⟨ht, hts⟩ := List.cons.inj h
      rw [deepening, deepening, isOp_congr ht, isOp_congr ht, ih hts]

end

/-- A text with its parentheses closed in which a word does not stand outside of them. -/
def lacks (word text : String) : Bool :=
  match tokenize text 0 0 with
  | .ok tokens => (findWord tokens word 0).isNone && deepening tokens == 0
  | .error _ => false

theorem deepening_append (ts us : List Token) : deepening (ts ++ us) = deepening ts + deepening us := by
  induction ts with
  | nil => simp [deepening]
  | cons t ts ih => rw [List.cons_append, deepening, deepening, ih, Int.add_assoc]

theorem tokens_of_lacks {word text : String} (h : lacks word text = true) (line offset p : Nat) : ∃ body,
    tokensAt line offset p text.toList = .ok (body ++ [endAt line offset (p + text.toList.length)]) ∧
      (∀ t ∈ body, t.isEof = false ∧ t.stop ≤ p + text.toList.length) ∧
      (∀ more, tokensAt line offset p (text.toList ++ ' ' :: more) =
        (tokensAt line offset (p + text.toList.length + 1) more).map (body ++ ·)) ∧
      (∀ i, findWordFrom [word] i 0 body = none) ∧ deepening body = 0 := by
  unfold lacks at h
  rw [tokenize_eq] at h
  have halike := tokensAt_values line offset p 0 0 0 text.toList
  generalize hts : tokensAt line offset p text.toList = x at halike
  generalize tokensAt 0 0 0 text.toList = y at h halike
  cases halike with
  | fault => cases h
  | failure => cases h
  | ok hsame =>
    obtain ⟨hfind, hdeep⟩ := (Bool.and_eq_true _ _).mp h
    have hfind := (findWordFrom_congr hsame).trans (Option.isNone_iff_eq_none.mp hfind)
    have hdeep := (deepening_congr hsame).trans (eq_of_beq hdeep)
    obtain ⟨body, rfl, hbody, hmore⟩ := tokensAt_append hts
    rw [findWordFrom_append, Option.or_eq_none_iff] at hfind
    rw [deepening_append] at hdeep
    exact ⟨body, rfl, hbody, hmore, findWordFrom_eq_none hfind.1, (Int.add_zero _).symm.trans hdeep⟩

theorem tokenAt_append (before : List Token) (t : Token) (after : List Token) :
    tokenAt (before ++ t :: after) before.length = t := by
  rw [tokenAt, List.getElem?_append_right (Nat.le_refl _), Nat.sub_self]
  rfl

theorem findWord_eq_some {ts : List Token} {word : String} {n k : Nat} (h : findWord ts word n = some k) :
    ∃ head before t after, ts = head ++ before ++ t :: after ∧ head.length = n ∧ k = n + before.length ∧
      deepening before = 0 ∧ tokenAt ts k = t ∧ t.isOneOf [word] = true := by
  obtain ⟨before, t, after, hdrop, rfl, hdepth, hword⟩ := findWordFrom_eq_some h
  have hn : n ≤ ts.length := by
    have hlength := congrArg List.length hdrop
    rw [List.length_drop, List.length_append, List.length_cons] at hlength
    omega
  have hts : ts = (ts.take n ++ before) ++ t :: after := by rw [List.append_assoc, ← hdrop, List.take_append_drop]
  have hhead : (ts.take n).length = n := by rw [List.length_take, Nat.min_eq_left hn]
  have hlength : (ts.take n ++ before).length = n + before.length := by rw [List.length_append, hhead]
  refine ⟨ts.take n, before, t, after, hts, hhead, rfl, (Int.zero_add _).symm.trans hdepth, ?_, hword⟩
  rw [hts, ← hlength, tokenAt_append]

/-! ## What follows THEN -/

def following (l : SourceLine) (tokens : List Token) (thenAt : Nat) : Branches :=
  let source := l.code.toList
  let stop := (tokenAt tokens thenAt).stop
  if (source.drop stop).all Text.isBlank then .block
  else match findWord tokens "ELSE" (thenAt + 1) with
    | some elseAt =>
      let other := tokenAt tokens elseAt
      .inline (inlineLine l ((source.take other.start).drop stop) (l.offset + stop) false)
        (some (inlineLine l (source.drop other.stop) (l.offset + other.stop) true))
    | none => .inline (inlineLine l (source.drop stop) (l.offset + stop) true) none

theorem branches_ok {l : SourceLine} {condition : Expr} {found : Branches} (h : branches l = .ok (condition, found)) :
    ∃ tokens thenAt, lineTokens l = .ok tokens ∧ findWord tokens "THEN" 1 = some thenAt ∧
      readExpression l.code.toList ((tokens.take thenAt).drop 1) = .ok condition ∧ found = following l tokens thenAt := by
  obtain ⟨tokens, htokens, h⟩ := bind_eq_ok_iff.mp h
  cases hthen : findWord tokens "THEN" 1 with
  | none =>
    rw [hthen] at h
    cases h
  | some thenAt =>
    rw [hthen] at h
    obtain ⟨condition', hcondition, h⟩ := bind_eq_ok_iff.mp h
    refine ⟨tokens, thenAt, htokens, hthen, ?_⟩
    unfold following
    dsimp only at h ⊢
    split at h
    · next hblank =>
      cases h
      exact ⟨hcondition, (if_pos hblank).symm⟩
    · next hblank =>
      rw [if_neg hblank]
      cases helse : findWord tokens "ELSE" (thenAt + 1) with
      | none =>
        rw [helse] at h
        cases h
        exact ⟨hcondition, rfl⟩
      | some elseAt =>
        rw [helse] at h
        cases h
        exact ⟨hcondition, rfl⟩

inductive EchoBranches : Branches → Branches → Prop
  | block : EchoBranches .block .block
  | first {first first' : SourceLine} (h : Echo first first') : EchoBranches (.inline first none) (.inline first' none)
  | both {first first' second second' : SourceLine} (h : Echo first first') (h' : Echo second second') :
    EchoBranches (.inline first (some second)) (.inline first' (some second'))

theorem lineTokens_inlineLine {line offset p : Nat} {text : List Char} {ts : List Token}
    (h : tokensAt line offset p text = .ok ts) (l : SourceLine) (offset' : Nat) (last : Bool) :
    ∃ us, lineTokens (inlineLine l text offset' last) = .ok us ∧ us.map Token.value = ts.map Token.value := by
  have htokens : lineTokens (inlineLine l text offset' last) = tokensAt l.line offset' 0 text := by
    rw [lineTokens, tokenize_eq, inlineLine, String.toList_ofList]
  have halike := tokensAt_values l.line offset' 0 line offset p text
  rw [h] at halike
  rw [htokens]
  generalize tokensAt l.line offset' 0 text = x at halike
  cases halike with
  | ok hsame => exact ⟨_, rfl, hsame⟩

section

variable {l l' : SourceLine} {ts ts' : List Token}

theorem Echoes.findWord {source source' : List Char} (h : Echoes source source' ts ts') (word : String) (n : Nat) :
    Syntax.findWord ts word n = Syntax.findWord ts' word n := by
  have hvalues (us : List Token) : us.map Token.value = (us.map Token.unplaced).map Token.value := by
    simp [Token.value_unplaced]
  exact findWordFrom_congr (by rw [hvalues, (h.drop n).same, ← hvalues])

theorem Echoes.span {source source' : List Char} (h : Echoes source source' ts ts') {k : Nat}
    (hsolid : (Syntax.tokenAt ts k).isEof = false) : (Syntax.tokenAt ts k).start = (Syntax.tokenAt ts' k).start ∧
      (Syntax.tokenAt ts k).stop = (Syntax.tokenAt ts' k).stop := by
  have hsolid' := isEof_congr (h.value k) ▸ hsolid
  obtain ⟨hstart, hstop⟩ := Token.span_unplaced hsolid
  obtain ⟨hstart', hstop'⟩ := Token.span_unplaced hsolid'
  exact ⟨by rw [← hstart, h.tokenAt, hstart'], by rw [← hstop, h.tokenAt, hstop']⟩

theorem echo_inlineLine (hblock : l.block = none) (hblock' : l'.block = none) {text text' : List Char} (htext : text = text' ∨
      text = text' ++ [' '] ∧ ∃ line offset p ts, tokensAt line offset p text' = .ok ts) (offset offset' : Nat)
    (last last' : Bool) : Echo (inlineLine l text offset last) (inlineLine l' text' offset' last') where
  text := by
    rw [show (inlineLine l text offset last).code.toList = text from String.toList_ofList,
      show (inlineLine l' text' offset' last').code.toList = text' from String.toList_ofList]
    refine htext.imp id (And.imp id fun ⟨line, offset, p, ts, hts⟩ => ?_)
    obtain ⟨us, hus, -⟩ := lineTokens_inlineLine hts l' offset' last'
    exact ⟨us, hus⟩
  block := by simp [inlineLine, hblock]
  block' := by simp [inlineLine, hblock']

variable (h : Echo l l') (hts : Syntax.lineTokens l = .ok ts) (hts' : Syntax.lineTokens l' = .ok ts')

include h hts hts'

theorem Echo.behind {word : String} {n k : Nat} (hk : findWord ts word n = some k) (offset offset' : Nat) (last : Bool) :
    Echo (inlineLine l (l.code.toList.drop (tokenAt ts k).stop) offset last)
      (inlineLine l' (l'.code.toList.drop (tokenAt ts' k).stop) offset' last) := by
  rw [Syntax.lineTokens, tokenize_eq] at hts hts'
  have hechoes := echoes_of_trails h.trails hts hts'
  rw [hechoes.findWord] at hk
  obtain ⟨_, _, t, after, rfl, -, -, -, hat, hword⟩ := findWord_eq_some hk
  have hsolid := not_isEof_of_isOneOf hword
  rw [(hechoes.span (by rw [isEof_congr (hechoes.value k), hat, hsolid])).2]
  refine echo_inlineLine h.block h.block'
    ((h.trails.drop _).imp id fun hdrop => ⟨hdrop, l'.line, l'.offset, t.stop, after, ?_⟩) _ _ _ _
  rw [hat]
  exact (tokensAt_after hts' hsolid).2.2

theorem Echo.between {word word' : String} {n n' k k' : Nat} (hk : findWord ts word n = some k)
    (hk' : findWord ts word' n' = some k') : (l.code.toList.take (tokenAt ts k').start).drop (tokenAt ts k).stop =
      (l'.code.toList.take (tokenAt ts' k').start).drop (tokenAt ts' k).stop := by
  have hbounds := bounds_of_findWord hts hk'
  rw [Syntax.lineTokens, tokenize_eq] at hts hts'
  have hechoes := echoes_of_trails h.trails hts hts'
  have hfound {word : String} {n k : Nat} (hk : findWord ts word n = some k) :
      tokenAt ts k ∈ ts ∧ (tokenAt ts k).isEof = false := by
    obtain ⟨_, _, _, _, hsplit, -, -, -, hat, hword⟩ := findWord_eq_some hk
    rw [hat]
    exact ⟨by rw [hsplit]; simp, not_isEof_of_isOneOf hword⟩
  have hsource := congrArg (List.take (tokenAt ts k').start) (hechoes.source _ (hfound hk').1 (hfound hk').2)
  rw [List.take_take, List.take_take, Nat.min_eq_left hbounds.1.le] at hsource
  rw [hsource, (hechoes.span (hfound hk).2).2, (hechoes.span (hfound hk').2).1]

end

theorem Echo.branches {l l' : SourceLine} {condition condition' : Expr} {found found' : Branches} (h : Echo l l')
    (hfound : Syntax.branches l = .ok (condition, found)) (hfound' : Syntax.branches l' = .ok (condition', found')) :
    condition.unplaced = condition'.unplaced ∧ EchoBranches found found' := by
  obtain ⟨ts, thenAt, hts, hthen, hcondition, rfl⟩ := branches_ok hfound
  obtain ⟨ts', thenAt', hts', hthen', hcondition', rfl⟩ := branches_ok hfound'
  have hechoes := echoes_of_trails h.trails ((tokenize_eq _ _ _).symm.trans hts) ((tokenize_eq _ _ _).symm.trans hts')
  obtain rfl : thenAt = thenAt' := Option.some.inj (by rw [← hthen, ← hthen', hechoes.findWord])
  constructor
  · have hread := readExpression_alike ((hechoes.take thenAt).drop 1)
    exact hread.both _ _ hcondition hcondition'
  · have hafter := h.behind hts hts' hthen
    have hblank : (l.code.toList.drop (tokenAt ts thenAt).stop).all Text.isBlank =
        (l'.code.toList.drop (tokenAt ts' thenAt).stop).all Text.isBlank := by
      simpa only [inlineLine, String.toList_ofList] using (hafter 0 0 false).trails.all_blank
    unfold following
    dsimp only
    rw [hblank, ← hechoes.findWord]
    split
    · exact .block
    · cases helse : findWord ts "ELSE" (thenAt + 1) with
      | none => exact .first (hafter _ _ true)
      | some elseAt =>
        exact .both (echo_inlineLine h.block h.block' (.inl (h.between hts hts' hthen helse)) _ _ _ _)
          (h.behind hts hts' helse _ _ true)


/-! ## Lines that start with IF -/

def wordAt (line offset p : Nat) (w : String) : Token := ⟨.word w, line, offset + p + 1, p, p + w.toList.length⟩

theorem tokensAt_keyword {w : String} (hw : w ∈ ["IF", "THEN", "ELSE"]) (line offset p : Nat) (more : List Char) :
    tokensAt line offset p (w.toList ++ ' ' :: more) =
      (tokensAt line offset (p + w.toList.length + 1) more).map (wordAt line offset p w :: ·) := by
  have htokens : tokensAt line offset p w.toList = .ok [wordAt line offset p w, endAt line offset (p + w.toList.length)] := by
    simp only [List.mem_cons, List.not_mem_nil, or_false] at hw
    rcases hw with rfl | rfl | rfl <;> rfl
  obtain ⟨body, hbody, -, hmore⟩ := tokensAt_append htokens
  obtain ⟨rfl, -⟩ := List.append_inj' (show [wordAt line offset p w] ++ [_] = _ from hbody) rfl
  exact hmore more

def conditional (c : String) (z : List Char) : List Char :=
  "IF".toList ++ ' ' :: (c.toList ++ ' ' :: ("THEN".toList ++ ' ' :: z))

def conditionalTokens (l : SourceLine) (c : String) (body tz : List Token) : List Token :=
  (wordAt l.line l.offset 0 "IF" :: body) ++ wordAt l.line l.offset (c.toList.length + 4) "THEN" :: tz

def Tests (l : SourceLine) (c : String) (condition : Expr) : Prop := ∃ body,
  tokensAt l.line l.offset 3 c.toList = .ok (body ++ [endAt l.line l.offset (3 + c.toList.length)]) ∧
    (∀ t ∈ body, t.isEof = false ∧ t.stop ≤ 3 + c.toList.length) ∧ readExpression l.code.toList body = .ok condition

/-- A condition is the same, whatever follows it. -/
theorem Tests.unplaced {l l' : SourceLine} {c : String} {z z' : List Char} {condition condition' : Expr}
    (h : Tests l c condition) (h' : Tests l' c condition') (hcode : l.code.toList = conditional c z)
    (hcode' : l'.code.toList = conditional c z') : condition.unplaced = condition'.unplaced := by
  obtain ⟨body, hbody, hsolid, hread⟩ := h
  obtain ⟨body', hbody', -, hread'⟩ := h'
  have hechoes : Echoes l.code.toList l'.code.toList body body' := by
    refine ⟨?_, ⟨l.offset, fun t ht => tokensAt_col hbody t (List.mem_append_left _ ht)⟩,
      ⟨l'.offset, fun t ht => tokensAt_col hbody' t (List.mem_append_left _ ht)⟩, fun t ht _ => ?_⟩
    · have halike := tokensAt_unplaced l.line l.offset l'.line l'.offset 3 c.toList
      rw [hbody, hbody'] at halike
      cases halike with
      | ok hsame =>
        rw [List.map_append, List.map_append] at hsame
        exact (List.append_inj' hsame rfl).1
    · have hsplit (z : List Char) : conditional c z = ("IF ".toList ++ c.toList) ++ ' ' :: ("THEN".toList ++ ' ' :: z) := by
        rw [conditional, List.append_assoc]
        rfl
      have hstop : t.stop ≤ ("IF ".toList ++ c.toList).length := (hsolid t ht).2.trans (by simp; omega)
      rw [hcode, hcode', hsplit, hsplit, List.take_append_of_le_length hstop, List.take_append_of_le_length hstop]
  exact (readExpression_alike hechoes).both _ _ hread hread'

section

variable {l : SourceLine} {c : String} {z : List Char} {condition : Expr} {found : Branches}

theorem branches_conditional (hc : lacks "THEN" c = true)
    (hcode : l.code.toList = conditional c z) (h : branches l = .ok (condition, found)) : Tests l c condition ∧
      ∃ body tz, tokensAt l.line l.offset (c.toList.length + 9) z = .ok tz ∧
        found = following l (conditionalTokens l c body tz) (1 + body.length) := by
  obtain ⟨tokens, thenAt, htokens, hthen, hcondition, rfl⟩ := branches_ok h
  obtain ⟨body, hbody, hsolid, hmore, hfind, hdeep⟩ := tokens_of_lacks hc l.line l.offset 3
  rw [lineTokens, tokenize_eq, hcode, conditional, tokensAt_keyword (by simp), show 0 + "IF".toList.length + 1 = 3 from rfl,
    hmore, tokensAt_keyword (by simp), show 3 + c.toList.length + 1 = c.toList.length + 4 by omega,
    show c.toList.length + 4 + "THEN".toList.length + 1 = c.toList.length + 9 from rfl] at htokens
  cases htz : tokensAt l.line l.offset (c.toList.length + 9) z with
  | error e =>
    rw [htz] at htokens
    cases htokens
  | ok tz =>
    rw [htz] at htokens
    obtain rfl : conditionalTokens l c body tz = tokens := Except.ok.inj htokens
    have hthere : findWord (conditionalTokens l c body tz) "THEN" 1 = some (1 + body.length) := by
      rw [findWord, conditionalTokens, List.cons_append, List.drop_succ_cons, List.drop_zero, findWordFrom_append, hfind 1,
        Option.none_or, hdeep]
      rfl
    obtain rfl : 1 + body.length = thenAt := Option.some.inj (hthere.symm.trans hthen)
    rw [conditionalTokens, List.take_left' (by rw [List.length_cons, Nat.add_comm])] at hcondition
    exact ⟨⟨body, hbody, hsolid, hcondition⟩, body, tz, rfl, rfl⟩

theorem following_conditional (hcode : l.code.toList = conditional c z) (body tz : List Token)
    (hblank : z.all Text.isBlank = false) : following l (conditionalTokens l c body tz) (1 + body.length) =
      match findWordFrom ["ELSE"] (1 + body.length + 1) 0 tz with
      | some elseAt =>
        let other := tokenAt (conditionalTokens l c body tz) elseAt
        .inline (inlineLine l ((l.code.toList.take other.start).drop (c.toList.length + 8)) (l.offset + (c.toList.length + 8)) false)
          (some (inlineLine l (l.code.toList.drop other.stop) (l.offset + other.stop) true))
      | none => .inline (inlineLine l (' ' :: z) (l.offset + (c.toList.length + 8)) true) none := by
  have hlength : (wordAt l.line l.offset 0 "IF" :: body).length = 1 + body.length := by rw [List.length_cons, Nat.add_comm]
  have hat : (tokenAt (conditionalTokens l c body tz) (1 + body.length)).stop = c.toList.length + 8 := by
    rw [conditionalTokens, ← hlength, tokenAt_append]
    rfl
  have hdrop : l.code.toList.drop (c.toList.length + 8) = ' ' :: z := by
    rw [hcode, conditional, ← List.cons_append, ← List.append_assoc, ← List.cons_append, ← List.append_assoc]
    exact List.drop_left' (by simp)
  have hword : findWord (conditionalTokens l c body tz) "ELSE" (1 + body.length + 1) =
      findWordFrom ["ELSE"] (1 + body.length + 1) 0 tz := by
    rw [findWord, conditionalTokens, List.append_cons, List.drop_left' (by rw [List.length_append, hlength]; rfl)]
  unfold following
  dsimp only
  rw [hat, hdrop, hword, if_neg (by simp [hblank])]

variable {s₁ : String} (hc : lacks "THEN" c = true) (hs₁ : lacks "ELSE" s₁ = true) (hblank : Text.allBlank s₁ = false)

include hc hs₁ hblank

theorem branches_then (hcode : l.code.toList = conditional c s₁.toList) (h : branches l = .ok (condition, found)) :
    Tests l c condition ∧
      found = .inline (inlineLine l (' ' :: s₁.toList) (l.offset + (c.toList.length + 8)) true) none := by
  obtain ⟨htests, body, tz, htz, rfl⟩ := branches_conditional hc hcode h
  obtain ⟨first, hfirst, -, -, hfind, hdeep⟩ := tokens_of_lacks hs₁ l.line l.offset (c.toList.length + 9)
  obtain rfl := Except.ok.inj (hfirst.symm.trans htz)
  refine ⟨htests, ?_⟩
  rw [following_conditional hcode body _ hblank, findWordFrom_append, hfind, hdeep]
  rfl

theorem branches_else {s₂ : List Char} (hcode : l.code.toList = conditional c (s₁.toList ++ ' ' :: ("ELSE".toList ++ ' ' :: s₂)))
    (h : branches l = .ok (condition, found)) : Tests l c condition ∧ ∃ offset,
      found = .inline (inlineLine l (' ' :: s₁.toList ++ [' ']) (l.offset + (c.toList.length + 8)) false)
        (some (inlineLine l (' ' :: s₂) offset true)) := by
  obtain ⟨htests, body, tz, htz, rfl⟩ := branches_conditional hc hcode h
  obtain ⟨first, -, -, hmore, hfind, hdeep⟩ := tokens_of_lacks hs₁ l.line l.offset (c.toList.length + 9)
  rw [hmore, tokensAt_keyword (by simp)] at htz
  have hblank' : (s₁.toList ++ ' ' :: ("ELSE".toList ++ ' ' :: s₂)).all Text.isBlank = false := by
    rw [List.all_append, show s₁.toList.all Text.isBlank = false from hblank]
    rfl
  cases hts : tokensAt l.line l.offset (c.toList.length + 9 + s₁.toList.length + 1 + "ELSE".toList.length + 1) s₂ with
  | error e =>
    rw [hts] at htz
    cases htz
  | ok ts =>
    rw [hts] at htz
    obtain rfl : first ++ wordAt l.line l.offset (c.toList.length + 9 + s₁.toList.length + 1) "ELSE" :: ts = tz :=
      Except.ok.inj htz
    have hat : tokenAt (conditionalTokens l c body (first ++ wordAt l.line l.offset
        (c.toList.length + 9 + s₁.toList.length + 1) "ELSE" :: ts)) (1 + body.length + 1 + first.length) =
        wordAt l.line l.offset (c.toList.length + 9 + s₁.toList.length + 1) "ELSE" := by
      rw [conditionalTokens, ← List.cons_append, ← List.append_assoc, show 1 + body.length + 1 + first.length =
        (wordAt l.line l.offset 0 "IF" :: body ++ wordAt l.line l.offset (c.toList.length + 4) "THEN" :: first).length by
          simp; omega]
      exact tokenAt_append _ _ _
    have hfound : findWordFrom ["ELSE"] (1 + body.length + 1) 0 (first ++ wordAt l.line l.offset
        (c.toList.length + 9 + s₁.toList.length + 1) "ELSE" :: ts) = some (1 + body.length + 1 + first.length) := by
      rw [findWordFrom_append, hfind, hdeep]
      rfl
    have hcut : l.code.toList = ("IF".toList ++ ' ' :: (c.toList ++ ' ' :: "THEN".toList)) ++
        ((' ' :: s₁.toList ++ [' ']) ++ ("ELSE".toList ++ ' ' :: s₂)) := by
      rw [hcode, conditional]
      simp only [List.append_assoc, List.cons_append, List.nil_append]
    have hfirst : (l.code.toList.take (c.toList.length + 9 + s₁.toList.length + 1)).drop (c.toList.length + 8) =
        ' ' :: s₁.toList ++ [' '] := by
      rw [hcut, ← List.append_assoc, List.take_left' (by simp; omega)]
      exact List.drop_left' (by simp)
    have hsecond : l.code.toList.drop (c.toList.length + 9 + s₁.toList.length + 1 + 4) = ' ' :: s₂ := by
      rw [hcut, ← List.append_assoc, ← List.append_assoc]
      exact List.drop_left' (by simp; omega)
    refine ⟨htests, l.offset + (c.toList.length + 9 + s₁.toList.length + 1 + 4), ?_⟩
    rw [following_conditional hcode body _ hblank', hfound]
    dsimp only
    rw [hat, ← hfirst, ← hsecond]
    rfl

end

end Conductor.Syntax
