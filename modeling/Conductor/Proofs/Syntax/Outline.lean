import Conductor.Proofs.Memory.Traversal
import Conductor.Proofs.Syntax.Lexing
import Conductor.Syntax.Program

/-!
# The outline of a program

What a line is decides how much of the lines after it is read with it. Apart from the
blocks, a line is read on its own; so the four readers of blocks, statements, conditions and
alternatives are told here by the form of a line, and what they do with the lines after it.

What is left of the lines is always an end of them, and the depth with which a program is
read is enough for it.
-/

set_option autoImplicit false

namespace Conductor.Syntax

theorem bind_eq_error {ε α β : Type} {x : Except ε α} {k : α → Except ε β} {e : ε} (h : (x >>= k) = .error e) :
    x = .error e ∨ ∃ a, x = .ok a ∧ k a = .error e := by
  cases x with
  | error e' =>
    cases h
    exact .inl rfl
  | ok a => exact .inr ⟨a, rfl, h⟩

/-! ## Heads of loops -/

def rangeStop (tokens : List Token) : Nat :=
  min ((findWord tokens "TO" 2).getD (tokens.length - 1))
    (min ((findWord tokens "BY" 2).getD (tokens.length - 1)) (tokens.length - 1))

/-- Where the value behind the word at a place ends: at the other word, if that comes later, or with the line. -/
def boundStop (tokens : List Token) (other : String) (i : Nat) : Nat :=
  match findWord tokens other 2 with
  | some j => if j > i then j else tokens.length - 1
  | none => tokens.length - 1

def readBound (source : List Char) (tokens : List Token) (word other : String) : Except Problem (Option Expr) :=
  match findWord tokens word 2 with
  | some i => do return some (← readExpression source ((tokens.take (boundStop tokens other i)).drop (i + 1)))
  | none => .ok none

def readRange (source : List Char) (tokens : List Token) (var : Ref) : Except Problem LoopHead := do
  let start ← readExpression source ((tokens.take (rangeStop tokens)).drop 2)
  let limit ← readBound source tokens "TO" "BY"
  let step ← readBound source tokens "BY" "TO"
  return .range var start limit step

theorem readLoopHead_eq (source : List Char) (tokens : List Token) :
    readLoopHead source tokens =
      let head := tokenAt tokens 0
      let second := tokenAt tokens 1
      let readFrom (i : Nat) := readExpression source ((tokens.take tokens.length).drop i)
      if head.isEof then .ok .block
      else if head.isOneOf ["FOREVER"] && second.isEof then .ok .forever
      else if head.isOneOf ["WHILE"] then do return .while (← readFrom 1)
      else if head.isOneOf ["UNTIL"] then do return .until (← readFrom 1)
      else match head.word? with
        | some var =>
          if second.isOp "=" then readRange source tokens (.ofText var ⟨head.line, head.col⟩)
          else if second.isOneOf ["OVER"] then do return .over (.ofText var ⟨head.line, head.col⟩) (← readFrom 2)
          else do return .count (← readFrom 0)
        | none => do return .count (← readFrom 0) := by
  unfold readLoopHead readRange readBound rangeStop boundStop
  dsimp only
  cases findWord tokens "TO" 2 <;> cases findWord tokens "BY" 2 <;> simp only [bind_assoc, pure_bind, ok_bind] <;> rfl
/-! ## Forms -/

inductive Form
  | simple (read : Except Problem Statement)
  | cond
  | loop (head : Except Problem LoopHead)

def form (top : Bool) (l : SourceLine) : Form :=
  match l.block, l.word == "IF" with
  | some literal, false => .simple (readBlockLine l literal)
  | _, _ =>
    match label? l.code with
    | some name =>
      .simple (if top then .ok (.label (Text.upper name) (place l))
        else .error (parseFault (.nestedLabel name) l.line (l.offset + 1)))
    | none =>
      match assignment? l.code with
      | some (target, start, stop) => .simple (readAssignment l target start stop)
      | none =>
        if l.word == "IF" then .cond
        else if l.word == "DO" then
          .loop (do
            let tokens ← lineTokens l
            readLoopHead l.code.toList (tokens.drop 1))
        else .simple (readSimple l l.word)

/-- What follows a condition: a block, or statements on the same line. -/
inductive Branches
  | block
  | inline (first : SourceLine) (second : Option SourceLine)

def branches (l : SourceLine) : Except Problem (Expr × Branches) := do
  let tokens ← lineTokens l
  let source := l.code.toList
  match findWord tokens "THEN" 1 with
  | none => throw (parseFault .ifWithoutThen l.line (l.offset + 1))
  | some thenAt =>
    let condition ← readExpression source ((tokens.take thenAt).drop 1)
    let thenToken := tokenAt tokens thenAt
    let after := source.drop thenToken.stop
    if after.all Text.isBlank then return (condition, .block)
    else match findWord tokens "ELSE" (thenAt + 1) with
      | some elseAt =>
        let elseToken := tokenAt tokens elseAt
        let thenText := (source.take elseToken.start).drop thenToken.stop
        return (condition, .inline (inlineLine l thenText (l.offset + thenToken.stop) false)
          (some (inlineLine l (source.drop elseToken.stop) (l.offset + elseToken.stop) true)))
      | none => return (condition, .inline (inlineLine l after (l.offset + thenToken.stop) true) none)

def alternative? (term : SourceLine) : Option SourceLine :=
  if Text.allBlank term.afterWord.1 then none
  else some (inlineLine term term.afterWord.1.toList term.afterWord.2 true)

def endsBlock (terminators : List String) (l : SourceLine) : Bool := isWordLine l terminators && l.block.isNone

/-! ## The readers by form -/

theorem readBlock_nil (fuel : Nat) (terminators : List String) (top : Bool) (opener : Option SourceLine) :
    readBlock (fuel + 1) terminators top opener [] =
      if terminators.isEmpty then .ok ([], none, [])
      else .error (.condition { cause := .missingTerminator terminators (opener.map SourceLine.line),
                                line := opener.map SourceLine.line, col := some 1 }) := rfl

theorem readBlock_cons (fuel : Nat) (terminators : List String) (top : Bool) (opener : Option SourceLine)
    (l : SourceLine) (rest : Lines) :
    readBlock (fuel + 1) terminators top opener (l :: rest) =
      if endsBlock terminators l then .ok ([], some l, rest)
      else if isWordLine l ["ELSE", "ENDIF", "END"] then
        .error (parseFault (.unexpectedWord l.word) l.line (l.offset + 1))
      else (do
        let (s, rest) ← readStatement fuel top l rest
        let (more, stop, rest) ← readBlock fuel terminators top opener rest
        return (s :: more, stop, rest)) := rfl

theorem readStatement_succ (fuel : Nat) (top : Bool) (l : SourceLine) (rest : Lines) :
    readStatement (fuel + 1) top l rest =
      match form top l with
      | .simple read => do return (← read, rest)
      | .cond => readIf fuel l rest
      | .loop head => do
        let head ← head
        let (body, _, rest) ← readBlock fuel ["END"] false (some l) rest
        return (.loop head body (place l), rest) := by
  rw [readStatement]
  unfold form
  generalize l.block = block
  generalize (l.word == "IF") = isIf
  generalize (l.word == "DO") = isDo
  generalize label? l.code = label
  generalize assignment? l.code = assignment
  rcases block with - | literal <;> cases isIf <;> rcases label with - | name <;>
    rcases assignment with - | ⟨target, start, stop⟩ <;> cases isDo <;> cases top <;>
    first | rfl | (cases lineTokens l <;> rfl)

theorem readIf_succ (fuel : Nat) (l : SourceLine) (rest : Lines) :
    readIf (fuel + 1) l rest = (do
      let (condition, form) ← branches l
      match form with
      | .block =>
        let (first, stop, rest) ← readBlock fuel ["ELSE", "ENDIF"] false (some l) rest
        match stop with
        | some term =>
          if term.word == "ELSE" then
            let (second, rest) ← readElse fuel term true rest
            return (.cond condition first second (place l), rest)
          else return (.cond condition first [] (place l), rest)
        | none => return (.cond condition first [] (place l), rest)
      | .inline first (some second) =>
        let (first, rest) ← readStatement fuel false first rest
        let (second, rest) ← readStatement fuel false second rest
        return (.cond condition [first] [second] (place l), rest)
      | .inline first none =>
        let (first, rest) ← readStatement fuel false first rest
        match rest with
        | term :: rest' =>
          if term.word == "ELSE" then
            let (second, rest) ← readElse fuel term false rest'
            return (.cond condition [first] second (place l), rest)
          else return (.cond condition [first] [] (place l), rest)
        | [] => return (.cond condition [first] [] (place l), rest)) := by
  rw [readIf]
  unfold branches
  cases lineTokens l with
  | error e => rfl
  | ok tokens =>
    simp only [ok_bind]
    cases findWord tokens "THEN" 1 with
    | none => rfl
    | some thenAt =>
      dsimp only
      cases readExpression l.code.toList ((tokens.take thenAt).drop 1) with
      | error e => rfl
      | ok condition =>
        by_cases hblank : (l.code.toList.drop (tokenAt tokens thenAt).stop).all Text.isBlank = true
        · simp only [hblank, if_true]
          rfl
        · simp only [hblank, if_false, Bool.false_eq_true]
          cases findWord tokens "ELSE" (thenAt + 1) <;> rfl

theorem readElse_succ (fuel : Nat) (term : SourceLine) (needEnd : Bool) (lines : Lines) :
    readElse (fuel + 1) term needEnd lines =
      match alternative? term with
      | none => do
        let (body, _, lines) ← readBlock fuel ["ENDIF"] false (some term) lines
        return (body, lines)
      | some inner => do
        let (s, lines) ← readStatement fuel false inner lines
        if inner.word == "IF" || !needEnd then return ([s], lines)
        else
          let (body, _, lines) ← readBlock fuel ["ENDIF"] false (some term) lines
          return (s :: body, lines) := by
  rw [readElse]
  unfold alternative?
  by_cases hblank : Text.allBlank term.afterWord.1 = true
  · simp only [hblank, if_true]
  · simp only [hblank, if_false, Bool.false_eq_true]

/-! ## What has been read

Where a reader has a result, these relations say which of its ways it has gone, with everything that it has read.
-/

/-- A block is over at the end of the lines or with the line that ends it, or it has a statement and then the rest. -/
inductive ReadsBlock (fuel : Nat) (terminators : List String) (top : Bool) (opener : Option SourceLine) :
    Lines → List Statement → Option SourceLine → Lines → Prop
  | nothing (hnone : terminators.isEmpty = true) : ReadsBlock fuel terminators top opener [] [] none []
  | ended {l : SourceLine} {rest : Lines} (hends : endsBlock terminators l = true) :
    ReadsBlock fuel terminators top opener (l :: rest) [] (some l) rest
  | more {l : SourceLine} {lines mid rest : Lines} {s : Statement} {body : List Statement} {stop : Option SourceLine}
    (hends : endsBlock terminators l = false) (hword : isWordLine l ["ELSE", "ENDIF", "END"] = false)
    (hs : readStatement fuel top l lines = .ok (s, mid))
    (hmore : readBlock fuel terminators top opener mid = .ok (body, stop, rest)) :
    ReadsBlock fuel terminators top opener (l :: lines) (s :: body) stop rest

/-- A statement is read from its line, which is all for a simple one. -/
inductive ReadsStatement (fuel : Nat) (top : Bool) (l : SourceLine) : Lines → Statement → Lines → Prop
  | simple {lines : Lines} {s : Statement} (hform : form top l = .simple (.ok s)) :
    ReadsStatement fuel top l lines s lines
  | cond {lines rest : Lines} {s : Statement} (hform : form top l = .cond) (hread : readIf fuel l lines = .ok (s, rest)) :
    ReadsStatement fuel top l lines s rest
  | loop {lines rest : Lines} {head : LoopHead} {body : List Statement} {stop : Option SourceLine}
    (hform : form top l = .loop (.ok head))
    (hbody : readBlock fuel ["END"] false (some l) lines = .ok (body, stop, rest)) :
    ReadsStatement fuel top l lines (.loop head body (place l)) rest

/-- A condition has a block behind it, or statements on its line; an ELSE may be on the line that comes then. -/
inductive ReadsIf (fuel : Nat) (l : SourceLine) (lines : Lines) : Statement → Lines → Prop
  | block {condition : Expr} {body : List Statement} {stop : Option SourceLine} {rest : Lines}
    (hfound : branches l = .ok (condition, .block))
    (hbody : readBlock fuel ["ELSE", "ENDIF"] false (some l) lines = .ok (body, stop, rest))
    (hother : ∀ term ∈ stop, (term.word == "ELSE") = false) :
    ReadsIf fuel l lines (.cond condition body [] (place l)) rest
  | blockElse {condition : Expr} {body second : List Statement} {term : SourceLine} {mid rest : Lines}
    (hfound : branches l = .ok (condition, .block))
    (hbody : readBlock fuel ["ELSE", "ENDIF"] false (some l) lines = .ok (body, some term, mid))
    (hword : term.word = "ELSE") (hsecond : readElse fuel term true mid = .ok (second, rest)) :
    ReadsIf fuel l lines (.cond condition body second (place l)) rest
  | inline {condition : Expr} {first : SourceLine} {s : Statement} {rest : Lines}
    (hfound : branches l = .ok (condition, .inline first none))
    (hs : readStatement fuel false first lines = .ok (s, rest))
    (hother : ∀ term ∈ rest.head?, (term.word == "ELSE") = false) :
    ReadsIf fuel l lines (.cond condition [s] [] (place l)) rest
  | inlineElse {condition : Expr} {first term : SourceLine} {s : Statement} {second : List Statement} {mid rest : Lines}
    (hfound : branches l = .ok (condition, .inline first none))
    (hs : readStatement fuel false first lines = .ok (s, term :: mid)) (hword : term.word = "ELSE")
    (hsecond : readElse fuel term false mid = .ok (second, rest)) :
    ReadsIf fuel l lines (.cond condition [s] second (place l)) rest
  | both {condition : Expr} {first second : SourceLine} {s t : Statement} {mid rest : Lines}
    (hfound : branches l = .ok (condition, .inline first (some second)))
    (hs : readStatement fuel false first lines = .ok (s, mid))
    (ht : readStatement fuel false second mid = .ok (t, rest)) :
    ReadsIf fuel l lines (.cond condition [s] [t] (place l)) rest

inductive ReadsElse (fuel : Nat) (term : SourceLine) (needEnd : Bool) (lines : Lines) : List Statement → Lines → Prop
  | block {body : List Statement} {stop : Option SourceLine} {rest : Lines} (hnone : alternative? term = none)
    (hbody : readBlock fuel ["ENDIF"] false (some term) lines = .ok (body, stop, rest)) :
    ReadsElse fuel term needEnd lines body rest
  | inline {inner : SourceLine} {s : Statement} {rest : Lines} (hinner : alternative? term = some inner)
    (hs : readStatement fuel false inner lines = .ok (s, rest)) (hends : (inner.word == "IF" || !needEnd) = true) :
    ReadsElse fuel term needEnd lines [s] rest
  | inlineBlock {inner : SourceLine} {s : Statement} {body : List Statement} {stop : Option SourceLine} {mid rest : Lines}
    (hinner : alternative? term = some inner) (hs : readStatement fuel false inner lines = .ok (s, mid))
    (hends : (inner.word == "IF" || !needEnd) = false)
    (hbody : readBlock fuel ["ENDIF"] false (some term) mid = .ok (body, stop, rest)) :
    ReadsElse fuel term needEnd lines (s :: body) rest

section

variable {fuel : Nat} {lines rest : Lines} {l : SourceLine} {s : Statement} {body : List Statement}

theorem readsBlock {terminators : List String} {top : Bool} {opener stop : Option SourceLine}
    (h : readBlock (fuel + 1) terminators top opener lines = .ok (body, stop, rest)) :
    ReadsBlock fuel terminators top opener lines body stop rest := by
  cases lines with
  | nil =>
    rw [readBlock_nil] at h
    split at h
    · next hnone =>
      cases h
      exact .nothing hnone
    · cases h
  | cons l lines =>
    rw [readBlock_cons] at h
    split at h
    · next hends =>
      cases h
      exact .ended hends
    next hends =>
    split at h
    · cases h
    · next hword =>
      obtain ⟨⟨s, mid⟩, hs, h⟩ := bind_eq_ok_iff.mp h
      obtain ⟨⟨more, stop', rest'⟩, hmore, h⟩ := bind_eq_ok_iff.mp h
      cases h
      exact .more ((Bool.not_eq_true _).mp hends) ((Bool.not_eq_true _).mp hword) hs hmore

theorem readsStatement {top : Bool} (h : readStatement (fuel + 1) top l lines = .ok (s, rest)) :
    ReadsStatement fuel top l lines s rest := by
  rw [readStatement_succ] at h
  split at h
  · next hform =>
    obtain ⟨s', rfl, h⟩ := bind_eq_ok_iff.mp h
    cases h
    exact .simple hform
  · next hform => exact .cond hform h
  · next hform =>
    obtain ⟨head, hhead, h⟩ := bind_eq_ok_iff.mp h
    obtain ⟨⟨body, stop, rest'⟩, hbody, h⟩ := bind_eq_ok_iff.mp h
    cases h
    exact .loop (hhead ▸ hform) hbody

theorem readsIf (h : readIf (fuel + 1) l lines = .ok (s, rest)) : ReadsIf fuel l lines s rest := by
  rw [readIf_succ] at h
  obtain ⟨⟨condition, found⟩, hfound, h⟩ := bind_eq_ok_iff.mp h
  rcases found with - | ⟨first, - | second⟩
  · obtain ⟨⟨body, stop, mid⟩, hbody, h⟩ := bind_eq_ok_iff.mp h
    dsimp only at h
    split at h
    · split at h
      · next hword =>
        obtain ⟨⟨second, rest'⟩, hsecond, h⟩ := bind_eq_ok_iff.mp h
        cases h
        exact .blockElse hfound hbody (eq_of_beq hword) hsecond
      · next hword =>
        cases h
        refine .block hfound hbody fun term hterm => ?_
        obtain rfl := Option.some.inj hterm
        exact (Bool.not_eq_true _).mp hword
    · cases h
      exact .block hfound hbody nofun
  · obtain ⟨⟨s', mid⟩, hs, h⟩ := bind_eq_ok_iff.mp h
    dsimp only at h
    split at h
    · split at h
      · next hword =>
        obtain ⟨⟨second, rest'⟩, hsecond, h⟩ := bind_eq_ok_iff.mp h
        cases h
        exact .inlineElse hfound hs (eq_of_beq hword) hsecond
      · next hword =>
        cases h
        refine .inline hfound hs fun term hterm => ?_
        obtain rfl := Option.some.inj hterm
        exact (Bool.not_eq_true _).mp hword
    · cases h
      exact .inline hfound hs nofun
  · obtain ⟨⟨s', mid⟩, hs, h⟩ := bind_eq_ok_iff.mp h
    obtain ⟨⟨t, rest'⟩, ht, h⟩ := bind_eq_ok_iff.mp h
    cases h
    exact .both hfound hs ht

theorem readsElse {term : SourceLine} {needEnd : Bool} (h : readElse (fuel + 1) term needEnd lines = .ok (body, rest)) :
    ReadsElse fuel term needEnd lines body rest := by
  rw [readElse_succ] at h
  split at h
  · next hnone =>
    obtain ⟨⟨body', stop, rest'⟩, hbody, h⟩ := bind_eq_ok_iff.mp h
    cases h
    exact .block hnone hbody
  · next inner hinner =>
    obtain ⟨⟨s, mid⟩, hs, h⟩ := bind_eq_ok_iff.mp h
    dsimp only at h
    split at h
    · next hends =>
      cases h
      exact .inline hinner hs hends
    · next hends =>
      obtain ⟨⟨body', stop, rest'⟩, hbody, h⟩ := bind_eq_ok_iff.mp h
      cases h
      exact .inlineBlock hinner hs ((Bool.not_eq_true _).mp hends) hbody

end

/-! ## What is left of the lines -/

/-- What the readers leave at one depth: an end of the lines. -/
structure Leaves (fuel : Nat) : Prop where
  block : ∀ {terminators : List String} {top : Bool} {opener stop : Option SourceLine} {lines rest : Lines}
    {body : List Statement}, readBlock fuel terminators top opener lines = .ok (body, stop, rest) →
    stop.toList ++ rest <:+ lines
  statement : ∀ {top : Bool} {l : SourceLine} {lines rest : Lines} {s : Statement},
    readStatement fuel top l lines = .ok (s, rest) → rest <:+ lines
  cond : ∀ {l : SourceLine} {lines rest : Lines} {s : Statement}, readIf fuel l lines = .ok (s, rest) → rest <:+ lines
  alternative : ∀ {term : SourceLine} {needEnd : Bool} {lines rest : Lines} {body : List Statement},
    readElse fuel term needEnd lines = .ok (body, rest) → rest <:+ lines

theorem suffix_of_stop {stop : Option SourceLine} {rest lines : Lines} (h : stop.toList ++ rest <:+ lines) :
    rest <:+ lines := (List.suffix_append _ _).trans h

theorem leaves (fuel : Nat) : Leaves fuel := by
  induction fuel with
  | zero => exact ⟨nofun, nofun, nofun, nofun⟩
  | succ fuel ih =>
    constructor
    case block =>
      intro terminators top opener stop lines rest body h
      cases readsBlock h with
      | nothing => exact List.suffix_rfl
      | ended => exact List.suffix_rfl
      | more _ _ hs hmore => exact ((ih.block hmore).trans (ih.statement hs)).trans (List.suffix_cons _ _)
    case statement =>
      intro top l lines rest s h
      cases readsStatement h with
      | simple => exact List.suffix_rfl
      | cond _ hread => exact ih.cond hread
      | loop _ hbody => exact suffix_of_stop (ih.block hbody)
    case cond =>
      intro l lines rest s h
      cases readsIf h with
      | block _ hbody => exact suffix_of_stop (ih.block hbody)
      | blockElse _ hbody _ hsecond => exact (ih.alternative hsecond).trans (suffix_of_stop (ih.block hbody))
      | inline _ hs => exact ih.statement hs
      | inlineElse _ hs _ hsecond => exact ((ih.alternative hsecond).trans (List.suffix_cons _ _)).trans (ih.statement hs)
      | both _ hs ht => exact (ih.statement ht).trans (ih.statement hs)
    case alternative =>
      intro term needEnd lines rest body h
      cases readsElse h with
      | block _ hbody => exact suffix_of_stop (ih.block hbody)
      | inline _ hs => exact ih.statement hs
      | inlineBlock _ hs _ hbody => exact (suffix_of_stop (ih.block hbody)).trans (ih.statement hs)

/-! ## Lines within a line -/

theorem mem_of_findWordFrom {words : List String} {i j : Nat} {depth : Int} {ts : List Token}
    (h : findWordFrom words i depth ts = some j) : ∃ k t, j = i + k ∧ ts[k]? = some t ∧ t.isOneOf words = true := by
  fun_induction findWordFrom words i depth ts with
  | case1 => cases h
  | case2 i depth t rest _ ih | case3 i depth t rest _ _ ih | case5 i depth t rest _ _ _ ih =>
    obtain ⟨k, u, rfl, hu, hword⟩ := ih h
    exact ⟨k + 1, u, by omega, by simpa using hu, hword⟩
  | case4 i depth t rest _ _ hfound =>
    obtain rfl := Option.some.inj h
    exact ⟨0, t, rfl, rfl, ((Bool.and_eq_true _ _).mp hfound).2⟩

theorem Lexes.bounds {base p : Nat} {cs : List Char} {ts : List Token} (h : Lexes base p cs ts) :
    ∀ t ∈ ts, t.start < t.stop ∧ t.stop ≤ base + p + cs.length := by
  induction h with
  | done => exact fun _ ht => nomatch ht
  | @blank p c rest ts _ _ ih =>
    intro t ht
    have := ih t ht
    rw [List.length_cons]
    omega
  | @token p n cs u us hlexed hstart hstop _ ih =>
    have hextent := hlexed.extent
    rw [List.forall_mem_cons]
    constructor
    · omega
    · intro t ht
      have := ih t ht
      rw [List.length_drop] at this
      omega

theorem not_isEof_of_isOneOf {t : Token} {words : List String} (h : t.isOneOf words = true) : t.isEof = false := by
  unfold Token.isOneOf at h
  unfold Token.isEof
  split at h
  · next hword => rw [hword]
  · cases h

theorem bounds_of_findWord {text : String} {line offset : Nat} {tokens : List Token} {word : String} {start i : Nat}
    (htokens : tokenize text line offset = .ok tokens) (h : findWord tokens word start = some i) :
    (tokenAt tokens i).start < (tokenAt tokens i).stop ∧ (tokenAt tokens i).stop ≤ text.toList.length := by
  rw [tokenize] at htokens
  obtain ⟨body, eof, rfl, heof, hbody⟩ := lexes_of_tokensFrom (Nat.lt_succ_self _) htokens
  obtain ⟨k, t, rfl, ht, hword⟩ := mem_of_findWordFrom h
  rw [List.getElem?_drop] at ht
  have hmem : t ∈ body ++ [eof] := List.mem_of_getElem? ht
  have hat : tokenAt (body ++ [eof]) (start + k) = t := by rw [tokenAt, ht]
  rw [hat]
  rcases List.mem_append.mp hmem with hmem | hmem
  · have := hbody.bounds t hmem
    omega
  · have hnot := not_isEof_of_isOneOf hword
    rw [List.mem_singleton.mp hmem, heof] at hnot
    cases hnot

structure Within (inner outer : SourceLine) : Prop where
  infix_code : inner.code.toList <:+: outer.code.toList
  shorter : inner.code.length < outer.code.length

theorem branches_within {l : SourceLine} {condition : Expr} {first : SourceLine} {second : Option SourceLine}
    (h : branches l = .ok (condition, .inline first second)) : Within first l ∧ ∀ s ∈ second, Within s l := by
  unfold branches at h
  obtain ⟨tokens, htokens, h⟩ := bind_eq_ok_iff.mp h
  have hdrop (i start : Nat) (word : String) (hi : findWord tokens word start = some i) (m offset : Nat) (last : Bool) :
      Within (inlineLine l ((l.code.toList.take m).drop (tokenAt tokens i).stop) offset last) l := by
    have hbounds := bounds_of_findWord htokens hi
    constructor
    · simp only [inlineLine, String.toList_ofList]
      exact (List.drop_suffix _ _).isInfix.trans (List.take_prefix _ _).isInfix
    · simp only [inlineLine, ← String.length_toList, String.toList_ofList, List.length_drop, List.length_take]
      omega
  have hwhole : l.code.toList.take l.code.toList.length = l.code.toList := List.take_length
  dsimp only at h
  split at h
  · cases h
  · next thenAt hthen =>
    obtain ⟨condition', -, h⟩ := bind_eq_ok_iff.mp h
    split at h
    · cases h
    · split at h
      · next elseAt helse =>
        cases h
        refine ⟨hdrop _ _ _ hthen _ _ _, fun s hs => ?_⟩
        obtain rfl := Option.some.inj hs
        have := hdrop _ _ _ helse l.code.toList.length (l.offset + (tokenAt tokens elseAt).stop) true
        rwa [hwhole] at this
      · cases h
        have := hdrop _ _ _ hthen l.code.toList.length (l.offset + (tokenAt tokens thenAt).stop) true
        rw [hwhole] at this
        exact ⟨this, nofun⟩

theorem takeName_suffix {cs name after : List Char} (h : takeName cs = some (name, after)) : after <:+ cs := by
  unfold takeName at h
  split at h
  · next c rest hrest =>
    split at h
    · cases h
      have hcons : c :: rest <:+ cs := hrest ▸ List.dropWhile_suffix _
      exact ((List.dropWhile_suffix _).trans (List.suffix_cons c rest)).trans hcons
    · cases h
  · cases h

theorem afterWord_suffix (l : SourceLine) : l.afterWord.1.toList <:+ l.code.toList := by
  unfold SourceLine.afterWord
  split
  · next h =>
    rw [String.toList_ofList]
    exact takeName_suffix h
  · exact List.suffix_rfl

theorem alternative_suffix {term inner : SourceLine} (h : alternative? term = some inner) :
    inner.code.toList <:+ term.code.toList := by
  unfold alternative? at h
  split at h
  · cases h
  · cases h
    simpa [inlineLine] using afterWord_suffix term

/-! ## Depth -/

def weight : Lines → Nat
  | [] => 0
  | l :: lines => 3 * l.code.length + 10 + weight lines

@[simp] theorem weight_nil : weight [] = 0 := rfl

@[simp] theorem weight_cons (l : SourceLine) (lines : Lines) :
    weight (l :: lines) = 3 * l.code.length + 10 + weight lines := rfl

theorem weight_le_of_suffix {rest lines : Lines} (h : rest <:+ lines) : weight rest ≤ weight lines := by
  obtain ⟨before, rfl⟩ := h
  induction before with
  | nil => exact le_refl _
  | cons l before ih => exact Nat.le_add_left_of_le ih

end Conductor.Syntax
