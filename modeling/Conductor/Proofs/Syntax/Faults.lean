import Conductor.Proofs.Syntax.LogicalLines
import Conductor.Proofs.Syntax.Outline

/-!
# What reading a program can fail with

Reading fails with a fault of the program, which says where it is, or over a numeral that is
not converted: one with a digit that is not decimal, or one that is whole and has more digits
than are converted. The second is a failure from below the language, and it is the only one:
the tokens that a fault shows can all be shown, and the depth is enough for every program.
-/

set_option autoImplicit false

namespace Conductor

def Cause.isFault : Cause → Bool
  | unterminatedString | badNumber _ | badCharacter _ | unterminatedBlock _ | endOfExpression => true
  | unexpectedToken _ | unexpectedWord _ | missingTerminator .. | nestedLabel _ | blockLiteralPlace => true
  | missingValue | letForm | requireForm | argForm _ | callForm | addressForm | addressRule _ => true
  | addressMode _ | signalForm | signalCondition _ | signalName | registerForm | interpolationForm => true
  | ifWithoutThen => true
  | _ => false

theorem Cause.kind_of_isFault {cause : Cause} (h : cause.isFault = true) : cause.kind = .parse := by
  cases cause <;> first | rfl | cases h

namespace Syntax

def OfParse (e : Problem) : Prop := ∃ c, e = .condition c ∧ c.cause.isFault = true

def Unconverted (text : List Char) (f : Failure) : Prop :=
  ∃ w, w <:+: text ∧ Numeral w ∧ numberOfNumeral w = .error f

def InText (text : List Char) (e : Problem) : Prop := OfParse e ∨ ∃ f, e = .failure f ∧ Unconverted text f

theorem InText.mono {inner text : List Char} (h : inner <:+: text) {e : Problem} (he : InText inner e) :
    InText text e := by
  rcases he with he | ⟨f, rfl, w, hw, hf⟩
  · exact .inl he
  · exact .inr ⟨f, rfl, w, hw.trans h, hf⟩

def Fails {α : Type} (E : Problem → Prop) (x : Except Problem α) : Prop := ∀ e, x = .error e → E e

namespace Fails

variable {α β : Type} {E : Problem → Prop}

theorem ok (a : α) : Fails E (.ok a) := fun _ h => nomatch h

theorem error {e : Problem} (h : E e) : Fails E (.error e : Except Problem α) := by
  intro e' he'
  cases he'
  exact h

theorem fault {cause : Cause} (h : cause.isFault = true) {line col : Nat} :
    Fails OfParse (.error (parseFault cause line col) : Except Problem α) := error ⟨_, rfl, h⟩

theorem mono {E' : Problem → Prop} {x : Except Problem α} (h : Fails E x) (hE : ∀ e, E e → E' e) : Fails E' x :=
  fun e he => hE e (h e he)

theorem bind {x : Except Problem α} {k : α → Except Problem β} (hx : Fails E x)
    (hk : ∀ a, x = .ok a → Fails E (k a)) : Fails E (x >>= k) := by
  intro e h
  rcases bind_eq_error h with he | ⟨a, ha, he⟩
  · exact hx e he
  · exact hk a ha e he

theorem inText {x : Except Problem α} (h : Fails OfParse x) (text : List Char) : Fails (InText text) x :=
  h.mono fun _ => .inl

end Fails

/-! ## Tokens -/

theorem lexeme_error {cs : List Char} {x : Cause ⊕ Failure} (h : lexeme cs = .error x) :
    (∃ cause, x = .inl cause ∧ cause.isFault = true) ∨ ∃ f, x = .inr f ∧ Unconverted cs f := by
  unfold lexeme at h
  split at h
  · cases h
  next c rest =>
  have hnumber : startsNumeral (c :: rest) = true →
      lexeme.number (c :: rest) (numeralExtent (c :: rest)) = .error x → ∃ f, x = .inr f ∧ Unconverted (c :: rest) f := by
    intro hstart hx
    obtain ⟨w, after, hcs, hw, hextent, -⟩ := numeralExtent_spec hstart
    rw [hextent, hcs, lexeme.number, List.take_left] at hx
    split at hx
    · cases hx
    · next f hf =>
      cases hx
      exact ⟨f, rfl, w, hcs ▸ (List.prefix_append w after).isInfix, hw, hf⟩
  split at h
  · split at h
    · cases h
    · cases h
      exact .inl ⟨_, rfl, rfl⟩
  split at h
  · next hstart =>
    dsimp only at h
    split at h
    · split at h
      · cases h
        exact .inl ⟨_, rfl, rfl⟩
      · exact .inr (hnumber hstart h)
    · exact .inr (hnumber hstart h)
  split at h
  · cases h
  split at h
  · cases h
  · cases h
    exact .inl ⟨_, rfl, rfl⟩

theorem fails_tokensFrom (line offset fuel p : Nat) (cs : List Char) :
    Fails (InText cs) (tokensFrom line offset fuel p cs) := by
  induction fuel generalizing p cs with
  | zero => exact .ok _
  | succ fuel ih =>
    intro e h
    cases cs with
    | nil => cases h
    | cons c rest =>
      rw [tokensFrom] at h
      split at h
      · exact (ih _ _ e h).mono (List.suffix_cons c rest).isInfix
      split at h
      · next cause hcause =>
        cases h
        rcases lexeme_error hcause with ⟨cause', hsame, hkind⟩ | ⟨f, hsame, -⟩
        · cases hsame
          exact .inl ⟨_, rfl, hkind⟩
        · cases hsame
      · next f hf =>
        cases h
        rcases lexeme_error hf with ⟨cause, hsame, -⟩ | ⟨f', hsame, hf'⟩
        · cases hsame
        · cases hsame
          exact .inr ⟨f, rfl, hf'⟩
      · split at h
        · next he =>
          cases h
          exact (ih _ _ e he).mono (List.drop_suffix _ _).isInfix
        · cases h

theorem fails_tokenize (text : String) (line offset : Nat) : Fails (InText text.toList) (tokenize text line offset) :=
  fails_tokensFrom _ _ _ _ _

def Told (t : Token) : Prop := ∃ shown, t.shown = .ok shown

theorem told_integer {n : Int} (h : n.natAbs < Nat.pow 10 digitLimit) : ∃ shown, integerText n = .ok shown := by
  unfold integerText
  split
  · exact ⟨_, rfl⟩
  split
  · next hlong => exact absurd h (Nat.not_lt.mpr hlong)
  · exact ⟨_, rfl⟩

theorem told_number {w : List Char} {k : Number} (hk : numberOfNumeral w = .ok k) {t : Token}
    (ht : t.value = .number k) : Told t := by
  unfold Told Token.shown
  rw [ht]
  cases k with
  | float x => exact ⟨_, rfl⟩
  | int n =>
    unfold numberOfNumeral at hk
    dsimp only at hk
    split at hk
    · split at hk <;> cases hk
    · obtain ⟨i, hi, hin⟩ := map_eq_ok_iff.mp hk
      cases hin
      exact told_integer (integerOfNumeral_lt hi)

theorem told_of_lexed {cs : List Char} {n : Nat} {t : Token} (h : Lexed cs t.value n) : Told t := by
  generalize hv : t.value = v at h
  cases h with
  | string | word | operator =>
    unfold Told Token.shown
    rw [hv]
    exact ⟨_, rfl⟩
  | number _ hk => exact told_number hk hv

theorem told_of_lexes {base p : Nat} {cs : List Char} {ts : List Token} (h : Lexes base p cs ts) : ∀ t ∈ ts, Told t := by
  induction h with
  | done => exact fun _ ht => nomatch ht
  | blank _ _ ih => exact ih
  | token hlexed _ _ _ ih => exact List.forall_mem_cons.mpr ⟨told_of_lexed hlexed, ih⟩

theorem told_of_isEof {t : Token} (h : t.isEof = true) : Told t := by
  unfold Token.isEof at h
  split at h
  · next hv => exact ⟨"None", by rw [Token.shown, hv]⟩
  · cases h

theorem told_of_tokenize {text : String} {line offset : Nat} {tokens : List Token}
    (h : tokenize text line offset = .ok tokens) : ∀ t ∈ tokens, Told t := by
  rw [tokenize] at h
  obtain ⟨body, eof, rfl, heof, hbody⟩ := lexes_of_tokensFrom (Nat.lt_succ_self _) h
  rw [List.forall_mem_append, List.forall_mem_singleton]
  exact ⟨told_of_lexes hbody, told_of_isEof heof⟩

theorem told_tokenAt {tokens : List Token} (h : ∀ t ∈ tokens, Told t) (i : Nat) : Told (tokenAt tokens i) := by
  unfold tokenAt
  split
  · next t ht => exact h t (List.mem_of_getElem? ht)
  · rw [List.getLastD_eq_getLast?]
    cases hlast : tokens.getLast? with
    | none => exact told_of_isEof rfl
    | some t => exact h t (List.mem_of_getLast? hlast)

theorem Fails.shown {α : Type} {t : Token} (ht : Told t) {cause : String → Cause} (hcause : ∀ s, (cause s).isFault = true)
    {line col : Nat} :
    Fails OfParse (shownOf t >>= fun s => throw (parseFault (cause s) line col) : Except Problem α) := by
  obtain ⟨shown, hshown⟩ := ht
  rw [shownOf, hshown]
  exact .fault (hcause shown)

theorem ofParse_furthestFault {text : List Char} {tokens : List Token} (h : ∀ t ∈ tokens, Told t) (first last : Token)
    (far : Nat) : OfParse (furthestFault text tokens first last far) := by
  unfold furthestFault
  dsimp only
  split
  · next t ht =>
    obtain ⟨shown, hshown⟩ := h t (List.mem_of_find?_eq_some ht)
    rw [hshown]
    exact ⟨_, rfl, rfl⟩
  · exact ⟨_, rfl, rfl⟩

section

variable {tokens : List Token} (htold : ∀ t ∈ tokens, Told t)

include htold

theorem fails_readTokens {α : Type} (rule : Grammar.Origin → Nat → Grammar.Rule α) (source : List Char) :
    Fails OfParse (readTokens rule source tokens) := by
  unfold readTokens
  dsimp only
  split
  · split
    · exact .ok _
    · exact .error (ofParse_furthestFault (fun t ht => htold t (List.mem_filter.mp ht).1) _ _ _)
  · split
    · exact .fault rfl
    · exact .fault rfl

theorem told_drop (n : Nat) : ∀ t ∈ tokens.drop n, Told t := fun t ht => htold t (List.mem_of_mem_drop ht)

theorem told_take (n : Nat) : ∀ t ∈ tokens.take n, Told t := fun t ht => htold t (List.mem_of_mem_take ht)

theorem fails_readBound (source : List Char) (word other : String) :
    Fails OfParse (readBound source tokens word other) := by
  unfold readBound
  split
  · exact (fails_readTokens (told_drop (told_take htold _) _) _ _).bind fun _ _ => .ok _
  · exact .ok _

theorem fails_readLoopHead (source : List Char) : Fails OfParse (readLoopHead source tokens) := by
  have hread (i j : Nat) : Fails OfParse (readExpression source ((tokens.take j).drop i)) :=
    fails_readTokens (told_drop (told_take htold j) i) _ _
  have hbound := fails_readBound htold source
  rw [readLoopHead_eq]
  dsimp only
  split
  · exact .ok _
  split
  · exact .ok _
  split
  · exact (hread _ _).bind fun _ _ => .ok _
  split
  · exact (hread _ _).bind fun _ _ => .ok _
  split
  · split
    · exact (hread _ _).bind fun _ _ => (hbound _ _).bind fun _ _ => (hbound _ _).bind fun _ _ => .ok _
    · split <;> exact (hread _ _).bind fun _ _ => .ok _
  · exact (hread _ _).bind fun _ _ => .ok _

end

/-! ## Lines -/

section

variable (l : SourceLine)

theorem fails_lineTokens : Fails (InText l.code.toList) (lineTokens l) := fails_tokenize _ _ _

theorem Fails.ofLine {α : Type} {k : List Token → Except Problem α}
    (hk : ∀ tokens, (∀ t ∈ tokens, Told t) → Fails OfParse (k tokens)) :
    Fails (InText l.code.toList) (lineTokens l >>= k) :=
  (fails_lineTokens l).bind fun tokens h => (hk tokens (told_of_tokenize h)).inText _

theorem Fails.ofPart {α : Type} {text : String} (htext : text.toList <:+: l.code.toList) (line offset : Nat)
    {k : List Token → Except Problem α} (hk : ∀ tokens, (∀ t ∈ tokens, Told t) → Fails OfParse (k tokens)) :
    Fails (InText l.code.toList) (tokenize text line offset >>= k) :=
  ((fails_tokenize text line offset).mono fun _ he => he.mono htext).bind fun tokens h =>
    (hk tokens (told_of_tokenize h)).inText _

theorem fails_readAssignment (target : String) (start stop : Nat) :
    Fails (InText l.code.toList) (readAssignment l target start stop) := by
  refine Fails.ofPart l (by simpa using (List.drop_suffix _ _).isInfix) _ _ fun tokens htold => ?_
  have hexpression := fails_readTokens htold Grammar.expression (l.code.toList.drop stop)
  have hcommand := fails_readTokens htold Grammar.command (l.code.toList.drop stop)
  split
  · exact .fault rfl
  dsimp only
  split
  · exact .ok _
  · next f hf => exact .error (hexpression _ hf)
  · next fault _ hfault =>
    split
    · exact .ok _
    · next f hf => exact .error (hcommand _ hf)
    · exact .error (hexpression _ hfault)

theorem fails_asCommand {tokens : List Token} (htold : ∀ t ∈ tokens, Told t) (asked : Bool) :
    Fails OfParse (if asked then
        match readCommand l.code.toList tokens with
        | .ok c => .ok (some c)
        | .error (.failure f) => .error (.failure f)
        | .error (.condition _) => .ok none
      else .ok none) := by
  split
  · split
    · exact .ok _
    · next f hf => exact .error (fails_readTokens htold _ _ _ hf)
    · exact .ok _
  · exact .ok _

theorem fails_readClause : Fails (InText l.code.toList) (readClause l) := by
  unfold readClause
  split
  · next f hf => exact .error (fails_lineTokens l _ hf)
  · exact .ok _
  · next tokens htokens =>
    have htold := told_of_tokenize htokens
    dsimp only
    split
    · next f hf => exact .error (.inl (fails_readTokens htold _ _ _ hf))
    · split
      · next e he => exact .error (.inl (fails_asCommand l htold _ e he))
      · exact .ok _

theorem fails_readBlockLine (literal : BlockLiteral) : Fails OfParse (readBlockLine l literal) := by
  unfold readBlockLine
  split
  · exact .ok _
  split
  · split
    · exact .ok _
    · exact .fault rfl
  · exact .fault rfl

theorem fails_readOptional : Fails (InText l.code.toList) (readOptional l) := by
  unfold readOptional
  refine Fails.ofPart l (afterWord_suffix l).isInfix _ _ fun tokens htold => ?_
  split
  · exact .ok _
  · exact (fails_readTokens htold _ _).bind fun _ _ => .ok _

theorem fails_readSay : Fails (InText l.code.toList) (readSay l) := by
  refine (fails_readOptional l).bind fun e _ => ?_
  split <;> exact .ok _

theorem fails_readRequire : Fails (InText l.code.toList) (readRequire l) := by
  refine (fails_readOptional l).bind fun e _ => ?_
  split
  · exact .ok _
  · exact Fails.inText (.fault rfl) _

theorem fails_traverse {α β : Type} {E : Problem → Prop} {f : α → Except Problem β} {as : List α}
    (h : ∀ a ∈ as, Fails E (f a)) : Fails E (traverse f as) := by
  induction as with
  | nil => exact .ok _
  | cons a as ih =>
    obtain ⟨ha, has⟩ := List.forall_mem_cons.mp h
    rw [traverse]
    split
    · next e he => exact .error (ha e he)
    · split
      · next e he => exact .error (ih has e he)
      · exact .ok _

theorem fails_readArg : Fails (InText l.code.toList) (readArg l) := by
  refine Fails.ofLine l fun tokens htold => .bind (fails_traverse fun t ht => ?_) fun names _ => .ok _
  split
  · exact .ok _
  · split
    · exact .ok _
    · exact .shown (htold t (List.mem_of_mem_drop ht)) fun _ => rfl

theorem fails_readCall : Fails (InText l.code.toList) (readCall l) := by
  refine Fails.ofLine l fun tokens htold => ?_
  split
  · exact .fault rfl
  · split
    · exact .ok _
    · exact (fails_readTokens (told_drop htold 2) _ _).bind fun _ _ => .ok _

theorem fails_readAddress : Fails (InText l.code.toList) (readAddress l) := by
  refine Fails.ofLine l fun tokens htold => ?_
  have hread (n : Nat) : Fails OfParse (readExpression l.code.toList (tokens.drop n)) :=
    fails_readTokens (told_drop htold n) _ _
  dsimp only
  split
  · exact .ok _
  split
  · exact .fault rfl
  split
  · exact .ok _
  split
  · split
    · split
      · exact .ok _
      split
      · exact .fault rfl
      · exact (hread 3).bind fun _ _ => .ok _
    · split
      · exact .fault rfl
      · exact (hread 2).bind fun _ _ => .ok _
  · exact (hread 2).bind fun _ _ => .ok _

theorem fails_readSignal : Fails (InText l.code.toList) (readSignal l) := by
  refine Fails.ofLine l fun tokens htold => ?_
  have hat := told_tokenAt htold
  dsimp only
  split
  · exact .fault rfl
  split
  · split
    · exact .shown (hat 2) fun _ => rfl
    · next trap _ =>
      have hend (on : Bool) (label : String) (t : Token) (ht : Told t) : Fails OfParse (if !t.isEof then
            shownOf t >>= fun shown => throw (parseFault (.unexpectedToken shown) t.line t.col)
          else if on then .ok (Statement.signal (.on trap label) (place l))
          else .ok (Statement.signal (.off trap) (place l))) := by
        split
        · exact .shown ht fun _ => rfl
        · split <;> exact .ok _
      split
      · split
        · exact .fault rfl
        · exact hend _ _ _ (hat 5)
      · exact hend _ _ _ (hat 3)
  · split
    · split
      · exact .ok _
      · exact .fault rfl
    · exact .fault rfl

theorem fails_readInterpolation : Fails (InText l.code.toList) (readInterpolation l) := by
  refine Fails.ofLine l fun tokens htold => ?_
  dsimp only
  split
  · split
    · split
      · exact .ok _
      · exact .fault rfl
    · exact .fault rfl
  split
  · exact .ok _
  split
  · exact .ok _
  · exact .fault rfl

theorem fails_readSimple (word : String) : Fails (InText l.code.toList) (readSimple l word) := by
  unfold readSimple
  split
  · exact Fails.inText (.fault rfl) _
  · exact .ok _
  · exact fails_readSay l
  · exact .ok _
  · exact .ok _
  · exact (fails_readOptional l).bind fun _ _ => .ok _
  · exact (fails_readOptional l).bind fun _ _ => .ok _
  · exact fails_readRequire l
  · exact fails_readArg l
  · exact fails_readCall l
  · exact fails_readAddress l
  · exact fails_readSignal l
  · exact fails_readInterpolation l
  · exact fails_readClause l

theorem fails_simple {top : Bool} {read : Except Problem Statement} (h : form top l = .simple read) :
    Fails (InText l.code.toList) read := by
  unfold form at h
  split at h
  · cases h
    exact (fails_readBlockLine l _).inText _
  split at h
  · cases h
    split
    · exact .ok _
    · exact Fails.inText (.fault rfl) _
  split at h
  · cases h
    exact fails_readAssignment l _ _ _
  split at h
  · cases h
  split at h
  · cases h
  · cases h
    exact fails_readSimple l _

theorem fails_loop {top : Bool} {head : Except Problem LoopHead} (h : form top l = .loop head) :
    Fails (InText l.code.toList) head := by
  unfold form at h
  split at h
  · cases h
  split at h
  · cases h
  split at h
  · cases h
  split at h
  · cases h
  split at h
  · cases h
    exact Fails.ofLine l fun tokens htold => fails_readLoopHead (told_drop htold 1) _
  · cases h

theorem fails_branches : Fails (InText l.code.toList) (branches l) := by
  refine Fails.ofLine l fun tokens htold => ?_
  dsimp only
  split
  · exact .fault rfl
  · refine (fails_readTokens (told_drop (told_take htold _) 1) _ _).bind fun condition _ => ?_
    split
    · exact .ok _
    · split <;> exact .ok _

end

/-! ## Blocks -/

def InLines (lines : Lines) (e : Problem) : Prop :=
  OfParse e ∨ ∃ f, e = .failure f ∧ ∃ l ∈ lines, Unconverted l.code.toList f

theorem InText.inLines {l : SourceLine} {lines : Lines} {e : Problem} (h : InText l.code.toList e) :
    InLines (l :: lines) e := by
  rcases h with h | ⟨f, rfl, hf⟩
  · exact .inl h
  · exact .inr ⟨f, rfl, l, List.mem_cons_self, hf⟩

theorem InLines.mono {rest lines : Lines} (h : rest ⊆ lines) {e : Problem} (he : InLines rest e) : InLines lines e := by
  rcases he with he | ⟨f, rfl, l, hl, hf⟩
  · exact .inl he
  · exact .inr ⟨f, rfl, l, h hl, hf⟩

theorem InLines.outer {inner outer : SourceLine} (h : inner.code.toList <:+: outer.code.toList) {lines : Lines}
    {e : Problem} (he : InLines (inner :: lines) e) : InLines (outer :: lines) e := by
  rcases he with he | ⟨f, rfl, l, hl, w, hw, hf⟩
  · exact .inl he
  · rcases List.mem_cons.mp hl with rfl | hl
    · exact .inr ⟨f, rfl, outer, List.mem_cons_self, w, hw.trans h, hf⟩
    · exact .inr ⟨f, rfl, l, List.mem_cons_of_mem _ hl, w, hw, hf⟩

structure Sound (fuel : Nat) : Prop where
  block : ∀ {terminators : List String} {top : Bool} {opener : Option SourceLine} {lines : Lines},
    weight lines < fuel → Fails (InLines lines) (readBlock fuel terminators top opener lines)
  statement : ∀ {top : Bool} {l : SourceLine} {lines : Lines}, 3 * l.code.length + 9 + weight lines ≤ fuel →
    Fails (InLines (l :: lines)) (readStatement fuel top l lines)
  cond : ∀ {l : SourceLine} {lines : Lines}, 3 * l.code.length + 8 + weight lines ≤ fuel →
    Fails (InLines (l :: lines)) (readIf fuel l lines)
  alternative : ∀ {term : SourceLine} {needEnd : Bool} {lines : Lines},
    3 * term.code.length + 10 + weight lines ≤ fuel → Fails (InLines (term :: lines)) (readElse fuel term needEnd lines)

theorem InLines.cons {lines : Lines} (l : SourceLine) {e : Problem} (he : InLines lines e) : InLines (l :: lines) e :=
  he.mono (List.subset_cons_self l lines)

theorem InLines.after {mid lines : Lines} (hmid : mid <:+ lines) (l : SourceLine) {e : Problem} (he : InLines mid e) :
    InLines (l :: lines) e := (he.mono hmid.subset).cons l

section

variable {fuel : Nat} (ih : Sound fuel)

include ih

theorem sound_block {terminators : List String} {top : Bool} {opener : Option SourceLine} {lines : Lines}
    (hfuel : weight lines < fuel + 1) : Fails (InLines lines) (readBlock (fuel + 1) terminators top opener lines) := by
  cases lines with
  | nil =>
    rw [readBlock_nil]
    split
    · exact .ok _
    · exact .error (.inl ⟨_, rfl, rfl⟩)
  | cons l lines =>
    rw [weight_cons] at hfuel
    rw [readBlock_cons]
    split
    · exact .ok _
    split
    · exact .error (.inl ⟨_, rfl, rfl⟩)
    · refine (ih.statement (by omega)).bind fun ⟨s, mid⟩ hs => ?_
      have hmid := (leaves fuel).statement hs
      have hweight := weight_le_of_suffix hmid
      exact ((ih.block (by omega)).mono fun _ => .after hmid l).bind fun _ _ => .ok _

theorem sound_statement {top : Bool} {l : SourceLine} {lines : Lines}
    (hfuel : 3 * l.code.length + 9 + weight lines ≤ fuel + 1) :
    Fails (InLines (l :: lines)) (readStatement (fuel + 1) top l lines) := by
  rw [readStatement_succ]
  split
  · next hform => exact ((fails_simple l hform).mono fun _ he => he.inLines).bind fun _ _ => .ok _
  · exact ih.cond (by omega)
  · next hform =>
    refine ((fails_loop l hform).mono fun _ he => he.inLines).bind fun _ _ => ?_
    exact ((ih.block (by omega)).mono fun _ => .cons l).bind fun _ _ => .ok _

theorem sound_cond {l : SourceLine} {lines : Lines} (hfuel : 3 * l.code.length + 8 + weight lines ≤ fuel + 1) :
    Fails (InLines (l :: lines)) (readIf (fuel + 1) l lines) := by
  rw [readIf_succ]
  refine ((fails_branches l).mono fun _ he => he.inLines).bind fun ⟨condition, found⟩ hfound => ?_
  rcases found with - | ⟨first, - | second⟩
  -- a block behind THEN, which an ELSE or an END has ended
  · refine ((ih.block (by omega)).mono fun _ => .cons l).bind fun ⟨body, stop, mid⟩ hbody => ?_
    have hmid := (leaves fuel).block hbody
    dsimp only
    split
    · next term =>
      have hweight := weight_le_of_suffix hmid
      rw [Option.toList_some, List.singleton_append, weight_cons] at hweight
      split
      · exact ((ih.alternative (by omega)).mono fun _ => .after hmid l).bind fun _ _ => .ok _
      · exact .ok _
    · exact .ok _
  -- a statement behind THEN; the next line may start with ELSE
  · obtain ⟨hfirst, -⟩ := branches_within hfound
    have hshorter := hfirst.shorter
    refine ((ih.statement (by omega)).mono fun _ he => he.outer hfirst.infix_code).bind fun ⟨s, mid⟩ hs => ?_
    have hmid := (leaves fuel).statement hs
    have hweight := weight_le_of_suffix hmid
    dsimp only
    split
    · next term rest =>
      rw [weight_cons] at hweight
      split
      · exact ((ih.alternative (by omega)).mono fun _ => .after hmid l).bind fun _ _ => .ok _
      · exact .ok _
    · exact .ok _
  -- THEN and ELSE on the line
  · obtain ⟨hfirst, hsecond⟩ := branches_within hfound
    have hshorter := hfirst.shorter
    have hshorter' := (hsecond second rfl).shorter
    refine ((ih.statement (by omega)).mono fun _ he => he.outer hfirst.infix_code).bind fun ⟨s, mid⟩ hs => ?_
    have hmid := (leaves fuel).statement hs
    have hweight := weight_le_of_suffix hmid
    refine ((ih.statement (by omega)).mono fun e he => ?_).bind fun _ _ => .ok _
    exact (he.outer (hsecond second rfl).infix_code).mono (List.cons_subset_cons l hmid.subset)

theorem sound_alternative {term : SourceLine} {needEnd : Bool} {lines : Lines}
    (hfuel : 3 * term.code.length + 10 + weight lines ≤ fuel + 1) :
    Fails (InLines (term :: lines)) (readElse (fuel + 1) term needEnd lines) := by
  rw [readElse_succ]
  split
  · exact ((ih.block (by omega)).mono fun _ => .cons term).bind fun _ _ => .ok _
  · next inner hinner =>
    have hsuffix := alternative_suffix hinner
    have hlength := hsuffix.length_le
    rw [String.length_toList, String.length_toList] at hlength
    refine ((ih.statement (by omega)).mono fun _ he => he.outer hsuffix.isInfix).bind fun ⟨s, mid⟩ hs => ?_
    have hmid := (leaves fuel).statement hs
    have hweight := weight_le_of_suffix hmid
    dsimp only
    split
    · exact .ok _
    · exact ((ih.block (by omega)).mono fun _ => .after hmid term).bind fun _ _ => .ok _

end

theorem sound (fuel : Nat) : Sound fuel := by
  induction fuel with
  | zero =>
    refine ⟨fun h => ?_, fun h => ?_, fun h => ?_, fun h => ?_⟩ <;> omega
  | succ fuel ih => exact ⟨sound_block ih, sound_statement ih, sound_cond ih, sound_alternative ih⟩

/-! ## Programs -/

theorem foldl_weight (lines : Lines) (n : Nat) :
    lines.foldl (fun n l => n + 3 * l.code.length + 10) n = n + weight lines := by
  induction lines generalizing n with
  | nil => rfl
  | cons l lines ih =>
    rw [List.foldl_cons, ih, weight_cons]
    omega

/-- A program is the block of its logical lines. -/
theorem parse_eq (source : String) :
    parse source = match sourceLines source with
      | .error c => .error (.condition c)
      | .ok lines => (readBlock (10 + weight lines) [] true none lines).map (·.1) := by
  unfold parse
  cases sourceLines source with
  | error c => rfl
  | ok lines =>
    show (readBlock (lines.foldl (fun n l => n + 3 * l.code.length + 10) 10) [] true none lines >>= _) = _
    rw [foldl_weight]
    dsimp only
    cases readBlock (10 + weight lines) [] true none lines <;> rfl

theorem fails_parse {source : String} {lines : Lines} (h : sourceLines source = .ok lines) :
    Fails (InLines lines) (parse source) := by
  rw [parse_eq, h]
  intro e he
  dsimp only at he
  cases hblock : readBlock (10 + weight lines) [] true none lines with
  | ok result => rw [hblock] at he; cases he
  | error e' =>
    rw [hblock] at he
    cases he
    exact (sound _).block (by omega) e hblock

def saying (ds : List Char) : List Char := 'S' :: 'A' :: 'Y' :: ' ' :: ds

theorem takeName_saying (ds : List Char) : takeName (saying ds) = some (['S', 'A', 'Y'], ' ' :: ds) := rfl

theorem word_saying (ds : List Char) (line offset : Nat) :
    SourceLine.word ⟨String.ofList (saying ds), line, offset, none⟩ = "SAY" := by
  rw [SourceLine.word, String.toList_ofList, takeName_saying]
  show Text.upper (String.ofList ['S', 'A', 'Y']) = "SAY"
  decide +kernel

section

variable {ds : List Char} (hne : ds ≠ []) (hds : ∀ c ∈ ds, Text.isDigit c = true)

include hds

theorem isPlainChar_digit : ∀ c ∈ ds, isPlainChar c = true := by
  intro c hc
  have hdigit := hds c hc
  have hbreak : Text.isLineBreak c = false := by
    by_contra hbreak
    have := Text.isBlank_of_isLineBreak (Bool.not_eq_false _ ▸ hbreak)
    rw [Text.isBlank_of_isDigit hdigit] at this
    cases this
  have hother : ['\'', '"', '/', '-', ';', '<'].contains c = false := by
    rw [List.contains_eq_mem, decide_eq_false_iff_not]
    intro hmem
    simp only [List.mem_cons, List.not_mem_nil, or_false] at hmem
    rcases hmem with rfl | rfl | rfl | rfl | rfl | rfl <;> cases hdigit
  rw [isPlainChar, hother, hbreak]
  rfl

include hne

theorem sourceLines_saying :
    sourceLines (String.ofList (saying ds)) = .ok [⟨String.ofList (saying ds), 1, 0, none⟩] := by
  obtain ⟨last, hlast⟩ : ∃ last, ds.getLast? = some last := ⟨_, List.getLast?_eq_some_getLast hne⟩
  have hplain : ∀ c ∈ saying ds, isPlainChar c = true := by
    simp only [saying, List.forall_mem_cons]
    exact ⟨by decide, by decide, by decide, by decide, isPlainChar_digit hds⟩
  have hblank := Text.isBlank_of_isDigit (hds last (List.mem_of_getLast? hlast))
  refine sourceLines_plain hplain ?_ hblank
  obtain ⟨d, more, rfl⟩ := List.exists_cons_of_ne_nil hne
  simp only [saying, List.getLast?_cons_cons]
  exact hlast

theorem dropWhile_digits : ds.dropWhile Text.isBlank = ds := by
  obtain ⟨d, more, rfl⟩ := List.exists_cons_of_ne_nil hne
  rw [List.dropWhile_cons_of_neg]
  simp [Text.isBlank_of_isDigit (hds d List.mem_cons_self)]

theorem form_saying (line offset : Nat) :
    form true ⟨String.ofList (saying ds), line, offset, none⟩ =
      .simple (readSay ⟨String.ofList (saying ds), line, offset, none⟩) := by
  have hname := takeName_saying ds
  have hword := word_saying ds line offset
  have hblank : (' ' :: ds).dropWhile Text.isBlank = ds := by
    rw [List.dropWhile_cons_of_pos (by decide), dropWhile_digits hne hds]
  obtain ⟨d, more, rfl⟩ := List.exists_cons_of_ne_nil hne
  have hd := hds d List.mem_cons_self
  have hlabel : label? (String.ofList (saying (d :: more))) = none := by
    rw [label?, String.toList_ofList, hname]
    dsimp only
    rw [hblank]
    split
    · next heq =>
      obtain rfl := (List.cons.inj heq).1
      cases hd
    · rfl
  have hassignment : assignment? (String.ofList (saying (d :: more))) = none := by
    have hgap : (' ' :: d :: more).takeWhile Text.isBlank = [' '] := by
      rw [List.takeWhile_cons_of_pos (by decide), List.takeWhile_cons_of_neg]
      simp [Text.isBlank_of_isDigit hd]
    have htarget : targetAt 0 (saying (d :: more)) = none := by
      have htail : ('A' :: 'Y' :: ' ' :: d :: more).takeWhile isTargetPart = ['A', 'Y'] := rfl
      simp only [targetAt, saying, htail, List.length_cons, List.length_nil, List.drop_succ_cons, List.drop_zero, hgap]
      split
      · split
        · next heq =>
          obtain rfl := (List.cons.inj heq).1
          cases hd
        · rfl
      · rfl
    rw [assignment?, String.toList_ofList]
    exact htarget
  unfold form
  simp only [hword, hlabel, hassignment]
  rfl

theorem lexeme_digits_error {f : Failure} (hf : numberOfNumeral ds = .error f) : lexeme ds = .error (.inr f) := by
  have hwhole : ds.takeWhile Text.isDigit = ds := List.takeWhile_eq_self_iff.mpr hds
  have hextent : numeralExtent ds = ds.length := by
    rw [numeralExtent_eq, hwhole, List.dropWhile_eq_nil_iff.mpr hds]
    rfl
  obtain ⟨d, more, rfl⟩ := List.exists_cons_of_ne_nil hne
  have hd := hds d List.mem_cons_self
  have hquote : (d == '\'' || d == '"') = false := by
    simp only [Bool.or_eq_false_iff, beq_eq_false_iff_ne]
    constructor <;> rintro rfl <;> cases hd
  have hstart : startsNumeral (d :: more) = true := by
    unfold startsNumeral
    split
    · next heq =>
      obtain rfl := (List.cons.inj heq).1
      cases hd
    · exact hd
  have hnumber : lexeme.number (d :: more) (d :: more).length = .error (.inr f) := by
    rw [lexeme.number, List.take_length, hf]
  simp only [lexeme, hquote, hstart, hextent, List.drop_length, Bool.false_eq_true, if_false, if_true]
  exact hnumber

/-- Digits that cannot be converted make the program fail below the language. -/
theorem parse_saying {f : Failure} (hf : numberOfNumeral ds = .error f) :
    parse (String.ofList (saying ds)) = .error (.failure f) := by
  have hname := takeName_saying ds
  have hlexeme := lexeme_digits_error hne hds hf
  have hsay : readSay ⟨String.ofList (saying ds), 1, 0, none⟩ = .error (.failure f) := by
    have htokens (offset : Nat) : tokenize (String.ofList (' ' :: ds)) 1 offset = .error (.failure f) := by
      obtain ⟨d, more, rfl⟩ := List.exists_cons_of_ne_nil hne
      have hsolid : isTokenBlank d = false := solid_of (hds d List.mem_cons_self) (by decide)
      rw [tokenize, String.toList_ofList]
      simp only [List.length_cons, tokensFrom, hsolid, hlexeme, Bool.false_eq_true, if_false,
        show isTokenBlank ' ' = true from rfl, if_true]
    unfold readSay readOptional SourceLine.afterWord
    simp only [String.toList_ofList, hname, htokens]
    rfl
  have hother : isWordLine ⟨String.ofList (saying ds), 1, 0, none⟩ ["ELSE", "ENDIF", "END"] = false := by
    rw [isWordLine, word_saying]
    rfl
  obtain ⟨fuel, hfuel⟩ : ∃ fuel, 10 + weight [⟨String.ofList (saying ds), 1, 0, none⟩] = fuel + 2 :=
    ⟨8 + weight [⟨String.ofList (saying ds), 1, 0, none⟩], by omega⟩
  rw [parse_eq, sourceLines_saying hne hds]
  dsimp only
  rw [hfuel, readBlock_cons, if_neg (by simp [endsBlock, isWordLine]), if_neg (by simp [hother]), readStatement_succ,
    form_saying hne hds]
  dsimp only
  rw [hsay]
  rfl

end

/-- Reading a program gives its statements or a fault of the program, or it fails over a numeral of one of its lines:
one that has a digit that is not decimal, or that is whole and has more digits than are converted. Digits of that sort
always make it fail so. -/
theorem parse_outcome (source : String) :
    ((∃ program, parse source = .ok program) ∨
      (∃ c, parse source = .error (.condition c) ∧ c.kind = .parse) ∨
      ∃ f lines l w, parse source = .error (.failure f) ∧ f.kind = "ValueError" ∧ sourceLines source = .ok lines ∧
        l ∈ lines ∧ w <:+: l.code.toList ∧ numberOfNumeral w = .error f ∧ Numeral w ∧
        (¬ Plain w ∨ Whole w ∧ digitLimit < w.length)) ∧
    ∀ ds : List Char, ds ≠ [] → Whole ds → ¬ Plain ds ∨ digitLimit < ds.length →
      ∃ f, parse (String.ofList ("SAY ".toList ++ ds)) = .error (.failure f) ∧ f.kind = "ValueError" := by
  constructor
  · cases hparse : parse source with
    | ok program => exact .inl ⟨program, rfl⟩
    | error e =>
      right
      cases hlines : sourceLines source with
      | error c =>
        rw [parse_eq, hlines] at hparse
        cases hparse
        obtain ⟨delimiter, hcause⟩ := sourceLines_error hlines
        exact .inl ⟨c, rfl, Cause.kind_of_isFault (by rw [hcause]; rfl)⟩
      | ok lines =>
        rcases fails_parse hlines e hparse with ⟨c, rfl, hkind⟩ | ⟨f, rfl, l, hl, w, hw, hnumeral, hf⟩
        · exact .inl ⟨c, rfl, Cause.kind_of_isFault hkind⟩
        · exact .inr ⟨f, lines, l, w, rfl, kind_of_numberOfNumeral hf, rfl, hl, hw, hf, hnumeral,
            (numberOfNumeral_error_iff hnumeral).mp ⟨f, hf⟩⟩
  · intro ds hne hwhole hbad
    have hnumeral : Numeral ds := by
      have := Numeral.intro hwhole .none .none (.inl hne)
      rwa [List.append_nil, List.append_nil] at this
    obtain ⟨f, hf⟩ := (numberOfNumeral_error_iff hnumeral).mpr (hbad.imp_right fun hlong => ⟨hwhole, hlong⟩)
    exact ⟨f, parse_saying hne hwhole hf, kind_of_numberOfNumeral hf⟩

end Syntax

end Conductor
