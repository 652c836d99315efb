import Conductor.Proofs.Syntax.Numeral

/-!
# Lexing

A lexeme by its shape: what it is written with and what may follow it. What follows may be
cut anywhere without changing the lexeme, so the tokens of a line are also the tokens of
the text that any run of them covers.
-/

set_option autoImplicit false

namespace Conductor.Syntax

/-! ## Operators -/

def operators : List String := longOperators ++ shortOperators.map String.singleton

theorem find?_beq (l : List Char) (c : Char) : (l.find? fun d => d == c) = if l.contains c then some c else none := by
  induction l with
  | nil => rfl
  | cons d l ih =>
    by_cases hd : d = c
    · simp [hd]
    · have hne : (c == d) = false := beq_eq_false_iff_ne.mpr (Ne.symm hd)
      rw [List.find?_cons_of_neg (by simpa using hd), ih, List.contains_cons, hne, Bool.false_or]

theorem operator?_eq (cs : List Char) : operator? cs = operators.find? fun o => o.toList.isPrefixOf cs := by
  rw [operators, List.find?_append]
  unfold operator?
  cases longOperators.find? fun o => o.toList.isPrefixOf cs with
  | some o => rfl
  | none =>
    rw [Option.none_or, List.find?_map]
    cases cs with
    | nil => simp [shortOperators]
    | cons c rest =>
      have hsame : ((fun o : String => o.toList.isPrefixOf (c :: rest)) ∘ String.singleton) = fun d => d == c := by
        funext d
        simp [List.isPrefixOf]
      rw [hsame, find?_beq, apply_ite (Option.map String.singleton)]
      rfl

def Ordered (symbols : List String) : Prop :=
  symbols.Pairwise fun s t => s.toList.isPrefixOf t.toList = false

instance (symbols : List String) : Decidable (Ordered symbols) :=
  inferInstanceAs (Decidable (symbols.Pairwise _))

theorem ordered_operators : Ordered operators := by decide +kernel

theorem Ordered.longest {symbols : List String} (h : Ordered symbols) {cs : List Char} {s t : String}
    (hs : symbols.find? (fun o => o.toList.isPrefixOf cs) = some s) (ht : t ∈ symbols) (htcs : t.toList <+: cs) :
    t.toList <+: s.toList := by
  obtain ⟨hscs, before, after, rfl, hbefore⟩ := List.find?_eq_some_iff_append.mp hs
  rcases List.prefix_or_prefix_of_prefix htcs (List.isPrefixOf_iff_prefix.mp hscs) with hle | hle
  · exact hle
  rcases List.mem_append.mp ht with ht | ht
  · have hnot := hbefore t ht
    rw [List.isPrefixOf_iff_prefix.mpr htcs] at hnot
    cases hnot
  rcases List.mem_cons.mp ht with rfl | ht
  · exact List.prefix_rfl
  · have hnot := (List.pairwise_cons.mp (List.pairwise_append.mp h).2.1).1 t ht
    rw [List.isPrefixOf_iff_prefix.mpr hle] at hnot
    cases hnot

theorem operator?_prefix {cs : List Char} {o : String} (h : operator? cs = some o) : o ∈ operators ∧ o.toList <+: cs := by
  rw [operator?_eq] at h
  have hstarts := List.find?_some h
  exact ⟨List.mem_of_find?_eq_some h, List.isPrefixOf_iff_prefix.mp hstarts⟩

theorem operator?_take {cs : List Char} {o : String} (h : operator? cs = some o) {m : Nat} (hm : o.toList.length ≤ m) :
    operator? (cs.take m) = some o := by
  rw [operator?_eq] at h ⊢
  obtain ⟨ho, before, after, hoperators, hbefore⟩ := List.find?_eq_some_iff_append.mp h
  refine List.find?_eq_some_iff_append.mpr ⟨?_, before, after, hoperators, fun s hs => ?_⟩
  · rw [List.isPrefixOf_iff_prefix] at ho ⊢
    exact List.prefix_take_iff.mpr ⟨ho, hm⟩
  · have hnot := hbefore s hs
    rw [Bool.not_eq_true', ← Bool.not_eq_true, List.isPrefixOf_iff_prefix] at hnot ⊢
    exact fun hstarts => hnot (hstarts.trans (List.take_prefix m cs))

theorem operators_first : ∀ o ∈ operators, ∃ c rest, o.toList = c :: rest ∧ c ∈ shortOperators := by
  have hfirst : ∀ o ∈ operators, (o.toList.head?.any shortOperators.contains) = true := by decide +kernel
  intro o ho
  have := hfirst o ho
  cases hcs : o.toList with
  | nil => simp [hcs] at this
  | cons c rest => exact ⟨c, rest, rfl, by simpa [hcs] using this⟩

theorem shortOperators_apart : ∀ c ∈ shortOperators, isTokenBlank c = false ∧ isWordStart c = false ∧
    Grammar.isIdentifierStart c = false ∧ Text.isDigit c = false ∧ c ≠ '.' ∧ c ≠ '\'' ∧ c ≠ '"' := by
  have hall : (shortOperators.any fun c => isTokenBlank c || isWordStart c || Grammar.isIdentifierStart c ||
      Text.isDigit c || c == '.' || c == '\'' || c == '"') = false := by decide +kernel
  intro c hc
  simpa [and_assoc] using List.any_eq_false.mp hall c hc

theorem operator?_first {c : Char} {rest : List Char} {o : String} (h : operator? (c :: rest) = some o) :
    c ∈ shortOperators := by
  obtain ⟨ho, hstarts⟩ := operator?_prefix h
  obtain ⟨d, more, hd, hmem⟩ := operators_first o ho
  rw [hd, List.cons_prefix_cons] at hstarts
  exact hstarts.1 ▸ hmem

/-! ## One lexeme -/

theorem solid_of {p : Char → Bool} {c : Char} (h : p c = true) (hp : [' ', '\t', '\r'].any p = false) :
    isTokenBlank c = false := by
  refine Bool.eq_false_iff.mpr fun hblank => ?_
  simp only [isTokenBlank, Bool.or_eq_true, beq_iff_eq] at hblank
  have hc : c ∈ [' ', '\t', '\r'] := by
    obtain (rfl | rfl) | rfl := hblank <;> decide
  exact absurd h (List.any_eq_false.mp hp c hc)

def isNumeralStart (c : Char) : Bool := Text.isDigit c || c == '.'

/-- A lexeme at the start of a text, with its value and its extent. -/
inductive Lexed : List Char → TokenValue → Nat → Prop
  | string {quote : Char} {s after : List Char} (hquote : quote = '\'' ∨ quote = '"') (hshut : Shut quote after) :
      Lexed (quote :: (doubled quote s ++ quote :: after)) (.string (String.ofList s) quote)
        ((doubled quote s).length + 2)
  | number {w after : List Char} {k : Number} (hw : Numeral w) (hk : numberOfNumeral w = .ok k) (hend : Ended after) :
      Lexed (w ++ after) (.number k) w.length
  | word {c : Char} {tail after : List Char} (hc : isWordStart c = true) (htail : ∀ d ∈ tail, isWordPart d = true)
      (hend : Halts isWordPart after) :
      Lexed (c :: (tail ++ after)) (.word (String.ofList (c :: tail))) (1 + tail.length)
  | operator {cs : List Char} {o : String} (ho : operator? cs = some o) : Lexed cs (.op o) o.length

theorem stringBody_eq_some {quote : Char} {n m : Nat} {out cs body : List Char}
    (h : stringBody quote n out cs = some (body, m)) :
    ∃ s after, cs = doubled quote s ++ quote :: after ∧ Shut quote after ∧ body = out.reverse ++ s ∧
      m = n + (doubled quote s).length + 1 := by
  fun_induction stringBody quote n out cs with
  | case1 => cases h
  | case2 n out c hc d rest hd ih =>
    obtain ⟨s, after, rfl, hshut, rfl, rfl⟩ := ih h
    obtain rfl : c = quote := beq_iff_eq.mp hc
    obtain rfl : d = c := beq_iff_eq.mp hd
    refine ⟨d :: s, after, by simp [doubled], hshut, by simp, ?_⟩
    have hlength : (doubled d (d :: s)).length = (doubled d s).length + 2 := by simp [doubled]
    omega
  | case3 n out c hc d rest hd =>
    obtain rfl : c = quote := beq_iff_eq.mp hc
    obtain ⟨rfl, rfl⟩ := Prod.mk.inj (Option.some.inj h)
    have hne : d ≠ c := by simpa using hd
    exact ⟨[], d :: rest, rfl, fun x hx => Option.some.inj hx ▸ hne, by simp, rfl⟩
  | case4 n out c hc =>
    obtain rfl : c = quote := beq_iff_eq.mp hc
    obtain ⟨rfl, rfl⟩ := Prod.mk.inj (Option.some.inj h)
    exact ⟨[], [], rfl, fun x hx => absurd hx.symm (Option.some_ne_none x), by simp, rfl⟩
  | case5 n out c rest hc ih =>
    obtain ⟨s, after, rfl, hshut, rfl, rfl⟩ := ih h
    have hne : c ≠ quote := by simpa using hc
    refine ⟨c :: s, after, by simp [doubled, hne], hshut, by simp, ?_⟩
    have hlength : (doubled quote (c :: s)).length = (doubled quote s).length + 1 := by simp [doubled, hne]
    omega

theorem lexed_number {cs : List Char} {v : TokenValue} {n : Nat} (hstart : startsNumeral cs = true)
    (hend : ∀ d ∈ (cs.drop (numeralExtent cs)).head?, (isWordStart d || d == '.') = false)
    (h : lexeme.number cs (numeralExtent cs) = .ok (v, n)) : Lexed cs v n := by
  obtain ⟨w, after, rfl, hw, hextent, hdigit⟩ := numeralExtent_spec hstart
  rw [hextent, List.drop_left] at hend
  rw [hextent, lexeme.number, List.take_left] at h
  split at h
  · next k hk =>
    obtain ⟨rfl, rfl⟩ := Prod.mk.inj (Except.ok.inj h)
    exact .number hw hk ⟨hdigit, fun d hd => (Bool.or_eq_false_iff.mp (hend d hd)).1,
      fun d hd => (Bool.or_eq_false_iff.mp (hend d hd)).2⟩
  · cases h

theorem lexed_of_lexeme {cs : List Char} {v : TokenValue} {n : Nat} (hne : cs ≠ []) (h : lexeme cs = .ok (v, n)) :
    Lexed cs v n := by
  unfold lexeme at h
  split at h
  · exact absurd rfl hne
  next c rest =>
  split at h
  · next hquote =>
    split at h
    · next body m hbody =>
      obtain ⟨s, after, rfl, hshut, rfl, rfl⟩ := stringBody_eq_some hbody
      cases h
      rw [show 1 + (doubled c body).length + 1 = (doubled c body).length + 2 by omega]
      exact .string (by simpa using hquote) hshut
    · cases h
  split at h
  · next hstart =>
    dsimp only at h
    split at h
    · next d more hd =>
      split at h
      · cases h
      · next hother =>
        refine lexed_number hstart (fun x hx => ?_) h
        rw [hd] at hx
        exact Option.some.inj hx ▸ Bool.eq_false_iff.mpr hother
    · next hd => exact lexed_number hstart (fun x hx => by rw [hd] at hx; cases hx) h
  split at h
  · next hc =>
    obtain ⟨rfl, rfl⟩ := Prod.mk.inj (Except.ok.inj h)
    have htail : ∀ d ∈ rest.takeWhile isWordPart, isWordPart d = true := fun d hd => List.mem_takeWhile_imp hd
    have hword := Lexed.word hc htail (halts_dropWhile isWordPart rest)
    rwa [List.takeWhile_append_dropWhile] at hword
  split at h
  · next o ho =>
    obtain ⟨rfl, rfl⟩ := Prod.mk.inj (Except.ok.inj h)
    exact .operator ho
  · cases h

namespace Lexed

variable {cs : List Char} {v : TokenValue} {n : Nat}

theorem first (h : Lexed cs v n) : ∃ c rest, cs = c :: rest ∧ isTokenBlank c = false := by
  cases h with
  | @string quote s after hquote =>
    refine ⟨quote, _, rfl, ?_⟩
    rcases hquote with rfl | rfl <;> rfl
  | @number w after k hw =>
    obtain ⟨c, rest, rfl, hc⟩ := hw.first
    have hstart : isNumeralStart c = true := by simpa [isNumeralStart] using hc
    exact ⟨c, _, rfl, solid_of hstart (by decide)⟩
  | @word c tail after hc => exact ⟨c, _, rfl, solid_of hc (by decide)⟩
  | @operator cs o ho =>
    obtain ⟨hmem, hstarts⟩ := operator?_prefix ho
    obtain ⟨c, rest, hc, hshort⟩ := operators_first o hmem
    obtain ⟨after, rfl⟩ := hstarts
    rw [hc]
    exact ⟨c, _, rfl, (shortOperators_apart c hshort).1⟩

theorem extent (h : Lexed cs v n) : 0 < n ∧ n ≤ cs.length := by
  cases h with
  | @string quote s after hquote =>
    simp only [List.length_cons, List.length_append]
    omega
  | @number w after k hw =>
    obtain ⟨c, rest, rfl, -⟩ := hw.first
    simp
  | @word c tail after hc =>
    simp only [List.length_cons, List.length_append]
    omega
  | @operator cs o ho =>
    obtain ⟨hmem, hstarts⟩ := operator?_prefix ho
    obtain ⟨c, rest, hc, -⟩ := operators_first o hmem
    have hle := hstarts.length_le
    rw [← String.length_toList, hc] at *
    exact ⟨Nat.succ_pos _, hle⟩

theorem take (h : Lexed cs v n) {m : Nat} (hm : n ≤ m) : Lexed (cs.take m) v n := by
  have hcut (w after : List Char) (hw : w.length ≤ m) : (w ++ after).take m = w ++ after.take (m - w.length) := by
    rw [List.take_append, List.take_of_length_le hw]
  cases h with
  | @string quote s after hquote hshut =>
    have hcs : quote :: (doubled quote s ++ quote :: after) = (quote :: (doubled quote s ++ [quote])) ++ after := by simp
    have hw : (quote :: (doubled quote s ++ [quote])).length ≤ m := by
      simp only [List.length_cons, List.length_append, List.length_nil]
      omega
    rw [hcs, hcut _ _ hw, List.cons_append, List.append_assoc]
    exact .string hquote fun c hc => hshut c (by
      cases hk : m - (quote :: (doubled quote s ++ [quote])).length with
      | zero => rw [hk] at hc; cases hc
      | succ k => rw [hk] at hc; cases after with
        | nil => cases hc
        | cons d after => exact hc)
  | @number w after k hw hk hend =>
    rw [hcut _ _ hm]
    exact .number hw hk (hend.take _)
  | @word c tail after hc htail hend =>
    have hw : (c :: tail).length ≤ m := by rw [List.length_cons]; omega
    rw [← List.cons_append, hcut _ _ hw]
    exact .word hc htail (hend.take _)
  | @operator cs o ho => exact .operator (operator?_take ho (by rwa [String.length_toList]))

end Lexed

/-! ## Tokens -/

/-- The tokens of a text without its end token. Positions in the text count from `p`; those of the tokens are `base`
further on. -/
inductive Lexes (base : Nat) : Nat → List Char → List Token → Prop
  | done {p : Nat} : Lexes base p [] []
  | blank {p : Nat} {c : Char} {rest : List Char} {ts : List Token} (hc : isTokenBlank c = true)
      (h : Lexes base (p + 1) rest ts) : Lexes base p (c :: rest) ts
  | token {p n : Nat} {cs : List Char} {t : Token} {ts : List Token} (hlexed : Lexed cs t.value n)
      (hstart : t.start = base + p) (hstop : t.stop = base + p + n) (h : Lexes base (p + n) (cs.drop n) ts) :
      Lexes base p cs (t :: ts)

theorem lexes_of_tokensFrom {line offset fuel p : Nat} {cs : List Char} {ts : List Token} (hfuel : cs.length < fuel)
    (h : tokensFrom line offset fuel p cs = .ok ts) :
    ∃ body eof, ts = body ++ [eof] ∧ eof.isEof = true ∧ Lexes 0 p cs body := by
  induction fuel generalizing p cs ts with
  | zero => omega
  | succ fuel ih =>
    cases cs with
    | nil =>
      cases h
      exact ⟨[], _, rfl, rfl, .done⟩
    | cons c rest =>
      rw [tokensFrom] at h
      simp only [List.length_cons] at hfuel
      split at h
      · next hc =>
        obtain ⟨body, eof, rfl, heof, hbody⟩ := ih (by omega) h
        exact ⟨body, eof, rfl, heof, .blank hc hbody⟩
      · split at h
        · cases h
        · cases h
        · next value n hlexeme =>
          have hlexed := lexed_of_lexeme (List.cons_ne_nil c rest) hlexeme
          have hextent := hlexed.extent
          simp only [List.length_cons] at hextent
          split at h
          · cases h
          · next more hmore =>
            cases h
            obtain ⟨body, eof, rfl, heof, hbody⟩ := ih (by simp only [List.length_drop, List.length_cons]; omega) hmore
            exact ⟨_ :: body, eof, rfl, heof, .token hlexed (by simp) (by simp) hbody⟩

namespace Lexes

variable {base p : Nat} {cs : List Char} {ts : List Token}

theorem rebase {k : Nat} (h : Lexes base (p + k) cs ts) : Lexes (base + k) p cs ts := by
  generalize hq : p + k = q at h
  induction h generalizing p with
  | done => exact .done
  | blank hc _ ih => exact .blank hc (ih (by omega))
  | token hlexed hstart hstop _ ih => exact .token hlexed (by omega) (by omega) (ih (by omega))

theorem suffix {before after : List Token} {t : Token} (h : Lexes base p cs (before ++ t :: after)) :
    ∃ k, t.start = base + (p + k) ∧ Lexes base (p + k) (cs.drop k) (t :: after) := by
  generalize hts : before ++ t :: after = ts at h
  induction h generalizing before with
  | done => simp at hts
  | @blank p c rest ts hc h ih =>
    obtain ⟨k, hstart, hk⟩ := ih hts
    refine ⟨k + 1, by omega, ?_⟩
    rwa [List.drop_succ_cons, Nat.add_comm k 1, ← Nat.add_assoc]
  | @token p n cs u us hlexed hstart hstop h ih =>
    cases before with
    | nil =>
      obtain ⟨rfl, rfl⟩ := List.cons.inj hts
      exact ⟨0, hstart, .token hlexed hstart hstop h⟩
    | cons v before =>
      obtain ⟨k, hstart, hk⟩ := ih (List.cons.inj hts).2
      refine ⟨n + k, by omega, ?_⟩
      rwa [← List.drop_drop, ← Nat.add_assoc]

theorem upTo {run after : List Token} {last : Token} (h : Lexes base p cs (run ++ after))
    (hlast : run.getLast? = some last) : ∃ m, last.stop = base + p + m ∧ Lexes base p (cs.take m) run := by
  generalize hts : run ++ after = ts at h
  induction h generalizing run with
  | done =>
    obtain ⟨rfl, -⟩ := List.append_eq_nil_iff.mp hts
    cases hlast
  | @blank p c rest ts hc h ih =>
    obtain ⟨m, hstop, hm⟩ := ih hlast hts
    exact ⟨m + 1, by omega, .blank hc hm⟩
  | @token p n cs t us hlexed hstart hstop h ih =>
    cases run with
    | nil => cases hlast
    | cons u run =>
      obtain ⟨rfl, hus⟩ := List.cons.inj hts
      cases run with
      | nil =>
        obtain rfl := Option.some.inj hlast
        refine ⟨n, hstop, .token (hlexed.take (Nat.le_refl n)) hstart hstop ?_⟩
        rw [List.drop_take, Nat.sub_self, List.take_zero]
        exact .done
      | cons w run =>
        rw [List.getLast?_cons_cons] at hlast
        obtain ⟨m, hstop', hm⟩ := ih hlast hus
        refine ⟨n + m, by omega, .token (hlexed.take (Nat.le_add_right n m)) hstart hstop ?_⟩
        rwa [List.drop_take, Nat.add_sub_cancel_left]

end Lexes

/-- The text that a run of tokens covers has those tokens. -/
theorem lexes_slice {text : String} {line offset : Nat} {tokens run : List Token} {first last : Token}
    (h : tokenize text line offset = .ok tokens) (hrun : run <:+: tokens) (hsolid : ∀ t ∈ run, t.isEof = false)
    (hfirst : run.head? = some first) (hlast : run.getLast? = some last) :
    Lexes first.start 0 ((text.toList.take last.stop).drop first.start) run := by
  rw [tokenize] at h
  obtain ⟨body, eof, rfl, heof, hbody⟩ := lexes_of_tokensFrom (Nat.lt_succ_self _) h
  obtain ⟨before, after, hsplit⟩ := hrun
  obtain ⟨more, rfl⟩ : ∃ more, run = first :: more := by
    cases run with
    | nil => cases hfirst
    | cons t more => exact ⟨more, by rw [Option.some.inj hfirst]⟩
  -- the end token is not in the run, so the run ends before it
  obtain ⟨after, rfl⟩ : ∃ after', after = after' ++ [eof] := by
    rcases List.eq_nil_or_concat after with rfl | ⟨after', x, rfl⟩
    · have hsame : (before ++ first :: more).getLast? = some eof := by
        rw [← List.append_nil (before ++ first :: more), hsplit, List.getLast?_concat]
      rw [List.getLast?_append, hlast, Option.some_or] at hsame
      have hmem := hsolid last (List.mem_of_getLast? hlast)
      rw [Option.some.inj hsame, heof] at hmem
      cases hmem
    · rw [List.concat_eq_append, ← List.append_assoc] at hsplit
      exact ⟨after', by rw [List.concat_eq_append, (List.append_inj' hsplit rfl).2]⟩
  rw [← List.append_assoc] at hsplit
  rw [← (List.append_inj' hsplit rfl).1, List.append_assoc, List.cons_append] at hbody
  obtain ⟨k, hstart, hk⟩ := hbody.suffix
  obtain ⟨m, hstop, hm⟩ := Lexes.upTo (show Lexes 0 (0 + k) _ ((first :: more) ++ after) from hk) hlast
  have hslice : (text.toList.take last.stop).drop first.start = (text.toList.drop k).take m := by
    rw [List.drop_take, show first.start = k by omega, show last.stop - k = m by omega]
  rw [hslice, show first.start = 0 + k by omega]
  exact (show Lexes 0 (0 + k) _ _ from hm).rebase

end Conductor.Syntax
