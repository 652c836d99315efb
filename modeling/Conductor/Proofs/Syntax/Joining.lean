import Conductor.Proofs.Syntax.Unplaced

/-!
# Texts with a blank between them

A blank ends every lexeme. So the tokens of two texts with a blank between them are those of the first and then those
of the second, and a text's tokens do not depend on where it stands, apart from their places.
-/

set_option autoImplicit false

namespace Conductor.Syntax

/-! ## A blank behind a lexeme -/

section

variable {p : Char → Bool} (hp : p ' ' = false)

include hp

theorem takeWhile_append_blank (cs more : List Char) : (cs ++ ' ' :: more).takeWhile p = cs.takeWhile p := by
  induction cs with
  | nil => simp [hp]
  | cons c cs ih => rw [List.cons_append, List.takeWhile_cons, List.takeWhile_cons, ih]

theorem dropWhile_append_blank (cs more : List Char) :
    (cs ++ ' ' :: more).dropWhile p = cs.dropWhile p ++ ' ' :: more := by
  induction cs with
  | nil => simp [hp]
  | cons c cs ih =>
    rw [List.cons_append, List.dropWhile_cons, List.dropWhile_cons, ih]
    split <;> rfl

end

theorem stringBody_append {quote : Char} (hquote : quote ≠ ' ') {n : Nat} {out cs : List Char} {r : List Char × Nat}
    (h : stringBody quote n out cs = some r) (more : List Char) : stringBody quote n out (cs ++ ' ' :: more) = some r := by
  fun_induction stringBody quote n out cs with
  | case1 => cases h
  | case2 n out c hc d rest hd ih => simpa [stringBody, hc, hd] using ih h
  | case3 n out c hc d rest hd => simpa [stringBody, hc, hd] using h
  | case4 n out c hc => simpa [stringBody, hc, hquote.symm] using h
  | case5 n out c rest hc ih =>
    rw [List.cons_append, stringBody_other (by simpa using hc)]
    exact ih h

theorem startsDigit_append (cs more : List Char) : startsDigit (cs ++ ' ' :: more) = startsDigit cs := by
  cases cs <;> rfl

theorem signExtent_append (cs more : List Char) : signExtent (cs ++ ' ' :: more) = signExtent cs := by
  cases cs <;> rfl

theorem exponentExtent_append (cs more : List Char) : exponentExtent (cs ++ ' ' :: more) = exponentExtent cs := by
  cases cs with
  | nil => rfl
  | cons e rest =>
    obtain ⟨sign, tail, rfl, -, hlength⟩ := signExtent_spec rest
    rw [List.cons_append, exponentExtent_cons, exponentExtent_cons, signExtent_append, hlength, List.append_assoc,
      List.drop_left, List.drop_left, takeWhile_append_blank rfl]

theorem fractionExtent_append (cs more : List Char) : fractionExtent (cs ++ ' ' :: more) = fractionExtent cs := by
  cases cs with
  | nil => rfl
  | cons c rest =>
    by_cases hc : c = '.'
    · subst hc
      rw [List.cons_append, fractionExtent, fractionExtent, startsDigit_append, takeWhile_append_blank rfl]
    · simp [fractionExtent, hc]

theorem numeralExtent_append (cs more : List Char) : numeralExtent (cs ++ ' ' :: more) = numeralExtent cs := by
  obtain ⟨fraction, rest, hrest, -, hlength, -⟩ := fractionExtent_spec (halts_dropWhile Text.isDigit cs)
  rw [numeralExtent_eq, numeralExtent_eq, takeWhile_append_blank rfl, dropWhile_append_blank rfl, fractionExtent_append,
    hlength, hrest, List.append_assoc, List.drop_left, List.drop_left, exponentExtent_append]

theorem startsNumeral_append (c : Char) (rest more : List Char) :
    startsNumeral (c :: rest ++ ' ' :: more) = startsNumeral (c :: rest) := by
  by_cases hc : c = '.'
  · subst hc
    exact startsDigit_append rest more
  · simp [startsNumeral, hc, startsDigit]

theorem operators_solid : ∀ o ∈ operators, ' ' ∉ o.toList := by decide

theorem prefix_append_blank {w : List Char} (hw : ' ' ∉ w) (cs more : List Char) : w <+: cs ++ ' ' :: more ↔ w <+: cs := by
  refine ⟨fun h => ?_, fun h => h.trans (List.prefix_append _ _)⟩
  rcases List.prefix_or_prefix_of_prefix h (List.prefix_append cs (' ' :: more)) with h' | ⟨tail, rfl⟩
  · exact h'
  · cases tail with
    | nil => exact (List.append_nil cs).symm ▸ List.prefix_rfl
    | cons d tail =>
      rw [List.prefix_append_right_inj, List.cons_prefix_cons] at h
      exact absurd (by simp [h.1]) hw

theorem operator?_append (cs more : List Char) : operator? (cs ++ ' ' :: more) = operator? cs := by
  rw [operator?_eq, operator?_eq]
  have hall : ∀ ops : List String, (∀ o ∈ ops, ' ' ∉ o.toList) →
      (ops.find? fun o => o.toList.isPrefixOf (cs ++ ' ' :: more)) = ops.find? fun o => o.toList.isPrefixOf cs := by
    intro ops hops
    induction ops with
    | nil => rfl
    | cons o ops ih =>
      obtain ⟨ho, hops⟩ := List.forall_mem_cons.mp hops
      have hsame : o.toList.isPrefixOf (cs ++ ' ' :: more) = o.toList.isPrefixOf cs := by
        rw [Bool.eq_iff_iff, List.isPrefixOf_iff_prefix, List.isPrefixOf_iff_prefix, prefix_append_blank ho]
      rw [List.find?_cons, List.find?_cons, hsame, ih hops]
  exact hall operators operators_solid

theorem lexeme_append {c : Char} {rest : List Char} {v : TokenValue} {n : Nat} (h : lexeme (c :: rest) = .ok (v, n))
    (more : List Char) : lexeme (c :: rest ++ ' ' :: more) = .ok (v, n) := by
  rw [List.cons_append]
  unfold lexeme at h ⊢
  dsimp only at h ⊢
  split at h
  · next hquote =>
    rw [if_pos hquote]
    have hblank : c ≠ ' ' := by rintro rfl; cases hquote
    split at h
    · next body m hbody =>
      rw [stringBody_append hblank hbody]
      exact h
    · cases h
  · next hquote =>
    rw [if_neg hquote]
    have hstarts := startsNumeral_append c rest more
    have hextent := numeralExtent_append (c :: rest) more
    rw [List.cons_append] at hstarts hextent
    rw [hstarts]
    split at h
    · next hstart =>
      obtain ⟨w, after, hcs, -, hlength, -⟩ := numeralExtent_spec hstart
      have hnumber : lexeme.number (c :: (rest ++ ' ' :: more)) w.length = lexeme.number (c :: rest) w.length := by
        rw [lexeme.number, lexeme.number, ← List.cons_append, hcs, List.append_assoc, List.take_left, List.take_left]
      have hdrop : (c :: rest).drop w.length = after := by rw [hcs, List.drop_left]
      have hdrop' : (c :: (rest ++ ' ' :: more)).drop w.length = after ++ ' ' :: more := by
        rw [← List.cons_append, hcs, List.append_assoc, List.drop_left]
      rw [hlength, hdrop] at h
      rw [if_pos hstart, hextent, hlength, hdrop', hnumber]
      cases after with
      | nil => exact h
      | cons d after =>
        dsimp only [List.cons_append] at h ⊢
        split at h
        · cases h
        · next hother =>
          rw [if_neg hother]
          exact h
    · next hstart =>
      rw [if_neg hstart]
      split at h
      · next hword =>
        rw [if_pos hword, takeWhile_append_blank rfl]
        exact h
      · next hword =>
        rw [if_neg hword]
        split at h
        · next o ho =>
          have hoperator := operator?_append (c :: rest) more
          rw [List.cons_append, ho] at hoperator
          rw [hoperator]
          exact h
        · cases h

/-! ## The tokens of a text -/

def tokensAt (line offset p : Nat) (cs : List Char) : Except Problem (List Token) :=
  tokensFrom line offset (cs.length + 1) p cs

theorem tokenize_eq (text : String) (line offset : Nat) : tokenize text line offset = tokensAt line offset 0 text.toList := rfl

theorem tokensFrom_fuel {line offset k m p : Nat} {cs : List Char} (hk : cs.length < k) (hm : cs.length < m) :
    tokensFrom line offset k p cs = tokensFrom line offset m p cs := by
  induction k generalizing m p cs with
  | zero => omega
  | succ k ih =>
    obtain ⟨m, rfl⟩ := Nat.exists_eq_add_one_of_ne_zero (Nat.ne_of_gt (Nat.lt_of_le_of_lt (Nat.zero_le _) hm))
    cases cs with
    | nil => rfl
    | cons c rest =>
      rw [List.length_cons] at hk hm
      rw [tokensFrom, tokensFrom, ih (m := m) (by omega) (by omega)]
      split
      · rfl
      · split
        · rfl
        · rfl
        · next v n hlexeme =>
          have hextent := (lexed_of_lexeme (List.cons_ne_nil c rest) hlexeme).extent
          rw [ih (m := m) (by rw [List.length_drop, List.length_cons]; omega)
            (by rw [List.length_drop, List.length_cons]; omega)]

variable {line offset p : Nat}

theorem tokensAt_blank {c : Char} (hc : isTokenBlank c = true) (rest : List Char) :
    tokensAt line offset p (c :: rest) = tokensAt line offset (p + 1) rest := by
  rw [tokensAt, List.length_cons, tokensFrom, if_pos hc]
  rfl

theorem tokensAt_token {c : Char} (hc : isTokenBlank c = false) {rest : List Char} {v : TokenValue} {n : Nat}
    (h : lexeme (c :: rest) = .ok (v, n)) : tokensAt line offset p (c :: rest) =
      (tokensAt line offset (p + n) ((c :: rest).drop n)).map (⟨v, line, offset + p + 1, p, p + n⟩ :: ·) := by
  have hextent := (lexed_of_lexeme (List.cons_ne_nil c rest) h).extent
  rw [tokensAt, List.length_cons, tokensFrom, if_neg (by simp [hc]), h, tokensAt]
  dsimp only
  rw [tokensFrom_fuel (m := ((c :: rest).drop n).length + 1) (by rw [List.length_drop, List.length_cons]; omega)
    (Nat.lt_succ_self _)]
  cases tokensFrom line offset (((c :: rest).drop n).length + 1) (p + n) ((c :: rest).drop n) <;> rfl

theorem tokensAt_ok {cs : List Char} {ts : List Token} (h : tokensAt line offset p cs = .ok ts) :
    (cs = [] ∧ ts = [⟨.eof, line, offset + p + 1, p, p⟩]) ∨
      (∃ c rest, cs = c :: rest ∧ isTokenBlank c = true ∧ tokensAt line offset (p + 1) rest = .ok ts) ∨
      ∃ c rest v n us, cs = c :: rest ∧ isTokenBlank c = false ∧ lexeme (c :: rest) = .ok (v, n) ∧ 0 < n ∧ n ≤ cs.length ∧
        tokensAt line offset (p + n) (cs.drop n) = .ok us ∧ ts = ⟨v, line, offset + p + 1, p, p + n⟩ :: us := by
  cases cs with
  | nil =>
    cases h
    exact .inl ⟨rfl, rfl⟩
  | cons c rest =>
    right
    cases hc : isTokenBlank c with
    | true =>
      rw [tokensAt_blank hc] at h
      exact .inl ⟨c, rest, rfl, hc, h⟩
    | false =>
      right
      cases hlexeme : lexeme (c :: rest) with
      | error e =>
        rw [tokensAt, List.length_cons, tokensFrom, if_neg (by simp [hc]), hlexeme] at h
        cases e <;> cases h
      | ok found =>
        obtain ⟨v, n⟩ := found
        have hextent := (lexed_of_lexeme (List.cons_ne_nil c rest) hlexeme).extent
        rw [tokensAt_token hc hlexeme] at h
        cases hrest : tokensAt line offset (p + n) ((c :: rest).drop n) with
        | error e =>
          rw [hrest] at h
          cases h
        | ok us =>
          rw [hrest] at h
          cases h
          exact ⟨c, rest, v, n, us, rfl, hc, hlexeme, hextent.1, hextent.2, hrest, rfl⟩

/-- Where a text stands shows only in the places of its tokens. -/
theorem tokensFrom_alike {γ : Type} (f : Token → γ) {line' offset' p' : Nat} (hf : ∀ v k m,
      f ⟨v, line, offset + (p + k) + 1, p + k, p + k + m⟩ = f ⟨v, line', offset' + (p' + k) + 1, p' + k, p' + k + m⟩)
    (fuel : Nat) (cs : List Char) :
    Alike (List.map f) (tokensFrom line offset fuel p cs) (tokensFrom line' offset' fuel p' cs) := by
  induction fuel generalizing p p' cs with
  | zero => exact .ok rfl
  | succ fuel ih =>
    have hlater (n : Nat) : ∀ v k m, f ⟨v, line, offset + (p + n + k) + 1, p + n + k, p + n + k + m⟩ =
        f ⟨v, line', offset' + (p' + n + k) + 1, p' + n + k, p' + n + k + m⟩ := by
      intro v k m
      simp only [Nat.add_assoc p n k, Nat.add_assoc p' n k]
      exact hf v (n + k) m
    cases cs with
    | nil => exact .ok (congrArg (fun t => [t]) (hf .eof 0 0))
    | cons c rest =>
      rw [tokensFrom, tokensFrom]
      split
      · exact ih (hlater 1) rest
      · split
        · exact .fault rfl
        · exact .failure _
        · next v n _ =>
          have hrest := ih (hlater n) ((c :: rest).drop n)
          generalize tokensFrom line offset fuel (p + n) ((c :: rest).drop n) = x at hrest
          generalize tokensFrom line' offset' fuel (p' + n) ((c :: rest).drop n) = y at hrest
          cases hrest with
          | ok h => exact .ok (by rw [List.map_cons, List.map_cons, h]; exact congrArg (· :: _) (hf v 0 n))
          | fault h => exact .fault h
          | failure e => exact .failure e

theorem tokensAt_values (line offset p line' offset' p' : Nat) (cs : List Char) :
    Alike (List.map Token.value) (tokensAt line offset p cs) (tokensAt line' offset' p' cs) := by
  refine tokensFrom_alike Token.value ?_ (cs.length + 1) cs
  exact fun _ _ _ => rfl

theorem tokensAt_unplaced (line offset line' offset' p : Nat) (cs : List Char) :
    Alike (List.map Token.unplaced) (tokensAt line offset p cs) (tokensAt line' offset' p cs) := by
  refine tokensFrom_alike Token.unplaced ?_ (cs.length + 1) cs
  exact fun _ _ _ => rfl

theorem tokensAt_col {cs : List Char} {ts : List Token} (h : tokensAt line offset p cs = .ok ts) :
    ∀ t ∈ ts, t.col = offset + t.start + 1 := by
  induction hlength : cs.length using Nat.strong_induction_on generalizing p cs ts with
  | _ k ih =>
    subst hlength
    rcases tokensAt_ok h with ⟨rfl, rfl⟩ | ⟨c, rest, rfl, -, hrest⟩ | ⟨c, rest, v, n, us, rfl, -, -, hpos, hle, hus, rfl⟩
    · simp
    · exact ih _ (Nat.lt_succ_self _) hrest rfl
    · exact List.forall_mem_cons.mpr ⟨rfl, ih _ (by rw [List.length_drop]; omega) hus rfl⟩

def endAt (line offset p : Nat) : Token := ⟨.eof, line, offset + p + 1, p, p⟩

theorem isEof_of_lexed {cs : List Char} {t : Token} {n : Nat} (h : Lexed cs t.value n) : t.isEof = false := by
  unfold Token.isEof
  generalize t.value = v at h
  cases h <;> rfl

theorem tokensAt_append {cs : List Char} {ts : List Token} (h : tokensAt line offset p cs = .ok ts) :
    ∃ body, ts = body ++ [endAt line offset (p + cs.length)] ∧
      (∀ t ∈ body, t.isEof = false ∧ t.stop ≤ p + cs.length) ∧ ∀ more, tokensAt line offset p (cs ++ ' ' :: more) =
        (tokensAt line offset (p + cs.length + 1) more).map (body ++ ·) := by
  induction hlength : cs.length using Nat.strong_induction_on generalizing p cs ts with
  | _ k ih =>
    subst hlength
    rcases tokensAt_ok h with ⟨rfl, rfl⟩ | ⟨c, rest, rfl, hc, hrest⟩ |
      ⟨c, rest, v, n, us, rfl, hc, hlexeme, hpos, hle, hus, rfl⟩
    · refine ⟨[], rfl, nofun, fun more => ?_⟩
      rw [List.nil_append, tokensAt_blank rfl]
      cases tokensAt line offset (p + 1) more <;> rfl
    · obtain ⟨body, rfl, hbody, hmore⟩ := ih _ (Nat.lt_succ_self _) hrest rfl
      have hlength : p + 1 + rest.length = p + (c :: rest).length := by rw [List.length_cons]; omega
      rw [hlength] at hbody hmore ⊢
      exact ⟨body, rfl, hbody, fun more => by rw [List.cons_append, tokensAt_blank hc, hmore]⟩
    · obtain ⟨body, rfl, hbody, hmore⟩ := ih _ (by rw [List.length_drop]; omega) hus rfl
      have hlength : p + n + ((c :: rest).drop n).length = p + (c :: rest).length := by rw [List.length_drop]; omega
      rw [hlength] at hbody hmore ⊢
      refine ⟨⟨v, line, offset + p + 1, p, p + n⟩ :: body, rfl, List.forall_mem_cons.mpr ⟨⟨?_, ?_⟩, hbody⟩, fun more => ?_⟩
      · exact isEof_of_lexed (t := ⟨v, line, offset + p + 1, p, p + n⟩)
          (lexed_of_lexeme (List.cons_ne_nil c rest) hlexeme)
      · show p + n ≤ p + (c :: rest).length
        omega
      · have hlexeme' := lexeme_append hlexeme more
        rw [List.cons_append] at hlexeme' ⊢
        rw [tokensAt_token hc hlexeme', ← List.cons_append, List.drop_append_of_le_length hle, hmore]
        cases tokensAt line offset (p + (c :: rest).length + 1) more <;> rfl

theorem tokensAt_after {cs : List Char} {before after : List Token} {t : Token}
    (h : tokensAt line offset p cs = .ok (before ++ t :: after)) (ht : t.isEof = false) :
    p ≤ t.stop ∧ t.stop ≤ p + cs.length ∧ tokensAt line offset t.stop (cs.drop (t.stop - p)) = .ok after := by
  induction hlength : cs.length using Nat.strong_induction_on generalizing p cs before with
  | _ k ih =>
    subst hlength
    generalize hts : before ++ t :: after = ts at h
    rcases tokensAt_ok h with ⟨rfl, rfl⟩ | ⟨c, rest, rfl, -, hrest⟩ | ⟨c, rest, v, n, us, rfl, -, -, hpos, hle, hus, rfl⟩
    · cases before with
      | nil =>
        obtain ⟨rfl, -⟩ := List.cons.inj hts
        cases ht
      | cons b before => simp at hts
    · obtain ⟨hle, hle', hafter⟩ := ih _ (Nat.lt_succ_self _) (hts ▸ hrest) rfl
      rw [List.length_cons]
      refine ⟨by omega, by omega, ?_⟩
      rw [show t.stop - p = t.stop - (p + 1) + 1 by omega, List.drop_succ_cons]
      exact hafter
    · cases before with
      | nil =>
        obtain ⟨rfl, rfl⟩ := List.cons.inj hts
        refine ⟨Nat.le_add_right p n, Nat.add_le_add_left hle p, ?_⟩
        show tokensAt line offset (p + n) ((c :: rest).drop (p + n - p)) = .ok after
        rw [Nat.add_sub_cancel_left]
        exact hus
      | cons b before =>
        obtain ⟨hle, hle', hafter⟩ := ih _ (by rw [List.length_drop]; omega) ((List.cons.inj hts).2 ▸ hus) rfl
        rw [List.length_drop] at hle'
        refine ⟨by omega, by omega, ?_⟩
        rw [List.drop_drop] at hafter
        rwa [show t.stop - p = n + (t.stop - (p + n)) by omega]

end Conductor.Syntax
