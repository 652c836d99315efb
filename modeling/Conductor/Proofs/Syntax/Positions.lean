import Conductor.Proofs.Syntax.Anchors
import Conductor.Proofs.Syntax.Placement
import Conductor.Proofs.Syntax.Joining

/-!
# Positions in a text

A token remembers its span in the text that it was read from and its column in the line of that text. What is read from
a run of tokens is the text that they cover, from the column of the first of them on: so the nodes of an expression
stand where their lexemes do, and a fault points to a character of the text or behind the last one. Only where there is
no token at all the fault has nothing to take a position from.
-/

set_option autoImplicit false

namespace Conductor.Syntax

/-! ## Texts -/

/-- Where a text stands its lexemes do, and a fault may point to its characters and behind the last of them. -/
structure Region (S : Pos → List Char → Prop) (E : Problem → Prop) (line offset : Nat) (cs : List Char) : Prop where
  single : '\n' ∉ cs
  shows : ∀ q w, ' ' ∉ w → w <+: cs.drop q → S ⟨line, offset + q + 1⟩ w
  fault : ∀ k ≤ cs.length, ∀ cause, E (parseFault cause line (offset + k + 1))
  failure : ∀ f, E (.failure f)

structure Seated (line offset size : Nat) (t : Token) : Prop where
  line : t.line = line
  col : t.col = offset + t.start + 1
  span : t.start ≤ t.stop ∧ t.stop ≤ size

theorem Lexes.solid {base p : Nat} {cs : List Char} {ts : List Token} (h : Lexes base p cs ts) :
    ∀ t ∈ ts, t.isEof = false := by
  induction h with
  | done => exact nofun
  | blank _ _ ih => exact ih
  | token hlexed _ _ _ ih => exact List.forall_mem_cons.mpr ⟨isEof_of_lexed hlexed, ih⟩

theorem Lexes.blank_of_nil {base p : Nat} {cs : List Char} (h : Lexes base p cs []) :
    ∀ c ∈ cs, isTokenBlank c = true := by
  generalize hts : ([] : List Token) = ts at h
  induction h with
  | done => exact nofun
  | blank hc _ ih => exact List.forall_mem_cons.mpr ⟨hc, ih hts⟩
  | token => cases hts

/-- The tokens of a text or of an end of it: the last one, and no other, ends it. -/
structure Laid (line offset size : Nat) (tokens : List Token) : Prop where
  seated : ∀ t ∈ tokens, Seated line offset size t
  ended : ∃ body eof, tokens = body ++ [eof] ∧ eof.isEof = true ∧ ∀ t ∈ body, t.isEof = false

theorem not_isEof_of_isOp {t : Token} {s : String} (h : t.isOp s = true) : t.isEof = false := by
  unfold Token.isOp at h
  unfold Token.isEof
  split at h
  · next hop => rw [hop]
  · cases h

namespace Laid

variable {line offset size : Nat} {tokens : List Token}

theorem ne_nil (h : Laid line offset size tokens) : tokens ≠ [] := by
  obtain ⟨body, eof, rfl, -⟩ := h.ended
  simp

theorem tokenAt_mem (h : Laid line offset size tokens) (i : Nat) : tokenAt tokens i ∈ tokens := by
  unfold tokenAt
  split
  · next t ht => exact List.mem_of_getElem? ht
  · rw [List.getLastD_eq_getLast?, List.getLast?_eq_some_getLast h.ne_nil, Option.getD_some]
    exact List.getLast_mem _

theorem seated_at (h : Laid line offset size tokens) (i : Nat) : Seated line offset size (tokenAt tokens i) :=
  h.seated _ (h.tokenAt_mem i)

theorem lt_length (h : Laid line offset size tokens) {i : Nat} (hi : (tokenAt tokens i).isEof = false) :
    i + 1 < tokens.length := by
  obtain ⟨body, eof, rfl, heof, -⟩ := h.ended
  by_contra hlast
  rw [List.length_append, List.length_singleton, Nat.not_lt, Nat.add_le_add_iff_right] at hlast
  have hat : tokenAt (body ++ [eof]) i = eof := by
    unfold tokenAt
    split
    · next t ht =>
      rw [List.getElem?_append_right hlast, List.getElem?_singleton] at ht
      split at ht
      · exact (Option.some.inj ht).symm
      · cases ht
    · rw [List.getLastD_concat]
  rw [hat, heof] at hi
  cases hi

theorem isEof_last (h : Laid line offset size tokens) : (tokenAt tokens (tokens.length - 1)).isEof = true := by
  obtain ⟨body, eof, rfl, heof, -⟩ := h.ended
  rw [List.length_append, List.length_singleton, Nat.add_sub_cancel, tokenAt, List.getElem?_concat_length]
  exact heof

theorem drop (h : Laid line offset size tokens) {n : Nat} (hn : n < tokens.length) :
    Laid line offset size (tokens.drop n) := by
  obtain ⟨body, eof, rfl, heof, hbody⟩ := h.ended
  rw [List.length_append, List.length_singleton] at hn
  refine ⟨fun t ht => h.seated t (List.mem_of_mem_drop ht), body.drop n, eof, ?_, heof, fun t ht =>
    hbody t (List.mem_of_mem_drop ht)⟩
  exact List.drop_append_of_le_length (by omega)

end Laid

section

variable {S : Pos → List Char → Prop} {E : Problem → Prop} {line offset : Nat}

namespace Region

variable {cs : List Char}

theorem part (h : Region S E line offset cs) {k : Nat} (hk : k ≤ cs.length) {text : List Char}
    (htext : text <+: cs.drop k) : Region S E line (offset + k) text where
  single hmem := h.single (List.mem_of_mem_drop (htext.subset hmem))
  shows q w hblank hw := by
    rw [Nat.add_assoc offset k q]
    refine h.shows (k + q) w hblank (hw.trans ?_)
    rw [← List.drop_drop]
    exact htext.drop q
  fault m hm cause := by
    have hle := htext.length_le
    rw [List.length_drop] at hle
    rw [Nat.add_assoc offset k m]
    exact h.fault (k + m) (by omega) cause
  failure := h.failure

theorem first (h : Region S E line offset cs) (cause : Cause) : E (parseFault cause line (offset + 1)) :=
  h.fault 0 (Nat.zero_le _) cause

theorem token (h : Region S E line offset cs) {t : Token} (ht : Seated line offset cs.length t) (cause : Cause) :
    E (parseFault cause t.line t.col) := by
  rw [ht.line, ht.col]
  exact h.fault t.start (Nat.le_trans ht.span.1 ht.span.2) cause

theorem shown {α : Type} {P : α → Prop} (h : Region S E line offset cs) {t t' : Token}
    (ht : Seated line offset cs.length t') (cause : String → Cause) :
    Ends P E (shownOf t >>= fun s => throw (parseFault (cause s) t'.line t'.col) : Except Problem α) := by
  unfold shownOf
  cases t.shown with
  | error f => exact .error (h.failure f)
  | ok s => exact .error (h.token ht _)

theorem tokensFrom (h : Region S E line offset cs) (fuel p : Nat) {rest : List Char} (hp : p + rest.length = cs.length) :
    Ends (fun ts => ∀ t ∈ ts, Seated line offset cs.length t) E (tokensFrom line offset fuel p rest) := by
  induction fuel generalizing p rest with
  | zero => exact .ok nofun
  | succ fuel ih =>
    cases rest with
    | nil =>
      rw [List.length_nil, Nat.add_zero] at hp
      exact .ok (List.forall_mem_singleton.mpr ⟨rfl, rfl, Nat.le_refl p, Nat.le_of_eq hp⟩)
    | cons c rest =>
      rw [Syntax.tokensFrom]
      rw [List.length_cons] at hp
      split
      · exact ih _ (by omega)
      split
      · exact .error (h.fault p (by omega) _)
      · exact .error (h.failure _)
      · next value n hlexeme =>
        have hextent := (lexed_of_lexeme (List.cons_ne_nil c rest) hlexeme).extent
        rw [List.length_cons] at hextent
        have hrest : Ends (fun ts => ∀ t ∈ ts, Seated line offset cs.length t) E
            (Syntax.tokensFrom line offset fuel (p + n) ((c :: rest).drop n)) :=
          ih (p + n) (by rw [List.length_drop, List.length_cons]; omega)
        split
        · next e he => exact .error (hrest.fails e he)
        · next ts hts =>
          exact .ok (List.forall_mem_cons.mpr ⟨⟨rfl, rfl, Nat.le_add_right p n, by dsimp only; omega⟩, hrest.gives ts hts⟩)

theorem tokenize {text : String} (h : Region S E line offset text.toList) :
    Ends (Laid line offset text.toList.length) E (tokenize text line offset) := by
  have htokens := h.tokensFrom (text.toList.length + 1) 0 (Nat.zero_add _)
  refine ⟨fun ts hts => ⟨htokens.gives ts hts, ?_⟩, htokens.fails⟩
  rw [Syntax.tokenize] at hts
  obtain ⟨body, eof, hsame, heof, hbody⟩ := lexes_of_tokensFrom (Nat.lt_succ_self _) hts
  exact ⟨body, eof, hsame, heof, hbody.solid⟩

end Region

/-! ## Expressions from tokens -/

theorem Origin.pos_eq {o : Grammar.Origin} (h : '\n' ∉ o.text) (p : Nat) :
    o.pos p = ⟨o.line, o.col + min p o.text.length⟩ := by
  have hall : ∀ c ∈ (o.text.take p).reverse, (c != '\n') = true := by
    intro c hc
    rw [List.mem_reverse] at hc
    exact bne_iff_ne.mpr fun heq => h (heq ▸ List.mem_of_mem_take hc)
  have hline := Grammar.Origin.line_pos h p
  unfold Grammar.Origin.pos at hline ⊢
  dsimp only at hline ⊢
  rw [hline, List.takeWhile_eq_self_iff.mpr hall, List.length_reverse, List.length_take]

theorem Region.origin {source : List Char} (h : Region S E line offset source) {first : Token}
    (hfirst : Seated line offset source.length first) (stop : Nat) :
    (⟨(source.take stop).drop first.start, first.line, first.col⟩ : Grammar.Origin).Shows S := by
  intro p w hblank hw
  have hsingle : '\n' ∉ (source.take stop).drop first.start := fun hmem =>
    h.single (List.mem_of_mem_take (List.mem_of_mem_drop hmem))
  rw [Origin.pos_eq hsingle]
  dsimp only at hw ⊢
  rw [hfirst.line, hfirst.col]
  generalize htext : (source.take stop).drop first.start = text at hw
  -- past the end of the text there is nothing to show
  have hw' : w <+: text.drop (min p text.length) := by
    rcases Nat.le_total p text.length with hle | hle
    · rwa [Nat.min_eq_left hle]
    · rw [List.drop_of_length_le hle] at hw
      rw [Nat.min_eq_right hle, List.drop_length]
      exact hw
  have hshown := h.shows (first.start + min p text.length) w hblank (hw'.trans ?_)
  · rwa [← Nat.add_assoc, Nat.add_right_comm] at hshown
  · rw [← htext, List.drop_drop, List.drop_take]
    exact List.take_prefix _ _

section

variable {source : List Char} (h : Region S E line offset source)

include h

theorem furthestFault_ends {text : List Char} {span : List Token} {first last : Token}
    (hspan : ∀ t ∈ span, Seated line offset source.length t) (hlast : Seated line offset source.length last) (far : Nat) :
    E (furthestFault text span first last far) := by
  unfold furthestFault
  dsimp only
  split
  · next t ht =>
    have hseat := hspan t (List.mem_of_find?_eq_some ht)
    split
    · exact h.token hseat _
    · exact h.failure _
  · have hcol : last.col + (last.stop - last.start) = offset + last.stop + 1 := by
      have := hlast.span
      have := hlast.col
      omega
    rw [hlast.line, hcol]
    exact h.fault _ hlast.span.2 _

variable {run : List Token} (hrun : ∀ t ∈ run, Seated line offset source.length t) (hne : run ≠ [])

include hrun hne

/-- What a rule gives for a run of tokens, and what it fails with. -/
theorem readTokens_ends {α : Type} {P : α → Prop} {rule : Grammar.Origin → Nat → Grammar.Rule α}
    (hrule : ∀ o fuel, o.Shows S → (rule o fuel).Sees o P) : Ends P E (readTokens rule source run) := by
  unfold readTokens
  dsimp only
  split
  · next first rest last hspan hlast =>
    have hseated : ∀ t ∈ run.filter fun t => !t.isEof, Seated line offset source.length t := fun t ht =>
      hrun t (List.mem_filter.mp ht).1
    have hfirst := hseated first (hspan ▸ List.mem_cons_self)
    have hshows := h.origin hfirst last.stop
    split
    · next a spans hread => exact .ok ((hrule _ _ hshows).run hread)
    · exact .error (furthestFault_ends h hseated (hseated last (List.mem_of_getLast? hlast)) _)
  · cases run with
    | nil => exact absurd rfl hne
    | cons t rest => exact .error (h.token (hrun t List.mem_cons_self) _)

theorem readExpression_ends : Ends (Expr.Anchored S) E (readExpression source run) :=
  readTokens_ends h hrun hne fun _ fuel hS => (Grammar.anchors hS fuel).expression

theorem readCommand_ends : Ends (CommandForm.Anchored S) E (readCommand source run) :=
  readTokens_ends h hrun hne fun _ fuel hS => Grammar.command_anchored hS fuel

theorem readArguments_ends : Ends (argumentsAnchored S) E (readArguments source run) :=
  readTokens_ends h hrun hne fun _ fuel hS => Grammar.callTail_anchored hS fuel

end

end

end Conductor.Syntax
