import Conductor.Proofs.Syntax.Anchors
import Conductor.Proofs.Syntax.Bodies

/-!
# Statements on one line

A text that the tokenizer accepts has its strings closed, and outside of them no token has a quote or a semicolon. So
the scan for comments and the scan for semicolons take for a string what the tokenizer takes for one.

Hence such texts with semicolons between them are cut at these semicolons and nowhere else.
-/

set_option autoImplicit false

namespace Conductor.Syntax

/-! ## Texts that the tokenizer accepts -/

theorem isOutside_of {p : Char → Bool} {c : Char} (h : p c = true) (hp : ['\'', '"', ';'].any p = false) :
    isOutside c = true := by
  refine Bool.not_eq_true' _ |>.mpr (Bool.eq_false_iff.mpr fun hmem => ?_)
  exact absurd h (List.any_eq_false.mp hp c (List.contains_iff_mem.mp hmem))

theorem operators_outside : ∀ o ∈ operators, ∀ c ∈ o.toList, isOutside c = true := by
  have hall : (operators.all fun o => o.toList.all isOutside) = true := by decide
  exact fun o ho => List.all_eq_true.mp (List.all_eq_true.mp hall o ho)

theorem Lexed.outside {cs : List Char} {v : TokenValue} {n : Nat} (h : Lexed cs v n) :
    (∃ quote s, (quote = '\'' ∨ quote = '"') ∧ cs = quote :: (doubled quote s ++ quote :: cs.drop n)) ∨
    (∀ s quote, v ≠ .string s quote) ∧ ∀ c ∈ cs.take n, isOutside c = true := by
  cases h with
  | @string quote s after hquote =>
    have hdrop : (doubled quote s ++ quote :: after).drop ((doubled quote s).length + 1) = after := by
      rw [← List.drop_drop, List.drop_left, List.drop_one, List.tail_cons]
    exact .inl ⟨quote, s, hquote, by rw [List.drop_succ_cons, hdrop]⟩
  | @number w after k hw =>
    refine .inr ⟨nofun, fun c hc => ?_⟩
    rw [List.take_left] at hc
    exact isOutside_of (p := fun c => Text.isDigit c || isDecimalMark c) (by simpa using hw.mem hc) (by decide)
  | @word c tail after hc htail =>
    refine .inr ⟨nofun, fun d hd => ?_⟩
    rw [Nat.add_comm, List.take_succ_cons, List.take_left] at hd
    rcases List.mem_cons.mp hd with rfl | hd
    · exact isOutside_of hc (by decide)
    · exact isOutside_of (htail d hd) (by decide)
  | @operator cs o ho =>
    obtain ⟨hmem, hstarts⟩ := operator?_prefix ho
    refine .inr ⟨nofun, fun c hc => operators_outside o hmem c ?_⟩
    rwa [Grammar.take_of_isPrefixOf (List.isPrefixOf_iff_prefix.mpr hstarts)] at hc

theorem Sealed.append {w rest : List Char} (h : Sealed rest) (hw : ∀ c ∈ w, isOutside c = true)
    (hmark : ∀ k < w.length, ¬ Marked ((w ++ rest).drop k)) : Sealed (w ++ rest) := by
  induction w with
  | nil => exact h
  | cons c w ih =>
    obtain ⟨hc, hw⟩ := List.forall_mem_cons.mp hw
    refine .plain hc (hmark 0 (Nat.succ_pos _)) (ih hw fun k hk => ?_)
    exact hmark (k + 1) (Nat.succ_lt_succ hk)

theorem Lexes.low {base p : Nat} {cs : List Char} {ts : List Token} (h : Lexes base p cs ts) :
    ∀ t ∈ ts, base + p ≤ t.start := by
  induction h with
  | done => exact nofun
  | blank _ _ ih => exact fun t ht => Nat.le_of_succ_le (ih t ht)
  | token hlexed hstart _ _ ih =>
    refine List.forall_mem_cons.mpr ⟨Nat.le_of_eq hstart.symm, fun t ht => ?_⟩
    have := ih t ht
    omega

theorem Lexes.sealed {base p : Nat} {cs : List Char} {ts : List Token} (h : Lexes base p cs ts)
    (hmarks : ∀ k, Marked (cs.drop k) → ∃ t ∈ ts, t.string?.isSome = true ∧ t.start ≤ base + p + k ∧
      base + p + k < t.stop) : Sealed cs := by
  induction h with
  | done => exact .nil
  | @blank p c rest ts hc h ih =>
    refine .plain (isOutside_of hc (by decide)) (fun hmark => ?_) (ih fun k hk => ?_)
    · obtain ⟨t, ht, -, hstart, -⟩ := hmarks 0 hmark
      have := h.low t ht
      omega
    · obtain ⟨t, ht, hstring, hspan⟩ := hmarks (k + 1) hk
      exact ⟨t, ht, hstring, by omega⟩
  | @token p n cs t ts hlexed hstart hstop h ih =>
    have hrest : Sealed (cs.drop n) := by
      refine ih fun k hk => ?_
      rw [List.drop_drop] at hk
      obtain ⟨u, hu, hstring, hspan⟩ := hmarks (n + k) hk
      rcases List.mem_cons.mp hu with rfl | hu
      · omega
      · exact ⟨u, hu, hstring, by omega⟩
    rcases hlexed.outside with ⟨quote, s, hquote, hcs⟩ | ⟨hother, houtside⟩
    · rw [hcs]
      exact .string hquote hrest
    · have hwhole := hrest.append houtside fun k hk hmark => ?_
      · rwa [List.take_append_drop] at hwhole
      · rw [List.take_append_drop] at hmark
        rw [List.length_take] at hk
        obtain ⟨u, hu, hstring, hspan⟩ := hmarks k hmark
        rcases List.mem_cons.mp hu with rfl | hu
        · unfold Token.string? at hstring
          split at hstring
          · next hvalue => exact hother _ _ hvalue
          · cases hstring
        · have := h.low u hu
          omega

/-- A statement's text: it is not blank, is on one line, has tokens, and opens no comment outside of strings. -/
structure Separable (text : String) : Prop where
  present : Text.allBlank text = false
  unbroken : ∀ c ∈ text.toList, Text.isLineBreak c = false
  tokens : ∃ tokens, tokenize text 1 0 = .ok tokens ∧ ∀ p < text.length, Marked (text.toList.drop p) →
    ∃ t ∈ tokens, t.string?.isSome = true ∧ t.start ≤ p ∧ p < t.stop

instance (text : String) : Decidable (Separable text) :=
  match h : tokenize text 1 0 with
  | .error _ => .isFalse fun hsep => by
    obtain ⟨tokens, htokens, -⟩ := hsep.tokens
    rw [h] at htokens
    cases htokens
  | .ok tokens =>
    decidable_of_iff (Text.allBlank text = false ∧ (text.toList.all fun c => !Text.isLineBreak c) = true ∧
        ∀ p < text.length, Marked (text.toList.drop p) →
          ∃ t ∈ tokens, t.string?.isSome = true ∧ t.start ≤ p ∧ p < t.stop) <| by
      refine ⟨fun ⟨hpresent, hunbroken, hmarks⟩ => ⟨hpresent, fun c hc => ?_, tokens, h, hmarks⟩, fun hsep => ?_⟩
      · simpa using List.all_eq_true.mp hunbroken c hc
      · obtain ⟨tokens', htokens, hmarks⟩ := hsep.tokens
        cases h.symm.trans htokens
        exact ⟨hsep.present, List.all_eq_true.mpr fun c hc => by simp [hsep.unbroken c hc], hmarks⟩

theorem Separable.sealed {text : String} (h : Separable text) : Sealed text.toList := by
  obtain ⟨tokens, htokens, hmarks⟩ := h.tokens
  rw [tokenize] at htokens
  obtain ⟨body, eof, rfl, heof, hbody⟩ := lexes_of_tokensFrom (Nat.lt_succ_self _) htokens
  refine hbody.sealed fun k hk => ?_
  have hlt : k < text.length := by
    refine Nat.lt_of_not_le fun hle => not_marked_of_divided divided_nil ?_
    rwa [List.drop_eq_nil_of_le hle] at hk
  obtain ⟨t, ht, hstring, hspan⟩ := hmarks k hlt hk
  refine ⟨t, ?_, hstring, by omega⟩
  rcases List.mem_append.mp ht with ht | ht
  · exact ht
  · rw [List.mem_singleton.mp ht] at hstring
    unfold Token.isEof at heof
    unfold Token.string? at hstring
    split at heof
    · next hvalue =>
      rw [hvalue] at hstring
      cases hstring
    · cases heof

/-! ## Texts with semicolons between them -/

def cuts : Nat → List (List Char) → List (List Char × Nat)
  | _, [] => []
  | start, text :: rest => (text, start) :: cuts (start + text.length + 1) rest

section

variable {texts : List (List Char)} (h : ∀ text ∈ texts, Sealed text)

include h

theorem stripFrom_joined (out : List Char) :
    stripFrom .code out ([';'].intercalate texts) = (([';'].intercalate texts).reverse ++ out, false) := by
  induction texts generalizing out with
  | nil => rfl
  | cons text rest ih =>
    obtain ⟨htext, hrest⟩ := List.forall_mem_cons.mp h
    cases rest with
    | nil =>
      rw [List.intercalate_singleton]
      have hstrip := htext.stripFrom divided_nil out
      rwa [List.append_nil] at hstrip
    | cons next rest =>
      rw [List.intercalate_cons_cons, List.append_assoc, List.singleton_append, htext.stripFrom (divided_semicolon _),
        stripFrom_code (not_marked_of_divided (divided_semicolon _)), if_neg (by decide), ih hrest]
      simp

theorem segmentsFrom_joined (hne : texts ≠ []) (start : Nat) :
    segmentsFrom none start start [] ([';'].intercalate texts) = cuts start texts := by
  induction texts generalizing start with
  | nil => exact absurd rfl hne
  | cons text rest ih =>
    obtain ⟨htext, hrest⟩ := List.forall_mem_cons.mp h
    cases rest with
    | nil =>
      have hsegments := htext.segmentsFrom start start [] []
      rw [List.append_nil, List.append_nil] at hsegments
      rw [List.intercalate_singleton, hsegments]
      simp [segmentsFrom, cuts]
    | cons next rest =>
      rw [List.intercalate_cons_cons, List.append_assoc, List.singleton_append, htext.segmentsFrom,
        segmentsFrom, if_pos (beq_self_eq_true ';'), ih hrest (List.cons_ne_nil _ _), List.append_nil,
        List.reverse_reverse]
      rfl

end

theorem mem_joined {texts : List (List Char)} {c : Char} (h : c ∈ [';'].intercalate texts) :
    c = ';' ∨ ∃ text ∈ texts, c ∈ text := by
  induction texts with
  | nil => cases h
  | cons text rest ih =>
    cases rest with
    | nil =>
      rw [List.intercalate_singleton] at h
      exact .inr ⟨text, List.mem_cons_self, h⟩
    | cons next rest =>
      rw [List.intercalate_cons_cons, List.append_assoc, List.singleton_append] at h
      rcases List.mem_append.mp h with h | h
      · exact .inr ⟨text, List.mem_cons_self, h⟩
      · rcases List.mem_cons.mp h with h | h
        · exact .inl h
        · refine (ih h).imp id fun ⟨text, htext, hc⟩ => ⟨text, List.mem_cons_of_mem _ htext, hc⟩

theorem getLast?_joined {texts : List (List Char)} {last : List Char} (hlast : texts.getLast? = some last)
    (hne : last ≠ []) : ([';'].intercalate texts).getLast? = last.getLast? := by
  induction texts with
  | nil => cases hlast
  | cons text rest ih =>
    cases rest with
    | nil =>
      rw [List.intercalate_singleton]
      cases hlast
      rfl
    | cons next rest =>
      rw [List.getLast?_cons_cons] at hlast
      have hrest := ih hlast
      have hsome : ([';'].intercalate (next :: rest)).getLast? ≠ none := by
        rw [hrest]
        simpa using hne
      rw [List.intercalate_cons_cons, List.getLast?_append_of_ne_nil _ (by simpa using hsome), hrest]

theorem getLast?_cuts {texts : List (List Char)} {last : List Char} (hlast : texts.getLast? = some last) (start : Nat) :
    ∃ off, (cuts start texts).getLast? = some (last, off) := by
  induction texts generalizing start with
  | nil => cases hlast
  | cons text rest ih =>
    cases rest with
    | nil =>
      cases hlast
      exact ⟨start, rfl⟩
    | cons next rest =>
      rw [List.getLast?_cons_cons] at hlast
      exact ih hlast (start + text.length + 1)

theorem delimiter?_cuts {texts : List (List Char)} {last : List Char} (hlast : texts.getLast? = some last)
    (hopener : ∀ before name, ¬ OpensBlock last before name) (start : Nat) : delimiter? (cuts start texts) = none := by
  obtain ⟨off, hoff⟩ := getLast?_cuts hlast start
  rw [delimiter?, hoff, Option.bind_some, findOpener_eq_none hopener]
  rfl

/-- Texts as the logical lines of one line, with the places where they start. -/
def laidOut : Nat → List String → List SourceLine
  | _, [] => []
  | offset, text :: rest => ⟨text, 1, offset, none⟩ :: laidOut (offset + text.length + 1) rest

theorem plainLines_cuts {texts : List String} (h : ∀ text ∈ texts, Text.allBlank text = false) (offset : Nat) :
    plainLines 1 (cuts offset (texts.map String.toList)) = laidOut offset texts := by
  induction texts generalizing offset with
  | nil => rfl
  | cons text rest ih =>
    obtain ⟨htext, hrest⟩ := List.forall_mem_cons.mp h
    have hblank : text.toList.all Text.isBlank = false := htext
    rw [List.map_cons, cuts, plainLines, List.filter_cons_of_pos (by simp [hblank]), List.map_cons, String.ofList_toList,
      String.length_toList, laidOut]
    exact congrArg (_ :: ·) (ih hrest _)

section

variable {texts : List String} (htexts : ∀ text ∈ texts, Separable text)

include htexts

theorem sealed_texts : ∀ cs ∈ texts.map String.toList, Sealed cs := by
  intro cs hcs
  obtain ⟨text, htext, rfl⟩ := List.mem_map.mp hcs
  exact (htexts text htext).sealed

theorem unbroken_joined : ∀ c ∈ [';'].intercalate (texts.map String.toList), Text.isLineBreak c = false := by
  intro c hc
  obtain rfl | ⟨cs, hcs, hc⟩ := mem_joined hc
  · rfl
  · obtain ⟨text, htext, rfl⟩ := List.mem_map.mp hcs
    exact (htexts text htext).unbroken c hc

/-- Statements with semicolons between them are the logical lines of their line, at the offsets where they start. -/
theorem sourceLines_joined {last : String} (hlast : texts.getLast? = some last)
    (hend : ∀ c ∈ last.toList.getLast?, Text.isBlank c = false)
    (hopener : ∀ before name, ¬ OpensBlock last.toList before name) :
    sourceLines (String.intercalate ";" texts) = .ok (laidOut 0 texts) := by
  have hmapped : (texts.map String.toList).getLast? = some last.toList := by rw [List.getLast?_map, hlast]; rfl
  have hsolid : last.toList ≠ [] := by
    intro hnil
    have hpresent := (htexts last (List.mem_of_getLast? hlast)).present
    rw [Text.allBlank, hnil] at hpresent
    cases hpresent
  have hjoined : (String.intercalate ";" texts).toList = [';'].intercalate (texts.map String.toList) :=
    String.toList_intercalate
  have hfinal : (String.intercalate ";" texts).toList.getLast? = last.toList.getLast? := by
    rw [hjoined, getLast?_joined hmapped hsolid]
  have hlines : Text.lines (String.intercalate ";" texts) = [String.intercalate ";" texts] := by
    refine lines_unbroken (by rw [hjoined]; exact unbroken_joined htexts) fun hnil => ?_
    rw [hnil] at hfinal
    exact hsolid (List.getLast?_eq_none_iff.mp hfinal.symm)
  have hstrip : stripComments (String.intercalate ";" texts).toList false =
      ((String.intercalate ";" texts).toList, false) := by
    refine stripComments_whole ?_ (by rwa [hfinal])
    rw [hjoined, stripFrom_joined (sealed_texts htexts), List.append_nil]
  have hsegments : segments (String.intercalate ";" texts).toList = cuts 0 (texts.map String.toList) := by
    rw [hjoined]
    refine segmentsFrom_joined (sealed_texts htexts) (fun hnil => ?_) 0
    rw [hnil] at hmapped
    cases hmapped
  have hread : segmentLines 1 [] (segments (stripComments (String.intercalate ";" texts).toList false).1) =
      .ok (laidOut 0 texts, []) := by
    rw [hstrip, hsegments, segmentLines_plain (delimiter?_cuts hmapped hopener 0),
      plainLines_cuts fun text htext => (htexts text htext).present]
  rw [sourceLines, hlines, List.length_singleton, sourceLinesFrom_cons hread, sourceLinesFrom]
  exact congrArg Except.ok (List.append_nil _)

end

theorem sourceLines_joined_strings : sourceLines "SAY 'it''s; -- x'; y = \"/*\"" =
    .ok [⟨"SAY 'it''s; -- x'", 1, 0, none⟩, ⟨" y = \"/*\"", 1, 18, none⟩] := by
  have htexts : ∀ text ∈ ["SAY 'it''s; -- x'", " y = \"/*\""], Separable text := by decide +kernel
  have hlast : ["SAY 'it''s; -- x'", " y = \"/*\""].getLast? = some " y = \"/*\"" := rfl
  have hend : " y = \"/*\"".toList.getLast? = some '"' := by decide +kernel
  refine sourceLines_joined htexts hlast (fun c hc => ?_) fun before name h => absurd h.mem (by decide +kernel)
  rw [hend] at hc
  cases hc
  decide

end Conductor.Syntax
