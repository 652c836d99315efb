import Conductor.Proofs.Syntax.Quoting
import Mathlib.Tactic.Common

/-!
# A text with more after it

The logical lines of a text stay what they are when further lines come after it, as long as
no block literal is left open; the only thing that can go wrong with logical lines is that
one is.
-/

set_option autoImplicit false

namespace Conductor.Syntax

/-! ## Raw lines -/

theorem linesFrom_cons (opened : Bool) (line : List Char) {c : Char} {rest : List Char}
    (h : ∀ more, c = '\r' → rest ≠ '\n' :: more) :
    Text.linesFrom opened line (c :: rest) =
      if Text.isLineBreak c then line.reverse :: Text.linesFrom false [] rest
      else Text.linesFrom true (c :: line) rest := by
  rw [Text.linesFrom]
  exact h

theorem linesFrom_unbroken {cs : List Char} (h : ∀ c ∈ cs, Text.isLineBreak c = false) (opened : Bool) (line : List Char)
    (hne : opened = true ∨ cs ≠ []) : Text.linesFrom opened line cs = [line.reverse ++ cs] := by
  induction cs generalizing opened line with
  | nil =>
    obtain rfl : opened = true := by simpa using hne
    simp [Text.linesFrom]
  | cons c cs ih =>
    obtain ⟨hbreak, hcs⟩ := List.forall_mem_cons.mp h
    have hpair : ∀ more, c = '\r' → cs ≠ '\n' :: more := by
      rintro more rfl
      cases hbreak
    rw [linesFrom_cons _ _ hpair, if_neg (by simp [hbreak]), ih hcs true _ (.inl rfl)]
    simp

theorem lines_unbroken {s : String} (h : ∀ c ∈ s.toList, Text.isLineBreak c = false) (hne : s.toList ≠ []) :
    Text.lines s = [s] := by
  rw [Text.lines, linesFrom_unbroken h false [] (.inr hne), List.reverse_nil, List.nil_append, List.map_singleton,
    String.ofList_toList]

theorem linesFrom_append (opened : Bool) (line cs : List Char) :
    ∃ pad, ∀ more, Text.linesFrom opened line (cs ++ '\n' :: more) =
      Text.linesFrom opened line cs ++ (pad ++ Text.linesFrom false [] more) := by
  fun_induction Text.linesFrom opened line cs with
  | case1 line => exact ⟨[], fun more => by simp [Text.linesFrom, Text.isLineBreak]⟩
  | case2 opened line hopened =>
    refine ⟨[line.reverse], fun more => ?_⟩
    simp [Text.linesFrom, Text.isLineBreak]
  | case3 opened line rest ih =>
    obtain ⟨pad, hpad⟩ := ih
    exact ⟨pad, fun more => by simp [Text.linesFrom, hpad more]⟩
  | case4 opened line c rest hpair hbreak ih =>
    obtain ⟨pad, hpad⟩ := ih
    by_cases hlast : c = '\r' ∧ rest = []
    · obtain ⟨rfl, rfl⟩ := hlast
      exact ⟨[], fun more => by simp [Text.linesFrom]⟩
    · refine ⟨pad, fun more => ?_⟩
      have hpair' : ∀ after, c = '\r' → rest ++ '\n' :: more ≠ '\n' :: after := by
        intro after hc hsame
        cases rest with
        | nil => exact hlast ⟨hc, rfl⟩
        | cons d rest => exact hpair rest hc (by rw [(List.cons.inj hsame).1])
      rw [List.cons_append, linesFrom_cons _ _ hpair', if_pos hbreak, hpad, List.cons_append]
  | case5 opened line c rest hpair hbreak ih =>
    obtain ⟨pad, hpad⟩ := ih
    refine ⟨pad, fun more => ?_⟩
    have hpair' : ∀ after, c = '\r' → rest ++ '\n' :: more ≠ '\n' :: after := by
      intro after hc
      exact absurd (by rw [hc]; decide) hbreak
    rw [List.cons_append, linesFrom_cons _ _ hpair', if_neg hbreak, hpad]

theorem lines_append (s : String) : ∃ pad, ∀ t : String, Text.lines (s ++ "\n" ++ t) =
    Text.lines s ++ (pad ++ Text.lines t) := by
  obtain ⟨pad, hpad⟩ := linesFrom_append false [] s.toList
  refine ⟨pad.map String.ofList, fun t => ?_⟩
  have htext : (s ++ "\n" ++ t).toList = s.toList ++ '\n' :: t.toList := by simp
  rw [Text.lines, htext, hpad, List.map_append, List.map_append]
  rfl

/-! ## Logical lines -/

theorem takeBody_append {delimiter : String} {raws body after : List String} (more : List String)
    (h : takeBody delimiter raws = some (body, after)) :
    takeBody delimiter (raws ++ more) = some (body, after ++ more) := by
  induction raws generalizing body with
  | nil => cases h
  | cons raw raws ih =>
    rw [takeBody] at h
    rw [List.cons_append, takeBody]
    split at h
    · next hend =>
      cases h
      rw [if_pos hend]
    · next hend =>
      obtain ⟨⟨body', after'⟩, hcut, hsame⟩ := Option.map_eq_some_iff.mp h
      cases hsame
      rw [if_neg hend, ih hcut]
      rfl

theorem takeBody_suffix {delimiter : String} {raws body after : List String}
    (h : takeBody delimiter raws = some (body, after)) : after.length < raws.length := by
  induction raws generalizing body with
  | nil => cases h
  | cons raw raws ih =>
    rw [takeBody] at h
    rw [List.length_cons]
    split at h
    · cases h
      exact Nat.lt_succ_self _
    · obtain ⟨⟨body', after'⟩, hcut, hsame⟩ := Option.map_eq_some_iff.mp h
      cases hsame
      exact Nat.lt_succ_of_lt (ih hcut)

theorem segmentLines_append {line : Nat} {raws after : List String} {segs : List (List Char × Nat)}
    {ls : List SourceLine} (more : List String) (h : segmentLines line raws segs = .ok (ls, after)) :
    segmentLines line (raws ++ more) segs = .ok (ls, after ++ more) ∧ after.length ≤ raws.length := by
  fun_induction segmentLines line raws segs generalizing ls after with
  | case1 =>
    cases h
    exact ⟨rfl, Nat.le_refl _⟩
  | case2 seg off hblank =>
    cases h
    exact ⟨by rw [segmentLines, if_pos hblank], Nat.le_refl _⟩
  | case3 seg off hblank hopener =>
    cases h
    exact ⟨by simp only [segmentLines, hblank, hopener, if_false, Bool.false_eq_true], Nat.le_refl _⟩
  | case4 => cases h
  | case5 seg off hblank start delimiter hopener body rest hbody =>
    cases h
    have hmore := takeBody_append more hbody
    refine ⟨?_, Nat.le_of_lt (takeBody_suffix hbody)⟩
    simp only [segmentLines, hblank, hopener, hmore, if_false, Bool.false_eq_true]
    rfl
  | case6 => cases h
  | case7 seg off segs hne ls' rest hrest hblank ih =>
    cases h
    obtain ⟨hmore, hle⟩ := ih hrest
    refine ⟨?_, hle⟩
    rw [segmentLines, hmore]
    · exact if_pos hblank
    · exact hne
  | case8 seg off segs hne ls' rest hrest hblank ih =>
    cases h
    obtain ⟨hmore, hle⟩ := ih hrest
    refine ⟨?_, hle⟩
    rw [segmentLines, hmore]
    · exact if_neg hblank
    · exact hne

theorem segmentLines_error {line : Nat} {raws : List String} {segs : List (List Char × Nat)} {c : Condition}
    (h : segmentLines line raws segs = .error c) : ∃ delimiter, c.cause = .unterminatedBlock delimiter := by
  fun_induction segmentLines line raws segs with
  | case4 seg off hblank start delimiter =>
    cases h
    exact ⟨delimiter, rfl⟩
  | case6 seg off segs hne e he ih =>
    cases h
    exact ih he
  | _ => cases h

theorem sourceLinesFrom_error {fuel number : Nat} {inComment : Bool} {raws : List String} {c : Condition}
    (h : sourceLinesFrom fuel number inComment raws = .error c) :
    ∃ delimiter, c.cause = .unterminatedBlock delimiter := by
  induction fuel generalizing number inComment raws with
  | zero => cases h
  | succ fuel ih =>
    cases raws with
    | nil => cases h
    | cons raw rest =>
      rw [sourceLinesFrom] at h
      dsimp only at h
      split at h
      · exact ih h
      split at h
      · next e he =>
        cases h
        exact segmentLines_error he
      · split at h
        · next e he =>
          cases h
          exact ih he
        · cases h

/-- The logical lines of raw lines that have others after them: first their own, then those of the others. -/
theorem sourceLinesFrom_append {fuel number : Nat} {inComment : Bool} {raws : List String} {ls : List SourceLine}
    (hfuel : raws.length < fuel) (h : sourceLinesFrom fuel number inComment raws = .ok ls) :
    ∃ number' inComment', ∀ (more : List String) (fuel' : Nat), raws.length + more.length < fuel' →
      ∃ fuel'', more.length < fuel'' ∧ sourceLinesFrom fuel' number inComment (raws ++ more) =
        (sourceLinesFrom fuel'' number' inComment' more).map (ls ++ ·) := by
  induction fuel generalizing number inComment raws ls with
  | zero => omega
  | succ fuel ih =>
    cases raws with
    | nil =>
      cases h
      refine ⟨number, inComment, fun more fuel' hfuel' => ⟨fuel', by simpa using hfuel', ?_⟩⟩
      rw [List.nil_append]
      cases sourceLinesFrom fuel' number inComment more <;> rfl
    | cons raw rest =>
      rw [List.length_cons] at hfuel
      rw [sourceLinesFrom] at h
      dsimp only at h
      split at h
      · next hblank =>
        obtain ⟨number', inComment', hmore⟩ := ih (by omega) h
        refine ⟨number', inComment', fun more fuel' hfuel' => ?_⟩
        obtain ⟨fuel', rfl⟩ : ∃ k, fuel' = k + 1 := ⟨fuel' - 1, by omega⟩
        rw [List.length_cons] at hfuel'
        obtain ⟨fuel'', hlt, heq⟩ := hmore more fuel' (by omega)
        refine ⟨fuel'', hlt, ?_⟩
        rw [List.cons_append, sourceLinesFrom]
        dsimp only
        rw [if_pos hblank, heq]
      · next hblank =>
        split at h
        · cases h
        · next first after hsegments =>
          obtain ⟨-, hle⟩ := segmentLines_append [] hsegments
          split at h
          · cases h
          · next others hothers =>
            cases h
            obtain ⟨number', inComment', hmore⟩ := ih (by omega) hothers
            refine ⟨number', inComment', fun more fuel' hfuel' => ?_⟩
            obtain ⟨fuel', rfl⟩ : ∃ k, fuel' = k + 1 := ⟨fuel' - 1, by omega⟩
            rw [List.length_cons] at hfuel'
            obtain ⟨fuel'', hlt, heq⟩ := hmore more fuel' (by omega)
            refine ⟨fuel'', hlt, ?_⟩
            have hlength : (rest ++ more).length - (after ++ more).length = rest.length - after.length := by
              rw [List.length_append, List.length_append]
              omega
            rw [List.cons_append, sourceLinesFrom]
            dsimp only
            rw [if_neg hblank, (segmentLines_append more hsegments).1]
            dsimp only
            rw [hlength, heq]
            cases sourceLinesFrom fuel'' number' inComment' more with
            | error e => rfl
            | ok ls => simp [Except.map]

theorem sourceLines_error {source : String} {c : Condition} (h : sourceLines source = .error c) :
    ∃ delimiter, c.cause = .unterminatedBlock delimiter := sourceLinesFrom_error h

/-- A text with another after it has its logical lines first, or none at all. -/
theorem sourceLines_append {s : String} {ls : List SourceLine} (h : sourceLines s = .ok ls) (t : String)
    {ls' : List SourceLine} (h' : sourceLines (s ++ "\n" ++ t) = .ok ls') : ∃ more, ls' = ls ++ more := by
  obtain ⟨pad, hpad⟩ := lines_append s
  obtain ⟨number, inComment, hmore⟩ := sourceLinesFrom_append (Nat.lt_succ_self _) h
  obtain ⟨fuel, -, heq⟩ := hmore (pad ++ Text.lines t) ((Text.lines (s ++ "\n" ++ t)).length + 1)
    (by rw [hpad, ← List.length_append]; exact Nat.lt_succ_self _)
  rw [← hpad] at heq
  rw [sourceLines, heq] at h'
  cases hsource : sourceLinesFrom fuel number inComment (pad ++ Text.lines t) with
  | error e => rw [hsource] at h'; cases h'
  | ok more =>
    rw [hsource] at h'
    cases h'
    exact ⟨more, rfl⟩

/-! ## One plain line -/

def isPlainChar (c : Char) : Bool := !(['\'', '"', '/', '-', ';', '<'].contains c) && !Text.isLineBreak c

section

variable {cs : List Char} (h : ∀ c ∈ cs, isPlainChar c = true)

include h

theorem sealed_plain : Sealed cs := by
  induction cs with
  | nil => exact .nil
  | cons c cs ih =>
    obtain ⟨hc, hcs⟩ := List.forall_mem_cons.mp h
    simp only [isPlainChar, List.contains_cons, List.contains_nil, Bool.or_false, Bool.and_eq_true,
      Bool.not_eq_true', Bool.or_eq_false_iff, beq_eq_false_iff_ne] at hc
    obtain ⟨⟨hsingle, hdouble, hslash, hdash, hsemicolon, -⟩, -⟩ := hc
    refine .plain (by simp [isOutside, hsingle, hdouble, hsemicolon]) ?_ (ih hcs)
    rintro (hmark | hmark | hmark) <;> simp [Ne.symm hslash, Ne.symm hdash] at hmark

theorem findOpener_plain (p : Nat) : findOpener p cs = none := by
  induction cs generalizing p with
  | nil => rfl
  | cons c cs ih =>
    obtain ⟨hc, hcs⟩ := List.forall_mem_cons.mp h
    have hangle : c ≠ '<' := by
      rintro rfl
      cases hc
    have hopener : opener? (c :: cs) = none := by
      unfold opener?
      split
      · next heq => exact absurd (List.cons.inj heq).1 hangle
      · rfl
    rw [findOpener, hopener]
    exact ih hcs _

theorem sourceLines_plain {last : Char} (hlast : cs.getLast? = some last) (hblank : Text.isBlank last = false) :
    sourceLines (String.ofList cs) = .ok [⟨String.ofList cs, 1, 0, none⟩] := by
  have hne : cs ≠ [] := by
    rintro rfl
    cases hlast
  have hlines : Text.lines (String.ofList cs) = [String.ofList cs] := by
    refine lines_unbroken ?_ (by rwa [String.toList_ofList])
    rw [String.toList_ofList]
    exact fun c hc => by simpa using ((Bool.and_eq_true _ _).mp (h c hc)).2
  have hstrip : stripComments cs false = (cs, false) := by
    refine stripComments_whole ?_ fun c hc => ?_
    · have hwhole := (sealed_plain h).stripFrom divided_nil []
      rwa [List.append_nil, List.append_nil] at hwhole
    · rw [hlast] at hc
      cases hc
      exact hblank
  have hsegments : segments cs = [(cs, 0)] := by
    have hwhole := (sealed_plain h).segmentsFrom 0 0 [] []
    rw [List.append_nil, List.append_nil] at hwhole
    rw [segments, hwhole, segmentsFrom, List.reverse_reverse]
  have hsolid : cs.all Text.isBlank = false := by
    rw [List.all_eq_false]
    exact ⟨last, List.mem_of_getLast? hlast, by simp [hblank]⟩
  simp only [sourceLines, hlines, List.length_singleton, sourceLinesFrom, String.toList_ofList, hstrip, hsolid,
    Bool.false_eq_true, if_false, hsegments, segmentLines, findOpener_plain h, List.append_nil]

end

end Conductor.Syntax
