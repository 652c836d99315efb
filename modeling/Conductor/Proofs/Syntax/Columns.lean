import Conductor.Proofs.Syntax.Placement
import Mathlib.Data.List.Forall2
import Mathlib.Data.List.Infix

/-!
# Columns

A logical line stands in its raw line at its offset: where it has a character other than a blank, the raw line has it
too. For a comment leaves blanks of its own length, semicolons cut a line into pieces that keep their starts, and the
lines that a block literal takes are counted.
-/

set_option autoImplicit false

namespace Conductor.Syntax

/-! ## A text over another -/

def Stands (c d : Char) : Prop := c = ' ' ∨ c = d

def Over (p : Nat) (cs raw : List Char) : Prop :=
  p ≤ raw.length ∧ ∃ under, under <+: raw.drop p ∧ List.Forall₂ Stands cs under

theorem prefix_of_stands {cs under w : List Char} (h : List.Forall₂ Stands cs under) (hw : w <+: cs) (hblank : ' ' ∉ w) :
    w <+: under := by
  induction h generalizing w with
  | nil => exact hw
  | @cons c d cs under hcd _ ih =>
    cases w with
    | nil => exact List.nil_prefix
    | cons e w =>
      obtain ⟨rfl, hrest⟩ := List.cons_prefix_cons.mp hw
      obtain ⟨he, hblank⟩ := List.ne_and_not_mem_of_not_mem_cons hblank
      obtain rfl := hcd.resolve_left he.symm
      exact List.cons_prefix_cons.mpr ⟨rfl, ih hrest hblank⟩

namespace Over

variable {p k : Nat} {cs raw : List Char}

theorem length_le (h : Over p cs raw) : p + cs.length ≤ raw.length := by
  obtain ⟨hp, under, hunder, hstands⟩ := h
  have hle := hunder.length_le
  rw [List.length_drop, ← hstands.length_eq] at hle
  omega

theorem drop (h : Over p cs raw) (hk : k ≤ cs.length) : Over (p + k) (cs.drop k) raw := by
  have hle := h.length_le
  obtain ⟨-, under, hunder, hstands⟩ := h
  refine ⟨by omega, under.drop k, ?_, List.forall₂_drop k hstands⟩
  rw [← List.drop_drop]
  exact hunder.drop k

theorem shorter (h : Over p cs raw) {w : List Char} (hw : w <+: cs) : Over p w raw := by
  obtain ⟨hp, under, hunder, hstands⟩ := h
  obtain ⟨rest, rfl⟩ := hw
  refine ⟨hp, under.take w.length, (List.take_prefix _ _).trans hunder, ?_⟩
  have := List.forall₂_take w.length hstands
  rwa [List.take_left] at this

theorem prefix_drop (h : Over p cs raw) {w : List Char} {q : Nat} (hw : w <+: cs.drop q) (hblank : ' ' ∉ w) :
    w <+: raw.drop (p + q) := by
  obtain ⟨-, under, hunder, hstands⟩ := h
  rw [← List.drop_drop]
  exact (prefix_of_stands (List.forall₂_drop q hstands) hw hblank).trans (hunder.drop q)

end Over

/-! ## Comments -/

theorem stripFrom_stands (inside : Inside) (out line : List Char) {passed : List Char}
    (h : List.Forall₂ Stands out passed) : ∃ under, under.reverse <+: passed.reverse ++ line ∧
      List.Forall₂ Stands (stripFrom inside out line).1 under := by
  have hblank (d : Char) : Stands ' ' d := .inl rfl
  have hsame (d : Char) : Stands d d := .inr rfl
  fun_induction stripFrom inside out line generalizing passed with
  | case1 | case6 | case7 => exact ⟨passed, List.prefix_append _ _, h⟩
  | case2 out rest ih => simpa using ih (.cons (hblank '/') (.cons (hblank '*') h))
  | case5 out rest ih => simpa using ih (.cons (hblank '*') (.cons (hblank '/') h))
  | case3 out c rest _ ih => simpa using ih (.cons (hblank c) h)
  | case4 q out c rest ih | case8 out c rest _ _ _ ih => simpa using ih (.cons (hsame c) h)

/-- A line without its comments stands over the line. -/
theorem over_stripComments (line : List Char) (inComment : Bool) : Over 0 (stripComments line inComment).1 line := by
  obtain ⟨under, hunder, hstands⟩ := stripFrom_stands (if inComment then .comment else .code) [] line .nil
  rw [List.reverse_nil, List.nil_append] at hunder
  refine ⟨Nat.zero_le _, ?_⟩
  generalize hout : (stripFrom (if inComment then .comment else .code) [] line).1 = out at hstands
  have hcode : (stripComments line inComment).1 = (out.dropWhile Text.isBlank).reverse := by rw [← hout]; rfl
  obtain ⟨blanks, hblanks⟩ := List.dropWhile_suffix (l := out) Text.isBlank
  have hdrop := List.forall₂_drop blanks.length hstands
  rw [← hblanks, List.drop_left] at hdrop
  rw [hcode]
  refine ⟨(under.drop blanks.length).reverse, ?_, List.forall₂_reverse_iff.mpr hdrop⟩
  exact (List.reverse_prefix.mpr (List.drop_suffix _ _)).trans hunder

/-! ## Statements on one line -/

theorem segmentsFrom_over {whole : List Char} {quote : Option Char} {start p : Nat} {piece cs : List Char}
    (hstart : start ≤ whole.length) (hp : p = start + piece.length)
    (hwhole : whole.drop start = piece.reverse ++ cs) :
    ∀ seg ∈ segmentsFrom quote start p piece cs, seg.2 ≤ whole.length ∧ seg.1 <+: whole.drop seg.2 := by
  fun_induction segmentsFrom quote start p piece cs with
  | case1 quote start p piece =>
    rw [List.append_nil] at hwhole
    exact List.forall_mem_singleton.mpr ⟨hstart, hwhole ▸ List.prefix_rfl⟩
  | case2 q start p piece c rest ih | case4 start p piece c rest _ ih =>
    exact ih hstart (by simp; omega) (by simp [hwhole])
  | case3 start p piece c rest _ ih =>
    have hlength := congrArg List.length hwhole
    simp only [List.length_drop, List.length_append, List.length_reverse, List.length_cons] at hlength
    refine List.forall_mem_cons.mpr ⟨⟨hstart, hwhole ▸ List.prefix_append _ _⟩, ih (by omega) (by simp) ?_⟩
    have hpiece : piece.reverse.length = piece.length := List.length_reverse
    have hcut : whole.drop (start + (piece.length + 1)) = rest := by
      rw [← List.drop_drop, hwhole, ← hpiece, ← List.drop_drop, List.drop_left, List.drop_one, List.tail_cons]
    rwa [hp]

theorem segments_over {p : Nat} {code raw : List Char} (h : Over p code raw) :
    ∀ seg ∈ segments code, Over (p + seg.2) seg.1 raw := by
  intro seg hseg
  have hwhole : code.drop 0 = [].reverse ++ code := rfl
  obtain ⟨hle, hstarts⟩ := segmentsFrom_over (Nat.zero_le _) rfl hwhole seg hseg
  exact (h.drop hle).shorter hstarts

theorem findOpener_eq_some {p q : Nat} {cs : List Char} {name : String} (h : findOpener p cs = some (q, name)) :
    ∃ k, q = p + k ∧ k < cs.length ∧ opener? (cs.drop k) = some name := by
  induction cs generalizing p with
  | nil => cases h
  | cons c rest ih =>
    rw [findOpener] at h
    split at h
    · next found hfound =>
      cases h
      exact ⟨0, rfl, Nat.succ_pos _, hfound⟩
    · obtain ⟨k, rfl, hk, hname⟩ := ih h
      exact ⟨k + 1, by omega, Nat.succ_lt_succ hk, hname⟩

/-! ## Logical lines -/

/-- The raw line of a source text with a number. Lines are counted from one. -/
def lineAt? (source : String) : Nat → Option String
  | 0 => none
  | n + 1 => (Text.lines source)[n]?

def SourceLine.Drawn (source : String) (l : SourceLine) : Prop :=
  ∃ raw, lineAt? source l.line = some raw ∧ Over l.offset l.code.toList raw.toList ∧
    ∀ b ∈ l.block, 1 ≤ b.col ∧ b.col ≤ raw.length + 1

def PointsInto (source : String) (c : Condition) : Prop :=
  ∃ line col raw, c.line = some line ∧ c.col = some col ∧ lineAt? source line = some raw ∧ 1 ≤ col ∧ col ≤ raw.length + 1

theorem takeBody_isSuffix {delimiter : String} {raws body after : List String}
    (h : takeBody delimiter raws = some (body, after)) : after <:+ raws := by
  induction raws generalizing body with
  | nil => cases h
  | cons raw raws ih =>
    rw [takeBody] at h
    split at h
    · cases h
      exact List.suffix_cons _ _
    · obtain ⟨⟨body', after'⟩, hcut, hsame⟩ := Option.map_eq_some_iff.mp h
      cases hsame
      exact (ih hcut).trans (List.suffix_cons _ _)

section

variable {source raw : String} {line : Nat} {raws : List String} {segs : List (List Char × Nat)}
  (hraw : lineAt? source line = some raw) (hsegs : ∀ seg ∈ segs, Over seg.2 seg.1 raw.toList)

include hraw hsegs

theorem segmentLines_drawn {ls : List SourceLine} {after : List String}
    (h : segmentLines line raws segs = .ok (ls, after)) : (∀ l ∈ ls, l.Drawn source) ∧ after <:+ raws := by
  have hdrawn {seg : List Char} {off : Nat} (hseg : Over off seg raw.toList) {block : Option BlockLiteral}
      (hblock : ∀ b ∈ block, 1 ≤ b.col ∧ b.col ≤ raw.length + 1) :
      SourceLine.Drawn source ⟨String.ofList seg, line, off, block⟩ :=
    ⟨raw, hraw, by rwa [String.toList_ofList], hblock⟩
  have hplain {seg : List Char} {off : Nat} (hseg : Over off seg raw.toList) :
      SourceLine.Drawn source ⟨String.ofList seg, line, off, none⟩ := hdrawn hseg fun b hb => by cases hb
  fun_induction segmentLines line raws segs generalizing ls after with
  | case1 | case2 =>
    cases h
    exact ⟨List.forall_mem_nil _, List.suffix_rfl⟩
  | case3 seg off =>
    cases h
    exact ⟨List.forall_mem_singleton.mpr (hplain (hsegs _ List.mem_cons_self)), List.suffix_rfl⟩
  | case4 => cases h
  | case5 seg off _ start delimiter hopener body rest hbody =>
    cases h
    have hseg := hsegs _ List.mem_cons_self
    obtain ⟨k, rfl, hk, -⟩ := findOpener_eq_some hopener
    refine ⟨List.forall_mem_singleton.mpr (hdrawn (hseg.shorter (List.take_prefix _ _)) fun b hb => ?_),
      takeBody_isSuffix hbody⟩
    have hle := hseg.length_le
    rw [String.length_toList] at hle
    cases hb
    refine ⟨Nat.succ_pos _, ?_⟩
    show off + (0 + k) + 1 ≤ _
    dsimp only at hle
    omega
  | case6 => cases h
  | case7 seg off segs _ ls' rest hrest _ ih =>
    cases h
    exact ih (List.forall_mem_cons.mp hsegs).2 hrest
  | case8 seg off segs _ ls' rest hrest _ ih =>
    cases h
    obtain ⟨hseg, hsegs⟩ := List.forall_mem_cons.mp hsegs
    obtain ⟨hls, hsuffix⟩ := ih hsegs hrest
    exact ⟨List.forall_mem_cons.mpr ⟨hplain hseg, hls⟩, hsuffix⟩

theorem segmentLines_points {c : Condition} (h : segmentLines line raws segs = .error c) : PointsInto source c := by
  fun_induction segmentLines line raws segs with
  | case4 seg off _ start delimiter hopener =>
    cases h
    obtain ⟨k, rfl, hk, -⟩ := findOpener_eq_some hopener
    have hle := (hsegs _ List.mem_cons_self).length_le
    rw [String.length_toList] at hle
    dsimp only at hle
    exact ⟨line, _, raw, rfl, rfl, hraw, Nat.succ_pos _, by omega⟩
  | case6 seg off segs _ e he ih =>
    cases h
    exact ih (List.forall_mem_cons.mp hsegs).2 he
  | _ => cases h

end

section

variable {source : String} {done raws : List String} (hlines : Text.lines source = done ++ raws)

include hlines

theorem lineAt_next {raw : String} {rest : List String} (h : raws = raw :: rest) :
    lineAt? source (done.length + 1) = some raw := by
  rw [lineAt?, hlines, h, List.getElem?_append_right (Nat.le_refl _), Nat.sub_self]
  rfl

/-- The logical lines from a raw line on stand in the source, and so does what they fail with. -/
theorem sourceLinesFrom_drawn (fuel : Nat) (inComment : Bool) :
    (∀ ls, sourceLinesFrom fuel (done.length + 1) inComment raws = .ok ls → ∀ l ∈ ls, l.Drawn source) ∧
      ∀ c, sourceLinesFrom fuel (done.length + 1) inComment raws = .error c → PointsInto source c := by
  induction fuel generalizing done inComment raws with
  | zero => exact ⟨fun ls h => by cases h; exact nofun, fun c h => by cases h⟩
  | succ fuel ih =>
    cases raws with
    | nil => exact ⟨fun ls h => by cases h; exact nofun, fun c h => by cases h⟩
    | cons raw rest =>
      have hraw := lineAt_next hlines rfl
      have hsegs := segments_over (over_stripComments raw.toList inComment)
      simp only [Nat.zero_add] at hsegs
      rw [sourceLinesFrom]
      dsimp only
      split
      · have hrest : Text.lines source = (done ++ [raw]) ++ rest := by rw [hlines, List.append_assoc]; rfl
        have hnext := ih hrest (stripComments raw.toList inComment).2
        rwa [List.length_append] at hnext
      split
      · next e he => exact ⟨fun _ h => (by cases h), fun _ h => by cases h; exact segmentLines_points hraw hsegs he⟩
      next ls after hsegments =>
      obtain ⟨hls, taken, hafter⟩ := segmentLines_drawn hraw hsegs hsegments
      have hnumber : done.length + 1 + 1 + (rest.length - after.length) = (done ++ raw :: taken).length + 1 := by
        simp only [← hafter, List.length_append, List.length_cons]
        omega
      have hrest : Text.lines source = (done ++ raw :: taken) ++ after := by rw [hlines, ← hafter]; simp
      have hnext := ih hrest (stripComments raw.toList inComment).2
      rw [hnumber]
      split
      · next e he => exact ⟨fun _ h => (by cases h), fun _ h => by cases h; exact hnext.2 e he⟩
      · next more hmore =>
        refine ⟨fun _ h => ?_, fun _ h => (by cases h)⟩
        cases h
        exact List.forall_mem_append.mpr ⟨hls, hnext.1 more hmore⟩

end

theorem sourceLines_drawn {source : String} {ls : List SourceLine} (h : sourceLines source = .ok ls) :
    ∀ l ∈ ls, l.Drawn source := (sourceLinesFrom_drawn (List.nil_append _).symm _ _).1 ls h

theorem sourceLines_points {source : String} {c : Condition} (h : sourceLines source = .error c) : PointsInto source c :=
  (sourceLinesFrom_drawn (List.nil_append _).symm _ _).2 c h

end Conductor.Syntax
