import Conductor.Proofs.Syntax.Columns
import Conductor.Proofs.Syntax.Literals

/-!
# The bodies of block literals

Of the lines of a block literal's body nothing counts but that none of them is the delimiter. What raw lines leave open
is told by a machine that takes them one after the other: a block comment, or a block literal whose delimiter is still
to come. Where whole lines leave nothing open, what follows them is read as if it came first, apart from its numbers.

So the logical lines around a block literal depend on the number of lines in its body and not on the lines.
-/

set_option autoImplicit false

namespace Conductor.Syntax

/-! ## Block openers -/

def IsName (w : List Char) : Prop :=
  ∃ c rest, w = c :: rest ∧ isNameStart c = true ∧ ∀ d ∈ rest, Text.isWordChar d = true

/-- A segment ends in a block opener: a name behind two angles, with nothing but blanks around it. -/
def OpensBlock (seg before name : List Char) : Prop :=
  ∃ gap trail, seg = before ++ '<' :: '<' :: (gap ++ (name ++ trail)) ∧ (∀ c ∈ gap, Text.isBlank c = true) ∧
    (∀ c ∈ trail, Text.isBlank c = true) ∧ IsName name

theorem isBlank_of_isNameStart {c : Char} (h : isNameStart c = true) : Text.isBlank c = false :=
  Text.isBlank_of_isWordChar (isWordChar_of_isNameStart h)

theorem takeName_name {gap name trail : List Char} (hgap : ∀ c ∈ gap, Text.isBlank c = true) (hname : IsName name)
    (htrail : ∀ c ∈ trail, Text.isBlank c = true) : takeName (gap ++ (name ++ trail)) = some (name, trail) := by
  obtain ⟨c, w, rfl, hc, hw⟩ := hname
  have hhalts : Halts Text.isWordChar trail := by
    intro d hd
    have hblank := htrail d (List.mem_of_mem_head? hd)
    refine Bool.eq_false_iff.mpr fun hword => ?_
    rw [Text.isBlank_of_isWordChar hword] at hblank
    cases hblank
  have hstart : Halts Text.isBlank (c :: w ++ trail) := halts_cons (isBlank_of_isNameStart hc) _
  rw [takeName, dropWhile_halts hgap hstart, List.cons_append]
  dsimp only
  rw [if_pos hc, takeWhile_halts hw hhalts, dropWhile_halts hw hhalts]

theorem name_of_takeName {cs name trail : List Char} (h : takeName cs = some (name, trail)) :
    ∃ gap, cs = gap ++ (name ++ trail) ∧ (∀ c ∈ gap, Text.isBlank c = true) ∧ IsName name := by
  unfold takeName at h
  split at h
  · next c more hmore =>
    split at h
    · next hc =>
      cases h
      refine ⟨cs.takeWhile Text.isBlank, ?_, fun d hd => List.mem_takeWhile_imp hd,
        ⟨c, _, rfl, hc, fun d hd => List.mem_takeWhile_imp hd⟩⟩
      rw [List.cons_append, List.takeWhile_append_dropWhile, ← hmore, List.takeWhile_append_dropWhile]
    · cases h
  · cases h

theorem opener?_eq_some {cs : List Char} {delimiter : String} :
    opener? cs = some delimiter ↔ ∃ name, OpensBlock cs [] name ∧ delimiter = String.ofList name := by
  constructor
  · intro h
    unfold opener? at h
    split at h
    · next rest =>
      split at h
      · next name trail htake =>
        split at h
        · next htrail =>
          cases h
          obtain ⟨gap, rfl, hgap, hname⟩ := name_of_takeName htake
          exact ⟨name, ⟨gap, trail, rfl, hgap, List.all_eq_true.mp htrail, hname⟩, rfl⟩
        · cases h
      · cases h
    · cases h
  · rintro ⟨name, ⟨gap, trail, rfl, hgap, htrail, hname⟩, rfl⟩
    rw [List.nil_append, opener?, takeName_name hgap hname htrail]
    dsimp only
    rw [if_pos (List.all_eq_true.mpr htrail)]

theorem notMem_opened {gap name trail : List Char} (hgap : ∀ c ∈ gap, Text.isBlank c = true) (hname : IsName name)
    (htrail : ∀ c ∈ trail, Text.isBlank c = true) : '<' ∉ gap ++ (name ++ trail) := by
  obtain ⟨d, w, rfl, hd, hw⟩ := hname
  simp only [List.mem_append, List.mem_cons, not_or]
  refine ⟨fun hmem => absurd (hgap _ hmem) (by decide), ⟨?_, fun hmem => absurd (hw _ hmem) (by decide)⟩,
    fun hmem => absurd (htrail _ hmem) (by decide)⟩
  rintro rfl
  exact absurd hd (by decide)

theorem findOpener_of_opensBlock {seg before name : List Char} (h : OpensBlock seg before name) (p : Nat) :
    findOpener p seg = some (p + before.length, String.ofList name) := by
  obtain ⟨gap, trail, rfl, hgap, htrail, hname⟩ := h
  induction before generalizing p with
  | nil =>
    have hopener : opener? ('<' :: '<' :: (gap ++ (name ++ trail))) = some (String.ofList name) :=
      opener?_eq_some.mpr ⟨name, ⟨gap, trail, rfl, hgap, htrail, hname⟩, rfl⟩
    rw [List.nil_append, findOpener, hopener]
    rfl
  | cons c before ih =>
    have hnone : opener? (c :: (before ++ '<' :: '<' :: (gap ++ (name ++ trail)))) = none := by
      refine Option.eq_none_iff_forall_not_mem.mpr fun delimiter hopener => ?_
      obtain ⟨name', ⟨gap', trail', hseg, hgap', htrail', hname'⟩, -⟩ := opener?_eq_some.mp hopener
      refine notMem_opened hgap' hname' htrail' ?_
      rw [List.nil_append] at hseg
      obtain ⟨-, hrest⟩ := List.cons.inj hseg
      cases before with
      | nil => rw [← (List.cons.inj hrest).2]; exact List.mem_cons_self
      | cons e before =>
        rw [← (List.cons.inj hrest).2]
        exact List.mem_append_right _ List.mem_cons_self
    rw [List.cons_append, findOpener, hnone]
    dsimp only
    rw [ih, List.length_cons, Nat.add_assoc, Nat.add_comm 1]

theorem opensBlock_of_findOpener {seg : List Char} {p q : Nat} {delimiter : String}
    (h : findOpener p seg = some (q, delimiter)) :
    ∃ before name, OpensBlock seg before name ∧ delimiter = String.ofList name := by
  obtain ⟨k, -, -, hopener⟩ := findOpener_eq_some h
  obtain ⟨name, ⟨gap, trail, hdrop, hblanks⟩, hdelimiter⟩ := opener?_eq_some.mp hopener
  refine ⟨seg.take k, name, ⟨gap, trail, ?_, hblanks⟩, hdelimiter⟩
  rw [List.nil_append] at hdrop
  rw [← hdrop, List.take_append_drop]

theorem findOpener_eq_none {seg : List Char} (h : ∀ before name, ¬ OpensBlock seg before name) (p : Nat) :
    findOpener p seg = none := by
  refine Option.eq_none_iff_forall_not_mem.mpr fun ⟨q, delimiter⟩ hfound => ?_
  obtain ⟨before, name, hopens, -⟩ := opensBlock_of_findOpener hfound
  exact h before name hopens

theorem OpensBlock.mem {seg before name : List Char} (h : OpensBlock seg before name) : '<' ∈ seg := by
  obtain ⟨gap, trail, rfl, -⟩ := h
  exact List.mem_append_right _ List.mem_cons_self

theorem not_all_blank {cs : List Char} (h : '<' ∈ cs) : ¬ cs.all Text.isBlank = true :=
  fun hall => absurd (List.all_eq_true.mp hall _ h) (by decide)

/-! ## The segments of a line -/

/-- The logical lines of segments of which none opens a block. -/
def plainLines (line : Nat) (segs : List (List Char × Nat)) : List SourceLine :=
  (segs.filter fun seg => !seg.1.all Text.isBlank).map fun seg => ⟨String.ofList seg.1, line, seg.2, none⟩

def delimiter? (segs : List (List Char × Nat)) : Option String :=
  segs.getLast?.bind fun seg => (findOpener 0 seg.1).map Prod.snd

theorem delimiter?_eq_some {segs : List (List Char × Nat)} {delimiter : String} (h : delimiter? segs = some delimiter) :
    ∃ earlier seg off text name, segs = earlier ++ [(seg, off)] ∧ OpensBlock seg text name ∧
      delimiter = String.ofList name := by
  obtain ⟨⟨seg, off⟩, hlast, hopened⟩ := Option.bind_eq_some_iff.mp h
  obtain ⟨⟨start, _⟩, hfound, rfl⟩ := Option.map_eq_some_iff.mp hopened
  obtain ⟨text, name, hopens, hname⟩ := opensBlock_of_findOpener hfound
  exact ⟨segs.dropLast, seg, off, text, name, (List.dropLast_append_getLast? _ hlast).symm, hopens, hname⟩

/-- The logical line of a segment that opens a block: the text before the opener, and the literal with its body. -/
def blockLine (line off : Nat) (text name : List Char) (body : List String) : SourceLine :=
  ⟨String.ofList text, line, off, some ⟨String.ofList name, String.intercalate "\n" body, formatOf (String.ofList name),
    line, off + text.length + 1⟩⟩

section

variable {line : Nat} {raws : List String}

theorem segmentLines_cons {seg : List Char} {off : Nat} {segs : List (List Char × Nat)} (h : segs ≠ []) :
    segmentLines line raws ((seg, off) :: segs) =
      (segmentLines line raws segs).map fun read => (plainLines line [(seg, off)] ++ read.1, read.2) := by
  rw [segmentLines]
  · cases segmentLines line raws segs with
    | error e => rfl
    | ok read =>
      dsimp only [Except.map]
      split <;> next hblank => simp [plainLines, hblank]
  · exact h

theorem segmentLines_concat (earlier : List (List Char × Nat)) (last : List Char × Nat) :
    segmentLines line raws (earlier ++ [last]) =
      (segmentLines line raws [last]).map fun read => (plainLines line earlier ++ read.1, read.2) := by
  generalize hlast : segmentLines line raws [last] = read
  induction earlier with
  | nil =>
    rw [List.nil_append, hlast]
    cases read <;> rfl
  | cons seg earlier ih =>
    obtain ⟨cs, off⟩ := seg
    rw [List.cons_append, segmentLines_cons (by simp), ih]
    cases read with
    | error e => rfl
    | ok read => simp [Except.map, plainLines, List.filter_cons]; split <;> rfl

theorem segmentLines_last_plain {seg : List Char} {off : Nat} (h : findOpener 0 seg = none) :
    segmentLines line raws [(seg, off)] = .ok (plainLines line [(seg, off)], raws) := by
  rw [segmentLines]
  split
  · next hblank => simp [plainLines, hblank]
  · next hblank => simp [plainLines, hblank, h]

theorem segmentLines_plain {segs : List (List Char × Nat)} (h : delimiter? segs = none) :
    segmentLines line raws segs = .ok (plainLines line segs, raws) := by
  rcases List.eq_nil_or_concat segs with rfl | ⟨earlier, ⟨seg, off⟩, rfl⟩
  · rfl
  · rw [List.concat_eq_append] at h ⊢
    have hnone : findOpener 0 seg = none := by simpa [delimiter?] using h
    rw [segmentLines_concat, segmentLines_last_plain hnone]
    simp [Except.map, plainLines]

theorem segmentLines_opener {seg text name : List Char} (h : OpensBlock seg text name) {body after : List String}
    (hbody : takeBody (String.ofList name) raws = some (body, after)) (earlier : List (List Char × Nat)) (off : Nat) :
    segmentLines line raws (earlier ++ [(seg, off)]) =
      .ok (plainLines line earlier ++ [blockLine line off text name body], after) := by
  have htext : seg.take (0 + text.length) = text := by
    obtain ⟨gap, trail, rfl, -⟩ := h
    rw [Nat.zero_add, List.take_left]
  rw [segmentLines_concat, segmentLines, if_neg (not_all_blank h.mem), findOpener_of_opensBlock h]
  dsimp only
  rw [hbody]
  dsimp only
  rw [htext, Nat.zero_add]
  rfl

end

theorem takeBody_cut {delimiter close : String} {body rest : List String}
    (hbody : ∀ raw ∈ body, Text.strip raw ≠ delimiter) (hclose : Text.strip close = delimiter) :
    takeBody delimiter (body ++ close :: rest) = some (body, rest) := by
  induction body with
  | nil => rw [List.nil_append, takeBody, if_pos (beq_iff_eq.mpr hclose)]
  | cons raw body ih =>
    obtain ⟨hraw, hbody⟩ := List.forall_mem_cons.mp hbody
    rw [List.cons_append, takeBody, if_neg (by simpa using hraw), ih hbody]
    rfl

/-! ## What raw lines leave open -/

/-- What is open between two raw lines: a block comment, and the block literal of a delimiter. -/
structure Open where
  comment : Bool
  literal : Option String
  deriving DecidableEq

namespace Open

def next (o : Open) (raw : String) : Open :=
  match o.literal with
  | some delimiter => if Text.strip raw == delimiter then ⟨o.comment, none⟩ else o
  | none =>
    ⟨(stripComments raw.toList o.comment).2, delimiter? (segments (stripComments raw.toList o.comment).1)⟩

def after : Open → List String → Open
  | o, [] => o
  | o, raw :: rest => (o.next raw).after rest

/-- Where a block literal is no longer open, its delimiter has come. -/
theorem closed {comment : Bool} {delimiter : String} {raws : List String}
    (h : (after ⟨comment, some delimiter⟩ raws).literal = none) : ∃ body close rest, raws = body ++ close :: rest ∧
      (∀ raw ∈ body, Text.strip raw ≠ delimiter) ∧ Text.strip close = delimiter ∧
      after ⟨comment, some delimiter⟩ raws = after ⟨comment, none⟩ rest := by
  induction raws with
  | nil => cases h
  | cons raw raws ih =>
    rw [after, next] at h ⊢
    dsimp only at h ⊢
    split at h
    · next hend =>
      rw [if_pos hend]
      exact ⟨[], raw, raws, rfl, nofun, eq_of_beq hend, rfl⟩
    · next hend =>
      rw [if_neg hend]
      obtain ⟨body, close, rest, rfl, hbody, hclose, hafter⟩ := ih h
      exact ⟨raw :: body, close, rest, rfl, List.forall_mem_cons.mpr ⟨by simpa using hend, hbody⟩, hclose, hafter⟩

end Open

/-! ## The lines of a source -/

theorem sourceLinesFrom_fuel {k m number : Nat} {inComment : Bool} {raws : List String} (hk : raws.length < k)
    (hm : raws.length < m) : sourceLinesFrom k number inComment raws = sourceLinesFrom m number inComment raws := by
  induction k generalizing m number inComment raws with
  | zero => omega
  | succ k ih =>
    obtain ⟨m, rfl⟩ := Nat.exists_eq_add_one_of_ne_zero (Nat.ne_of_gt (Nat.lt_of_le_of_lt (Nat.zero_le _) hm))
    cases raws with
    | nil => rfl
    | cons raw rest =>
      rw [List.length_cons] at hk hm
      rw [sourceLinesFrom, sourceLinesFrom]
      dsimp only
      split
      · exact ih (by omega) (by omega)
      · split
        · rfl
        · next ls after hsegments =>
          have hle := (segmentLines_append [] hsegments).2
          rw [ih (m := m) (by omega) (by omega)]

theorem segmentLines_blank {code : List Char} (h : code.all Text.isBlank = true) (line : Nat) (raws : List String) :
    segmentLines line raws (segments code) = .ok ([], raws) := by
  have hblank : ∀ seg ∈ segments code, seg.1.all Text.isBlank = true := by
    intro seg hseg
    have hwhole : code.drop 0 = [].reverse ++ code := rfl
    obtain ⟨-, hstarts⟩ := segmentsFrom_over (Nat.zero_le _) rfl hwhole seg hseg
    exact List.all_eq_true.mpr fun c hc => List.all_eq_true.mp h c (List.mem_of_mem_drop (hstarts.subset hc))
  have hnone : delimiter? (segments code) = none := by
    refine Option.eq_none_iff_forall_not_mem.mpr fun delimiter hopened => ?_
    obtain ⟨earlier, seg, off, text, name, hsegs, hopens, -⟩ := delimiter?_eq_some hopened
    exact not_all_blank hopens.mem (hblank (seg, off) (by rw [hsegs]; simp))
  have hempty : plainLines line (segments code) = [] := by
    rw [plainLines, List.filter_eq_nil_iff.mpr fun seg hseg => by simp [hblank seg hseg], List.map_nil]
  rw [segmentLines_plain hnone, hempty]

/-- One raw line, with the body that it may take, and the raw lines behind it. -/
theorem sourceLinesFrom_cons {fuel number : Nat} {inComment : Bool} {raw : String} {rest after : List String}
    {ls : List SourceLine}
    (h : segmentLines number rest (segments (stripComments raw.toList inComment).1) = .ok (ls, after)) :
    sourceLinesFrom (fuel + 1) number inComment (raw :: rest) =
      (sourceLinesFrom fuel (number + 1 + (rest.length - after.length)) (stripComments raw.toList inComment).2 after).map
        (ls ++ ·) := by
  rw [sourceLinesFrom]
  dsimp only
  split
  · next hblank =>
    rw [segmentLines_blank hblank] at h
    cases h
    rw [Nat.sub_self, Nat.add_zero]
    cases sourceLinesFrom fuel (number + 1) (stripComments raw.toList inComment).2 rest <;> rfl
  · rw [h]
    dsimp only
    cases sourceLinesFrom fuel (number + 1 + (rest.length - after.length)) (stripComments raw.toList inComment).2 after <;>
      rfl

/-- A raw line that opens a block literal, with the body and the delimiter behind it. -/
theorem sourceLinesFrom_block {fuel number off : Nat} {inComment : Bool} {raw close : String} {body rest : List String}
    {earlier : List (List Char × Nat)} {seg text name : List Char}
    (hsegs : segments (stripComments raw.toList inComment).1 = earlier ++ [(seg, off)])
    (hopens : OpensBlock seg text name) (hbody : ∀ raw ∈ body, Text.strip raw ≠ String.ofList name)
    (hclose : Text.strip close = String.ofList name) :
    sourceLinesFrom (fuel + 1) number inComment (raw :: (body ++ close :: rest)) =
      (sourceLinesFrom fuel (number + (body.length + 2)) (stripComments raw.toList inComment).2 rest).map
        (plainLines number earlier ++ [blockLine number off text name body] ++ ·) := by
  have hsegments : segmentLines number (body ++ close :: rest) (segments (stripComments raw.toList inComment).1) =
      .ok (plainLines number earlier ++ [blockLine number off text name body], rest) := by
    rw [hsegs]
    exact segmentLines_opener hopens (takeBody_cut hbody hclose) earlier off
  have hnumber : number + 1 + ((body ++ close :: rest).length - rest.length) = number + (body.length + 2) := by
    rw [List.length_append, List.length_cons]
    omega
  rw [sourceLinesFrom_cons hsegments, hnumber]

theorem map_append_map (x : Except Condition (List SourceLine)) (first second : List SourceLine) :
    (x.map (second ++ ·)).map (first ++ ·) = x.map (first ++ second ++ ·) := by
  cases x with
  | error e => rfl
  | ok ls => simp [Except.map]

/-- Raw lines that leave no block literal open have their own logical lines, and those of the raw lines behind them
follow. -/
theorem sourceLinesFrom_after {inComment : Bool} {raws : List String}
    (h : (Open.after ⟨inComment, none⟩ raws).literal = none) (number : Nat) :
    ∃ first, ∀ (more : List String) (fuel : Nat), raws.length + more.length < fuel →
      sourceLinesFrom fuel number inComment (raws ++ more) =
        (sourceLinesFrom (more.length + 1) (number + raws.length) (Open.after ⟨inComment, none⟩ raws).comment more).map
          (first ++ ·) := by
  induction hlength : raws.length using Nat.strong_induction_on generalizing number inComment raws with
  | _ n ih =>
    subst hlength
    cases raws with
    | nil =>
      refine ⟨[], fun more fuel hfuel => ?_⟩
      rw [List.nil_append, sourceLinesFrom_fuel (m := more.length + 1) (by simpa using hfuel) (Nat.lt_succ_self _)]
      show _ = (sourceLinesFrom (more.length + 1) number inComment more).map _
      cases sourceLinesFrom (more.length + 1) number inComment more <;> rfl
    | cons raw rest =>
      rw [Open.after, Open.next] at h ⊢
      dsimp only at h ⊢
      cases hopened : delimiter? (segments (stripComments raw.toList inComment).1) with
      | none =>
        rw [hopened] at h
        obtain ⟨first, hfirst⟩ := ih rest.length (Nat.lt_succ_self _) h (number + 1) rfl
        refine ⟨plainLines number (segments (stripComments raw.toList inComment).1) ++ first, fun more fuel hfuel => ?_⟩
        rw [List.length_cons] at hfuel
        obtain ⟨fuel, rfl⟩ : ∃ k, fuel = k + 1 := ⟨fuel - 1, by omega⟩
        rw [List.cons_append, sourceLinesFrom_cons (segmentLines_plain hopened), Nat.sub_self, Nat.add_zero,
          hfirst more fuel (by omega), map_append_map, List.length_cons, Nat.add_right_comm number 1, Nat.add_assoc]
      | some delimiter =>
        rw [hopened] at h
        obtain ⟨body, close, rest, rfl, hbody, hclose, hafter⟩ := Open.closed h
        rw [hafter] at h ⊢
        obtain ⟨earlier, seg, off, text, name, hsegs, hopens, rfl⟩ := delimiter?_eq_some hopened
        have hshorter : rest.length < (raw :: (body ++ close :: rest)).length := by
          rw [List.length_cons, List.length_append, List.length_cons]
          omega
        obtain ⟨first, hfirst⟩ := ih rest.length hshorter h (number + (body.length + 2)) rfl
        refine ⟨plainLines number earlier ++ [blockLine number off text name body] ++ first, fun more fuel hfuel => ?_⟩
        obtain ⟨fuel, rfl⟩ : ∃ k, fuel = k + 1 := ⟨fuel - 1, by omega⟩
        have hnumber : number + (body.length + 2) + rest.length = number + (raw :: (body ++ close :: rest)).length := by
          rw [List.length_cons, List.length_append, List.length_cons]
          omega
        rw [List.cons_append, List.append_assoc, List.cons_append, sourceLinesFrom_block hsegs hopens hbody hclose,
          hfirst more fuel (by omega), map_append_map, hnumber]

/-- A block literal has the raw lines of its body, joined by line feeds. The logical lines before it and behind it
depend on the number of these lines and not on what stands in them. Only what comes behind can still leave a block
literal open, and that does not depend on the body either. -/
theorem sourceLines_block {before after : List String} {opener close : String}
    (hbefore : Open.after ⟨false, none⟩ before = ⟨false, none⟩) {earlier : List (List Char × Nat)}
    {seg text name : List Char} {off : Nat}
    (hopener : segments (stripComments opener.toList false).1 = earlier ++ [(seg, off)])
    (hname : OpensBlock seg text name) (hclose : Text.strip close = String.ofList name) :
    ∃ first, ∀ (source : String) (body : List String), (∀ raw ∈ body, Text.strip raw ≠ String.ofList name) →
      Text.lines source = before ++ opener :: (body ++ close :: after) →
      sourceLines source =
        (sourceLinesFrom (after.length + 1) (before.length + body.length + 3)
          (stripComments opener.toList false).2 after).map
          (first ++ plainLines (before.length + 1) earlier ++
            blockLine (before.length + 1) off text name body :: ·) := by
  have hliteral : (Open.after ⟨false, none⟩ before).literal = none := by rw [hbefore]
  obtain ⟨first, hfirst⟩ := sourceLinesFrom_after hliteral 1
  refine ⟨first, fun source body hbody hlines => ?_⟩
  have hnumber : 1 + before.length + (body.length + 2) = before.length + body.length + 3 := by omega
  have hfuel : after.length < (opener :: (body ++ close :: after)).length := by
    rw [List.length_cons, List.length_append, List.length_cons]
    omega
  rw [sourceLines, hlines, hfirst _ _ (by rw [List.length_append]; exact Nat.lt_succ_self _), hbefore,
    sourceLinesFrom_block hopener hname hbody hclose, map_append_map, hnumber, Nat.add_comm 1,
    sourceLinesFrom_fuel hfuel (Nat.lt_succ_self _)]
  simp only [List.append_assoc, List.singleton_append]

theorem sourceLines_block_quoted : ∃ first later,
    sourceLines "/* a\n*/ y = <<U\n/*\nU\nx = <<T\nit's /* <<U; --\n T\nSAY x" =
      .ok (first ++ blockLine 5 0 "x = ".toList "T".toList ["it's /* <<U; --"] :: later) := by
  have hbefore : Open.after ⟨false, none⟩ ["/* a", "*/ y = <<U", "/*", "U"] = ⟨false, none⟩ := by decide +kernel
  have hopener : segments (stripComments "x = <<T".toList false).1 = [] ++ [("x = <<T".toList, 0)] := by decide +kernel
  have hname : OpensBlock "x = <<T".toList "x = ".toList "T".toList :=
    ⟨[], [], by decide, nofun, nofun, 'T', [], by decide, by decide, nofun⟩
  have hclose : Text.strip " T" = String.ofList "T".toList := by decide +kernel
  have hbody : ∀ raw ∈ ["it's /* <<U; --"], Text.strip raw ≠ String.ofList "T".toList := by decide +kernel
  have hlines : Text.lines "/* a\n*/ y = <<U\n/*\nU\nx = <<T\nit's /* <<U; --\n T\nSAY x" =
      ["/* a", "*/ y = <<U", "/*", "U"] ++ "x = <<T" :: (["it's /* <<U; --"] ++ " T" :: ["SAY x"]) := by decide +kernel
  have hlater : sourceLinesFrom 2 8 false ["SAY x"] = .ok [⟨"SAY x", 8, 0, none⟩] := rfl
  obtain ⟨first, hfirst⟩ := @sourceLines_block _ ["SAY x"] _ _ hbefore _ _ _ _ _ hopener hname hclose
  refine ⟨first ++ plainLines 5 [], [⟨"SAY x", 8, 0, none⟩], ?_⟩
  exact (hfirst _ _ hbody hlines).trans (congrArg (Except.map _) hlater)

/-- What follows a block literal can leave another one open, and then there are no logical lines at all. -/
theorem sourceLines_block_open_after :
    Text.lines "<<A\nb\nA\n<<B" = [] ++ "<<A" :: (["b"] ++ "A" :: ["<<B"]) ∧
      segments (stripComments "<<A".toList false).1 = [] ++ [("<<A".toList, 0)] ∧
      OpensBlock "<<A".toList [] "A".toList ∧ Text.strip "b" ≠ String.ofList "A".toList ∧
      Text.strip "A" = String.ofList "A".toList ∧ ∃ c, sourceLines "<<A\nb\nA\n<<B" = .error c := by
  refine ⟨by decide +kernel, by decide +kernel, ⟨[], [], by decide, nofun, nofun, 'A', [], by decide, by decide, nofun⟩,
    by decide +kernel, by decide +kernel, ?_⟩
  have hfails : (sourceLines "<<A\nb\nA\n<<B").isOk = false := by decide +kernel
  cases hlines : sourceLines "<<A\nb\nA\n<<B" with
  | error c => exact ⟨c, rfl⟩
  | ok ls =>
    rw [hlines] at hfails
    cases hfails

end Conductor.Syntax
