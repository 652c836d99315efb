import Conductor.Proofs.Interpolation.Cut
import Conductor.Proofs.Syntax.Numeral
import Conductor.Proofs.Text.Blanks

/-!
# Stray delimiters

A start delimiter is taken together with the next stop delimiter, whatever is between them. So a
reference is found if no start delimiter stands before it; a start delimiter that was never closed takes
the stop delimiter of the reference for its own, and the reference stays as it is written although it is
bound.
-/

set_option autoImplicit false

namespace Conductor.Interpolation

/-! ## The pass from a reference on -/

section

variable {start stop text before rest inside after : List Char} {refs : List (List Char × List Char)}

theorem exists_of_append_eq {u v x y : List Char} (h : u ++ v = x ++ y) (hlength : u.length ≤ x.length) :
    ∃ w, x = u ++ w ∧ v = w ++ y := by
  obtain ⟨w, rfl⟩ := List.prefix_of_prefix_length_le ⟨v, rfl⟩ ⟨y, h.symm⟩ hlength
  rw [List.append_assoc, List.append_cancel_left_eq] at h
  exact ⟨w, rfl, h⟩

theorem pair_eq (hstart : Text.FirstCut start text before rest) (hstop : Text.FirstCut stop rest inside after) :
    text = before ++ start ++ inside ++ stop ++ after := by
  rw [hstart.eq, hstop.eq]
  simp only [List.append_assoc]

theorem Cut.unique {before' : List Char} {refs' : List (List Char × List Char)} (h : Cut start stop text before refs)
    (h' : Cut start stop text before' refs') : before = before' ∧ refs = refs' := by
  induction h generalizing before' refs' with
  | last hnone =>
    cases h' with
    | last => exact ⟨rfl, rfl⟩
    | reference hstart hstop _ => exact absurd (pair_eq hstart hstop) (hnone _ _ _)
  | reference hstart hstop _ ih =>
    cases h' with
    | last hnone => exact absurd (pair_eq hstart hstop) (hnone _ _ _)
    | reference hstart' hstop' hrefs' =>
      obtain ⟨rfl, rfl⟩ := hstart.unique hstart'
      obtain ⟨rfl, rfl⟩ := hstop.unique hstop'
      obtain ⟨rfl, rfl⟩ := ih hrefs'
      exact ⟨rfl, rfl⟩

variable {p : Pattern} (hne : p.start ≠ "")

include hne

theorem exists_fill (text : List Char) : ∃ before refs, Cut p.start.toList p.stop.toList text before refs ∧
    ∀ lookup, fill p lookup (String.ofList text) = do
      return interleave before refs (← refs.mapM fun r => replacement p lookup r.1) := by
  obtain ⟨before, refs, hcut, hparts⟩ : ∃ before refs, Cut p.start.toList p.stop.toList text before refs ∧
      partsFrom p.start.toList p.stop.toList (text.length + 1) text = woven before refs :=
    exists_cut (fun h => hne (String.toList_eq_nil_iff.mp h)) (Nat.lt_succ_self text.length)
  refine ⟨before, refs, hcut, fun lookup => fill_eq ?_ lookup⟩
  rw [parts, String.toList_ofList, ← String.length_toList, String.toList_ofList, hparts]

theorem fill_of_cut (h : Cut p.start.toList p.stop.toList text before refs) (lookup : String → Memory.Act Value) :
    fill p lookup (String.ofList text) = do
      return interleave before refs (← refs.mapM fun r => replacement p lookup r.1) := by
  obtain ⟨before', refs', hcut, hfill⟩ := exists_fill hne text
  obtain ⟨rfl, rfl⟩ := h.unique hcut
  exact hfill lookup

theorem fill_reference (hstart : Text.FirstCut p.start.toList text before rest)
    (hstop : Text.FirstCut p.stop.toList rest inside after) (lookup : String → Memory.Act Value) :
    fill p lookup (String.ofList text) = do
      let s ← replacement p lookup inside
      let more ← fill p lookup (String.ofList after)
      return String.ofList before ++ s ++ more := by
  obtain ⟨next, refs, hrest, hfill⟩ := exists_fill hne after
  rw [fill_of_cut hne (.reference hstart hstop hrest), hfill, List.mapM_cons]
  simp [interleave, String.append_assoc]

theorem fill_append {u v : List Char} (h : ∀ x y, u ++ v = x ++ p.start.toList ++ y → u.length ≤ x.length)
    (lookup : String → Memory.Act Value) :
    fill p lookup (String.ofList (u ++ v)) = do return String.ofList u ++ (← fill p lookup (String.ofList v)) := by
  obtain ⟨before, refs, hcut, hfill⟩ := exists_fill hne v
  have hlonger : Cut p.start.toList p.stop.toList (u ++ v) (u ++ before) refs := by
    cases hcut with
    | last hnone =>
      refine .last fun x y z heq => ?_
      have heq' : u ++ v = x ++ (p.start.toList ++ (y ++ p.stop.toList ++ z)) := by simpa using heq
      obtain ⟨x', -, hv⟩ := exists_of_append_eq heq' (h x _ (by simpa using heq))
      exact hnone x' y z (by simpa using hv)
    | reference hstart hstop hrefs =>
      refine .reference ⟨by rw [hstart.eq]; simp, fun x y heq => ?_⟩ hstop hrefs
      obtain ⟨x', rfl, hv⟩ := exists_of_append_eq (by simpa using heq) (h x y heq)
      have := hstart.first x' y (by simpa using hv)
      simp only [List.length_append]
      omega
  rw [fill_of_cut hne hlonger, hfill]
  simp [interleave, String.append_assoc]

end

/-! ## Delimiters that no reference contains -/

/-- Delimiters that are not empty and have no blank and no character of a dotted path in them. -/
structure Pattern.Clear (p : Pattern) : Prop where
  start_ne : p.start ≠ ""
  stop_ne : p.stop ≠ ""
  apart : ∀ c ∈ p.start.toList ++ p.stop.toList, Text.isBlank c = false ∧ isReferencePart c = false ∧ c ≠ '.'

/-- A pattern could stand across the end of a text, if itself came next. -/
def Straddles (pattern text : List Char) : Prop :=
  ∃ y z, y ≠ [] ∧ z ≠ [] ∧ pattern = y ++ z ∧ y <:+ text ∧ z <+: pattern

theorem isReferencePart_of_isReferenceStart {c : Char} (h : isReferenceStart c = true) : isReferencePart c = true := by
  simp only [isReferenceStart, Bool.or_eq_true, beq_iff_eq] at h
  rcases h with (((h | rfl) | rfl) | rfl) | rfl
  · have hletter : Text.isLetter c = true := by
      have hascii : c.toNat < 128 := by
        have hletter := Text.toNat_of_isAlpha h
        omega
      rw [Text.isLetter, if_pos hascii, h]
    simp [isReferencePart, Text.isWordChar, Text.isAlphanumeric_of_isLetter hletter]
  all_goals decide

theorem isBlank_of_isReferencePart {c : Char} (h : isReferencePart c = true) : Text.isBlank c = false := by
  simp only [isReferencePart, Bool.or_eq_true, beq_iff_eq] at h
  rcases h with (((h | rfl) | rfl) | rfl) | rfl
  · exact Text.isBlank_of_isWordChar h
  all_goals rfl

theorem IsPath.part {s : String} (h : IsPath s) : ∀ c ∈ s.toList, isReferencePart c = true ∨ c = '.' := by
  obtain ⟨c, name, words, htext, hc, hname, hwords⟩ := h
  rw [htext]
  intro d hd
  rcases List.mem_append.mp hd with hd | hd
  · rcases List.mem_cons.mp hd with rfl | hd
    · exact .inl (isReferencePart_of_isReferenceStart hc)
    · exact .inl (hname d hd)
  · obtain ⟨word, hword, hd⟩ := List.mem_flatMap.mp hd
    rcases List.mem_cons.mp hd with rfl | hd
    · exact .inr rfl
    · exact .inl ((hwords word hword).2 d hd)

theorem IsPath.ne_nil {s : String} (h : IsPath s) : s.toList ≠ [] := by
  obtain ⟨c, name, words, htext, -⟩ := h
  rw [htext]
  exact List.cons_ne_nil _ _

theorem IsPath.not_blank {s : String} (h : IsPath s) : ∀ c ∈ s.toList, Text.isBlank c = false := by
  intro c hc
  rcases h.part c hc with hpart | rfl
  · exact isBlank_of_isReferencePart hpart
  · rfl

theorem asked_of_isPath {ref : String} (h : IsPath ref) : asked ref.toList = ref := by
  rw [asked, Text.strip, String.toList_ofList, Text.stripWhile_eq_self h.not_blank, String.ofList_toList]

theorem replacement_of_mem {p : Pattern} {inside : List Char} {c : Char} (hc : c ∈ inside)
    (hapart : Text.isBlank c = false ∧ isReferencePart c = false ∧ c ≠ '.') (lookup : String → Memory.Act Value) :
    replacement p lookup inside = return p.enclosed inside := by
  obtain ⟨hblank, hpart, hpoint⟩ := hapart
  rw [replacement, if_neg]
  intro hpath
  have hmem : c ∈ (asked inside).toList := by
    rw [asked, Text.strip, String.toList_ofList, String.toList_ofList]
    exact Text.mem_stripWhile hc hblank
  rcases hpath.part c hmem with h | h
  · rw [hpart] at h
    cases h
  · exact hpoint h

/-! ## Where delimiters stand -/

section

variable {pattern u v w x y before after : List Char}

theorem length_le_of_apart (hu : ¬ pattern <:+: u) (hw : ∀ c ∈ w, c ∉ pattern) (hne : w ≠ [])
    (h : u ++ w ++ v = x ++ pattern ++ y) : (u ++ w).length ≤ x.length := by
  have hpattern : 0 < pattern.length := List.length_pos_iff.mpr fun hnil => hu (hnil ▸ List.nil_infix)
  have hw' := List.length_pos_iff.mpr hne
  by_contra hlt
  rw [List.length_append] at hlt
  by_cases hinside : (x ++ pattern).length ≤ u.length
  · obtain ⟨u', hu', -⟩ := exists_of_append_eq (v := y) (x := u) (by simpa using h.symm) hinside
    exact hu ⟨x, u', hu'.symm⟩
  · -- the pattern and `w` meet at the place where the later of them begins
    rw [List.length_append] at hinside
    have hmeet := congrArg (·[max u.length x.length]?) h
    rw [List.append_assoc, List.getElem?_append_right (by omega), List.getElem?_append_left (by omega),
      List.append_assoc, List.getElem?_append_right (by omega), List.getElem?_append_left (by omega),
      List.getElem?_eq_getElem (by omega), List.getElem?_eq_getElem (by omega), Option.some_inj] at hmeet
    exact hw _ (List.getElem_mem _) (hmeet.symm ▸ List.getElem_mem _)

theorem firstCut_of_apart (hu : ¬ pattern <:+: u) (hw : ∀ c ∈ w, c ∉ pattern) (hne : w ≠ []) :
    Text.FirstCut pattern (u ++ w ++ pattern ++ v) (u ++ w) v :=
  ⟨rfl, fun _ _ h => length_le_of_apart hu hw hne (by simpa using h)⟩

theorem firstCut_append (h : Text.FirstCut pattern u before after) (v : List Char) :
    Text.FirstCut pattern (u ++ v) before (after ++ v) := by
  refine ⟨by rw [h.eq]; simp, fun x y heq => ?_⟩
  by_contra hlt
  have hlength := congrArg List.length h.eq
  simp only [List.length_append] at hlength
  obtain ⟨y', hy', -⟩ := exists_of_append_eq (u := x ++ pattern) (x := u) heq.symm
    (by simp only [List.length_append]; omega)
  exact hlt (h.first x y' hy')

/-- A pattern that neither stands in a text nor across its end begins behind it. -/
theorem length_le_of_not_straddles (hu : ¬ pattern <:+: u) (hend : ¬ Straddles pattern u)
    (h : u ++ (pattern ++ v) = x ++ pattern ++ y) : u.length ≤ x.length := by
  by_contra hlt
  by_cases hinside : (x ++ pattern).length ≤ u.length
  · obtain ⟨u', hu', -⟩ := exists_of_append_eq (u := x ++ pattern) (x := u) h.symm hinside
    exact hu ⟨x, u', hu'.symm⟩
  · obtain ⟨z, hz, hrest⟩ := exists_of_append_eq (u := u) (x := x ++ pattern) h (by omega)
    obtain ⟨k, hk, hpattern⟩ := exists_of_append_eq (u := x) (x := u) hz (by omega)
    refine hend ⟨k, z, ?_, ?_, hpattern, ⟨x, hk.symm⟩, ?_⟩
    · rintro rfl
      simp [hk] at hlt
    · rintro rfl
      rw [hz] at hinside
      simp at hinside
    · refine List.prefix_of_prefix_length_le ⟨y, hrest.symm⟩ (List.prefix_append pattern v) ?_
      rw [hpattern, List.length_append]
      omega

end

/-! ## A reference behind a text -/

section

variable {p : Pattern} (hp : p.Clear) {ref : String} (href : IsPath ref)

include hp href

theorem Pattern.Clear.start_apart : ∀ c ∈ ref.toList, c ∉ p.start.toList := by
  intro c hc hmem
  obtain ⟨-, hpart, hpoint⟩ := hp.apart c (List.mem_append_left _ hmem)
  rcases href.part c hc with h | h
  · rw [hpart] at h
    cases h
  · exact hpoint h

theorem Pattern.Clear.stop_apart : ∀ c ∈ ref.toList, c ∉ p.stop.toList := by
  intro c hc hmem
  obtain ⟨-, hpart, hpoint⟩ := hp.apart c (List.mem_append_right _ hmem)
  rcases href.part c hc with h | h
  · rw [hpart] at h
    cases h
  · exact hpoint h

/-- A reference at the start of a text. -/
theorem fill_enclosed (w : List Char) (lookup : String → Memory.Act Value) :
    fill p lookup (String.ofList (p.start.toList ++ (ref.toList ++ p.stop.toList ++ w))) = do
      let s ← replacement p lookup ref.toList
      let more ← fill p lookup (String.ofList w)
      return s ++ more := by
  have hstart : Text.FirstCut p.start.toList (p.start.toList ++ (ref.toList ++ p.stop.toList ++ w)) []
      (ref.toList ++ p.stop.toList ++ w) := ⟨rfl, fun _ _ _ => Nat.zero_le _⟩
  have hstop : Text.FirstCut p.stop.toList (ref.toList ++ p.stop.toList ++ w) ref.toList w := by
    refine firstCut_of_apart (u := []) (fun h => hp.stop_ne ?_) (hp.stop_apart href) href.ne_nil
    exact String.toList_eq_nil_iff.mp (List.infix_nil.mp h)
  rw [fill_reference hp.start_ne hstart hstop]
  simp

variable {u before behind : List Char} (w : List Char)

/-- A start delimiter takes the stop delimiter of the reference for its own. -/
theorem fill_taken (hopen : Text.FirstCut p.start.toList u before behind)
    (hstop : ¬ p.stop.toList <:+: behind ++ p.start.toList) (lookup : String → Memory.Act Value) :
    fill p lookup (String.ofList (u ++ (p.start.toList ++ ref.toList ++ p.stop.toList ++ w))) = do
      return String.ofList u ++ p.enclosed ref.toList ++ (← fill p lookup (String.ofList w)) := by
  have hfirst := firstCut_append hopen (p.start.toList ++ ref.toList ++ p.stop.toList ++ w)
  have hlast : Text.FirstCut p.stop.toList (behind ++ (p.start.toList ++ ref.toList ++ p.stop.toList ++ w))
      (behind ++ p.start.toList ++ ref.toList) w := by
    have := firstCut_of_apart (v := w) hstop (hp.stop_apart href) href.ne_nil
    simpa using this
  obtain ⟨c, hc⟩ := List.exists_mem_of_ne_nil _ fun h => hp.start_ne (String.toList_eq_nil_iff.mp h)
  have hmem : c ∈ behind ++ p.start.toList ++ ref.toList := by simp [hc]
  have hstays := replacement_of_mem (p := p) hmem (hp.apart c (List.mem_append_left _ hc)) lookup
  rw [fill_reference hp.start_ne hfirst hlast, hstays, hopen.eq]
  simp [Pattern.enclosed, String.append_assoc]

/-- A start delimiter is closed by a stop delimiter that goes on into that of the reference. -/
theorem fill_overlapped {inside tail : List Char} (hopen : Text.FirstCut p.start.toList u before behind)
    (hstop : ¬ p.stop.toList <:+: behind) (hclose : Text.FirstCut p.stop.toList (behind ++ p.start.toList) inside tail)
    (lookup : String → Memory.Act Value) :
    fill p lookup (String.ofList (u ++ (p.start.toList ++ ref.toList ++ p.stop.toList ++ w))) = do
      let s ← replacement p lookup inside
      let more ← fill p lookup (String.ofList (p.stop.toList ++ w))
      return String.ofList before ++ s ++ (String.ofList tail ++ ref ++ more) := by
  have hfirst := firstCut_append hopen (p.start.toList ++ ref.toList ++ p.stop.toList ++ w)
  have hlast : Text.FirstCut p.stop.toList (behind ++ (p.start.toList ++ ref.toList ++ p.stop.toList ++ w)) inside
      (tail ++ ref.toList ++ (p.stop.toList ++ w)) := by
    have := firstCut_append hclose (ref.toList ++ p.stop.toList ++ w)
    simpa using this
  have hshort : tail.length < p.start.toList.length := by
    by_contra hlong
    obtain ⟨behind', hbehind, -⟩ := exists_of_append_eq (u := inside ++ p.stop.toList) (x := behind)
      hclose.eq.symm (by
        have := congrArg List.length hclose.eq
        simp only [List.length_append] at this ⊢
        omega)
    exact hstop ⟨inside, behind', hbehind.symm⟩
  have hstays : ∀ x y, tail ++ ref.toList ++ (p.stop.toList ++ w) = x ++ p.start.toList ++ y →
      (tail ++ ref.toList).length ≤ x.length := fun x y h =>
    length_le_of_apart (fun h => absurd h.length_le (Nat.not_le.mpr hshort)) (hp.start_apart href) href.ne_nil h
  rw [fill_reference hp.start_ne hfirst hlast, fill_append hp.start_ne hstays]
  simp

end

/-- A reference that is bound is replaced if no start delimiter stands before it, in a text without stop
delimiters; otherwise it stays. A start delimiter before it is paired with its stop delimiter, so that both and all
between stay, or, where the text goes over into a stop delimiter, with that one. -/
theorem reference_filled_unless_opened {p : Pattern} (hp : p.Clear) {ref : String} (href : IsPath ref) {u w : String}
    (hstop : ¬ p.stop.toList <:+: u.toList) :
    (¬ p.start.toList <:+: u.toList → ¬ Straddles p.start.toList u.toList →
      ∀ lookup mem s, Tells lookup mem ref (some s) → fill p lookup (u ++ p.enclosed ref.toList ++ w) mem =
        (do return u ++ s ++ (← fill p lookup w) : Memory.Act String) mem) ∧
    ∀ before behind, Text.FirstCut p.start.toList u.toList before behind →
      (¬ p.stop.toList <:+: behind ++ p.start.toList → ∀ lookup, fill p lookup (u ++ p.enclosed ref.toList ++ w) = do
        return u ++ p.enclosed ref.toList ++ (← fill p lookup w)) ∧
      ∀ inside tail, Text.FirstCut p.stop.toList (behind ++ p.start.toList) inside tail →
        ∀ lookup, fill p lookup (u ++ p.enclosed ref.toList ++ w) = do
          let s ← replacement p lookup inside
          let more ← fill p lookup (p.stop ++ w)
          return String.ofList before ++ s ++ (String.ofList tail ++ ref ++ more) := by
  have htext : u ++ p.enclosed ref.toList ++ w =
      String.ofList (u.toList ++ (p.start.toList ++ ref.toList ++ p.stop.toList ++ w.toList)) := by
    rw [← String.toList_inj]
    simp [Pattern.enclosed]
  rw [htext]
  refine ⟨fun hstart hend lookup mem s htells => ?_, fun before behind hopen => ⟨fun hnone lookup => ?_,
    fun inside tail hclose lookup => ?_⟩⟩
  · have hreplaced : replacement p lookup ref.toList mem = .ok s mem := by
      have htold : replacement p lookup ref.toList mem = .ok (standing p (fun _ => some s) ref.toList) mem :=
        replacement_told fun _ => by rwa [asked_of_isPath href]
      rw [htold, standing, asked_of_isPath href, if_pos href]
      rfl
    have hpass := fill_append hp.start_ne (p := p) (u := u.toList)
      (v := p.start.toList ++ (ref.toList ++ p.stop.toList ++ w.toList))
      (fun x y h => length_le_of_not_straddles hstart hend h) lookup
    rw [fill_enclosed hp href] at hpass
    simp only [List.append_assoc, bind_assoc, pure_bind, String.ofList_toList] at hpass ⊢
    rw [hpass]
    change EStateM.bind _ _ mem = _
    rw [EStateM.bind, hreplaced]
    simp only [String.append_assoc]
  · rw [fill_taken hp href _ hopen hnone, String.ofList_toList, String.ofList_toList]
  · have hinner : ¬ p.stop.toList <:+: behind := fun h => hstop (h.trans ⟨before ++ p.start.toList, [], by
      rw [List.append_nil, hopen.eq]⟩)
    rw [fill_overlapped hp href _ hopen hinner hclose, ← String.toList_append, String.ofList_toList]

/-- A start delimiter that is never closed hides a reference, whatever is bound. -/
theorem reference_filled_unless_opened_stray :
    Pattern.Clear ⟨"brackets", "[[", "]]"⟩ ∧ IsPath "name" ∧ ¬ "]]".toList <:+: "[[ ".toList ∧
      Text.FirstCut "[[".toList "[[ ".toList [] [' '] ∧
      ∀ lookup, fill ⟨"brackets", "[[", "]]"⟩ lookup "[[ [[name]]!" = return "[[ [[name]]!" := by
  have hapart : ("[[".toList ++ "]]".toList).all (fun c => !Text.isBlank c && !isReferencePart c && c != '.') = true := rfl
  have hclear : Pattern.Clear ⟨"brackets", "[[", "]]"⟩ :=
    ⟨by decide, by decide, fun c hc => by simpa [and_assoc] using List.all_eq_true.mp hapart c hc⟩
  have hpath : IsPath "name" := by decide
  have hopen : Text.FirstCut "[[".toList "[[ ".toList [] [' '] := Text.findSplit_first rfl
  refine ⟨hclear, hpath, by decide, hopen, fun lookup => ?_⟩
  exact ((reference_filled_unless_opened hclear hpath (w := "!") (by decide)).2 _ _ hopen).1 (by decide) lookup

/-- Without it the reference is replaced. -/
example : fill ⟨"brackets", "[[", "]]"⟩ (fun _ => pure (.text "bo")) "] [[name]]!" {} = .ok "] bo!" {} := rfl

end Conductor.Interpolation
