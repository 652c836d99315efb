import Conductor.Interpolation
import Conductor.Proofs.Syntax.Lexeme
import Conductor.Proofs.Text.Occurrence
import Mathlib.Data.List.Basic

/-!
# One pass over a text

The references of a text are found before anything is looked up: the first begins at the first
start delimiter and ends at the first stop delimiter behind it, the next is found in what
follows, until no start delimiter has a stop delimiter behind it. So the stretches between the
references stay as they are whatever is bound, a reference whose inside is a dotted path that is
bound gives way to the text of its value, which nobody reads again, and every other reference
stays too.
-/

set_option autoImplicit false

namespace Conductor.Interpolation

/-! ## Dotted paths -/

/-- A word that begins as names do, and any number of words behind points. -/
def IsPath (s : String) : Prop :=
  ∃ (c : Char) (name : List Char) (words : List (List Char)), s.toList = c :: name ++ words.flatMap ('.' :: ·) ∧
    isReferenceStart c = true ∧ (∀ d ∈ name, isReferencePart d = true) ∧
      ∀ word ∈ words, word ≠ [] ∧ ∀ d ∈ word, isReferencePart d = true

theorem isReferencePart_ne_point {c : Char} (h : isReferencePart c = true) : c ≠ '.' := by
  rintro rfl
  exact absurd h (by decide)

theorem isReferenceStart_ne_point {c : Char} (h : isReferenceStart c = true) : c ≠ '.' := by
  rintro rfl
  exact absurd h (by decide)

theorem isEmpty_ofList (word : List Char) : (String.ofList word).isEmpty = word.isEmpty := by
  cases word <;> simp [String.isEmpty_iff]

theorem isReference_iff {s : String} : isReference s = true ↔ IsPath s := by
  have hpoint : ".".toList = ['.'] := rfl
  constructor
  · intro h
    obtain ⟨word, words, hpieces, htext⟩ := Text.piecesFrom_point [] s.toList
    rw [isReference, Text.pieces, hpoint, hpieces] at h
    simp only [List.map_cons, List.reverse_nil, List.nil_append, String.toList_ofList, Bool.and_eq_true,
      List.all_map, List.all_eq_true, Function.comp_apply, isEmpty_ofList, Bool.not_eq_true',
      List.isEmpty_eq_false_iff] at h
    obtain ⟨hname, hwords⟩ := h
    cases word with
    | nil => cases hname
    | cons c name => exact ⟨c, name, words, htext, (Bool.and_eq_true _ _ ▸ hname).1,
        List.all_eq_true.mp (Bool.and_eq_true _ _ ▸ hname).2, hwords⟩
  · rintro ⟨c, name, words, htext, hc, hname, hwords⟩
    have hfirst : ∀ d ∈ c :: name, d ≠ '.' :=
      List.forall_mem_cons.mpr ⟨isReferenceStart_ne_point hc, fun d hd => isReferencePart_ne_point (hname d hd)⟩
    have hrest : ∀ w ∈ words.map String.ofList, ∀ d ∈ w.toList, d ≠ '.' := by
      rw [List.forall_mem_map]
      intro w hw d hd
      rw [String.toList_ofList] at hd
      exact isReferencePart_ne_point ((hwords w hw).2 d hd)
    have hpieces := Syntax.piecesFrom_segments hrest (c :: name).reverse
    simp only [List.flatMap_map, String.toList_ofList, List.map_map, List.reverse_reverse] at hpieces
    rw [isReference, Text.pieces, hpoint, htext, Syntax.piecesFrom_segment hfirst, List.append_nil, hpieces]
    simp only [List.map_cons, List.map_map, String.toList_ofList, List.all_map, Bool.and_eq_true, List.all_eq_true]
    refine ⟨⟨hc, hname⟩, fun w hw => ?_⟩
    simpa [isEmpty_ofList] using hwords w hw

instance : DecidablePred IsPath := fun _ => decidable_of_iff _ isReference_iff

/-! ## The cut of a text -/

/-- A text as the stretch before its first reference and then, for each reference, what is inside and the
stretch behind. No reference begins before the one that is cut off first, none ends before its first stop
delimiter, and the last stretch has none. -/
inductive Cut (start stop : List Char) : List Char → List Char → List (List Char × List Char) → Prop
  | last {text : List Char} : (∀ u w v, text ≠ u ++ start ++ w ++ stop ++ v) → Cut start stop text text []
  | reference {text before rest inside after next : List Char} {refs : List (List Char × List Char)} :
      Text.FirstCut start text before rest → Text.FirstCut stop rest inside after → Cut start stop after next refs →
      Cut start stop text before ((inside, next) :: refs)

def woven (before : List Char) (refs : List (List Char × List Char)) : List Part :=
  .literal before :: refs.flatMap fun r => [.slot r.1, .literal r.2]

section

variable {start stop text before : List Char} {refs : List (List Char × List Char)}

/-- Nothing is lost and nothing is there twice. -/
theorem Cut.text_eq (h : Cut start stop text before refs) :
    text = before ++ refs.flatMap fun r => start ++ r.1 ++ stop ++ r.2 := by
  induction h with
  | last => simp
  | reference hstart hstop _ ih =>
    rw [hstart.eq, hstop.eq]
    conv_lhs => rw [ih]
    simp

theorem length_after_lt (hne : start ≠ []) {rest inside after : List Char} (hstart : Text.FirstCut start text before rest)
    (hstop : Text.FirstCut stop rest inside after) : after.length < text.length := by
  have hpos : 0 < start.length := List.length_pos_iff.mpr hne
  rw [hstart.eq, hstop.eq]
  simp only [List.length_append]
  omega

theorem exists_cut (hne : start ≠ []) {fuel : Nat} (hfuel : text.length < fuel) :
    ∃ before refs, Cut start stop text before refs ∧ partsFrom start stop fuel text = woven before refs := by
  induction fuel generalizing text with
  | zero => exact absurd hfuel (Nat.not_lt_zero _)
  | succ fuel ih =>
    rw [partsFrom]
    cases hstart : Text.findSplit start text with
    | none =>
      refine ⟨text, [], .last fun u w v heq => ?_, rfl⟩
      exact Text.findSplit_eq_none_iff.mp hstart u (w ++ stop ++ v) (by simpa using heq)
    | some cut =>
      obtain ⟨before, rest⟩ := cut
      have hcut := Text.findSplit_first hstart
      cases hstop : Text.findSplit stop rest with
      | none =>
        refine ⟨text, [], .last fun u w v heq => ?_, by simp only [hstop]; rfl⟩
        obtain ⟨front, hrest⟩ := hcut.suffix (v := w ++ stop ++ v) (by simpa using heq)
        exact Text.findSplit_eq_none_iff.mp hstop (front ++ w) v (by rw [← hrest]; simp)
      | some cut =>
        obtain ⟨inside, after⟩ := cut
        have hcut' := Text.findSplit_first hstop
        obtain ⟨next, refs, hnext, hparts⟩ := ih (Nat.lt_of_lt_of_le (length_after_lt hne hcut hcut') (Nat.lt_succ_iff.mp hfuel))
        refine ⟨before, (inside, next) :: refs, .reference hcut hcut' hnext, ?_⟩
        simp only [hstop, hparts]
        rfl

theorem mapM_woven (p : Pattern) (lookup : String → Memory.Act Value) : (woven before refs).mapM (Part.filled p lookup) = do
    let texts ← refs.mapM fun r => Part.filled p lookup (.slot r.1)
    return String.ofList before :: (List.zipWith (fun s r => [s, String.ofList r.2]) texts refs).flatten := by
  have hrefs : (refs.flatMap fun r => [Part.slot r.1, .literal r.2]).mapM (Part.filled p lookup) = do
      let texts ← refs.mapM fun r => Part.filled p lookup (.slot r.1)
      return (List.zipWith (fun s r => [s, String.ofList r.2]) texts refs).flatten := by
    induction refs with
    | nil => simp
    | cons r rest ih =>
      rw [List.flatMap_cons, List.cons_append, List.cons_append, List.nil_append, List.mapM_cons, List.mapM_cons, ih,
        List.mapM_cons]
      simp [Part.filled]
  rw [woven, List.mapM_cons, hrefs]
  simp [Part.filled]

end

/-! ## What stands for a reference -/

def Pattern.enclosed (p : Pattern) (inside : List Char) : String := p.start ++ String.ofList inside ++ p.stop

/-- What is asked for where a reference stands. -/
def asked (inside : List Char) : String := Text.strip (String.ofList inside)

/-- What stands for a reference: the text of what the dotted path inside is bound to. A reference that is
not bound, or has no dotted path inside, stays. -/
def replacement (p : Pattern) (lookup : String → Memory.Act Value) (inside : List Char) : Memory.Act String := do
  if IsPath (asked inside) then
    let v ← lookup (asked inside)
    if v.isUnbound then return p.enclosed inside else Memory.liftE (← Memory.tree v).shown
  else return p.enclosed inside

theorem filled_slot (p : Pattern) (lookup : String → Memory.Act Value) (inside : List Char) :
    Part.filled p lookup (.slot inside) = replacement p lookup inside := by
  rw [Part.filled, replacement, reference?, asked]
  simp only [isReference_iff, Part.written, Pattern.enclosed]
  by_cases h : IsPath (Text.strip (String.ofList inside)) <;> simp only [h, if_true, if_false]

/-- What a look-up that leaves the memory as it is says of a path: that it is not bound, or the text of
its value. -/
def Tells (lookup : String → Memory.Act Value) (mem : Memory) (path : String) : Option String → Prop
  | none => lookup path mem = .ok .unbound mem
  | some s => ∃ v t, lookup path mem = .ok v mem ∧ v.isUnbound = false ∧ mem.store.tree v = .ok t ∧ t.shown = .ok s

/-- What stands for a reference, given the texts of the paths that are bound. -/
def standing (p : Pattern) (told : String → Option String) (inside : List Char) : String :=
  if IsPath (asked inside) then (told (asked inside)).getD (p.enclosed inside) else p.enclosed inside

theorem replacement_told {p : Pattern} {lookup : String → Memory.Act Value} {mem : Memory} {told : String → Option String}
    {inside : List Char} (h : IsPath (asked inside) → Tells lookup mem (asked inside) (told (asked inside))) :
    replacement p lookup inside mem = .ok (standing p told inside) mem := by
  unfold replacement standing
  by_cases hpath : IsPath (asked inside)
  · have htells := h hpath
    rw [if_pos hpath, if_pos hpath]
    cases hs : told (asked inside) with
    | none =>
      rw [hs] at htells
      change EStateM.bind _ _ mem = _
      rw [EStateM.bind, show lookup (asked inside) mem = .ok .unbound mem from htells]
      rfl
    | some s =>
      rw [hs] at htells
      obtain ⟨v, t, hv, hbound, ht, hshown⟩ := htells
      change EStateM.bind _ _ mem = _
      rw [EStateM.bind, hv]
      simp only [hbound, Bool.false_eq_true, if_false]
      change EStateM.bind (Memory.tree v) (fun t => Memory.liftE t.shown) mem = _
      have htree : Memory.tree v mem = .ok t mem := by
        change Memory.liftE (mem.store.tree v) mem = _
        rw [ht]
        rfl
      rw [EStateM.bind, htree]
      simp only [hshown]
      rfl
  · rw [if_neg hpath, if_neg hpath]
    rfl

/-! ## The pass -/

def interleave (before : List Char) (refs : List (List Char × List Char)) (texts : List String) : String :=
  String.ofList before ++ String.join (List.zipWith (fun s r => s ++ String.ofList r.2) texts refs)

section

variable {before : List Char} {refs : List (List Char × List Char)}

theorem join_interleave (texts : List String) :
    String.join (String.ofList before :: (List.zipWith (fun s r => [s, String.ofList r.2]) texts refs).flatten) =
      interleave before refs texts := by
  have hrefs : String.join (List.zipWith (fun s r => [s, String.ofList r.2]) texts refs).flatten =
      String.join (List.zipWith (fun s r => s ++ String.ofList r.2) texts refs) := by
    induction refs generalizing texts with
    | nil => simp
    | cons r rest ih =>
      cases texts with
      | nil => rfl
      | cons s texts => simp [ih, String.append_assoc]
  rw [String.join_cons, hrefs, interleave]

theorem interleave_enclosed {p : Pattern} {text : String} (h : Cut p.start.toList p.stop.toList text.toList before refs) :
    interleave before refs (refs.map fun r => p.enclosed r.1) = text := by
  rw [← String.toList_inj, h.text_eq, interleave, String.toList_append, String.toList_ofList, String.toList_join,
    List.zipWith_map_left, List.zipWith_self, List.flatMap_map]
  simp [Pattern.enclosed]

theorem fill_eq {p : Pattern} {text : String} (h : parts p text = woven before refs) (lookup : String → Memory.Act Value) :
    fill p lookup text = do return interleave before refs (← refs.mapM fun r => replacement p lookup r.1) := by
  rw [fill, h, mapM_woven]
  simp only [filled_slot, bind_assoc, pure_bind, join_interleave]

theorem mapM_replacement_told {p : Pattern} {lookup : String → Memory.Act Value} {mem : Memory}
    {told : String → Option String}
    (h : ∀ r ∈ refs, IsPath (asked r.1) → Tells lookup mem (asked r.1) (told (asked r.1))) :
    (refs.mapM fun r => replacement p lookup r.1) mem = .ok (refs.map fun r => standing p told r.1) mem := by
  induction refs with
  | nil => rfl
  | cons r rest ih =>
    obtain ⟨hr, hrest⟩ := List.forall_mem_cons.mp h
    rw [List.mapM_cons]
    change EStateM.bind _ _ mem = _
    rw [EStateM.bind, replacement_told hr]
    change EStateM.bind _ _ mem = _
    rw [EStateM.bind, ih hrest]
    rfl

end

/-- Interpolation is one pass: a text has a cut into stretches and references, whatever is looked up,
and the result has the same stretches with what stands for each reference between them. A look-up may change
the memory or fail; one that does neither and has a text for each path that it binds gives a result always.
If it binds nothing the text stays. -/
theorem fill_one_pass (p : Pattern) (hstart : p.start ≠ "") (text : String) :
    ∃ before refs, Cut p.start.toList p.stop.toList text.toList before refs ∧
      text = interleave before refs (refs.map fun r => p.enclosed r.1) ∧
      (∀ lookup, fill p lookup text = do return interleave before refs (← refs.mapM fun r => replacement p lookup r.1)) ∧
      (∀ lookup mem told, (∀ r ∈ refs, IsPath (asked r.1) → Tells lookup mem (asked r.1) (told (asked r.1))) →
        fill p lookup text mem = .ok (interleave before refs (refs.map fun r => standing p told r.1)) mem) ∧
      ∀ lookup mem, (∀ path, IsPath path → lookup path mem = .ok .unbound mem) → fill p lookup text mem = .ok text mem := by
  have hne : p.start.toList ≠ [] := fun h => hstart (String.toList_eq_nil_iff.mp h)
  obtain ⟨before, refs, hcut, hparts⟩ : ∃ before refs, Cut p.start.toList p.stop.toList text.toList before refs ∧
      parts p text = woven before refs := exists_cut hne (Nat.lt_succ_self text.toList.length)
  have hfill := fill_eq hparts
  have htold : ∀ lookup mem told, (∀ r ∈ refs, IsPath (asked r.1) → Tells lookup mem (asked r.1) (told (asked r.1))) →
      fill p lookup text mem = .ok (interleave before refs (refs.map fun r => standing p told r.1)) mem := by
    intro lookup mem told h
    rw [hfill]
    change EStateM.bind _ _ mem = _
    rw [EStateM.bind, mapM_replacement_told h]
    rfl
  refine ⟨before, refs, hcut, (interleave_enclosed hcut).symm, hfill, htold, fun lookup mem h => ?_⟩
  have hstays := htold lookup mem (fun _ => none) fun r _ hpath => h _ hpath
  simp only [standing, Option.getD_none, ite_self, interleave_enclosed hcut] at hstays
  exact hstays

/-- Delimiters that overlap, and a start delimiter that is never closed. -/
theorem fill_one_pass_overlapping : "%" ≠ "" ∧ ∃ before refs,
    Cut ['%'] ['%', '%'] "a%x%%%b%%%%%c%".toList before refs ∧
      "a%x%%%b%%%%%c%" = interleave before refs (refs.map fun r => Pattern.enclosed ⟨"percent", "%", "%%"⟩ r.1) := by
  refine ⟨by decide, ?_⟩
  obtain ⟨before, refs, hcut, htext, -⟩ := fill_one_pass ⟨"percent", "%", "%%"⟩ (by decide) "a%x%%%b%%%%%c%"
  exact ⟨before, refs, hcut, htext⟩

/-- A value that looks like a reference is not read again. -/
example : fill ⟨"percent", "%", "%%"⟩ (fun _ => pure (.text "%y%%")) "a%x%%b%c" {} = .ok "a%y%%b%c" {} := rfl

end Conductor.Interpolation
