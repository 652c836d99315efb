import Conductor.Files
import Conductor.Proofs.Memory.Documents
import Conductor.Proofs.Text.Integers

/-!
# The text of a document

A format refuses a document for one thing only: an integer with more digits than a text may have. A text of the interchange
format holds no such integer, so what is read is written again. A file takes any other document, if there can be a file at
its path.
-/

set_option autoImplicit false

namespace Conductor

/-! ## Integers that have no text -/

namespace Tree

theorem anyOversized_iff {items : List Tree} : anyOversized items ↔ ∃ t ∈ items, t.Oversized := by
  induction items with
  | nil => simp [anyOversized]
  | cons t rest ih => rw [anyOversized, ih, List.exists_mem_cons_iff]

theorem entriesOversized_textKeys {named : List (String × Tree)} :
    entriesOversized (textKeys named) ↔ ∃ e ∈ named, e.2.Oversized := by
  induction named with
  | nil => simp [textKeys, entriesOversized]
  | cons e rest ih =>
    rw [textKeys] at ih
    rw [textKeys, List.map_cons, entriesOversized, ih, List.exists_mem_cons_iff]
    simp [Oversized, Scalar.Oversized]

theorem Document.recast_oversized {d : Tree} (h : d.Document) : d.recast.Oversized ↔ d.Oversized := by
  induction h with
  | text s => rfl
  | int n => rfl
  | list items _ ih =>
    rw [recast_list, Oversized, Oversized, anyOversized_iff, anyOversized_iff]
    simp only [List.mem_map, exists_exists_and_eq_and]
    exact exists_congr fun t => and_congr_right (ih t)
  | dict named _ _ ih =>
    by_cases hempty : named = []
    · subst hempty
      simp [Tree.recast, textKeys, Oversized, anyOversized, entriesOversized]
    · rw [recast_textKeys hempty, Oversized, Oversized, entriesOversized_textKeys, entriesOversized_textKeys]
      simp only [List.mem_map, exists_exists_and_eq_and]
      exact exists_congr fun e => and_congr_right (ih e)

end Tree

/-! ## Writing -/

theorem Fails.bind_of_ok {ε α β : Type} {Q : Prop} {x : Except ε α} {k : α → Except ε β} (hx : ¬ Fails x)
    (hk : ∀ a, Fails (k a) ↔ Q) : Fails (x >>= k) ↔ Q :=
  (Fails.bind_iff hk).trans (or_iff_right hx)

namespace Json

variable (style : Style)

theorem writeAll_eq (items : List Tree) : writeAll style items = traverse (write style) items := by
  induction items with
  | nil => rw [writeAll, traverse]
  | cons t rest ih =>
    rw [writeAll, traverse, ih]
    cases write style t with
    | error f => rfl
    | ok s => cases traverse (write style) rest <;> rfl

theorem writeEntries_fails (named : List (String × Tree)) :
    Fails (writeEntries style (Tree.textKeys named)) ↔ ∃ e ∈ named, Fails (write style e.2) := by
  induction named with
  | nil => simp [Tree.textKeys, writeEntries]
  | cons e rest ih =>
    rw [Tree.textKeys] at ih
    rw [Tree.textKeys, List.map_cons, writeEntries, key, List.exists_mem_cons_iff, ← ih]
    exact Fails.bind_iff fun _ => Fails.then_pure _

theorem write_fails {d : Tree} (h : d.Document) : Fails (write style d) ↔ d.Oversized := by
  induction h generalizing style with
  | text s => simp [write, scalar, Tree.Oversized, Scalar.Oversized]
  | int n => rw [write, scalar, integerText_fails, Tree.Oversized, Scalar.Oversized]
  | list items _ ih =>
    rw [write, Fails.then_pure, writeAll_eq, Fails.traverse_iff, Tree.Oversized, Tree.anyOversized_iff]
    exact exists_congr fun t => and_congr_right fun ht => ih t ht style.deeper
  | dict named _ _ ih =>
    rw [write, Fails.then_pure, writeEntries_fails, Tree.Oversized, Tree.entriesOversized_textKeys]
    exact exists_congr fun e => and_congr_right fun he => ih e he style.deeper

end Json

namespace Yaml

variable (flow : Bool)

theorem put_text (place : Place) (o : Out) (s : String) : ¬ Fails (put flow place o (.text s)) := by
  rw [put, writtenScalar, Fails.then_pure]
  exact Fails.not_ok _

theorem fitsAsKey_text (s : String) : ¬ Fails (fitsAsKey (.text s)) := by
  rw [fitsAsKey, writtenScalar, Fails.then_pure]
  exact Fails.not_ok _

section

variable {items : List Tree} {named : List (String × Tree)}

theorem putItems_fails (h : ∀ t ∈ items, ∀ place o, Fails (put flow place o t) ↔ t.Oversized) (o : Out) :
    (∀ first, Fails (putFlowItems flow first o items) ↔ ∃ t ∈ items, t.Oversized) ∧
      (Fails (putBlockItems flow o items) ↔ ∃ t ∈ items, t.Oversized) := by
  induction items generalizing o with
  | nil => simp [putFlowItems, putBlockItems]
  | cons t rest ih =>
    have ht := h t List.mem_cons_self
    have hrest (o : Out) := ih (fun t ht => h t (List.mem_cons_of_mem _ ht)) o
    rw [List.exists_mem_cons_iff]
    constructor
    · intro first
      rw [putFlowItems, Fails.bind_iff fun o => (hrest o).1 false, ht]
    · rw [putBlockItems, Fails.bind_iff fun o => (hrest o).2, ht]

theorem putEntries_fails (h : ∀ e ∈ named, ∀ place o, Fails (put flow place o e.2) ↔ e.2.Oversized) (o : Out) :
    (∀ first, Fails (putFlowEntries flow first o (Tree.textKeys named)) ↔ ∃ e ∈ named, e.2.Oversized) ∧
      (Fails (putBlockEntries flow o (Tree.textKeys named)) ↔ ∃ e ∈ named, e.2.Oversized) := by
  induction named generalizing o with
  | nil => simp [Tree.textKeys, putFlowEntries, putBlockEntries]
  | cons e rest ih =>
    have ht := h e List.mem_cons_self
    have hrest (o : Out) := ih (fun e he => h e (List.mem_cons_of_mem _ he)) o
    rw [List.exists_mem_cons_iff]
    simp only [Tree.textKeys] at hrest ⊢
    constructor
    · intro first
      rw [List.map_cons, putFlowEntries]
      refine Fails.bind_of_ok (fitsAsKey_text _) fun b => ?_
      -- the mark of a long key comes before it, and makes no difference
      split
      all_goals
        refine Fails.bind_of_ok (put_text _ _ _ _) fun o => ?_
        rw [Fails.bind_iff fun o => (hrest o).1 false, ht]
    · rw [List.map_cons, putBlockEntries]
      refine Fails.bind_of_ok (fitsAsKey_text _) fun b => ?_
      split
      all_goals
        refine Fails.bind_of_ok (put_text _ _ _ _) fun o => ?_
        rw [Fails.bind_iff fun o => (hrest o).2, ht]

end

theorem put_fails {d : Tree} (h : d.Document) (place : Place) (o : Out) : Fails (put flow place o d) ↔ d.Oversized := by
  induction h generalizing place o with
  | text s => simp [put, writtenScalar, Tree.Oversized, Scalar.Oversized]
  | int n =>
    rw [put, writtenScalar, Tree.Oversized, Scalar.Oversized, ← integerText_fails]
    exact (Fails.then_pure _).trans (Fails.then_pure _)
  | list items _ ih =>
    rw [put, Tree.Oversized, Tree.anyOversized_iff]
    split
    · exact (Fails.then_pure _).trans ((putItems_fails flow ih _).1 true)
    · exact (Fails.then_pure _).trans (putItems_fails flow ih _).2
  | dict named _ _ ih =>
    rw [put, Tree.Oversized, Tree.entriesOversized_textKeys]
    split
    · exact (Fails.then_pure _).trans ((putEntries_fails flow ih _).1 true)
    · exact (Fails.then_pure _).trans (putEntries_fails flow ih _).2

theorem write_fails {d : Tree} (h : d.Document) : Fails (write flow d) ↔ d.Oversized := by
  rw [write, ← put_fails flow h { root := true } {}]
  exact Fails.then_pure _

end Yaml

/-! ## Reading -/

namespace Json

def Sized (r : Reader Tree) : Prop := ∀ t next, r = .ok (t, next) → ¬ t.Oversized

theorem Sized.error (e : Stop) : Sized (.error e) := fun _ _ h => nomatch h

theorem Sized.ok {t : Tree} (h : ¬ t.Oversized) (next : Cursor) : Sized (.ok (t, next)) := fun _ _ hr => by
  cases hr
  exact h

theorem number_sized (c : Cursor) : Sized (number c) := by
  unfold number
  split
  · exact .error _
  extract_lets
  split
  · split
    · next n hn =>
      have hsized : ¬ (Tree.int n).Oversized := Nat.not_le.mpr (integerOfNumeral_lt hn)
      exact .ok hsized _
    · exact .error _
  · split
    · exact .ok id _
    · exact .error _

theorem word_sized {cs : List Char} {t : Tree} {n : Nat} (h : word? cs = some (t, n)) : ¬ t.Oversized := by
  unfold word? at h
  extract_lets words at h
  obtain ⟨w, hw, hwt⟩ := Option.map_eq_some_iff.mp h
  cases hwt
  have hall : ∀ w ∈ words, ¬ w.2.Oversized := by simp [words, Tree.Oversized, Scalar.Oversized]
  exact hall w (List.mem_of_find?_eq_some hw)

structure Readers (fuel : Nat) : Prop where
  value : ∀ c, Sized (Json.value fuel c)
  entries : ∀ done c, (∀ e ∈ done, ¬ e.2.Oversized) → Sized (Json.entries fuel done c)
  items : ∀ done c, (∀ t ∈ done, ¬ t.Oversized) → Sized (Json.items fuel done c)

section

variable {fuel : Nat} (h : Readers fuel) (c : Cursor)
include h

theorem value_sized : Sized (value (fuel + 1) c) := by
  rw [value]
  split
  · exact .error _
  · split
    · exact .ok id _
    · exact .error _
  · extract_lets
    split
    · exact .ok id _
    · exact h.entries [] _ (List.forall_mem_nil _)
  · extract_lets
    split
    · exact .ok id _
    · exact h.items [] _ (List.forall_mem_nil _)
  · split
    · next hword => exact .ok (word_sized hword) _
    · exact number_sized c

theorem entries_sized {done : List (String × Tree)} (hdone : ∀ e ∈ done, ¬ e.2.Oversized) :
    Sized (entries (fuel + 1) done c) := by
  rw [entries]
  split
  · split
    · exact .error _
    · next name _ _ =>
      extract_lets
      split
      · split
        · exact .error _
        · next t next ht =>
          have hdone' : ∀ e ∈ (name, t) :: done, ¬ e.2.Oversized :=
            List.forall_mem_cons.mpr ⟨h.value _ t next ht, hdone⟩
          extract_lets
          split
          · refine .ok ?_ _
            rw [Tree.Oversized, ← Tree.textKeys, Tree.entriesOversized_textKeys]
            rintro ⟨e, he, hsize⟩
            exact hdone' e (List.mem_reverse.mp (Table.mem_of_mem_ofEntries he)) hsize
          · exact h.entries _ _ hdone'
          · exact .error _
      · exact .error _
  · exact .error _

theorem items_sized {done : List Tree} (hdone : ∀ t ∈ done, ¬ t.Oversized) : Sized (items (fuel + 1) done c) := by
  rw [items]
  split
  · exact .error _
  · next t next ht =>
    have hdone' : ∀ t' ∈ t :: done, ¬ t'.Oversized := List.forall_mem_cons.mpr ⟨h.value _ t next ht, hdone⟩
    extract_lets
    split
    · refine .ok ?_ _
      rw [Tree.Oversized, Tree.anyOversized_iff]
      rintro ⟨t', ht', hsize⟩
      exact hdone' t' (List.mem_reverse.mp ht') hsize
    · exact h.items _ _ hdone'
    · exact .error _

end

theorem readers (fuel : Nat) : Readers fuel := by
  induction fuel with
  | zero =>
    constructor
    case value => exact fun c => by rw [value]; exact .error _
    case entries => exact fun done c _ => by rw [entries]; exact .error _
    case items => exact fun done c _ => by rw [items]; exact .error _
  | succ fuel ih => exact ⟨value_sized ih, fun _ c => entries_sized ih c, fun _ c => items_sized ih c⟩

/-- A text of the interchange format holds no integer that cannot be written. -/
theorem parse_sized {s : String} {t : Tree} (h : parse s = .ok t) : ¬ t.Oversized := by
  unfold parse at h
  extract_lets cs outcome at h
  have houtcome : outcome = .ok t := by
    cases hout : outcome with
    | error e => rw [hout] at h; cases h
    | ok t' => rw [hout] at h; cases h; rfl
  unfold outcome at houtcome
  split at houtcome
  · cases houtcome
  split at houtcome
  · cases houtcome
  · next t' next hvalue =>
    extract_lets at houtcome
    split at houtcome
    · cases houtcome
      exact (readers _).value _ _ _ hvalue
    · cases houtcome

end Json

/-- A document has a text in every format exactly if each of its integers has one. -/
theorem Structured.write_fails {d : Tree} (h : d.Document) (pretty : Bool) (f : Syntax.Format) :
    Fails (write d pretty f) ↔ d.Oversized := by
  cases f with
  | json => exact Json.write_fails _ h
  | yaml => exact Yaml.write_fails _ h

/-! ## Files -/

namespace Files

def housing (fs : Files) (path : String) : Except Failure Files :=
  if (Path.directory path).isEmpty then .ok fs else fs.makeDirectory (Path.directory path)

/-- There can be a file at a path: its directory is there or can be made, and the path is not that of a directory. -/
def Admits (fs : Files) (path : String) : Prop := ∃ fs', fs.housing path = .ok fs' ∧ fs'.isDirectory path = false

variable {fs files : Files} {base : Option String} {locator out : String} {d : Tree}

theorem write_eq_ok_iff (h : d.Document) {f : Syntax.Format}
    (hf : Structured.formatForPath (fs.resolve base locator) = some f) :
    fs.write base locator d = (.ok out, files) ↔
      out = fs.resolve base locator ∧ ∃ fs' text, fs.housing out = .ok fs' ∧ fs'.isDirectory out = false ∧
        Structured.write d true f = .ok text ∧
        files = { fs' with entries := fs'.entries.put (fs'.place out) (.bytes text.toUTF8.toList) } := by
  have hdata : (do Structured.write (← d.plain) true f) = Structured.write d true f := by rw [h.plain]; rfl
  have hhousing : (if (Path.directory (fs.resolve base locator)).isEmpty then .ok fs
      else fs.makeDirectory (Path.directory (fs.resolve base locator))) = fs.housing (fs.resolve base locator) := rfl
  unfold write
  simp only [hf, hdata, hhousing]
  generalize fs.resolve base locator = path
  constructor
  · intro hwrite
    split at hwrite
    · cases hwrite
    next fs' hfs' =>
    split at hwrite
    · cases hwrite
    next text htext =>
    unfold put at hwrite
    by_cases hdir : fs'.isDirectory path = true
    · rw [if_pos hdir] at hwrite
      cases hwrite
    · rw [if_neg hdir] at hwrite
      cases hwrite
      exact ⟨rfl, fs', text, hfs', Bool.eq_false_iff.mpr hdir, htext, rfl⟩
  · rintro ⟨rfl, fs', text, hfs', hdir, htext, rfl⟩
    simp only [hfs', htext, put, hdir, Bool.false_eq_true, if_false]

/-- A document is written to a file exactly if there can be a file at the path and each of its integers has a text. -/
theorem write_document_iff (h : d.Document) (hformat : (Structured.formatForPath (fs.resolve base locator)).isSome) :
    (∃ out files, fs.write base locator d = (.ok out, files)) ↔ fs.Admits (fs.resolve base locator) ∧ ¬ d.Oversized := by
  obtain ⟨f, hf⟩ := Option.isSome_iff_exists.mp hformat
  simp only [write_eq_ok_iff h hf, ← Structured.write_fails h true f, Fails.not_iff]
  constructor
  · rintro ⟨_, _, rfl, fs', text, hfs', hdir, htext, -⟩
    exact ⟨⟨fs', hfs', hdir⟩, text, htext⟩
  · rintro ⟨⟨fs', hfs', hdir⟩, text, htext⟩
    exact ⟨_, _, rfl, fs', text, hfs', hdir, htext, rfl⟩

theorem content_of_write (h : d.Document) {f : Syntax.Format}
    (hf : Structured.formatForPath (fs.resolve base locator) = some f) (hwrite : fs.write base locator d = (.ok out, files)) :
    out = fs.resolve base locator ∧
      ∃ text, Structured.write d true f = .ok text ∧ files.content? out = some (.bytes text.toUTF8.toList) := by
  obtain ⟨hout, fs', text, -, -, htext, rfl⟩ := (write_eq_ok_iff h hf).mp hwrite
  exact ⟨hout, text, htext, Table.get?_put_self _ _ _⟩

end Files

end Conductor
