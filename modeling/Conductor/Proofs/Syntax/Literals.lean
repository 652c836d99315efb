import Conductor.Proofs.Syntax.Placement
import Conductor.Proofs.Text.UpperCase

/-!
# The block literals of a program

A line that opens a block literal passes it on to the statement that it is read as, and of a condition with statements
on its line to the last of them. That statement keeps the literal, unless its first word is IF: then the literal is in
no statement of the program. An ELSE with nothing behind it loses its literal too. All other literals are in the
program once, and they are in the order of the lines unless the branch before the last one takes lines as well.
-/

set_option autoImplicit false

namespace Conductor.Syntax

/-! ## The literals of a tree -/

def Source.literals : Source → List BlockLiteral
  | .block b => [b]
  | .expr _ | .command _ => []

mutual
def Statement.literals : Statement → List BlockLiteral
  | .assign _ source _ _ => source.literals
  | .block b _ => [b]
  | .cond _ thenBody elseBody _ => literalsOf thenBody ++ literalsOf elseBody
  | .loop _ body _ => literalsOf body
  | _ => []

def literalsOf : List Statement → List BlockLiteral
  | [] => []
  | s :: rest => s.literals ++ literalsOf rest
end

/-! ## The literals of the lines -/

def Form.reaches : Form → Bool
  | .simple _ => false
  | .cond | .loop _ => true

structure Ending where
  part : SourceLine
  deferred : Bool

def endingFrom : Nat → SourceLine → Ending
  | 0, l => ⟨l, false⟩
  | n + 1, l =>
    match form false l with
    | .cond =>
      match branches l with
      | .ok (_, .inline first none) => endingFrom n first
      | .ok (_, .inline first (some second)) =>
        let last := endingFrom n second
        ⟨last.part, last.deferred || (form false first).reaches⟩
      | _ => ⟨l, false⟩
    | _ => ⟨l, false⟩

namespace SourceLine

def ending (l : SourceLine) : Ending := endingFrom l.code.length l

def own (l : SourceLine) : Option BlockLiteral := if l.ending.part.word == "IF" then none else l.block

/-- A line with a literal, which as a statement has it behind those of lines that come later. -/
def Late (l : SourceLine) : Prop := l.block.isSome ∧ l.ending.deferred = true

def content? (l : SourceLine) : Option SourceLine := if l.word == "ELSE" then alternative? l else some l

/-- The literal of a line that is in the program. -/
def kept (l : SourceLine) : Option BlockLiteral := l.content?.bind own

/-- A line whose literal is in the program behind those of lines that come later. -/
def Defers (l : SourceLine) : Prop := ∃ content ∈ l.content?, content.Late

end SourceLine

theorem endingFrom_succ {n : Nat} {l : SourceLine} (h : l.code.length ≤ n) : endingFrom (n + 1) l = endingFrom n l := by
  induction n generalizing l with
  | zero =>
    rw [endingFrom, endingFrom]
    split
    · split
      · next hbranches =>
        have := (branches_within hbranches).1.shorter
        omega
      · next hbranches =>
        have := (branches_within hbranches).1.shorter
        omega
      · rfl
    · rfl
  | succ n ih =>
    rw [endingFrom, endingFrom]
    split
    · split
      · next hbranches =>
        have := (branches_within hbranches).1.shorter
        exact ih (by omega)
      · next hbranches =>
        have := ((branches_within hbranches).2 _ rfl).shorter
        rw [ih (by omega)]
      · rfl
    · rfl

theorem endingFrom_eq {n : Nat} {l : SourceLine} (h : l.code.length ≤ n) : endingFrom n l = l.ending := by
  induction n, h using Nat.le_induction with
  | base => rfl
  | succ n h ih => rw [endingFrom_succ h, ih]

theorem form_cond_iff (top : Bool) (l : SourceLine) : form top l = .cond ↔ form false l = .cond := by
  unfold form
  split
  · simp
  · split
    · simp
    · rfl

theorem word_of_cond {l : SourceLine} (h : form false l = .cond) : l.word = "IF" := by
  unfold form at h
  split at h
  · cases h
  split at h
  · cases h
  split at h
  · cases h
  split at h
  · next hword => exact eq_of_beq hword
  split at h <;> cases h

theorem block_of_loop {top : Bool} {l : SourceLine} {head : Except Problem LoopHead} (h : form top l = .loop head) :
    l.block = none := by
  unfold form at h
  split at h
  · cases h
  next hother =>
  split at h
  · cases h
  split at h
  · cases h
  split at h
  · cases h
  · next hword =>
    cases hblock : l.block with
    | none => rfl
    | some literal => exact (hother literal hblock (Bool.not_eq_true _ ▸ hword)).elim

theorem ending_of_form {l : SourceLine} (h : form false l ≠ .cond) : l.ending = ⟨l, false⟩ := by
  rw [← endingFrom_eq (Nat.le_succ _), endingFrom]
  split
  · next hform => exact absurd hform h
  · rfl

section

variable {l first second : SourceLine} {condition : Expr} (hform : form false l = .cond)

include hform

theorem ending_block (h : branches l = .ok (condition, .block)) : l.ending = ⟨l, false⟩ := by
  rw [← endingFrom_eq (Nat.le_succ _), endingFrom, hform]
  simp only [h]

theorem ending_first (h : branches l = .ok (condition, .inline first none)) : l.ending = first.ending := by
  have := (branches_within h).1.shorter
  rw [← endingFrom_eq (Nat.le_succ _), endingFrom, hform]
  simp only [h]
  exact endingFrom_eq (by omega)

theorem ending_second (h : branches l = .ok (condition, .inline first (some second))) :
    l.ending = ⟨second.ending.part, second.ending.deferred || (form false first).reaches⟩ := by
  have := ((branches_within h).2 _ rfl).shorter
  rw [← endingFrom_eq (Nat.le_succ _), endingFrom, hform]
  simp only [h, endingFrom_eq (n := l.code.length) (l := second) (by omega)]

end

theorem branches_literal {l first : SourceLine} {second : Option SourceLine} {condition : Expr}
    (h : branches l = .ok (condition, .inline first second)) :
    (second.getD first).block = l.block ∧ (second.isSome → first.block = none) := by
  unfold branches at h
  obtain ⟨tokens, -, h⟩ := bind_eq_ok_iff.mp h
  dsimp only at h
  split at h
  · cases h
  · obtain ⟨condition', -, h⟩ := bind_eq_ok_iff.mp h
    split at h
    · cases h
    · split at h <;> cases h
      · exact ⟨rfl, fun _ => rfl⟩
      · exact ⟨rfl, nofun⟩

theorem own_of_word {l : SourceLine} (h : l.word ≠ "IF") : l.own = l.block ∧ ¬ l.Late := by
  have hending := ending_of_form fun hform => h (word_of_cond hform)
  rw [SourceLine.own, SourceLine.Late, hending]
  exact ⟨if_neg (by simpa using h), by simp⟩

/-! ## Statements of one line -/

def Statement.Flat : Statement → Prop
  | .cond .. | .loop .. | .block .. | .assign _ (.block _) _ _ => False
  | _ => True

theorem Statement.Flat.literals {s : Statement} (h : s.Flat) : s.literals = [] := by
  cases s with
  | cond | loop | block => exact h.elim
  | assign _ source _ _ =>
    cases source with
    | block => exact h.elim
    | _ => rfl
  | _ => rfl

section

variable (l : SourceLine)

theorem readSignal_flat : Gives Statement.Flat (readSignal l) := by
  refine .skip fun tokens => ?_
  dsimp only
  split
  · exact .error _
  split
  · split
    · exact .skip fun _ => .error _
    · next trap _ =>
      have hend (on : Bool) (label : String) (t : Token) : Gives Statement.Flat (if !t.isEof then
            shownOf t >>= fun shown => throw (parseFault (.unexpectedToken shown) t.line t.col)
          else if on then .ok (Statement.signal (.on trap label) (place l))
          else .ok (Statement.signal (.off trap) (place l))) := by
        split
        · exact .skip fun _ => .error _
        · split <;> exact .ok trivial
      split
      · split
        · exact .error _
        · exact hend _ _ _
      · exact hend _ _ _
  · split
    · split
      · exact .ok trivial
      · exact .error _
    · exact .error _

theorem readInterpolation_flat : Gives Statement.Flat (readInterpolation l) := by
  refine .skip fun tokens => ?_
  dsimp only
  split
  · split
    · split
      · exact .ok trivial
      · exact .error _
    · exact .error _
  split
  · exact .ok trivial
  split
  · exact .ok trivial
  · exact .error _

theorem readAddress_flat : Gives Statement.Flat (readAddress l) := by
  refine .skip fun tokens => ?_
  have hsend (domain : String) (n : Nat) : Gives Statement.Flat
      (do return Statement.address (.send domain (← readExpression l.code.toList (tokens.drop n))) (place l)) :=
    .skip fun _ => .ok trivial
  dsimp only
  split
  · exact .ok trivial
  split
  · exact .error _
  split
  · exact .ok trivial
  split
  · split
    · split
      · exact .ok trivial
      split
      · exact .error _
      · exact .skip fun _ => .ok trivial
    · split
      · exact .error _
      · exact hsend _ _
  · exact hsend _ _

theorem readCall_flat : Gives Statement.Flat (readCall l) := by
  refine .skip fun tokens => ?_
  split
  · exact .error _
  · split
    · exact .ok trivial
    · exact .skip fun _ => .ok trivial

theorem readClause_flat : Gives Statement.Flat (readClause l) := by
  unfold readClause
  split
  · exact .error _
  · exact .ok trivial
  · dsimp only
    split
    · exact .error _
    · split
      · exact .error _
      · exact .ok trivial

theorem readSimple_flat (word : String) : Gives Statement.Flat (readSimple l word) := by
  have hoptional (exit : Bool) : Gives Statement.Flat
      (do return Statement.ret (← readOptional l) exit (place l)) := .skip fun _ => .ok trivial
  unfold readSimple
  split
  · exact .error _
  · exact .ok trivial
  · exact .skip fun value => by split <;> exact .ok trivial
  · exact .ok trivial
  · exact .ok trivial
  · exact hoptional false
  · exact hoptional true
  · exact .skip fun value => by split <;> first | exact .ok trivial | exact .error _
  · exact .skip fun _ => .skip fun _ => .ok trivial
  · exact readCall_flat l
  · exact readAddress_flat l
  · exact readSignal_flat l
  · exact readInterpolation_flat l
  · exact readClause_flat l

theorem readAssignment_flat (target : String) (start stop : Nat) :
    Gives Statement.Flat (readAssignment l target start stop) := by
  refine .skip fun tokens => ?_
  split
  · exact .error _
  dsimp only
  split
  · exact .ok trivial
  · exact .error _
  · split
    · exact .ok trivial
    · exact .error _
    · exact .error _

theorem readBlockLine_literals (literal : BlockLiteral) :
    Gives (fun s => s.literals = [literal]) (readBlockLine l literal) := by
  unfold readBlockLine
  split
  · exact .ok rfl
  split
  · split
    · exact .ok rfl
    · exact .error _
  · exact .error _

end

theorem simple_flat {l : SourceLine} {top : Bool} {read : Except Problem Statement} (h : form top l = .simple read)
    (hblock : l.block.isSome → l.word = "IF") : Gives Statement.Flat read := by
  unfold form at h
  split at h
  · next literal hliteral hword =>
    rw [hliteral] at hblock
    rw [hblock rfl] at hword
    exact absurd hword (by decide)
  split at h
  · cases h
    split
    · exact .ok trivial
    · exact .error _
  split at h
  · cases h
    exact readAssignment_flat l _ _ _
  split at h
  · cases h
  split at h
  · cases h
  · cases h
    exact readSimple_flat l _

theorem simple_literals {l : SourceLine} {top : Bool} {read : Except Problem Statement} (h : form top l = .simple read) :
    Gives (fun s => s.literals = l.own.toList) read := by
  have hcond : form false l ≠ .cond := fun hcond => by
    rw [(form_cond_iff top l).mpr hcond] at h
    cases h
  rw [SourceLine.own, ending_of_form hcond]
  by_cases hword : l.word = "IF"
  · intro s hs
    rw [(simple_flat h (fun _ => hword) s hs).literals, hword]
    rfl
  cases hblock : l.block with
  | none =>
    intro s hs
    rw [(simple_flat h (by simp [hblock]) s hs).literals, ite_self]
    rfl
  | some literal =>
    have hother : (l.word == "IF") = false := beq_eq_false_iff_ne.mpr hword
    rw [form, hblock, hother] at h
    cases h
    rw [hother]
    exact readBlockLine_literals l literal

/-! ## Lines that are taken -/

/-- The same literals, and in one order as well if a condition holds. -/
structure Arranged (ordered : Prop) (xs ys : List BlockLiteral) : Prop where
  perm : xs.Perm ys
  eq : ordered → xs = ys

/-- A reader took lines up to some rest. What it gave has the literal `own` and those of the lines that it took. -/
def Takes (ordered : Prop) (own : Option BlockLiteral) (lines rest : Lines) (literals : List BlockLiteral) : Prop :=
  ∃ used, lines = used ++ rest ∧
    Arranged (ordered ∧ ∀ l ∈ used, ¬ l.Defers) literals (own.toList ++ used.filterMap SourceLine.kept)

namespace Takes

variable {ordered ordered' : Prop} {literal : Option BlockLiteral} {lines mid rest : Lines} {xs ys : List BlockLiteral}

theorem line (ordered : Prop) (literal : Option BlockLiteral) (lines : Lines) :
    Takes ordered literal lines lines literal.toList := by
  have hnone : literal.toList ++ List.filterMap SourceLine.kept [] = literal.toList := List.append_nil _
  exact ⟨[], rfl, .of_eq hnone.symm, fun _ => hnone.symm⟩

theorem mono (h : Takes ordered literal lines rest xs) (hordered : ordered' → ordered) :
    Takes ordered' literal lines rest xs := by
  obtain ⟨used, hlines, hperm, heq⟩ := h
  exact ⟨used, hlines, hperm, fun ⟨h, hused⟩ => heq ⟨hordered h, hused⟩⟩

theorem append (h : Takes ordered literal lines mid xs) (h' : Takes ordered' none mid rest ys) :
    Takes (ordered ∧ ordered') literal lines rest (xs ++ ys) := by
  obtain ⟨used, rfl, hperm, heq⟩ := h
  obtain ⟨used', rfl, hperm', heq'⟩ := h'
  have hsplit : literal.toList ++ (used ++ used').filterMap SourceLine.kept =
      (literal.toList ++ used.filterMap SourceLine.kept) ++ used'.filterMap SourceLine.kept := by
    rw [List.filterMap_append, List.append_assoc]
  refine ⟨used ++ used', (List.append_assoc ..).symm, hsplit ▸ hperm.append hperm', fun ⟨hboth, hused⟩ => ?_⟩
  obtain ⟨hused, hused'⟩ := List.forall_mem_append.mp hused
  rw [hsplit, heq ⟨hboth.1, hused⟩, heq' ⟨hboth.2, hused'⟩]
  rfl

theorem behind (h : Takes ordered none lines mid xs) (h' : Takes ordered' literal mid rest ys) :
    Takes False literal lines rest (xs ++ ys) := by
  obtain ⟨used, rfl, hperm, -⟩ := h
  obtain ⟨used', rfl, hperm', -⟩ := h'
  refine ⟨used ++ used', (List.append_assoc ..).symm, ?_, fun h => h.1.elim⟩
  rw [List.filterMap_append]
  refine (hperm.append hperm').trans ?_
  rw [← List.append_assoc, ← List.append_assoc]
  exact List.perm_append_comm.append_right _

theorem cons {l : SourceLine} (h : Takes ordered l.kept lines rest xs) (hordered : ¬ l.Defers → ordered) :
    Takes True none (l :: lines) rest xs := by
  obtain ⟨used, rfl, hperm, heq⟩ := h
  have hkept : (l :: used).filterMap SourceLine.kept = l.kept.toList ++ used.filterMap SourceLine.kept := by
    cases hl : l.kept with
    | none => rw [List.filterMap_cons_none hl]; rfl
    | some b => rw [List.filterMap_cons_some hl]; rfl
  refine ⟨l :: used, rfl, hkept ▸ hperm, fun ⟨_, hused⟩ => ?_⟩
  obtain ⟨hl, hused⟩ := List.forall_mem_cons.mp hused
  exact hkept ▸ heq ⟨hordered hl, hused⟩

end Takes

/-! ## Lines that start with ELSE -/

theorem isTargetPart_of_isWordChar {c : Char} (h : Text.isWordChar c = true) : isTargetPart c = true := by
  simp [isTargetPart, h]

theorem isBlank_of_isTargetPart {c : Char} (h : isTargetPart c = true) : Text.isBlank c = false := by
  simp only [isTargetPart, Bool.or_eq_true, beq_iff_eq] at h
  rcases h with ((((h | rfl) | rfl) | rfl) | rfl) | rfl
  · exact Text.isBlank_of_isWordChar h
  all_goals rfl

theorem isWordChar_of_isNameStart {c : Char} (h : isNameStart c = true) : Text.isWordChar c = true := by
  rcases (Bool.or_eq_true _ _).mp h with h | h
  · have hascii : c.toNat < 128 := by
      have hletter := Text.toNat_of_isAlpha h
      omega
    simp [Text.isWordChar, Text.isAlphanumeric, hascii, Char.isAlphanum, h]
  · simp [Text.isWordChar, h]

theorem takeName_eq_some {cs name after : List Char} (h : takeName cs = some (name, after)) :
    ∃ c w, cs.dropWhile Text.isBlank = c :: (w ++ after) ∧ name = c :: w ∧ (∀ d ∈ w, Text.isWordChar d = true) ∧
      Halts Text.isWordChar after := by
  unfold takeName at h
  split at h
  · next c rest hrest =>
    split at h
    · cases h
      refine ⟨c, rest.takeWhile Text.isWordChar, ?_, rfl, fun d hd => List.mem_takeWhile_imp hd, halts_dropWhile _ _⟩
      rw [List.takeWhile_append_dropWhile, hrest]
    · cases h
  · cases h

theorem afterName_of_targetAt {p : Nat} {cs name after : List Char} {found : String × Nat × Nat}
    (h : targetAt p (cs.dropWhile Text.isBlank) = some found) (hname : takeName cs = some (name, after)) :
    after.all Text.isBlank = false ∧ takeName after = none := by
  obtain ⟨c, w, hcs, -, hw, hhalts⟩ := takeName_eq_some hname
  rw [hcs] at h
  obtain ⟨more, hequals⟩ : ∃ more, (after.dropWhile isTargetPart).dropWhile Text.isBlank = '=' :: more := by
    rw [targetAt] at h
    split at h
    · simp only [drop_takeWhile] at h
      rw [List.dropWhile_append_of_pos fun d hd => isTargetPart_of_isWordChar (hw d hd)] at h
      split at h
      · next more hmore => exact ⟨more, hmore⟩
      · cases h
    · cases h
  have hmem : '=' ∈ after := ((List.dropWhile_suffix _).trans (List.dropWhile_suffix _)).subset
    (hequals ▸ List.mem_cons_self)
  refine ⟨List.all_eq_false.mpr ⟨'=', hmem, by decide⟩, ?_⟩
  obtain ⟨d, more', rfl⟩ := List.exists_cons_of_ne_nil (List.ne_nil_of_mem hmem)
  have hd : Text.isWordChar d = false := hhalts d rfl
  cases hblank : Text.isBlank d with
  | true =>
    have hpart : ¬ isTargetPart d = true := fun hpart => by
      rw [isBlank_of_isTargetPart hpart] at hblank
      cases hblank
    rw [List.dropWhile_cons_of_neg hpart] at hequals
    rw [takeName, hequals]
    rfl
  | false =>
    have hstart : ¬ isNameStart d = true := fun hstart => by
      rw [isWordChar_of_isNameStart hstart] at hd
      cases hd
    rw [takeName, List.dropWhile_cons_of_neg (by simp [hblank])]
    simp only [hstart, if_false, Bool.false_eq_true]

theorem upperChar_of_toUpper {c : Char} (h : c.toUpper = 'L') : Text.upperChar c = ['L'] := by
  have hascii : c.toNat < 128 := by
    unfold Char.toUpper at h
    split at h
    · next hsmall =>
      have : c.toNat ≤ 122 := hsmall.2
      omega
    · rw [h]
      decide
  rw [Text.upperChar, if_pos hascii, h]

theorem targetAt_of_assignment {l : SourceLine} {name after : List Char} (hname : takeName l.code.toList = some (name, after))
    (hword : l.word = "ELSE") (h : (assignment? l.code).isSome) :
    ∃ p found, targetAt p (l.code.toList.dropWhile Text.isBlank) = some found := by
  obtain ⟨found, hfound⟩ := Option.isSome_iff_exists.mp h
  obtain ⟨c, w, hcs, rfl, -, -⟩ := takeName_eq_some hname
  unfold assignment? at hfound
  simp only [drop_takeWhile] at hfound
  split at hfound
  · next hlet =>
    exfalso
    split at hlet
    · next hbody =>
      split at hlet
      · next hupper =>
        simp only [Bool.and_eq_true, beq_iff_eq] at hupper
        rw [hcs] at hbody
        obtain ⟨rfl, -⟩ := List.cons.inj hbody
        rw [SourceLine.word, hname] at hword
        have hchars := congrArg String.toList hword
        rw [Text.toList_upper, String.toList_ofList, List.flatMap_cons, upperChar_of_toUpper hupper.1.1] at hchars
        cases hchars
      · cases hlet
    · cases hlet
  · exact ⟨_, found, hfound⟩

theorem alternative_of_assignment {l : SourceLine} (hword : l.word = "ELSE") (h : (assignment? l.code).isSome) :
    ∃ inner, alternative? l = some inner ∧ inner.word = "" ∧ inner.block = l.block := by
  cases hname : takeName l.code.toList with
  | none =>
    rw [SourceLine.word, hname] at hword
    exact absurd hword (by decide)
  | some cut =>
    obtain ⟨name, after⟩ := cut
    obtain ⟨p, found, hfound⟩ := targetAt_of_assignment hname hword h
    obtain ⟨hblank, hnone⟩ := afterName_of_targetAt hfound hname
    refine ⟨inlineLine l after l.afterWord.2 true, ?_, ?_, rfl⟩
    · have hafter : l.afterWord.1 = String.ofList after := by rw [SourceLine.afterWord, hname]
      rw [alternative?, hafter, Text.allBlank, String.toList_ofList, hblank]
      rfl
    · rw [SourceLine.word, inlineLine, String.toList_ofList, hnone]

theorem kept_of_statement {l : SourceLine} (h : isWordLine l ["ELSE", "ENDIF", "END"] = false) :
    l.kept = l.own ∧ (l.Late → l.Defers) := by
  by_cases hword : l.word = "ELSE"
  · have hassignment : (assignment? l.code).isSome := by
      rw [isWordLine, hword] at h
      cases hassignment : assignment? l.code with
      | none =>
        rw [hassignment] at h
        cases h
      | some found => rfl
    obtain ⟨inner, hinner, hnone, hblock⟩ := alternative_of_assignment hword hassignment
    obtain ⟨hown, hlate⟩ := own_of_word (l := l) (by rw [hword]; decide)
    obtain ⟨hinnerOwn, -⟩ := own_of_word (l := inner) (by rw [hnone]; decide)
    have hcontent : l.content? = some inner := by rw [SourceLine.content?, hword, hinner]; rfl
    refine ⟨?_, fun h => (hlate h).elim⟩
    rw [SourceLine.kept, hcontent, Option.bind_some, hinnerOwn, hown, hblock]
  · have hcontent : l.content? = some l := if_neg (by simpa using hword)
    exact ⟨by rw [SourceLine.kept, hcontent, Option.bind_some], fun h => ⟨l, hcontent, h⟩⟩

theorem own_of_block {l : SourceLine} (h : l.block = none) : l.own = none := by
  rw [SourceLine.own, h, ite_self]

theorem block_of_content {l content : SourceLine} (h : content ∈ l.content?) : content.block = l.block := by
  unfold SourceLine.content? at h
  split at h
  · unfold alternative? at h
    split at h
    · cases h
    · obtain rfl := Option.some.inj h
      rfl
  · obtain rfl := Option.some.inj h
    rfl

theorem block_of_kept {l : SourceLine} {b : BlockLiteral} (h : b ∈ l.kept) : l.block = some b := by
  obtain ⟨content, hcontent, h⟩ := Option.bind_eq_some_iff.mp h
  rw [← block_of_content hcontent]
  unfold SourceLine.own at h
  split at h
  · cases h
  · exact h

theorem kept_of_block {l : SourceLine} (h : l.block = none) : l.kept = none ∧ ¬ l.Defers := by
  refine ⟨Option.eq_none_iff_forall_not_mem.mpr fun b hb => ?_, ?_⟩
  · have := block_of_kept hb
    rw [h] at this
    cases this
  · rintro ⟨content, hcontent, hlate⟩
    rw [SourceLine.Late, block_of_content hcontent, h] at hlate
    cases hlate.1

theorem kept_of_word {l : SourceLine} (hif : l.word ≠ "IF") (helse : l.word ≠ "ELSE") : l.kept = l.block := by
  have hcontent : l.content? = some l := if_neg (by simpa using helse)
  rw [SourceLine.kept, hcontent, Option.bind_some]
  exact (own_of_word hif).1

/-! ## Blocks -/

section

variable {ordered : Prop} {literal : Option BlockLiteral} {lines rest : Lines} {xs : List BlockLiteral}

theorem Takes.past {stop : Option SourceLine} (h : Takes ordered literal lines (stop.toList ++ rest) xs)
    (hstop : ∀ term ∈ stop, term.block = none) : Takes ordered literal lines rest xs := by
  cases stop with
  | none => exact h
  | some term =>
    obtain ⟨hkept, hdefers⟩ := kept_of_block (hstop term rfl)
    have hterm : Takes True none (term :: rest) rest [] :=
      .cons (hkept ▸ Takes.line True none rest) fun _ => trivial
    have := h.append hterm
    rw [List.append_nil] at this
    exact this.mono fun hordered => ⟨hordered, trivial⟩

end

theorem nothing_of_reaches {fuel : Nat} {l : SourceLine} {lines rest : Lines} {s : Statement}
    (hform : (form false l).reaches = false) (hblock : l.block = none)
    (h : readStatement fuel false l lines = .ok (s, rest)) : rest = lines ∧ s.literals = [] := by
  cases fuel with
  | zero => cases h
  | succ fuel =>
    cases readsStatement h with
    | simple hsimple =>
      refine ⟨rfl, ?_⟩
      rw [simple_literals hsimple _ rfl, own_of_block hblock]
      rfl
    | cond hcond =>
      rw [hcond] at hform
      cases hform
    | loop hloop =>
      rw [hloop] at hform
      cases hform

theorem literalsOf_singleton (s : Statement) : literalsOf [s] = s.literals := List.append_nil _

theorem literals_without_else (condition : Expr) (body : List Statement) (p : Place) :
    (Statement.cond condition body [] p).literals = literalsOf body := List.append_nil _

/-- What the readers give at one depth, from the lines that they take. -/
structure Keeps (fuel : Nat) : Prop where
  block : ∀ {terminators : List String} {top : Bool} {opener stop : Option SourceLine} {lines rest : Lines}
    {body : List Statement}, readBlock fuel terminators top opener lines = .ok (body, stop, rest) →
    Takes True none lines (stop.toList ++ rest) (literalsOf body) ∧
      ∀ term ∈ stop, term.block = none
  statement : ∀ {top : Bool} {l : SourceLine} {lines rest : Lines} {s : Statement},
    readStatement fuel top l lines = .ok (s, rest) → Takes (¬ l.Late) l.own lines rest s.literals
  cond : ∀ {l : SourceLine} {lines rest : Lines} {s : Statement}, form false l = .cond →
    readIf fuel l lines = .ok (s, rest) → Takes (¬ l.Late) l.own lines rest s.literals
  alternative : ∀ {term : SourceLine} {needEnd : Bool} {lines rest : Lines} {body : List Statement},
    term.word = "ELSE" → readElse fuel term needEnd lines = .ok (body, rest) →
    Takes (¬ term.Defers) term.kept lines rest (literalsOf body)

section

variable {fuel : Nat} (ih : Keeps fuel) {lines mid rest : Lines} {l : SourceLine} {s t : Statement} {body : List Statement}

include ih

theorem keeps_block {terminators : List String} {top : Bool} {opener stop : Option SourceLine}
    (h : readBlock (fuel + 1) terminators top opener lines = .ok (body, stop, rest)) :
    Takes True none lines (stop.toList ++ rest) (literalsOf body) ∧ ∀ term ∈ stop, term.block = none := by
  cases readsBlock h with
  | nothing => exact ⟨.line _ none _, nofun⟩
  | ended hends =>
    refine ⟨.line _ none _, fun term hterm => ?_⟩
    cases hterm
    exact Option.isNone_iff_eq_none.mp ((Bool.and_eq_true _ _).mp hends).2
  | more _ hword hs hmore =>
    obtain ⟨hkept, hlate⟩ := kept_of_statement hword
    obtain ⟨hrest, hstop⟩ := ih.block hmore
    have hfirst := ih.statement hs
    rw [← hkept] at hfirst
    exact ⟨((hfirst.cons fun h hl => h (hlate hl)).append hrest).mono fun _ => ⟨trivial, trivial⟩, hstop⟩

theorem keeps_statement {top : Bool} (h : readStatement (fuel + 1) top l lines = .ok (s, rest)) :
    Takes (¬ l.Late) l.own lines rest s.literals := by
  cases readsStatement h with
  | simple hform =>
    rw [simple_literals hform _ rfl]
    exact .line _ _ _
  | cond hform hread => exact ih.cond ((form_cond_iff top l).mp hform) hread
  | loop hform hbody =>
    obtain ⟨hbody, hstop⟩ := ih.block hbody
    rw [own_of_block (block_of_loop hform)]
    exact (hbody.past hstop).mono fun _ => trivial

section

variable {condition : Expr} {first : SourceLine} (hform : form false l = .cond)

include hform

theorem keeps_inline (hfound : branches l = .ok (condition, .inline first none))
    (hs : readStatement fuel false first lines = .ok (s, rest)) : Takes (¬ l.Late) l.own lines rest s.literals := by
  have hending := ending_first hform hfound
  have hliteral : first.block = l.block := (branches_literal hfound).1
  have hown : l.own = first.own := by rw [SourceLine.own, SourceLine.own, hending, hliteral]
  have hlate : l.Late ↔ first.Late := by rw [SourceLine.Late, SourceLine.Late, hending, hliteral]
  rw [hown, hlate]
  exact ih.statement hs

/-- Of two statements on a line the second has the literal of the line. What the first takes from the lines after it
comes before that. -/
theorem keeps_both {second : SourceLine} (hfound : branches l = .ok (condition, .inline first (some second)))
    (hs : readStatement fuel false first lines = .ok (s, mid)) (ht : readStatement fuel false second mid = .ok (t, rest)) :
    Takes (¬ l.Late) l.own lines rest (s.literals ++ t.literals) := by
  have hending := ending_second hform hfound
  obtain ⟨hliteral, hfirstBlock⟩ := branches_literal hfound
  have hfirstBlock := hfirstBlock rfl
  have hliteral : second.block = l.block := hliteral
  have hown : l.own = second.own := by rw [SourceLine.own, SourceLine.own, hending, hliteral]
  have hsecond := ih.statement ht
  rw [hown]
  cases hreaches : (Syntax.form false first).reaches with
  | false =>
    -- The first statement takes no line, so nothing stands before the literal of the second.
    obtain ⟨rfl, hnothing⟩ := nothing_of_reaches hreaches hfirstBlock hs
    rw [hnothing, List.nil_append]
    refine hsecond.mono fun hlate hlate' => hlate ?_
    rw [SourceLine.Late, hending, ← hliteral]
    exact ⟨hlate'.1, (Bool.or_eq_true _ _).mpr (.inl hlate'.2)⟩
  | true =>
    have hfirst := own_of_block hfirstBlock ▸ ih.statement hs
    cases hblock : l.block with
    | none =>
      have hsecond := own_of_block (hliteral.trans hblock) ▸ hsecond
      rw [own_of_block (hliteral.trans hblock)]
      refine (hfirst.append hsecond).mono fun _ => ⟨fun hlate => ?_, fun hlate => ?_⟩
      · rw [SourceLine.Late, hfirstBlock] at hlate
        cases hlate.1
      · rw [SourceLine.Late, hliteral, hblock] at hlate
        cases hlate.1
    | some b =>
      refine (hfirst.behind hsecond).mono fun hlate => hlate ?_
      rw [SourceLine.Late, hending, hblock, hreaches]
      exact ⟨rfl, Bool.or_true _⟩

theorem keeps_cond (h : readIf (fuel + 1) l lines = .ok (s, rest)) : Takes (¬ l.Late) l.own lines rest s.literals := by
  have hown {condition : Expr} (hfound : branches l = .ok (condition, .block)) : l.own = none := by
    rw [SourceLine.own, ending_block hform hfound, word_of_cond hform]
    rfl
  cases readsIf h with
  | block hfound hbody =>
    obtain ⟨hbody, hstop⟩ := ih.block hbody
    rw [hown hfound, literals_without_else]
    exact (hbody.past hstop).mono fun _ => trivial
  | blockElse hfound hbody hword hsecond =>
    have hterm := (ih.alternative hword hsecond).cons id
    rw [hown hfound]
    exact ((ih.block hbody).1.append hterm).mono fun _ => ⟨trivial, trivial⟩
  | inline hfound hs =>
    rw [literals_without_else, literalsOf_singleton]
    exact keeps_inline ih hform hfound hs
  | inlineElse hfound hs hword hsecond =>
    have hterm := (ih.alternative hword hsecond).cons id
    rw [Statement.literals, literalsOf_singleton]
    exact ((keeps_inline ih hform hfound hs).append hterm).mono fun hlate => ⟨hlate, trivial⟩
  | both hfound hs ht =>
    rw [Statement.literals, literalsOf_singleton, literalsOf_singleton]
    exact keeps_both ih hform hfound hs ht

end

theorem keeps_alternative {term : SourceLine} {needEnd : Bool} (hword : term.word = "ELSE")
    (h : readElse (fuel + 1) term needEnd lines = .ok (body, rest)) :
    Takes (¬ term.Defers) term.kept lines rest (literalsOf body) := by
  have hcontent : term.content? = alternative? term := by
    rw [SourceLine.content?, hword]
    rfl
  have hinline {inner : SourceLine} {s : Statement} {mid : Lines} (hinner : alternative? term = some inner)
      (hs : readStatement fuel false inner lines = .ok (s, mid)) :
      Takes (¬ term.Defers) term.kept lines mid s.literals := by
    rw [SourceLine.kept, hcontent, hinner, Option.bind_some]
    exact (ih.statement hs).mono fun h hlate => h ⟨inner, hcontent.trans hinner, hlate⟩
  cases readsElse h with
  | block hnone hbody =>
    obtain ⟨hbody, hstop⟩ := ih.block hbody
    rw [SourceLine.kept, hcontent, hnone, Option.bind_none]
    exact (hbody.past hstop).mono fun _ => trivial
  | inline hinner hs =>
    rw [literalsOf_singleton]
    exact hinline hinner hs
  | inlineBlock hinner hs _ hbody =>
    obtain ⟨hbody, hstop⟩ := ih.block hbody
    exact ((hinline hinner hs).append (hbody.past hstop)).mono fun hlate => ⟨hlate, trivial⟩

end

theorem keeps (fuel : Nat) : Keeps fuel := by
  induction fuel with
  | zero => exact ⟨nofun, nofun, nofun, nofun⟩
  | succ fuel ih => exact ⟨keeps_block ih, keeps_statement ih, keeps_cond ih, keeps_alternative ih⟩

/-! ## Programs -/

/-- A block that no word ends is read up to the end of the lines. -/
theorem readBlock_program {fuel : Nat} {top : Bool} {opener stop : Option SourceLine} {lines rest : Lines}
    {body : List Statement} (h : readBlock fuel [] top opener lines = .ok (body, stop, rest)) : stop = none ∧ rest = [] := by
  induction fuel generalizing lines body with
  | zero => cases h
  | succ fuel ih =>
    cases readsBlock h with
    | nothing => exact ⟨rfl, rfl⟩
    | ended hends => simp [endsBlock, isWordLine] at hends
    | more _ _ _ hmore => exact ih hmore

/-- The block literals of a program are those of its logical lines that are kept, each of them once; and they are in the
order of the lines, unless a line with a literal has it behind those of lines that come later. What is kept of a line is
its own literal, and a line whose first word is neither IF nor ELSE keeps it. -/
theorem parse_literals {source : String} {program : Program} (h : parse source = .ok program) :
    ∃ lines, sourceLines source = .ok lines ∧ (literalsOf program).Perm (lines.filterMap SourceLine.kept) ∧
      ((∀ l ∈ lines, ¬ l.Defers) → literalsOf program = lines.filterMap SourceLine.kept) ∧
      ∀ l ∈ lines, (∀ b ∈ l.kept, l.block = some b) ∧ (l.word ≠ "IF" → l.word ≠ "ELSE" → l.kept = l.block) := by
  rw [parse_eq] at h
  cases hlines : sourceLines source with
  | error c =>
    rw [hlines] at h
    cases h
  | ok lines =>
    rw [hlines] at h
    dsimp only at h
    cases hread : readBlock (10 + weight lines) [] true none lines with
    | error e =>
      rw [hread] at h
      cases h
    | ok read =>
      obtain ⟨body, stop, rest⟩ := read
      rw [hread] at h
      cases h
      obtain ⟨rfl, rfl⟩ := readBlock_program hread
      obtain ⟨⟨used, hused, hperm, heq⟩, -⟩ := (keeps _).block hread
      obtain rfl : lines = used := by simpa using hused
      exact ⟨lines, rfl, hperm, fun h => heq ⟨trivial, h⟩, fun l _ => ⟨fun b => block_of_kept, kept_of_word⟩⟩

/-- The literal of a condition with nothing behind its THEN is not in the program. -/
theorem parse_literals_then : ∃ program,
    parse "x = <<T\none\nT\nIF 1 THEN <<U\ntwo\nU\nENDIF" = .ok program ∧
      (literalsOf program).map BlockLiteral.content = ["one"] := by
  have haccepted : (parse "x = <<T\none\nT\nIF 1 THEN <<U\ntwo\nU\nENDIF").isOk = true := by decide +kernel
  have hkept : (match sourceLines "x = <<T\none\nT\nIF 1 THEN <<U\ntwo\nU\nENDIF" with
      | .ok lines => (lines.filterMap SourceLine.kept).map BlockLiteral.content
      | .error _ => []) = ["one"] := by decide +kernel
  cases hprogram : parse "x = <<T\none\nT\nIF 1 THEN <<U\ntwo\nU\nENDIF" with
  | error e =>
    rw [hprogram] at haccepted
    cases haccepted
  | ok program =>
    obtain ⟨lines, hlines, hperm, -⟩ := parse_literals hprogram
    rw [hlines] at hkept
    dsimp only at hkept
    have hcontents := hperm.map BlockLiteral.content
    rw [hkept] at hcontents
    exact ⟨program, rfl, List.perm_singleton.mp hcontents⟩

end Conductor.Syntax
