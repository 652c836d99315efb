import Conductor.Proofs.Syntax.Faults
import Mathlib.Data.List.Infix
import Mathlib.Logic.Relation

/-!
# From lines to programs

A program is read line by line, and a line that has statements inside it is cut into parts of its own text. So what is
known of the statements that single lines and their parts give, and of what reading them fails with, is known of every
program: it is enough to look at one line at a time.
-/

set_option autoImplicit false

namespace Conductor.Syntax

/-! ## Results and errors -/

def Gives {α : Type} (P : α → Prop) (x : Except Problem α) : Prop := ∀ a, x = .ok a → P a

namespace Gives

variable {α β : Type} {P : α → Prop} {Q : β → Prop}

theorem ok {a : α} (h : P a) : Gives P (.ok a : Except Problem α) := by
  intro a' ha'
  cases ha'
  exact h

theorem error (e : Problem) : Gives P (.error e : Except Problem α) := nofun

theorem bind {x : Except Problem α} {k : α → Except Problem β} (hx : Gives P x) (hk : ∀ a, P a → Gives Q (k a)) :
    Gives Q (x >>= k) := by
  intro b h
  obtain ⟨a, ha, hb⟩ := bind_eq_ok_iff.mp h
  exact hk a (hx a ha) b hb

theorem skip {x : Except Problem α} {k : α → Except Problem β} (hk : ∀ a, Gives Q (k a)) : Gives Q (x >>= k) :=
  .bind (P := fun _ => True) (fun _ _ => trivial) fun a _ => hk a

end Gives

/-- A computation whose results have one property and whose errors another. -/
structure Ends {α : Type} (P : α → Prop) (E : Problem → Prop) (x : Except Problem α) : Prop where
  gives : Gives P x
  fails : Fails E x

namespace Ends

variable {α β : Type} {P : α → Prop} {Q : β → Prop} {E : Problem → Prop}

theorem ok {a : α} (h : P a) : Ends P E (.ok a : Except Problem α) := ⟨.ok h, .ok a⟩

theorem error {e : Problem} (h : E e) : Ends P E (.error e : Except Problem α) := ⟨.error e, .error h⟩

theorem mono {P' : α → Prop} {x : Except Problem α} (h : Ends P E x) (hP : ∀ a, P a → P' a) : Ends P' E x :=
  ⟨fun a ha => hP a (h.gives a ha), h.fails⟩

theorem bind {x : Except Problem α} {k : α → Except Problem β} (hx : Ends P E x)
    (hk : ∀ a, x = .ok a → P a → Ends Q E (k a)) : Ends Q E (x >>= k) := by
  constructor
  · intro b h
    obtain ⟨a, ha, hb⟩ := bind_eq_ok_iff.mp h
    exact (hk a ha (hx.gives a ha)).gives b hb
  · exact hx.fails.bind fun a ha => (hk a ha (hx.gives a ha)).fails

end Ends

/-! ## Parts of a line -/

structure Part (inner outer : SourceLine) : Prop where
  line : inner.line = outer.line
  code : ∃ k ≤ outer.code.toList.length, inner.offset = outer.offset + k ∧
    inner.code.toList <+: outer.code.toList.drop k
  block : ∀ b ∈ inner.block, b ∈ outer.block

theorem Part.refl (l : SourceLine) : Part l l := ⟨rfl, ⟨0, Nat.zero_le _, rfl, List.prefix_rfl⟩, fun _ => id⟩

theorem Part.trans {a b c : SourceLine} (h : Part a b) (h' : Part b c) : Part a c := by
  obtain ⟨k, hk, hoffset, hcode⟩ := h.code
  obtain ⟨m, hm, hoffset', hcode'⟩ := h'.code
  have hlength := hcode'.length_le
  rw [List.length_drop] at hlength
  refine ⟨h.line.trans h'.line, ⟨m + k, by omega, by omega, ?_⟩, fun x hx => h'.block x (h.block x hx)⟩
  rw [← List.drop_drop]
  exact hcode.trans (hcode'.drop k)

theorem part_inlineLine (l : SourceLine) {k : Nat} (hk : k ≤ l.code.toList.length) {text : List Char}
    (htext : text <+: l.code.toList.drop k) (last : Bool) : Part (inlineLine l text (l.offset + k) last) l := by
  refine ⟨rfl, ⟨k, hk, rfl, by rwa [inlineLine, String.toList_ofList]⟩, fun b hb => ?_⟩
  cases last with
  | true => exact hb
  | false => cases hb

theorem afterWord_drop (l : SourceLine) : ∃ k ≤ l.code.toList.length, l.afterWord.2 = l.offset + k ∧
    l.afterWord.1.toList = l.code.toList.drop k := by
  unfold SourceLine.afterWord
  split
  · next name after hname =>
    obtain ⟨before, hbefore⟩ := takeName_suffix hname
    have hlength : l.code.length - after.length = before.length := by
      rw [← String.length_toList, ← hbefore, List.length_append, Nat.add_sub_cancel]
    refine ⟨before.length, ?_, ?_, ?_⟩
    · rw [← hbefore, List.length_append]
      exact Nat.le_add_right _ _
    · rw [hlength]
    · rw [String.toList_ofList, ← hbefore, List.drop_left]
  · exact ⟨0, Nat.zero_le _, rfl, rfl⟩

theorem part_alternative {term inner : SourceLine} (h : alternative? term = some inner) : Part inner term := by
  obtain ⟨k, hk, hoffset, htext⟩ := afterWord_drop term
  unfold alternative? at h
  split at h
  · cases h
  · cases h
    rw [hoffset]
    exact part_inlineLine term hk (htext ▸ List.prefix_rfl) true

def Branches.lines : Branches → List SourceLine
  | .block => []
  | .inline first second => first :: second.toList

theorem part_branches {l : SourceLine} : Gives (fun b => ∀ inner ∈ b.2.lines, Part inner l) (branches l) := by
  intro b h
  unfold branches at h
  obtain ⟨tokens, htokens, h⟩ := bind_eq_ok_iff.mp h
  dsimp only at h
  split at h
  · cases h
  · next thenAt hthen =>
    obtain ⟨condition, -, h⟩ := bind_eq_ok_iff.mp h
    have hstop {word : String} {n i : Nat} (hi : findWord tokens word n = some i) :
        (tokenAt tokens i).stop ≤ l.code.toList.length := (bounds_of_findWord htokens hi).2
    split at h
    · cases h
      exact nofun
    split at h
    · next elseAt helse =>
      cases h
      refine List.forall_mem_cons.mpr ⟨part_inlineLine l (hstop hthen) ?_ false, List.forall_mem_singleton.mpr ?_⟩
      · rw [List.drop_take]
        exact List.take_prefix _ _
      · exact part_inlineLine l (hstop helse) List.prefix_rfl true
    · cases h
      exact List.forall_mem_singleton.mpr (part_inlineLine l (hstop hthen) List.prefix_rfl true)

/-- The line of a statement that is read from inside another line: behind THEN, or behind ELSE. -/
inductive Inline (inner outer : SourceLine) : Prop
  | branch {top : Bool} {condition : Expr} {found : Branches} (hform : form top outer = .cond)
      (hfound : branches outer = .ok (condition, found)) (hinner : inner ∈ found.lines)
  | alternative (hword : outer.word = "ELSE") (hinner : alternative? outer = some inner)

theorem Inline.part {inner outer : SourceLine} (h : Inline inner outer) : Part inner outer := by
  cases h with
  | branch _ hfound hinner => exact part_branches _ hfound _ hinner
  | alternative _ hinner => exact part_alternative hinner

/-- The line of a statement that stands on another line, however deep it is inside. -/
def Nested : SourceLine → SourceLine → Prop := Relation.ReflTransGen Inline

theorem Nested.part {inner outer : SourceLine} (h : Nested inner outer) : Part inner outer := by
  induction h with
  | refl => exact .refl _
  | tail _ hlast ih => exact ih.trans hlast.part

/-! ## One line at a time -/

/-- What is to be known of the lines: with `I`, that a line gives statements with `Q` and fails with `E`. -/
structure Discipline (I : SourceLine → Prop) (Q : Statement → Prop) (E : Problem → Prop) : Prop where
  inside : ∀ {inner outer : SourceLine}, Inline inner outer → I outer → I inner
  simple : ∀ {top : Bool} {l : SourceLine} {read : Except Problem Statement}, I l → form top l = .simple read →
    Ends Q E read
  cond : ∀ {top : Bool} {l : SourceLine}, I l → form top l = .cond → Ends (fun b => ∀ first second : List Statement,
    (∀ s ∈ first, Q s) → (∀ s ∈ second, Q s) → Q (.cond b.1 first second (place l))) E (branches l)
  loop : ∀ {top : Bool} {l : SourceLine} {head : Except Problem LoopHead}, I l → form top l = .loop head →
    Ends (fun head => ∀ body : List Statement, (∀ s ∈ body, Q s) → Q (.loop head body (place l))) E head
  stray : ∀ {l : SourceLine}, I l → E (parseFault (.unexpectedWord l.word) l.line (l.offset + 1))
  missing : ∀ {l : SourceLine}, I l → ∀ terminators : List String,
    E (parseFault (.missingTerminator terminators (some l.line)) l.line 1)
  nesting : E (.failure .nesting)

structure Holds (I : SourceLine → Prop) (Q : Statement → Prop) (E : Problem → Prop) (fuel : Nat) : Prop where
  block : ∀ {terminators : List String} {top : Bool} {opener : Option SourceLine} {lines : Lines},
    (terminators = [] ∨ ∃ l ∈ opener, I l) → (∀ l ∈ lines, I l) →
    Ends (fun read => ∀ s ∈ read.1, Q s) E (readBlock fuel terminators top opener lines)
  statement : ∀ {top : Bool} {l : SourceLine} {lines : Lines}, I l → (∀ l ∈ lines, I l) →
    Ends (fun read => Q read.1) E (readStatement fuel top l lines)
  cond : ∀ {top : Bool} {l : SourceLine} {lines : Lines}, I l → form top l = .cond → (∀ l ∈ lines, I l) →
    Ends (fun read => Q read.1) E (readIf fuel l lines)
  alternative : ∀ {term : SourceLine} {needEnd : Bool} {lines : Lines}, I term → term.word = "ELSE" →
    (∀ l ∈ lines, I l) → Ends (fun read => ∀ s ∈ read.1, Q s) E (readElse fuel term needEnd lines)

section

variable {I : SourceLine → Prop} {Q : Statement → Prop} {E : Problem → Prop}

theorem forall_rest {rest lines : Lines} (hlines : ∀ l ∈ lines, I l) (hrest : rest <:+ lines) : ∀ l ∈ rest, I l :=
  fun l hl => hlines l (hrest.subset hl)

section

variable (h : Discipline I Q E) {fuel : Nat} (ih : Holds I Q E fuel)

include h ih

theorem block_holds {terminators : List String} {top : Bool} {opener : Option SourceLine} {lines : Lines}
    (hopener : terminators = [] ∨ ∃ l ∈ opener, I l) (hlines : ∀ l ∈ lines, I l) :
    Ends (fun read => ∀ s ∈ read.1, Q s) E (readBlock (fuel + 1) terminators top opener lines) := by
  cases lines with
  | nil =>
    rw [readBlock_nil]
    split
    · exact .ok nofun
    · next hsome =>
      rcases hopener with rfl | ⟨l, hl, hI⟩
      · exact absurd rfl hsome
      · cases hl
        exact .error (h.missing hI terminators)
  | cons l lines =>
    obtain ⟨hl, hlines⟩ := List.forall_mem_cons.mp hlines
    rw [readBlock_cons]
    split
    · exact .ok nofun
    split
    · exact .error (h.stray hl)
    · refine (ih.statement hl hlines).bind fun ⟨s, mid⟩ hread hs => ?_
      have hmid := forall_rest hlines ((leaves fuel).statement hread)
      refine (ih.block hopener hmid).bind fun ⟨more, stop, rest⟩ _ hmore => ?_
      exact .ok (List.forall_mem_cons.mpr ⟨hs, hmore⟩)

theorem statement_holds {top : Bool} {l : SourceLine} {lines : Lines} (hl : I l) (hlines : ∀ l ∈ lines, I l) :
    Ends (fun read => Q read.1) E (readStatement (fuel + 1) top l lines) := by
  rw [readStatement_succ]
  split
  · next hform => exact (h.simple hl hform).bind fun s _ hs => .ok hs
  · next hform => exact ih.cond hl hform hlines
  · next hform =>
    refine (h.loop hl hform).bind fun head _ hhead => ?_
    exact (ih.block (.inr ⟨l, rfl, hl⟩) hlines).bind fun ⟨body, stop, rest⟩ _ hbody => .ok (hhead body hbody)

theorem cond_holds {top : Bool} {l : SourceLine} {lines : Lines} (hl : I l) (hform : form top l = .cond)
    (hlines : ∀ l ∈ lines, I l) : Ends (fun read => Q read.1) E (readIf (fuel + 1) l lines) := by
  rw [readIf_succ]
  refine (h.cond hl hform).bind fun ⟨condition, found⟩ hbranches hcond => ?_
  have hinside (inner : SourceLine) (hinner : inner ∈ found.lines) : I inner :=
    h.inside (.branch hform hbranches hinner) hl
  have hone {s : Statement} (hs : Q s) : ∀ s' ∈ [s], Q s' := List.forall_mem_singleton.mpr hs
  rcases found with - | ⟨first, - | second⟩
  -- a block behind THEN, which an ELSE or an END has ended
  · refine (ih.block (.inr ⟨l, rfl, hl⟩) hlines).bind fun ⟨body, stop, mid⟩ hread hbody => ?_
    have hmid := forall_rest hlines ((leaves fuel).block hread)
    dsimp only
    split
    · next term =>
      rw [Option.toList_some, List.singleton_append] at hmid
      obtain ⟨hterm, hmid⟩ := List.forall_mem_cons.mp hmid
      split
      · next hword =>
        exact (ih.alternative hterm (eq_of_beq hword) hmid).bind fun ⟨second, rest⟩ _ hsecond =>
          .ok (hcond _ _ hbody hsecond)
      · exact .ok (hcond _ _ hbody nofun)
    · exact .ok (hcond _ _ hbody nofun)
  -- a statement behind THEN; the next line may start with ELSE
  · refine (ih.statement (hinside first List.mem_cons_self) hlines).bind fun ⟨s, mid⟩ hread hs => ?_
    have hmid := forall_rest hlines ((leaves fuel).statement hread)
    dsimp only
    split
    · next term rest =>
      obtain ⟨hterm, hrest⟩ := List.forall_mem_cons.mp hmid
      split
      · next hword =>
        refine (ih.alternative hterm (eq_of_beq hword) hrest).bind fun ⟨second, rest'⟩ _ hsecond => ?_
        exact .ok (hcond _ _ (hone hs) hsecond)
      · exact .ok (hcond _ _ (hone hs) nofun)
    · exact .ok (hcond _ _ (hone hs) nofun)
  -- THEN and ELSE on the line
  · refine (ih.statement (hinside first List.mem_cons_self) hlines).bind fun ⟨s, mid⟩ hread hs => ?_
    have hmid := forall_rest hlines ((leaves fuel).statement hread)
    refine (ih.statement (hinside second (by simp [Branches.lines])) hmid).bind fun ⟨s', rest⟩ _ hs' => ?_
    exact .ok (hcond _ _ (hone hs) (hone hs'))

theorem alternative_holds {term : SourceLine} {needEnd : Bool} {lines : Lines} (hterm : I term)
    (hword : term.word = "ELSE") (hlines : ∀ l ∈ lines, I l) :
    Ends (fun read => ∀ s ∈ read.1, Q s) E (readElse (fuel + 1) term needEnd lines) := by
  rw [readElse_succ]
  split
  · exact (ih.block (.inr ⟨term, rfl, hterm⟩) hlines).bind fun ⟨body, stop, rest⟩ _ hbody => .ok hbody
  · next inner hinner =>
    refine (ih.statement (h.inside (.alternative hword hinner) hterm) hlines).bind fun ⟨s, mid⟩ hread hs => ?_
    have hmid := forall_rest hlines ((leaves fuel).statement hread)
    dsimp only
    split
    · exact .ok (List.forall_mem_singleton.mpr hs)
    · refine (ih.block (.inr ⟨term, rfl, hterm⟩) hmid).bind fun ⟨body, stop, rest⟩ _ hbody => ?_
      exact .ok (List.forall_mem_cons.mpr ⟨hs, hbody⟩)

end

theorem Discipline.holds (h : Discipline I Q E) (fuel : Nat) : Holds I Q E fuel := by
  induction fuel with
  | zero => exact ⟨fun _ _ => .error h.nesting, fun _ _ => .error h.nesting, fun _ _ _ => .error h.nesting,
      fun _ _ _ => .error h.nesting⟩
  | succ fuel ih => exact ⟨block_holds h ih, statement_holds h ih, cond_holds h ih, alternative_holds h ih⟩

/-- What is known of single lines is known of the program that they are read as. -/
theorem Discipline.parse (h : Discipline I Q E) {source : String} {lines : Lines}
    (hlines : sourceLines source = .ok lines) (hI : ∀ l ∈ lines, I l) :
    Ends (fun program => ∀ s ∈ program, Q s) E (parse source) := by
  have hread : Ends (fun read => ∀ s ∈ read.1, Q s) E (readBlock (10 + weight lines) [] true none lines) :=
    (h.holds _).block (.inl rfl) hI
  rw [parse_eq, hlines]
  dsimp only
  cases hblock : readBlock (10 + weight lines) [] true none lines with
  | error e => exact .error (hread.fails e hblock)
  | ok read => exact .ok (hread.gives read hblock)

end

end Conductor.Syntax
