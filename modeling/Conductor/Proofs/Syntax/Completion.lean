import Conductor.Proofs.Syntax.Faults

/-!
# Texts that more lines could complete

A program that cannot be read may become one when more lines come after it, but only if it
fails for want of lines: a block that is not ended, or a block literal without its delimiter.
Every other fault stays, whatever follows. The test for incomplete texts goes by the words of
the message, and takes an assignment without a value for one of these; that it is not.
-/

set_option autoImplicit false

namespace Conductor

/-- What more lines could mend in a text: a block that is not ended, or a block literal without its delimiter. -/
def Cause.isOpen : Cause → Bool
  | missingTerminator .. | unterminatedBlock _ => true
  | _ => false

/-- The causes whose messages ask for more lines. -/
def Cause.asksForMore : Cause → Bool
  | missingTerminator .. | unterminatedBlock _ | missingValue => true
  | _ => false

namespace Syntax

/-! ## Readings with more lines -/

/-- What more lines could mend: a block that is not ended. The depth of the reading is no matter of the lines. -/
def Wanting (e : Problem) : Prop :=
  e = .failure .nesting ∨ ∃ c terminators line, e = .condition c ∧ c.cause = .missingTerminator terminators line

/-- If the second reading, of more lines, succeeds, the first did so as well, and left the same lines if it left any, or
it wanted lines. -/
def Extends {α : Type} (more : Lines) (x y : Except Problem (α × Lines)) : Prop :=
  ∀ b rest', y = .ok (b, rest') →
    (∃ a rest, x = .ok (a, rest) ∧ (rest ≠ [] → rest' = rest ++ more)) ∨ ∃ e, x = .error e ∧ Wanting e

def ExtendsBlock (more : Lines) (x y : Except Problem (List Statement × Option SourceLine × Lines)) : Prop :=
  ∀ b stop' rest', y = .ok (b, stop', rest') →
    (∃ a stop rest, x = .ok (a, stop, rest) ∧ ∀ term, stop = some term → stop' = some term ∧ rest' = rest ++ more) ∨
      ∃ e, x = .error e ∧ Wanting e

theorem Extends.bind {α β : Type} {more : Lines} {x y : Except Problem (α × Lines)}
    {k k' : α × Lines → Except Problem (β × Lines)} (h : Extends more x y)
    (hk : ∀ a a' rest more', Extends more' (k (a, rest)) (k' (a', rest ++ more')))
    (hnil : ∀ a b rest, k (a, []) = .ok (b, rest) → rest = []) : Extends more (x >>= k) (y >>= k') := by
  intro b rest' hy
  obtain ⟨⟨a', mid'⟩, ha', hb⟩ := bind_eq_ok_iff.mp hy
  rcases h a' mid' ha' with ⟨a, mid, ha, hmid⟩ | ⟨e, he, hwanting⟩
  · rw [ha, ok_bind]
    by_cases hempty : mid = []
    · subst hempty
      rcases hk a a' [] mid' b rest' hb with ⟨c, rest, hc, -⟩ | hwanting
      · exact .inl ⟨c, rest, hc, fun hne => absurd (hnil a c rest hc) hne⟩
      · exact .inr hwanting
    · rw [hmid hempty] at hb
      exact hk a a' mid more b rest' hb
  · rw [he]
    exact .inr ⟨e, rfl, hwanting⟩

theorem ExtendsBlock.bind {β : Type} {more : Lines} {x y : Except Problem (List Statement × Option SourceLine × Lines)}
    {k k' : List Statement × Option SourceLine × Lines → Except Problem (β × Lines)} (h : ExtendsBlock more x y)
    (hx : ∀ body rest, x ≠ .ok (body, none, rest))
    (hk : ∀ body body' term rest, Extends more (k (body, some term, rest)) (k' (body', some term, rest ++ more))) :
    Extends more (x >>= k) (y >>= k') := by
  intro b rest' hy
  obtain ⟨⟨body', stop', mid'⟩, hbody', hb⟩ := bind_eq_ok_iff.mp hy
  rcases h body' stop' mid' hbody' with ⟨body, stop, mid, hbody, hstop⟩ | ⟨e, he, hwanting⟩
  · cases stop with
    | none => exact absurd hbody (hx body mid)
    | some term =>
      obtain ⟨rfl, rfl⟩ := hstop term rfl
      rw [hbody]
      exact hk body body' term mid b rest' hb
  · rw [he]
    exact .inr ⟨e, rfl, hwanting⟩

theorem Extends.ok {α : Type} (a b : α) (rest more : Lines) : Extends more (.ok (a, rest)) (.ok (b, rest ++ more)) := by
  intro b' rest' h
  cases h
  exact .inl ⟨a, rest, rfl, fun _ => rfl⟩

theorem Extends.nil {α : Type} (a : α) (more : Lines) (y : Except Problem (α × Lines)) : Extends more (.ok (a, [])) y :=
  fun _ _ _ => .inl ⟨a, [], rfl, fun hne => absurd rfl hne⟩

theorem Extends.same {α β : Type} {more : Lines} {x : Except Problem α} {k k' : α → Except Problem (β × Lines)}
    (h : ∀ a, Extends more (k a) (k' a)) : Extends more (x >>= k) (x >>= k') := by
  intro b rest' hy
  obtain ⟨a, ha, hb⟩ := bind_eq_ok_iff.mp hy
  rw [ha]
  exact h a b rest' hb

/-- The readers at two depths, with more lines at the second. -/
structure Extended (fuel : Nat) : Prop where
  block : ∀ (fuel' : Nat) (terminators : List String) (top : Bool) (opener : Option SourceLine) (lines more : Lines),
    ExtendsBlock more (readBlock fuel terminators top opener lines)
      (readBlock fuel' terminators top opener (lines ++ more))
  statement : ∀ (fuel' : Nat) (top : Bool) (l : SourceLine) (lines more : Lines),
    Extends more (readStatement fuel top l lines) (readStatement fuel' top l (lines ++ more))
  cond : ∀ (fuel' : Nat) (l : SourceLine) (lines more : Lines),
    Extends more (readIf fuel l lines) (readIf fuel' l (lines ++ more))
  alternative : ∀ (fuel' : Nat) (term : SourceLine) (needEnd : Bool) (lines more : Lines),
    Extends more (readElse fuel term needEnd lines) (readElse fuel' term needEnd (lines ++ more))

theorem readBlock_ended {fuel : Nat} {terminators : List String} {top : Bool} {opener : Option SourceLine}
    {lines rest : Lines} {body : List Statement} (hne : terminators.isEmpty = false) :
    readBlock fuel terminators top opener lines ≠ .ok (body, none, rest) := by
  intro h
  induction fuel generalizing lines body with
  | zero => cases h
  | succ fuel ih =>
    cases readsBlock h with
    | nothing hnone =>
      rw [hne] at hnone
      cases hnone
    | more _ _ _ hmore => exact ih hmore

section

variable {fuel : Nat} (ih : Extended fuel) (fuel' : Nat)

include ih

theorem Extended.rest {terminators : List String} {top : Bool} {opener : Option SourceLine} {mid mid' more : Lines}
    (hmid : mid ≠ [] → mid' = mid ++ more) :
    ExtendsBlock more (readBlock fuel terminators top opener mid) (readBlock fuel' terminators top opener mid') := by
  by_cases hempty : mid = []
  · -- nothing is left for the block, so it cannot come to its end
    subst hempty
    intro b stop' rest' h
    rcases ih.block fuel' terminators top opener [] mid' b stop' rest' h with ⟨body, stop, rest, hbody, -⟩ | hwanting
    · refine .inl ⟨body, stop, rest, hbody, fun term hterm => ?_⟩
      have hnil := List.suffix_nil.mp ((leaves fuel).block hbody)
      rw [hterm] at hnil
      cases hnil
    · exact .inr hwanting
  · rw [hmid hempty]
    exact ih.block fuel' terminators top opener mid more

theorem extended_block (terminators : List String) (top : Bool) (opener : Option SourceLine) (lines more : Lines) :
    ExtendsBlock more (readBlock (fuel + 1) terminators top opener lines)
      (readBlock fuel' terminators top opener (lines ++ more)) := by
  intro b stop' rest' h
  cases fuel' with
  | zero => cases h
  | succ fuel' =>
    cases lines with
    | nil =>
      rw [readBlock_nil]
      split
      · exact .inl ⟨_, _, _, rfl, nofun⟩
      · exact .inr ⟨_, rfl, .inr ⟨_, _, _, rfl, rfl⟩⟩
    | cons l lines =>
      rw [readBlock_cons]
      cases readsBlock h with
      | ended hends =>
        rw [if_pos hends]
        exact .inl ⟨_, _, _, rfl, fun term hterm => ⟨hterm, rfl⟩⟩
      | more hends hword hs' hbody' =>
        rw [if_neg (Bool.eq_false_iff.mp hends), if_neg (Bool.eq_false_iff.mp hword)]
        rcases ih.statement _ _ _ _ _ _ _ hs' with ⟨s, mid, hs, hmid⟩ | ⟨e, he, hwanting⟩
        · rw [hs, ok_bind]
          dsimp only
          rcases ih.rest fuel' hmid _ _ _ hbody' with ⟨body, stop, rest, hbody, hstop⟩ | ⟨e, he, hwanting⟩
          · rw [hbody]
            exact .inl ⟨s :: body, stop, rest, rfl, hstop⟩
          · rw [he]
            exact .inr ⟨e, rfl, hwanting⟩
        · rw [he]
          exact .inr ⟨e, rfl, hwanting⟩

theorem extended_statement (top : Bool) (l : SourceLine) (lines more : Lines) :
    Extends more (readStatement (fuel + 1) top l lines) (readStatement fuel' top l (lines ++ more)) := by
  cases fuel' with
  | zero => exact nofun
  | succ fuel' =>
    rw [readStatement_succ, readStatement_succ]
    cases form top l with
    | simple read => exact .same fun s => .ok _ _ _ _
    | cond => exact ih.cond _ _ _ _
    | loop head =>
      exact .same fun head => (ih.block _ _ _ _ _ _).bind (fun _ _ => readBlock_ended rfl)
        fun _ _ _ _ => .ok _ _ _ _

theorem extended_cond (l : SourceLine) (lines more : Lines) :
    Extends more (readIf (fuel + 1) l lines) (readIf fuel' l (lines ++ more)) := by
  cases fuel' with
  | zero => exact nofun
  | succ fuel' =>
    rw [readIf_succ, readIf_succ]
    refine .same fun ⟨condition, found⟩ => ?_
    rcases found with - | ⟨first, - | second⟩
    · refine (ih.block _ _ _ _ _ _).bind (fun _ _ => readBlock_ended rfl) fun body body' term rest => ?_
      dsimp only
      split
      · exact (ih.alternative _ _ _ _ _).bind (fun _ _ _ _ => .ok _ _ _ _) fun _ _ _ h => by cases h; rfl
      · exact .ok _ _ _ _
    · refine (ih.statement _ _ _ _ _).bind (fun s s' rest more' => ?_) fun s b rest h => ?_
      · cases rest with
        | nil => exact .nil _ _ _
        | cons term rest =>
          dsimp only [List.cons_append]
          split
          · exact (ih.alternative _ _ _ _ _).bind (fun _ _ _ _ => .ok _ _ _ _) fun _ _ _ h => by cases h; rfl
          · exact .ok _ _ _ _
      · cases h
        rfl
    · refine (ih.statement _ _ _ _ _).bind (fun s s' rest more' => ?_) fun s b rest h => ?_
      · exact (ih.statement _ _ _ _ _).bind (fun _ _ _ _ => .ok _ _ _ _) fun _ _ _ h => by cases h; rfl
      · obtain ⟨⟨s', rest'⟩, hs', h⟩ := bind_eq_ok_iff.mp h
        cases h
        exact List.suffix_nil.mp ((leaves fuel).statement hs')

theorem extended_alternative (term : SourceLine) (needEnd : Bool) (lines more : Lines) :
    Extends more (readElse (fuel + 1) term needEnd lines) (readElse fuel' term needEnd (lines ++ more)) := by
  cases fuel' with
  | zero => exact nofun
  | succ fuel' =>
    rw [readElse_succ, readElse_succ]
    cases alternative? term with
    | none => exact (ih.block _ _ _ _ _ _).bind (fun _ _ => readBlock_ended rfl) fun _ _ _ _ => .ok _ _ _ _
    | some inner =>
      refine (ih.statement _ _ _ _ _).bind (fun s s' rest more' => ?_) fun s b rest h => ?_
      · dsimp only
        split
        · exact .ok _ _ _ _
        · exact (ih.block _ _ _ _ _ _).bind (fun _ _ => readBlock_ended rfl) fun _ _ _ _ => .ok _ _ _ _
      · dsimp only at h
        split at h
        · cases h
          rfl
        · obtain ⟨⟨body, stop, rest'⟩, hbody, h⟩ := bind_eq_ok_iff.mp h
          cases h
          exact List.suffix_nil.mp (suffix_of_stop ((leaves fuel).block hbody))

end

theorem extended (fuel : Nat) : Extended fuel := by
  induction fuel with
  | zero =>
    have hwanting : Wanting (.failure .nesting) := .inl rfl
    exact ⟨fun _ _ _ _ _ _ _ _ _ _ => .inr ⟨_, rfl, hwanting⟩, fun _ _ _ _ _ _ _ _ => .inr ⟨_, rfl, hwanting⟩,
      fun _ _ _ _ _ _ _ => .inr ⟨_, rfl, hwanting⟩, fun _ _ _ _ _ _ _ _ => .inr ⟨_, rfl, hwanting⟩⟩
  | succ fuel ih => exact ⟨extended_block ih, extended_statement ih, extended_cond ih, extended_alternative ih⟩

/-! ## Faults that stay -/

theorem not_wanting {c : Condition} (h : c.cause.isOpen = false) : ¬ Wanting (.condition c) := by
  rintro (hnesting | ⟨c', terminators, line, hc, hcause⟩)
  · cases hnesting
  · cases hc
    rw [hcause] at h
    cases h

/-- A text that cannot be read for another reason than want of lines is no program whatever follows. -/
theorem fault_stays {s : String} {c : Condition} (h : parse s = .error (.condition c)) (hopen : c.cause.isOpen = false)
    (t : String) (program : Program) : parse (s ++ "\n" ++ t) ≠ .ok program := by
  intro hok
  cases hlines : sourceLines s with
  | error c' =>
    obtain ⟨delimiter, hcause⟩ := sourceLines_error hlines
    rw [parse_eq, hlines] at h
    cases h
    rw [hcause] at hopen
    cases hopen
  | ok lines =>
    cases hmore : sourceLines (s ++ "\n" ++ t) with
    | error c' =>
      rw [parse_eq, hmore] at hok
      cases hok
    | ok lines' =>
      obtain ⟨more, rfl⟩ := sourceLines_append hlines t hmore
      rw [parse_eq, hmore] at hok
      rw [parse_eq, hlines] at h
      dsimp only at h hok
      cases hfirst : readBlock (10 + weight lines) [] true none lines with
      | ok result =>
        rw [hfirst] at h
        cases h
      | error e =>
        rw [hfirst] at h
        cases h
        cases hsecond : readBlock (10 + weight (lines ++ more)) [] true none (lines ++ more) with
        | error e =>
          rw [hsecond] at hok
          cases hok
        | ok result =>
          obtain ⟨body, stop, rest⟩ := result
          rcases (extended _).block _ _ _ _ _ _ _ _ _ hsecond with ⟨a, stop', rest', hx, -⟩ | ⟨e, he, hwanting⟩
          · rw [hfirst] at hx
            cases hx
          · rw [hfirst] at he
            cases he
            exact not_wanting hopen hwanting

/-! ## Messages -/

theorem startsWith_append {a b p : String} (h : p.toList <+: a.toList) : Text.startsWith (a ++ b) p = true := by
  rw [Text.startsWith, List.isPrefixOf_iff_prefix, String.toList_append]
  exact h.trans (List.prefix_append _ _)

theorem startsWith_append_other {a b p : String} (hp : p.toList.isPrefixOf a.toList = false)
    (ha : a.toList.isPrefixOf p.toList = false) : Text.startsWith (a ++ b) p = false := by
  rw [Text.startsWith, Bool.eq_false_iff, ne_eq, List.isPrefixOf_iff_prefix, String.toList_append]
  intro hstarts
  rcases List.prefix_or_prefix_of_prefix hstarts (List.prefix_append a.toList b.toList) with h | h
  · rw [List.isPrefixOf_iff_prefix.mpr h] at hp
    cases hp
  · rw [List.isPrefixOf_iff_prefix.mpr h] at ha
    cases ha

def asks (message : String) : Bool :=
  Text.startsWith message "Missing " || Text.startsWith message "Unterminated block literal"

theorem asks_append_other {a : String} (b : String)
    (h : (["Missing ", "Unterminated block literal"].all fun p =>
      !p.toList.isPrefixOf a.toList && !a.toList.isPrefixOf p.toList) = true) : asks (a ++ b) = false := by
  have hother (p : String) (hp : p ∈ ["Missing ", "Unterminated block literal"]) : Text.startsWith (a ++ b) p = false := by
    have hp := (Bool.and_eq_true _ _).mp (List.all_eq_true.mp h p hp)
    exact startsWith_append_other ((Bool.not_eq_true' _).mp hp.1) ((Bool.not_eq_true' _).mp hp.2)
  rw [asks, hother _ (by simp), hother _ (by simp)]
  rfl

/-- The words of a fault's message say whether it asks for more lines. -/
theorem asks_message {cause : Cause} (h : cause.isFault = true) : asks cause.message = cause.asksForMore := by
  cases cause with
  | missingTerminator expected openedOn =>
    show asks ("Missing " ++ _ ++ _ ++ _) = true
    rw [String.append_assoc, String.append_assoc, asks, startsWith_append (List.prefix_refl _)]
    rfl
  | unterminatedBlock delimiter =>
    show asks ("Unterminated block literal <<" ++ _) = true
    rw [asks, startsWith_append (p := "Unterminated block literal") (by decide +kernel), Bool.or_true]
  | nestedLabel name =>
    show asks ("Label " ++ _ ++ _) = false
    rw [String.append_assoc]
    exact asks_append_other _ (by decide +kernel)
  | addressRule mode =>
    show asks ("ADDRESS " ++ _ ++ _) = false
    rw [String.append_assoc]
    exact asks_append_other _ (by decide +kernel)
  | badNumber | badCharacter | unexpectedToken | unexpectedWord | argForm | addressMode | signalCondition =>
    show asks (_ ++ _) = false
    exact asks_append_other _ (by decide +kernel)
  | unterminatedString | endOfExpression | blockLiteralPlace | missingValue | letForm | requireForm | callForm
  | addressForm | signalForm | signalName | registerForm | interpolationForm | ifWithoutThen => decide +kernel
  | _ => cases h

/-- The faults of a program are what reading it stops with, unless it fails over a numeral. -/
theorem isFault_of_parse {s : String} {c : Condition} (h : parse s = .error (.condition c)) : c.cause.isFault = true := by
  cases hlines : sourceLines s with
  | error c' =>
    obtain ⟨delimiter, hcause⟩ := sourceLines_error hlines
    rw [parse_eq, hlines] at h
    cases h
    rw [hcause]
    rfl
  | ok lines =>
    rcases fails_parse hlines _ h with ⟨c', hc, hfault⟩ | ⟨f, hf, -⟩
    · cases hc
      exact hfault
    · cases hf

theorem needsMore_of_condition {s : String} {c : Condition} (h : parse s = .error (.condition c)) :
    needsMore s = .ok c.cause.asksForMore := by
  have hfault := isFault_of_parse h
  have hkind : (c.kind == .parse) = true := by
    rw [Condition.kind, Cause.kind_of_isFault hfault]
    rfl
  rw [needsMore, h, ← asks_message hfault]
  show Except.ok (c.kind == .parse && asks c.message) = _
  rw [hkind, Bool.true_and]
  rfl

theorem asksForMore_of_isOpen {cause : Cause} (h : cause.isOpen = true) : cause.asksForMore = true := by
  cases cause <;> first | rfl | cases h

/-- The test for incomplete texts says yes to every text that more lines could complete. Of the texts that it says yes to,
those with an assignment that has no value are completed by nothing. -/
theorem needsMore_outcome (s : String) :
    (∀ program, parse s = .ok program → needsMore s = .ok false) ∧
    ∀ c, parse s = .error (.condition c) →
      needsMore s = .ok c.cause.asksForMore ∧
      ((∃ t program, parse (s ++ "\n" ++ t) = .ok program) → c.cause.isOpen = true ∧ needsMore s = .ok true) ∧
      (c.cause = .missingValue → needsMore s = .ok true ∧ ∀ t program, parse (s ++ "\n" ++ t) ≠ .ok program) := by
  refine ⟨fun program h => by rw [needsMore, h], fun c h => ⟨needsMore_of_condition h, ?_, fun hcause => ⟨?_, ?_⟩⟩⟩
  · rintro ⟨t, program, hok⟩
    have hopen : c.cause.isOpen = true := by
      by_contra hclosed
      exact fault_stays h (Bool.not_eq_true _ ▸ hclosed) t program hok
    exact ⟨hopen, by rw [needsMore_of_condition h, asksForMore_of_isOpen hopen]⟩
  · rw [needsMore_of_condition h, hcause]
    rfl
  · exact fault_stays h (by rw [hcause]; rfl)

end Syntax

end Conductor
