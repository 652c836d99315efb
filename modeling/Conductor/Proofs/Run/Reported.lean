import Conductor.Proofs.Run.Control
import Conductor.Proofs.Run.Placing
import Conductor.Proofs.Run.Stops
import Conductor.Run.Script

/-!
# The line that is reported

A condition that leaves a statement with a line keeps the line on its way out, through whatever
calls and loops are around the statement, and it is the line that the trap and the report tell.
So where a statement places its conditions on its own line, they are reported there.

What a statement leaves without a line is placed by the call around it, on the line of the call.
-/

set_option autoImplicit false

namespace Conductor

theorem Step.bind_eq_done {σ ε α β : Type} {x : Step σ ε α} {k : α → σ → Step σ ε β} {b : β} {s : σ}
    (h : x.bind k = .done b s) : ∃ a s₁, x = .done a s₁ ∧ k a s₁ = .done b s := by
  cases x with
  | done a s₁ => exact ⟨a, s₁, rfl, h⟩
  | fail e s₁ => cases h
  | wait w s₁ resume => cases h

namespace Play

open Syntax (Statement partsOf)

variable {G : World → World → Prop} {o : Outer} {m m' : Machine} {c : Condition}

/-! ## Routines -/

theorem execAll_refuses {body : List Statement} (h : Refuses G (execAll o body) m c) :
    ∃ s ∈ body, ∃ m₁, Runs G (exec o s) m₁ (execAll o body) m ∧ Refuses G (exec o s) m₁ c := by
  induction body generalizing m with
  | nil =>
    obtain ⟨m', h⟩ := h
    rw [execAll] at h
    cases h
  | cons s rest ih =>
    obtain ⟨m', h⟩ := h
    rw [execAll] at h ⊢
    rcases Step.Comes.of_bind h with ⟨_, m₁, hdone, hrest⟩ | ⟨e, m₁, hfail, heq⟩
    · obtain ⟨t, ht, m₂, hruns, hrefuses⟩ := ih ⟨m', hrest⟩
      exact ⟨t, List.mem_cons_of_mem s ht, m₂, .next hdone hruns, hrefuses⟩
    · cases heq
      exact ⟨s, List.mem_cons_self, m, .first .here, _, hfail⟩

theorem keeping_of_passes {α : Type} {k : Signal → Play α}
    (h : ∀ c, k (.problem (.condition c)) = throw (Signal.problem (.condition c))) : Keeping k :=
  fun c m => ⟨c, m, by rw [h]; rfl, .refl c⟩

theorem routine_refuses {body : List Statement} (h : Refuses G (routine o body) m c) :
    ∃ s ∈ body, ∃ m₁, Runs G (exec o s) m₁ (routine o body) m ∧ Refuses G (exec o s) m₁ c := by
  obtain ⟨m', h⟩ := h
  rcases Step.Comes.of_recover h with ⟨v, m₁, -, heq⟩ | ⟨e, m₁, hfail, hrest⟩
  · cases heq
  · have hbody : Refuses G (execAll o body) m c := by
      rcases Step.Comes.of_bind hfail with ⟨_, m₂, -, hreturn⟩ | ⟨e', m₂, hexec, heq⟩
      · cases hreturn
      · cases heq
        cases e with
        | problem p =>
          cases hrest
          exact ⟨_, hexec⟩
        | _ => cases hrest
    obtain ⟨s, hs, m₂, hruns, hrefuses⟩ := execAll_refuses hbody
    exact ⟨s, hs, m₂, hruns.trans (.guarded (keeping_of_passes fun c => rfl) (.first .here)), hrefuses⟩

theorem memory_never {α : Type} {act : Memory.Act α} (hact : Memory.Raises (fun _ => False) act) :
    ¬ Refuses G (memory act) m c := by
  rintro ⟨m', h⟩
  unfold memory at h
  dsimp only at h
  split at h
  · cases h
  · next p mem hp =>
    cases h
    exact hact.holds _ c mem hp

theorem enterRoutine_never (a : Arguments) : ¬ Refuses G (enterRoutine a) m c := by
  have hcopies (vs : List Value) (m : Machine) : ¬ Refuses G (vs.mapM fun v => memory (Memory.copy v)) m c := by
    induction vs generalizing m with
    | nil =>
      rintro ⟨m', h⟩
      rw [List.mapM_nil] at h
      cases h
    | cons v vs ih =>
      rintro ⟨m', h⟩
      rw [List.mapM_cons] at h
      rcases Step.Comes.of_bind h with ⟨w, m₁, -, hrest⟩ | ⟨e, m₁, hfail, heq⟩
      · rcases Step.Comes.of_bind hrest with ⟨ws, m₂, -, hreturn⟩ | ⟨e, m₂, hfail, heq⟩
        · cases hreturn
        · cases heq
          exact ih m₁ ⟨_, hfail⟩
      · cases heq
        exact memory_never inferInstance ⟨_, hfail⟩
  rintro ⟨m', h⟩
  rcases Step.Comes.of_bind h with ⟨_, m₁, -, hrest⟩ | ⟨e, m₁, hfail, heq⟩
  · rcases Step.Comes.of_bind hrest with ⟨args, m₂, -, hreturn⟩ | ⟨e, m₂, hfail, heq⟩
    · cases hreturn
    · cases heq
      exact hcopies a.placed m₁ ⟨_, hfail⟩
  · cases heq
    exact memory_never inferInstance ⟨_, hfail⟩

/-- A condition that leaves a call of a label has left a statement of the program as it is, or the call was refused. -/
theorem callLabel_refuses {name : String} {a : Arguments} (h : Refuses G (callLabel o name a) m c) :
    (∃ cause, (cause = .labelNotFound name ∨ cause = .callDepth name) ∧ c = { cause, line := m.session.line }) ∨
      ∃ s ∈ m.session.program.toList, ∃ m₁,
        Runs G (exec o s) m₁ (callLabel o name a) m ∧ Refuses G (exec o s) m₁ c := by
  obtain ⟨m', h⟩ := h
  rcases callLabel_cases o name a m with ⟨cause, hcause, heq⟩ | ⟨i, hname, hdepth⟩
  · rw [heq] at h
    cases h
    exact .inl ⟨cause, hcause, rfl⟩
  · have hsame := callLabel_apply o a hname hdepth
    rw [hsame] at h
    obtain ⟨m₁, h, -⟩ := Step.Comes.of_leave_fail h
    rcases Step.Comes.of_bind h with ⟨_, m₂, hentered, hrest⟩ | ⟨e, m₂, hfail, heq⟩
    · obtain ⟨m₃, hrest, -⟩ := Step.Comes.of_leave_fail hrest
      obtain ⟨s, hs, m₄, hruns, hrefuses⟩ := routine_refuses ⟨m₃, hrest⟩
      refine .inr ⟨s, List.mem_of_mem_drop hs, m₄, ?_, hrefuses⟩
      exact .same hsame.symm (.left (.next hentered (.left hruns)))
    · cases heq
      exact absurd ⟨_, hfail⟩ (enterRoutine_never a)

/-! ## Where a line is told -/

/-- The variables that tell the line of a condition. -/
structure TellsLine (l : Nat) (m : Machine) : Prop where
  sigl : m.session.scope.get? "SIGL" = some (.ofNat l)
  errorLine : m.session.scope.get? "ERROR_LINE" = some (.ofNat l)

def described (c : Condition) (l : Nat) (message : Value) (scope : Scope) : Scope :=
  ((((((scope.put "RC" (.int 1)).put "SIGL" (.ofNat l)).put "ERROR_KIND" (.text c.kind.name)).put "ERROR_MESSAGE"
    message).put "ERROR_LINE" (.ofNat l)).put "ERROR_FUNCTION" (.text (c.function.getD ""))).put "ERROR_DOMAIN"
    (.text (c.domain.getD ""))

theorem describe_scope {l : Nat} (hc : c.line = some l) (m : Machine) :
    ∃ message m', describe c m = .done ⟨⟩ m' ∧ m'.session.scope = described c l message m.session.scope := by
  obtain ⟨cause, line, col, function, domain, payload, load, said⟩ := c
  cases hc
  exact ⟨_, _, rfl, rfl⟩

theorem describe_tells {l : Nat} (hc : c.line = some l) (m : Machine) :
    ∃ m', describe c m = .done ⟨⟩ m' ∧ TellsLine l m' := by
  obtain ⟨message, m', hdescribe, hscope⟩ := describe_scope hc m
  refine ⟨m', hdescribe, ?_, ?_⟩
  · rw [hscope, described]
    iterate 5 rw [Table.get?_put_of_ne (by decide)]
    exact Table.get?_put_self _ _ _
  · rw [hscope, described]
    iterate 2 rw [Table.get?_put_of_ne (by decide)]
    exact Table.get?_put_self _ _ _

theorem goOnAt_scope {trap : Syntax.Trap} {label : String} {stop : Stop} (h : goOnAt trap label m = .done stop m') :
    m'.session.scope = m.session.scope := by
  obtain ⟨_, m₁, hleft, hrest⟩ := Step.bind_eq_done h
  cases hleft
  obtain ⟨i, m₂, hlabel, hresume⟩ := Step.bind_eq_done hrest
  cases hresume
  rw [labelIndex_apply] at hlabel
  split at hlabel
  · cases hlabel
    rfl
  · cases hlabel

theorem stopOn_tells {l : Nat} (hc : c.line = some l) {i : Nat}
    (h : stopOn (.problem (.condition c)) m = .done (.resume i) m') : TellsLine l m' := by
  cases htrap : m.session.traps.get? (trapFor c) with
  | none =>
    simp only [stopOn, Run.bind_apply, session_apply, Step.bind, htrap] at h
    cases h
  | some label =>
    simp only [stopOn, Run.bind_apply, session_apply, Step.bind, htrap] at h
    rw [takeTrap_eq, Condition.atLine_of_placed hc] at h
    obtain ⟨m₁, hdescribe, htells⟩ := describe_tells hc (disarmed c m)
    obtain ⟨_, m₂, hdescribed, hrest⟩ := Step.bind_eq_done h
    rw [hdescribe] at hdescribed
    cases hdescribed
    have hscope := goOnAt_scope hrest
    exact ⟨hscope ▸ htells.sigl, hscope ▸ htells.errorLine⟩

/-- The report of a condition tells its line. -/
theorem faultOf_line {l : Nat} (hc : c.line = some l) {source : String} {fault : Fault}
    (h : faultOf c source m = .done fault m') : fault.line = some l := by
  unfold faultOf at h
  obtain ⟨s, m₁, -, hplacing⟩ := Step.bind_eq_done h
  extract_lets line report at hplacing
  have hreport {c' : Condition} {m₂ : Machine} (hc' : c'.line = some l) (hdone : report c' m₂ = .done fault m') :
      fault.line = some l := by
    obtain ⟨_, m₃, -, h₃⟩ := Step.bind_eq_done hdone
    obtain ⟨told, m₄, -, h₄⟩ := Step.bind_eq_done h₃
    obtain ⟨lines, m₅, -, h₅⟩ := Step.bind_eq_done h₄
    obtain ⟨_, m₆, -, h₆⟩ := Step.bind_eq_done h₅
    cases h₆
    exact hc'
  split at hplacing
  · exact hreport hc hplacing
  · obtain ⟨c', m₂, hplaced, hrest⟩ := Step.bind_eq_done hplacing
    cases hplaced
    exact hreport ((congrArg Condition.line (Condition.atLine_of_placed hc _)).trans hc) hrest

theorem verdict_reports {stopAtLabel : Bool} {index : Nat}
    (hbody : (execAll o (ahead stopAtLabel index m) m).Comes (Interlude G) (.fail (.problem (.condition c)) m'))
    (htraps : m'.session.traps.get? (trapFor c) = none) {source : String} {fault : Fault} {m₁ : Machine}
    (hfault : faultOf c source m' = .done fault m₁) (k : Nat) :
    (verdict (untilExit (topLevel o stopAtLabel (k + 1) index)) source m).Comes (Interlude G)
      (.done (.error fault) m₁) := by
  have hstop : (stopOn (.problem (.condition c)) m').Comes (Interlude G) (.fail (.problem (.condition c)) m') := by
    simp only [stopOn, Run.bind_apply, session_apply, Step.bind, htraps]
    exact .fail _ _
  have hstretch : (stretch o (ahead stopAtLabel index m) m).Comes (Interlude G) (.fail (.problem (.condition c)) m') :=
    .recover_fail hbody.bind_fail hstop
  have htop : (topLevel o stopAtLabel (k + 1) index m).Comes (Interlude G) (.fail (.problem (.condition c)) m') := by
    rw [topLevel_succ]
    exact hstretch.bind_fail
  have hexit : (untilExit (topLevel o stopAtLabel (k + 1) index) m).Comes (Interlude G)
      (.fail (.problem (.condition c)) m') := .recover_fail htop (.fail _ _)
  exact .recover_fail hexit.bind_fail (.bind_done (hfault ▸ .done _ _) (.done _ _))

/-! ## What a call places -/

def calling (f : Frame) (m : Machine) : Machine :=
  { m with session := { m.session with calls := f :: m.session.calls } }

theorem apply_refuses {e : Entry} {supplied : List Supplied} {piped : Option Value} {asStatement : Bool} {a : Arguments}
    (hbind : e.bind supplied piped asStatement = .ok a) (h : Refuses G (perform o e a) (calling ⟨e.name, a.all⟩ m) c)
    (line : Option Nat) :
    Refuses G (apply o e supplied piped asStatement line) m (c.withContext line (some e.name) none) := by
  obtain ⟨m', h⟩ := h
  unfold apply
  rw [hbind]
  exact ⟨_, .bind_done (.done a m) (.bind_done (.done _ _) (.bind_fail (.recover_fail h (.fail _ _))))⟩

/-! ## Programs -/

mutual
theorem placed_of_mem_parts {s : Statement} (h : s.Placed) : ∀ t ∈ s.parts, t.Placed := by
  match s with
  | .cond condition thenBody elseBody p =>
    intro t ht
    rw [Statement.parts, List.mem_cons, List.mem_append] at ht
    rcases ht with rfl | ht | ht
    · exact h
    · exact placed_of_mem_partsOf h.2.1 t ht
    · exact placed_of_mem_partsOf h.2.2 t ht
  | .loop head body p =>
    intro t ht
    rw [Statement.parts, List.mem_cons] at ht
    rcases ht with rfl | ht
    · exact h
    · exact placed_of_mem_partsOf h.2 t ht
  | .assign .. | .say .. | .leave _ | .iterate _ | .call .. | .address .. | .block .. | .signal .. | .ret .. | .label ..
  | .arg .. | .require .. | .interpolation .. | .clause .. | .nop _ =>
    exact List.forall_mem_singleton.mpr h

theorem placed_of_mem_partsOf {body : List Statement} (h : Syntax.allPlaced body) : ∀ t ∈ partsOf body, t.Placed := by
  match body with
  | [] => exact nofun
  | s :: rest =>
    rw [partsOf]
    exact List.forall_mem_append.mpr ⟨placed_of_mem_parts h.1, placed_of_mem_partsOf h.2⟩
end

/-- A condition that leaves a statement of a program has the line of the statement, unless it had a line before it came
to the statement or is one of those that are left without a line; and what leaves a call of a label has left a statement
of its program as it is, unless the call itself is refused. A line is kept through all that is around the statement, up
to the top level, where the trap that is taken tells it, or else the report. What comes to a call without a line, the
call places on its own. -/
theorem conditions_told_by_line (G : World → World → Prop) :
    (∀ source p, Syntax.parse source = .ok p → ∀ s ∈ partsOf p, ∀ n m c, Refuses G (exec (outer n) s) m c →
      Blamed G (s.site (outer n)) (exec (outer n) s) m c) ∧
    (∀ n name a m c, Refuses G (callLabel (outer n) name a) m c →
      (∃ cause, (cause = .labelNotFound name ∨ cause = .callDepth name) ∧ c = { cause, line := m.session.line }) ∨
        ∃ s ∈ m.session.program.toList, ∃ m₁,
          Runs G (exec (outer n) s) m₁ (callLabel (outer n) name a) m ∧ Refuses G (exec (outer n) s) m₁ c) ∧
    (∀ k s m c l, Refuses G (exec (outer k) s) m c → c.line = some l → ∀ n stopAtLabel index m₀,
      Runs G (exec (outer k) s) m (execAll (outer n) (ahead stopAtLabel index m₀)) m₀ →
        ∃ c₁ m₁, c₁.cause = c.cause ∧
          (execAll (outer n) (ahead stopAtLabel index m₀) m₀).Comes (Interlude G)
            (.fail (.problem (.condition c₁)) m₁) ∧
          (∀ i m₂, stopOn (.problem (.condition c₁)) m₁ = .done (.resume i) m₂ → TellsLine l m₂) ∧
          (m₁.session.traps.get? (trapFor c₁) = none →
            ∀ source fault m₂ j, faultOf c₁ source m₁ = .done fault m₂ → fault.line = some l ∧
              (verdict (untilExit (topLevel (outer n) stopAtLabel (j + 1) index)) source m₀).Comes (Interlude G)
                (.done (.error fault) m₂))) ∧
    (∀ n e supplied piped asStatement a l m c, e.bind supplied piped asStatement = .ok a →
      Refuses G (perform (outer n) e a) (calling ⟨e.name, a.all⟩ m) c → c.line = none →
        ∃ c₁, Refuses G (apply (outer n) e supplied piped asStatement (some l)) m c₁ ∧ c₁.cause = c.cause ∧
          c₁.line = some l) := by
  refine ⟨?_, ?_, ?_, ?_⟩
  · intro source p hp s hs n m c hrefuses
    have hplaced := placed_of_mem_partsOf (Syntax.parse_placed hp) s hs
    exact (exec_accounts (s.site (outer n)) hplaced rfl (fun _ => id) fun _ => id).blamed m c hrefuses
  · intro n name a m c hrefuses
    exact callLabel_refuses hrefuses
  · intro k s m c l hrefuses hl n stopAtLabel index m₀ hruns
    obtain ⟨c₁, ⟨m₁, hcomes⟩, hfollows⟩ := hruns.refuses hrefuses
    have hl₁ := hfollows.line l hl
    refine ⟨c₁, m₁, hfollows.cause, hcomes, fun i m₂ hstop => stopOn_tells hl₁ hstop, ?_⟩
    intro htraps source fault m₂ j hfault
    exact ⟨faultOf_line hl₁ hfault, verdict_reports hcomes htraps hfault j⟩
  · intro n e supplied piped asStatement a l m c hbind hrefuses hnone
    exact ⟨_, apply_refuses hbind hrefuses (some l), rfl, Condition.withContext_line hnone _ _ _⟩

/-- A routine counts the rounds of a loop by a value that is no number. -/
def miscounting : String :=
  "SIGNAL ON ERROR NAME H\nCALL SUB\nRETURN 1\nSUB:\nDO \"abc\"\nEND\nRETURN 0\nH:\nRETURN SIGL"

def endsUnplaced {α : Type} : Step Machine Signal α → Bool
  | .fail (.problem (.condition c)) _ => c.line.isNone
  | _ => false

theorem refuses_of_endsUnplaced {α : Type} {x : Play α} (h : endsUnplaced (x m) = true) :
    ∃ c, Refuses G x m c ∧ c.line = none := by
  unfold endsUnplaced at h
  split at h
  · next c m' heq => exact ⟨c, ⟨m', heq ▸ .fail _ _⟩, Option.isNone_iff_eq_none.mp h⟩
  · cases h

/-- The routine of the program, as a function. -/
def miscounter : Entry := Entry.open_ "SUB" .internal (.label "SUB") "script"

/-- The state in which the routine is called. -/
def beforeCall (p : Syntax.Program) : Machine := { session := installed p {} }

def miscounts (p : Syntax.Program) : Bool :=
  ((partsOf p).any fun s => s.place.line == 5 && endsUnplaced (exec (outer 2) s {})) &&
    endsUnplaced (perform (outer 2) miscounter ⟨[], []⟩ (calling ⟨"SUB", []⟩ (beforeCall p)))

/-- The loop stands on line 5, and the call on line 2 is what is told. -/
theorem conditions_told_by_line_miscounting : ∃ p, Syntax.parse miscounting = .ok p ∧
    (∃ s ∈ partsOf p, s.place.line = 5 ∧ ∃ c, c.line = none ∧
      Blamed (fun _ _ => True) (s.site (outer 2)) (exec (outer 2) s) {} c) ∧
    ∃ c, Refuses (fun _ _ => True) (apply (outer 2) miscounter [] none true (some 2)) (beforeCall p) c ∧
      c.line = some 2 := by
  have hmiscounts : (Syntax.parse miscounting).toOption.any miscounts = true := by decide +kernel
  obtain ⟨p, hp, hends⟩ := (Option.any_eq_true _ _).mp hmiscounts
  have hparsed := Syntax.eq_ok_of_toOption hp
  obtain ⟨hloop, hcall⟩ := (Bool.and_eq_true _ _).mp hends
  obtain ⟨s, hs, hloop⟩ := List.any_eq_true.mp hloop
  obtain ⟨hline, hloop⟩ := (Bool.and_eq_true _ _).mp hloop
  obtain ⟨hblamed, -, -, hcalls⟩ := conditions_told_by_line fun _ _ => True
  obtain ⟨c, hrefuses, hnone⟩ := refuses_of_endsUnplaced (G := fun _ _ => True) hloop
  obtain ⟨c', hperform, hnone'⟩ := refuses_of_endsUnplaced (G := fun _ _ => True) hcall
  obtain ⟨c₁, happly, -, hline₁⟩ := hcalls 2 miscounter [] none true ⟨[], []⟩ 2 (beforeCall p) c' rfl hperform hnone'
  exact ⟨p, hparsed, ⟨s, hs, beq_iff_eq.mp hline, c, hnone, hblamed _ p hparsed s hs 2 {} c hrefuses⟩,
    c₁, happly, hline₁⟩

end Play

end Conductor
