import Conductor.Proofs.Run.Escape
import Conductor.Run.Script

/-!
# Runs that wait for themselves

A run that has the loader to itself must never wait for a load, because every load under
way is its own. A requirement at the top level of a module, or of the script, carries the
modules that are being loaded, so that asking for one of them again closes a cycle and
fails. A requirement below a label of a script module carries nothing: made while the
module it asks for is being loaded, it waits for ever. The run waits in no other case.
-/

set_option autoImplicit false

namespace Conductor

open Conductor.Module (Loading target)

theorem Module.Idle.grown {w w' : World} (h : Module.Idle w.loader) (hw : World.Grown True w w') :
    Module.Idle w'.loader :=
  fun a t ha => h a t ((hw.loading trivial a t).mp ha)

theorem Ends.alone {R : Machine → Prop} {L : Limits} {α : Type} {x : Step Machine Signal α} (h : Ends True R L x) :
    match x.alone with
    | .done _ m => R m
    | .fail e m => e = .exhausted ∨ R m
    | .stuck m => m.world.RequiresBelow ∧ ¬ Module.Idle m.world.loader := by
  induction x with
  | done a m => exact h
  | fail e m => exact h.imp_right And.left
  | wait w m resume ih =>
    cases w with
    | turn => exact ih none m (h.2 m ⟨rfl, List.prefix_rfl, fun _ => ⟨rfl, rfl⟩⟩)
    | load ticket => exact (h.1 trivial).resolve_left (by simp)

namespace Play

/-! ## Scripts -/

instance : Quiet trace := by unfold trace; infer_instance

instance (c : Condition) (source : String) : Quiet (faultOf c source) := by
  have h (c : Condition) : Quiet (modifySession fun s => { s with context := some ⟨c.line, c.function, c.domain⟩ }) :=
    .onSession _ (fun _ => ⟨rfl, rfl, rfl, rfl⟩) fun _ => rfl
  unfold faultOf
  infer_instance

theorem verdict_ends {lone : Prop} {w : World} {x : Play Value} {m : Machine} (source : String)
    (hx : Ends lone (fun m' => World.Grown lone w m'.world) .load (x m)) :
    Ends lone (fun m' => World.Grown lone w m'.world) .load (verdict x source m) := by
  have hgrown {α : Type} {y : Play α} {m' : Machine} [hy : Quiet y] (hm' : World.Grown lone w m'.world) :
      Ends lone (fun m'' => World.Grown lone w m''.world) .load (y m') :=
    (Ends.of_calm (hy.calm m')).mono (fun _ h => hm'.trans h.world) fun _ _ _ => id
  have hrun : Ends lone (fun m' => World.Grown lone w m'.world) .load
      ((do return Verdict.success (← x) : Play Verdict) m) := hx.bind (fun _ => id) fun _ _ h => h
  refine hrun.recover (fun _ => id) (fun _ => rfl) fun signal m' hm' hs => ?_
  match signal with
  | .problem (.condition c) =>
    have hfault : Quiet (do return Verdict.error (← faultOf c source) : Play Verdict) := inferInstance
    exact hgrown hm'
  | .problem (.failure f) =>
    dsimp only
    split <;> exact hgrown hm'
  | .exhausted => exact .exhausted m'
  | .leave | .iterate => exact hs.1.elim
  | .ret _ | .exit _ | .jump _ _ => exact hs.elim

theorem runScript_ends {lone : Prop} (source : String) (args : List Value) (cancelFirst : Bool) {m : Machine}
    (hm : Requiring lone m) :
    Ends lone (fun m' => World.Grown lone m.world m'.world) .load (runScript source args cancelFirst m) := by
  have htame : Tame lone (outer horizon) := inferInstance
  unfold runScript
  -- neither the text of the program nor what is around it matters
  generalize outer horizon = o at htame ⊢
  generalize Syntax.parse source = parsed
  let started : Machine :=
    { session := { m.session with effects := #[], calls := [], context := none }
      world := { m.world with runners := m.world.runners + 1 } }
  have hstarted : World.Grown lone m.world started.world := ⟨List.prefix_rfl, fun _ _ _ => Iff.rfl⟩
  have hrun : Ends lone (fun m' => World.Grown lone m.world m'.world) .load ((do
      let program ← liftP parsed
      runProgram o program args false cancelFirst) started) := by
    have hparse : Ends lone (Kept lone started) .load (liftP parsed started) :=
      .of_calm (Quiet.calm started)
    refine hparse.bind (fun _ h => hstarted.trans h.world) fun program m' h => ?_
    have hm' : Requiring lone m' := Lasting.lasts h (show Requiring lone started from hm)
    exact (runProgram_ends o program args false cancelFirst m' hm').mono
      (fun _ hw => hstarted.trans (h.world.trans hw)) fun _ _ _ => id
  have hleft : Ends lone (fun m' => World.Grown lone m.world m'.world) .load
      (((verdict (do
        let program ← liftP parsed
        runProgram o program args false cancelFirst) source).leaving fun m =>
          { m with world := { m.world with runners := m.world.runners - 1 } }) started) := by
    refine (verdict_ends source hrun).leave (fun _ h => ⟨h.modules, h.loading⟩) fun _ e _ he => ?_
    cases e <;> simp_all [Limits.allow, Limits.load]
  exact hleft.bind (fun _ => id) fun _ _ h => h

/-! ## Asking for a module that is being loaded -/

theorem load_circular (o : Outer) {identifier : String} {base : Option String} {stack : Module.Stack} {m : Machine}
    {l : Module.Location} (hl : target m.world (identifier, base) = .ok l) (hstack : l.text ∈ stack.map Prod.snd) :
    ∃ ids m', load o identifier base stack m = .fail (.problem (.condition { cause := .cycle ids })) m' := by
  rcases Module.enter_cases m.world.loader stack identifier l.text with ⟨ids, henter, -⟩ | ⟨hnot, -⟩
  · obtain ⟨sought, hload⟩ := Module.load_reports o hl henter
    exact ⟨ids, _, hload⟩
  · exact absurd hstack hnot

theorem load_waits (o : Outer) {identifier : String} {base : Option String} {m : Machine}
    {l : Module.Location} {t : Nat} (hl : target m.world (identifier, base) = .ok l) (hloading : Loading m.world.loader l.text t) :
    (Escape.load t).Leads (load o identifier base [] m) := by
  obtain ⟨sought, hlocate⟩ := Module.locate_apply m (identifier, base)
  have henter := Module.enter_of_loading identifier hloading
  rw [load, Run.bind_apply, hlocate, hl]
  simp only [Step.bind, Run.bind_apply, world_apply, henter]
  exact ⟨_, _, rfl⟩

/-! ## A requirement below a label -/

def home (w : World) (sm : ScriptModule) : String := if sm.sourceDir = "" then w.files.working else sm.sourceDir

/-- The routine of a label of a script module begins with the requirement of a module that is being
loaded under a ticket. -/
def BeginsWithRequirement (w : World) (sm : ScriptModule) (label : String) (ticket : Nat) : Prop :=
  ∃ identifier pos p l, Begins sm label (.require (.literal (.text identifier false) pos) p) ∧
    target w (identifier, some (home w sm)) = .ok l ∧ Loading w.loader l.text ticket

theorem requireHere_routine (n : Nat) (identifier : String) (sm : ScriptModule) (s : Session) (w : World)
    (hpurpose : s.purpose = .script) (hdir : s.sourceDir = some sm.sourceDir) :
    requireHere (outer (n + 1)) identifier { session := s, world := w } =
      load (outer n) identifier (some (home w sm)) [] { session := s, world := w } := by
  simp only [requireHere, Run.bind_apply, session_apply, Step.bind, hpurpose, world_apply, hdir, home]
  by_cases hempty : sm.sourceDir = ""
  · simp only [hempty, if_true]
    rfl
  · simp only [hempty, if_false]
    rfl

theorem exec_require_leads (n : Nat) {sm : ScriptModule} {identifier : String} (pos : Syntax.Pos) (p : Syntax.Place)
    {w : World} {l : Module.Location} {t : Nat} (hl : target w (identifier, some (home w sm)) = .ok l)
    (hloading : Loading w.loader l.text t) :
    (Escape.load t).Leads (exec (outer (n + 1)) (.require (.literal (.text identifier false) pos) p)
      { session := routineSession sm, world := w }) := by
  let started : Machine := { session := { routineSession sm with statements := 1, line := some p.line }, world := w }
  have hhere : (Escape.load t).Leads (requireHere (outer (n + 1)) identifier started) := by
    rw [requireHere_routine n identifier sm _ _ rfl rfl]
    exact load_waits (outer n) hl hloading
  have hrequire : (Escape.load t).Leads (requireModule (outer (n + 1)) identifier (some p.line) started) := by
    refine Escape.Leads.bind (Escape.Leads.recover hhere ?_) _
    intro target line m
    rfl
  rw [exec, atPlace_routine]
  exact hrequire

/-- A script that runs with the loader to itself, nothing being loaded, waits for a load only if some script
module has a requirement below a label; when it ends, nothing is being loaded again. A module that is asked
for while the stack says that it is being loaded closes a cycle. A label without arguments whose routine
begins with the requirement of a module that is being loaded does wait for that load. -/
theorem lone_run_waits_below_labels (source : String) (args : List Value) (cancelFirst : Bool) (m : Machine)
    (hidle : Module.Idle m.world.loader) :
    (∀ m', (runScript source args cancelFirst m).alone = .stuck m' →
      m'.world.RequiresBelow ∧ ¬ Module.Idle m'.world.loader) ∧
    (∀ r m', (runScript source args cancelFirst m).alone = .done r m' → Module.Idle m'.world.loader) ∧
    (∀ n identifier base stack m₁ l, target m₁.world (identifier, base) = .ok l → l.text ∈ stack.map Prod.snd →
      ∃ ids m₂, load (outer n) identifier base stack m₁ = .fail (.problem (.condition { cause := .cycle ids })) m₂) ∧
    (∀ n e index label supplied piped asStatement line m₁ sm ticket, e.routine = .moduleLabel index label →
      e.bind supplied piped asStatement = .ok {} → m₁.world.modules[index]? = some sm →
      BeginsWithRequirement m₁.world sm label ticket →
      ∃ m₂ resume, apply (outer (n + 2)) e supplied piped asStatement line m₁ = .wait (.load ticket) m₂ resume) := by
  have hm : Requiring True m := by
    intro _
    exact Or.inl fun a t ha => absurd ha (hidle a t)
  have hrun := runScript_ends source args cancelFirst hm
  generalize runScript source args cancelFirst m = x at hrun ⊢
  have hends := hrun.alone
  refine ⟨fun m' h => ?_, fun r m' h => ?_, fun n identifier base stack m₁ l hl hstack => ?_, ?_⟩
  · rw [h] at hends
    exact hends
  · rw [h] at hends
    exact hidle.grown hends
  · exact load_circular (outer n) hl hstack
  · rintro n e index label supplied piped asStatement line m₁ sm ticket he hbind hsm ⟨_, pos, p, l, hbegins, hl, hloading⟩
    exact apply_leads (n + 1) he hbind line hsm hbegins (exec_require_leads n pos p hl hloading)

def asker : ScriptModule where
  program := [.label "GO" ⟨1, "GO:"⟩,
    .require (.literal (.text "https://x.test/a.rexa" false) ⟨2, 9⟩) ⟨2, "REQUIRE 'https://x.test/a.rexa'"⟩]
  sourceDir := "https://x.test/"
  required := []

/-- A run in the middle of the load of that other module. -/
def midway : Machine where
  world :=
    { modules := #[asker]
      loader :=
        { nodes := [("https://x.test/a.rexa",
            { identifier := "https://x.test/a.rexa", location := "https://x.test/a.rexa", status := .loading })]
          tickets := 1
          pending := [("https://x.test/a.rexa", 0)] } }

theorem asker_beginsWithRequirement : BeginsWithRequirement midway.world asker "GO" 0 :=
  ⟨"https://x.test/a.rexa", ⟨2, 9⟩, ⟨2, "REQUIRE 'https://x.test/a.rexa'"⟩,
    { origin := .url, text := "https://x.test/a.rexa", language := .script }, ⟨0, [], by decide +kernel, rfl⟩,
    by rfl, _, rfl, rfl, rfl⟩

theorem lone_run_waits_below_labels_midway :
    (∀ m', (runScript "CALL GO" [] false {}).alone = .stuck m' →
      m'.world.RequiresBelow ∧ ¬ Module.Idle m'.world.loader) ∧
    ∃ m₂ resume, apply (outer 2) (exportedLabel 0 "b.rexa" "https://x.test/b.rexa" "GO") [] none true none midway =
      .wait (.load 0) m₂ resume := by
  have hidle : Module.Idle ({} : Machine).world.loader := by
    rintro a t ⟨n, hn, -⟩
    simp [Table.get?] at hn
  have h := lone_run_waits_below_labels "CALL GO" [] false {} hidle
  exact ⟨h.1, h.2.2.2 0 _ 0 "GO" [] none true none midway asker 0 rfl rfl rfl asker_beginsWithRequirement⟩

end Play

end Conductor
