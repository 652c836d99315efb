import Conductor.Proofs.Interpolation.Cut
import Conductor.Proofs.Memory.Tables
import Conductor.Proofs.Run.Meets
import Conductor.Run.Exec

/-!
# The registry of patterns

A program registers patterns, and makes one of them the active one by its name or by a sample. Whatever
it asks for and however often it is refused, the registry stays in order: its delimiters are not empty, no
two names have one upper-case form, the patterns that were there from the start are there, and the active
pattern is one of the registered ones. A request that is refused changes nothing at all.
-/

set_option autoImplicit false

namespace Conductor.Interpolation

open Syntax (InterpolationAction)

namespace Engine

/-! ## Requests -/

def perform (e : Engine) : InterpolationAction → Except Cause (Pattern × Engine)
  | .register name start stop => e.register name start stop
  | .activate name => e.activate name
  | .sample text => e.activateSample text

/-- The engine after a request; one that is refused leaves it as it was. -/
def after (e : Engine) (action : InterpolationAction) : Engine :=
  match e.perform action with
  | .ok (_, e') => e'
  | .error _ => e

/-- An engine as a session has it at first: the one that is there from the start, or with another of its patterns
active. -/
inductive New : Engine → Prop
  | initial : New Engine.initial
  | active {name : String} {p : Pattern} {e : Engine} : Engine.initial.activate name = .ok (p, e) → New e

structure Sound (e : Engine) : Prop where
  delimited : ∀ p ∈ e.patterns.values, p.start ≠ "" ∧ p.stop ≠ ""
  keyed : ∀ entry ∈ e.patterns, entry.1 = Text.upper entry.2.name
  distinct : (e.patterns.values.map fun p => Text.upper p.name).Nodup
  builtins : ∀ p ∈ Interpolation.builtins, p ∈ e.patterns.values
  active_mem : e.active ∈ e.patterns.values

variable {e e' : Engine} {p : Pattern}

theorem mem_values_of_get? {key : String} (h : e.patterns.get? key = some p) : p ∈ e.patterns.values :=
  List.mem_map.mpr ⟨(key, p), Table.entry_mem_of_get? h, rfl⟩

theorem mem_keys_of_mem_values (h : e.Sound) (hp : p ∈ e.patterns.values) : Text.upper p.name ∈ e.patterns.keys := by
  obtain ⟨entry, hentry, rfl⟩ := List.mem_map.mp hp
  rw [← h.keyed entry hentry]
  exact List.mem_map_of_mem hentry

/-! ## One request -/

/-- What a registration that succeeds has found, and what it does. -/
theorem register_cases {name start stop : String} (h : e.register name start stop = .ok (p, e')) :
    start ≠ "" ∧ stop ≠ "" ∧ e.patterns.get? (Text.upper name) = none ∧ p = ⟨name, start, stop⟩ ∧
      e' = { e with patterns := e.patterns ++ [(Text.upper name, p)] } := by
  unfold register at h
  split at h
  · cases h
  split at h
  · cases h
  · next hsides =>
    split at h
    · cases h
    · next hfound =>
      simp only [Bool.or_eq_true, String.isEmpty_iff, not_or] at hsides
      have hnone : e.patterns.get? (Text.upper name) = none := by simpa [find?] using hfound
      cases h
      exact ⟨hsides.1, hsides.2, hnone, rfl, by rw [Table.put_of_get?_none hnone]⟩

theorem activate_cases {name : String} (h : e.activate name = .ok (p, e')) :
    p ∈ e.patterns.values ∧ e' = { e with active := p } := by
  unfold activate at h
  split at h
  · next hfound =>
    cases h
    exact ⟨mem_values_of_get? hfound, rfl⟩
  · cases h

theorem activateSample_cases {sample : String} (h : e.activateSample sample = .ok (p, e')) :
    p ∈ e.patterns.values ∧ e' = { e with active := p } ∨
      ∃ start stop grown, e.register sample start stop = .ok (p, grown) ∧ e' = { grown with active := p } := by
  unfold activateSample at h
  split at h
  · next start stop _ =>
    split at h
    · cases h
    split at h
    · next hfound =>
      cases h
      exact .inl ⟨List.mem_of_find?_eq_some hfound, rfl⟩
    · cases hregister : e.register sample start stop with
      | error c =>
        rw [hregister] at h
        cases h
      | ok out =>
        rw [hregister] at h
        cases h
        exact .inr ⟨start, stop, out.2, hregister, rfl⟩
  · cases h

theorem Sound.register (h : e.Sound) {name start stop : String} (hok : e.register name start stop = .ok (p, e')) :
    e'.Sound ∧ p ∈ e'.patterns.values := by
  obtain ⟨hstart, hstop, hnew, rfl, rfl⟩ := register_cases hok
  have hvalues : Table.values (e.patterns ++ [(Text.upper name, (⟨name, start, stop⟩ : Pattern))]) =
      e.patterns.values ++ [⟨name, start, stop⟩] := List.map_append
  refine ⟨⟨?_, ?_, ?_, fun p hp => ?_, ?_⟩, ?_⟩
  · rw [hvalues]
    exact List.forall_mem_append.mpr ⟨h.delimited, List.forall_mem_singleton.mpr ⟨hstart, hstop⟩⟩
  · exact List.forall_mem_append.mpr ⟨h.keyed, List.forall_mem_singleton.mpr rfl⟩
  · rw [hvalues, List.map_append]
    refine List.nodup_append.mpr ⟨h.distinct, List.nodup_singleton _, ?_⟩
    rintro key hkey other hother rfl
    obtain ⟨q, hq, rfl⟩ := List.mem_map.mp hkey
    rw [List.map_singleton, List.mem_singleton] at hother
    have hmem := mem_keys_of_mem_values h hq
    rw [hother] at hmem
    exact Table.get?_eq_none_iff.mp hnew hmem
  · rw [hvalues]
    exact List.mem_append_left _ (h.builtins p hp)
  · rw [hvalues]
    exact List.mem_append_left _ h.active_mem
  · rw [hvalues]
    exact List.mem_append_right _ List.mem_cons_self

theorem Sound.active (h : e.Sound) (hp : p ∈ e.patterns.values) : Sound { e with active := p } :=
  { h with active_mem := hp }

theorem Sound.perform (h : e.Sound) {action : InterpolationAction} (hok : e.perform action = .ok (p, e')) : e'.Sound := by
  cases action with
  | register name start stop => exact (h.register hok).1
  | activate name =>
    obtain ⟨hp, rfl⟩ := activate_cases hok
    exact h.active hp
  | sample sample =>
    rcases activateSample_cases hok with ⟨hp, rfl⟩ | ⟨start, stop, grown, hregister, rfl⟩
    · exact h.active hp
    · obtain ⟨hgrown, hp⟩ := h.register hregister
      exact hgrown.active hp

theorem Sound.after (h : e.Sound) (action : InterpolationAction) : (e.after action).Sound := by
  unfold Engine.after
  split
  · next hok => exact h.perform hok
  · exact h

/-! ## Histories -/

theorem New.sound (h : New e) : e.Sound := by
  have hinitial : Engine.initial.Sound := ⟨by decide, by decide +kernel, by decide +kernel, by decide, by decide⟩
  cases h with
  | initial => exact hinitial
  | active h =>
    obtain ⟨hp, rfl⟩ := activate_cases h
    exact hinitial.active hp

theorem Sound.history (h : e.Sound) (actions : List InterpolationAction) : (actions.foldl Engine.after e).Sound := by
  induction actions generalizing e with
  | nil => exact h
  | cons action actions ih => exact ih (h.after action)

end Engine

/-! ## The statement -/

theorem setInterpolation_apply (action : InterpolationAction) (line : Nat) (m : Machine) :
    Play.setInterpolation action line m =
      match m.session.interpolation.perform action with
      | .ok (_, e) => .done () { m with session := { m.session with interpolation := e } }
      | .error c => .fail (.problem (.condition { cause := c, line := some line })) m := by
  have hperform : Play.setInterpolation action line m = (match m.session.interpolation.perform action with
      | .ok (_, e) => Play.modifySession fun s => { s with interpolation := e }
      | .error c => Play.causeAt c (some line)) m := by
    cases action <;> rfl
  rw [hperform]
  cases m.session.interpolation.perform action <;> rfl

/-! ## The invariant -/

/-- The registry stays in order through every history of requests: no delimiter is empty, so that behind every
reference less text is left than before it; of no two patterns do the names have one upper-case form; the patterns that
are there from the start are there still, and the active pattern is registered. A statement whose request is refused
leaves the whole machine as it was. -/
theorem registry_stays_sound {e : Engine} (he : e.New) (actions : List InterpolationAction) :
    ∃ e', e' = actions.foldl Engine.after e ∧
      (∀ p ∈ e'.patterns.values, p.start ≠ "" ∧ p.stop ≠ "" ∧
        ∀ text before rest inside after, Text.FirstCut p.start.toList text before rest →
          Text.FirstCut p.stop.toList rest inside after → after.length < text.length) ∧
      (e'.patterns.values.map fun p => Text.upper p.name).Nodup ∧
      (∀ p ∈ builtins, p ∈ e'.patterns.values) ∧ e'.active ∈ e'.patterns.values ∧
      ∀ action line m, m.session.interpolation = e' →
        (∀ p e'', e'.perform action = .ok (p, e'') → e'.after action = e'' ∧ Play.setInterpolation action line m =
          .done () { m with session := { m.session with interpolation := e'' } }) ∧
        ∀ c, e'.perform action = .error c → e'.after action = e' ∧ Play.setInterpolation action line m =
          .fail (.problem (.condition { cause := c, line := some line })) m := by
  have hsound := he.sound.history actions
  refine ⟨_, rfl, fun p hp => ?_, hsound.distinct, hsound.builtins, hsound.active_mem, fun action line m hm => ?_⟩
  · obtain ⟨hstart, hstop⟩ := hsound.delimited p hp
    exact ⟨hstart, hstop, fun _ _ _ _ _ => length_after_lt fun h => hstart (String.toList_eq_nil_iff.mp h)⟩
  · rw [setInterpolation_apply, hm]
    constructor
    · intro p e'' h
      rw [Engine.after, h]
      exact ⟨rfl, rfl⟩
    · intro c h
      rw [Engine.after, h]
      exact ⟨rfl, rfl⟩

/-- With another pattern active at first, a sample that is registered under its own text, and a name that is taken then. -/
theorem registry_stays_sound_shell : Engine.New { Engine.initial with active := ⟨"shell", "$\x7b", "\x7d"⟩ } ∧
    ∃ e', e' = [.sample "<<v>>", .register "<<V>>" "(" ")", .activate "batch"].foldl Engine.after
        { Engine.initial with active := ⟨"shell", "$\x7b", "\x7d"⟩ } ∧
      (e'.patterns.values.map fun p => Text.upper p.name).Nodup ∧ e'.active ∈ e'.patterns.values := by
  have hshell : Engine.initial.activate "shell" = .ok (⟨"shell", "$\x7b", "\x7d"⟩,
      { Engine.initial with active := ⟨"shell", "$\x7b", "\x7d"⟩ }) := rfl
  have hnew : Engine.New { Engine.initial with active := ⟨"shell", "$\x7b", "\x7d"⟩ } := .active hshell
  obtain ⟨e', he', -, hdistinct, -, hactive, -⟩ := registry_stays_sound hnew
    [.sample "<<v>>", .register "<<V>>" "(" ")", .activate "batch"]
  exact ⟨hnew, e', he', hdistinct, hactive⟩

/-- Names of which one is the lower case of the other, and which have two upper-case forms, are both registered. -/
theorem names_apart_by_upper_case : ∃ e, e = [.register "straße" "<" ">", .register "straẞe" "(" ")"].foldl Engine.after
      Engine.initial ∧ ⟨"straße", "<", ">"⟩ ∈ e.patterns.values ∧ ⟨"straẞe", "(", ")"⟩ ∈ e.patterns.values ∧
    Text.lower "straẞe" = "straße" ∧ Text.lower "straße" = "straße" :=
  ⟨_, rfl, by decide +kernel, by decide +kernel, by decide +kernel, by decide +kernel⟩

end Conductor.Interpolation
