import Conductor.Proofs.Module.Exports
import Conductor.Proofs.Module.Orderly

/-!
# One location, one module

Loading is remembered by location. When all who ask for a location mean the same
place, and its dependencies lead the same ways from wherever it is asked for, what
holds of one request for a location holds of every other: in particular whether it is
sound. Then a location can be judged by any of its requests, and the judgment says
exactly which locations can be loaded and what their entries are.
-/

set_option autoImplicit false

namespace Conductor.Module

open Relation (ReflTransGen TransGen)

/-- Requests for one location mean one place, and from there they lead the same ways. -/
def Coherent (w : World) (roots : List Request) : Prop :=
  ∀ r r' l l', Asked w roots r → Asked w roots r' → target w r = .ok l → target w r' = .ok l' → l.text = l'.text →
    l = l' ∧ ∀ dep base base', Leads w r (dep, base) → Leads w r' (dep, base') →
      target w (dep, base) = target w (dep, base')

def Edge (w : World) (roots : List Request) (a b : String) : Prop :=
  ∃ r r' l l', Asked w roots r ∧ target w r = .ok l ∧ l.text = a ∧ Leads w r r' ∧ target w r' = .ok l' ∧ l'.text = b

def Flawed (w : World) (roots : List Request) (a : String) : Prop :=
  ∃ r l, Asked w roots r ∧ target w r = .ok l ∧ l.text = a ∧ ¬ Sound w r

def Fine (w : World) (roots : List Request) (a : String) (es : Table String Entry) : Prop :=
  ¬ Flawed w roots a ∧ ∃ r l m exports, Asked w roots r ∧ target w r = .ok l ∧ l.text = a ∧ moduleAt w l = .ok m ∧
    m.exports = .ok exports ∧ m.entries exports r.1 a = .ok es

variable {w : World} {roots : List Request} {r r' x : Request} {l l' : Location}

theorem Leads.target_eq (h : Leads w r x) : ∃ l, target w r = .ok l := by
  obtain ⟨l, -, -, hl, -⟩ := h
  exact ⟨l, hl⟩

theorem asked_of_path (hr : Asked w roots r) (h : ReflTransGen (Leads w) r x) : Asked w roots x := by
  obtain ⟨root, hroot, hreach⟩ := hr
  exact ⟨root, hroot, hreach.trans h⟩

theorem wellFormed_congr (h : target w r = target w r') : WellFormed w r ↔ WellFormed w r' := by
  simp only [WellFormed, h]

theorem together_congr {x' : Request} (h : target w r = target w r') (hx : target w x = target w x') :
    Together w r x ↔ Together w r' x' := by
  simp only [Together, h, hx]

namespace Coherent

theorem target_eq (h : Coherent w roots) (hr : Asked w roots r) (hr' : Asked w roots r') (ht : Together w r r') :
    target w r = target w r' := by
  obtain ⟨l, l', hl, hl', htext⟩ := ht
  obtain ⟨rfl, -⟩ := h r r' l l' hr hr' hl hl' htext
  exact hl.trans hl'.symm

theorem lift_step (h : Coherent w roots) (hr : Asked w roots r) (hr' : Asked w roots r')
    (ht : target w r = target w r') (hx : Leads w r x) : ∃ y, Leads w r' y ∧ target w y = target w x := by
  have hsame := hx
  obtain ⟨l, m, deps, hl, hm, hdeps, hmem, hbase⟩ := hsame
  have hl' : target w r' = .ok l := ht.symm.trans hl
  have hy : Leads w r' (x.1, baseFor w l r'.2) := ⟨l, m, deps, hl', hm, hdeps, hmem, rfl⟩
  exact ⟨_, hy, ((h r r' l l hr hr' hl hl' rfl).2 x.1 x.2 _ hx hy).symm⟩

theorem lift_path (h : Coherent w roots) (hr : Asked w roots r) (hr' : Asked w roots r')
    (ht : target w r = target w r') (hx : ReflTransGen (Leads w) r x) :
    ∃ y, ReflTransGen (Leads w) r' y ∧ target w y = target w x := by
  induction hx with
  | refl => exact ⟨r', .refl, ht.symm⟩
  | tail hpath hlast ih =>
    obtain ⟨y, hy, hty⟩ := ih
    obtain ⟨z, hz, htz⟩ := h.lift_step (asked_of_path hr hpath) (asked_of_path hr' hy) hty.symm hlast
    exact ⟨z, hy.tail hz, htz⟩

theorem lift_trans (h : Coherent w roots) (hr : Asked w roots r) (hr' : Asked w roots r')
    (ht : target w r = target w r') (hx : TransGen (Leads w) r x) :
    ∃ y, TransGen (Leads w) r' y ∧ target w y = target w x := by
  obtain ⟨z, hz, hzx⟩ := TransGen.head'_iff.mp hx
  obtain ⟨z', hz', htz'⟩ := h.lift_step hr hr' ht hz
  obtain ⟨y, hy, hty⟩ := h.lift_path (hr.next hz) (hr'.next hz') htz'.symm hzx
  exact ⟨y, .head' hz' hy, hty⟩

theorem sound_of_target_eq (h : Coherent w roots) (hr : Asked w roots r) (hr' : Asked w roots r')
    (ht : target w r = target w r') (hs : Sound w r) : Sound w r' := by
  refine ⟨fun y hy => ?_, ?_⟩
  · obtain ⟨x, hx, htx⟩ := h.lift_path hr' hr ht.symm hy
    exact (wellFormed_congr htx).mp (hs.1 x hx)
  · rintro ⟨y₁, y₂, hy₁, hy₂, hback⟩
    obtain ⟨x₁, hx₁, ht₁⟩ := h.lift_path hr' hr ht.symm hy₁
    obtain ⟨x₂, hx₂, ht₂⟩ := h.lift_trans (asked_of_path hr' hy₁) (asked_of_path hr hx₁) ht₁.symm hy₂
    exact hs.2 ⟨x₁, x₂, hx₁, hx₂, (together_congr ht₁ ht₂).mpr hback⟩

theorem sound_of_not_flawed (hr : Asked w roots r) (hl : target w r = .ok l) (hf : ¬ Flawed w roots l.text) :
    Sound w r := by
  by_contra hs
  exact hf ⟨r, l, hr, hl, rfl, hs⟩

theorem not_flawed_of_sound (h : Coherent w roots) (hr : Asked w roots r) (hl : target w r = .ok l)
    (hs : Sound w r) : ¬ Flawed w roots l.text := by
  rintro ⟨r', l', hr', hl', htext, hs'⟩
  exact hs' (h.sound_of_target_eq hr hr' (h.target_eq hr hr' ⟨l, l', hl, hl', htext.symm⟩) hs)

theorem sound_of_next (h : Coherent w roots) (hr : Asked w roots r) (hwell : WellFormed w r)
    (hnext : ∀ x, Leads w r x → Sound w x) : Sound w r := by
  refine ⟨fun x hx => ?_, ?_⟩
  · rcases hx.cases_head with rfl | ⟨y, hy, hyx⟩
    · exact hwell
    · exact (hnext y hy).1 x hyx
  · rintro ⟨x₁, x₂, hx₁, hx₂, hback⟩
    rcases hx₁.cases_head with rfl | ⟨y, hy, hyx⟩
    · -- a way back to the location of `r` leads on round the same way, and so stands against the first request on it
      obtain ⟨y, hy, hyx⟩ := TransGen.head'_iff.mp hx₂
      have hx₂' : Asked w roots x₂ := asked_of_path hr hx₂.to_reflTransGen
      obtain ⟨x₃, hx₃, ht₃⟩ := h.lift_trans hr hx₂' (h.target_eq hr hx₂' hback) hx₂
      obtain ⟨l, l', hl, hl', htext⟩ := hback
      exact (hnext y hy).2 ⟨x₂, x₃, hyx, hx₃, l', l', hl', ht₃.trans hl', rfl⟩
    · exact (hnext y hy).2 ⟨x₁, x₂, hyx, hx₂, hback⟩

theorem path_of_edges (h : Coherent w roots) (hr : Asked w roots r) (hl : target w r = .ok l) {b : String}
    (hedges : TransGen (Edge w roots) l.text b) :
    ∃ x l', TransGen (Leads w) r x ∧ target w x = .ok l' ∧ l'.text = b := by
  have hstep : ∀ {a b : String} {y : Request} {ly : Location}, Asked w roots y → target w y = .ok ly → ly.text = a →
      Edge w roots a b → ∃ x l', Leads w y x ∧ target w x = .ok l' ∧ l'.text = b := by
    rintro a b y ly hy hly rfl ⟨r₁, r₂, l₁, l₂, hr₁, hl₁, htext, hlead, hl₂, rfl⟩
    obtain ⟨x, hx, htx⟩ := h.lift_step hr₁ hy (h.target_eq hr₁ hy ⟨l₁, ly, hl₁, hly, htext⟩) hlead
    exact ⟨x, l₂, hx, htx.trans hl₂, rfl⟩
  induction hedges with
  | single hab =>
    obtain ⟨x, l', hx, hl', rfl⟩ := hstep hr hl rfl hab
    exact ⟨x, l', .single hx, hl', rfl⟩
  | tail _ hbc ih =>
    obtain ⟨y, ly, hy, hly, htext⟩ := ih
    obtain ⟨x, l', hx, hl', rfl⟩ := hstep (asked_of_path hr hy.to_reflTransGen) hly htext hbc
    exact ⟨x, l', hy.tail hx, hl', rfl⟩

end Coherent

/-- Modules that are all files, or all on the web, form a coherent graph. -/
theorem coherent_of_origin (origin : Origin) (horigin : origin ≠ .host)
    (h : ∀ r l, Asked w roots r → target w r = .ok l → l.origin = origin ∧ l.language = .host) : Coherent w roots := by
  rintro r r' ⟨o, a, lang⟩ ⟨o', a', lang'⟩ hr hr' hl hl' htext
  obtain ⟨rfl, rfl⟩ := h r _ hr hl
  obtain ⟨rfl, rfl⟩ := h r' _ hr' hl'
  obtain rfl : a = a' := htext
  refine ⟨rfl, fun dep base base' hbase hbase' => ?_⟩
  obtain ⟨l₁, -, -, hl₁, -, -, -, hb₁⟩ := hbase
  obtain ⟨l₂, -, -, hl₂, -, -, -, hb₂⟩ := hbase'
  obtain rfl := Except.ok.inj (hl.symm.trans hl₁)
  obtain rfl := Except.ok.inj (hl'.symm.trans hl₂)
  obtain rfl : base = base' := by
    rw [show base = _ from hb₁, show base' = _ from hb₂]
    cases o' with
    | host => exact absurd rfl horigin
    | file => rfl
    | url => rfl
  rfl

def ofGraph (w : World) (roots : List Request)
    (hhost : ∀ r l, Asked w roots r → target w r = .ok l → l.language = .host)
    (hweb : ∀ r l, Asked w roots r → target w r = .ok l → l.origin = .url → w.loader.sources ≠ none)
    (h : Coherent w roots) : Judgment w where
  asked := Asked w roots
  edge := Edge w roots
  fine := Fine w roots
  flawed := Flawed w roots
  needs := Edge w roots
  closed := Asked.next
  host := hhost _ _
  edge_intro hr hl hx hl' := ⟨_, _, _, _, hr, hl, rfl, hx, hl', rfl⟩
  flawed_back := by
    rintro a b ⟨r, r', l, l', hr, hl, rfl, hx, hl', rfl⟩ hb
    refine ⟨r, l, hr, hl, rfl, fun hs => ?_⟩
    exact h.not_flawed_of_sound (hr.next hx) hl' (hs.next hx) hb
  flawed_cycle := by
    intro a ha
    obtain ⟨b, ⟨r, -, l, -, hr, hl, rfl, -⟩, -⟩ := TransGen.head'_iff.mp ha
    obtain ⟨x, l', hx, hl', htext⟩ := h.path_of_edges hr hl ha
    exact ⟨r, l, hr, hl, rfl, fun hs => hs.not_together hx ⟨l, l', hl, hl', htext.symm⟩⟩
  flawed_self hr hl hwell := ⟨_, _, hr, hl, rfl, fun hs => hwell (hs.1 _ .refl)⟩
  flawed_astray := by
    intro r r' l c hr hl hx hc
    refine ⟨r, l, hr, hl, rfl, fun hs => ?_⟩
    obtain ⟨l', -, -, -, hl', -⟩ := hs.1 r' (.single hx)
    simp [hc] at hl'
  flawed_web hr hl horigin hsources := absurd hsources (hweb _ _ hr hl horigin)
  fine_intro := by
    intro r l m exports es hr hl hwell hm hexports hentries hdeps
    refine ⟨?_, r, l, m, exports, hr, hl, rfl, hm, hexports, hentries⟩
    refine h.not_flawed_of_sound hr hl (h.sound_of_next hr hwell fun x hx => ?_)
    obtain ⟨l', es', hl', hfine⟩ := hdeps x hx
    exact Coherent.sound_of_not_flawed (hr.next hx) hl' hfine.1
  needs_intro := by
    intro r l b hr hl hb
    obtain ⟨r₁, r₂, l₁, l₂, hr₁, hl₁, htext, hlead, hl₂, rfl⟩ := hb
    obtain ⟨x, hx, htx⟩ := h.lift_step hr₁ hr (h.target_eq hr₁ hr ⟨l₁, l, hl₁, hl, htext⟩) hlead
    exact ⟨x, l₂, hx, htx.trans hl₂, rfl⟩

theorem Fine.same (h : Coherent w roots) {a : String} {es es' : Table String Entry} (hes : Fine w roots a es)
    (hes' : Fine w roots a es') : SameEntries es es' := by
  obtain ⟨-, r, l, m, exports, hr, hl, rfl, hm, hexports, hentries⟩ := hes
  obtain ⟨-, r', l', m', exports', hr', hl', htext, hm', hexports', hentries'⟩ := hes'
  obtain ⟨rfl, -⟩ := h r r' l l' hr hr' hl hl' htext.symm
  obtain rfl : m = m' := Except.ok.inj (hm.symm.trans hm')
  obtain rfl : exports = exports' := Except.ok.inj (hexports.symm.trans hexports')
  exact HostModule.entries_rename hentries hentries'

end Conductor.Module
