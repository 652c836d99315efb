import Conductor.Run.Machine

/-!
# What a computation meets

A computation that can wait is judged by what holds at its end and by what holds
where it waits. What a wait asks for, and what may be relied on when the computation
goes on, is said by a `Pause`: it turns the condition on the resumed computation, in
which something may have been raised, into a condition on the waiting one. A pause sees
the state together with a part that only the proof knows, such as what the other tasks
are doing.

The rules for sequencing, recovery and leaving are equations, so a proof can follow
the text of a computation by rewriting.
-/

set_option autoImplicit false

namespace Conductor

/-- What has to hold where a computation waits, given what has to hold where it goes on. -/
abbrev Pause (ε γ σ : Type) := Wait → γ → σ → (Option ε → γ → σ → Prop) → Prop

def Pause.Monotone {ε γ σ : Type} (P : Pause ε γ σ) : Prop :=
  ∀ w g s (K L : Option ε → γ → σ → Prop), (∀ raised g s, K raised g s → L raised g s) → P w g s K → P w g s L

/-- A pause in which nothing is raised: less is asked where less is asked of the computations that go on. -/
def Pause.Serene {ε γ σ : Type} (P : Pause ε γ σ) : Prop :=
  ∀ w g s (K L : Option ε → γ → σ → Prop), (∀ g s, K none g s → L none g s) → P w g s K → P w g s L

theorem Pause.Serene.monotone {ε γ σ : Type} {P : Pause ε γ σ} (hP : P.Serene) : P.Monotone :=
  fun w g s K L h => hP w g s K L (h none)

namespace Step

variable {σ ε α β γ : Type} {P : Pause ε γ σ} {d d' : α → γ → σ → Prop} {f f' : ε → γ → σ → Prop}

/-- Every ending of a computation, through every wait that the pause allows for. -/
def Meets (P : Pause ε γ σ) (d : α → γ → σ → Prop) (f : ε → γ → σ → Prop) : Step σ ε α → γ → Prop
  | .done a s, g => d a g s
  | .fail e s, g => f e g s
  | .wait w s resume, g => P w g s fun raised g' s' => (resume raised s').Meets P d f g'

@[simp] theorem meets_done (a : α) (s : σ) (g : γ) : (done a s : Step σ ε α).Meets P d f g ↔ d a g s := Iff.rfl

@[simp] theorem meets_fail (e : ε) (s : σ) (g : γ) : (fail e s : Step σ ε α).Meets P d f g ↔ f e g s := Iff.rfl

@[simp] theorem meets_wait (w : Wait) (s : σ) (resume : Option ε → σ → Step σ ε α) (g : γ) :
    (wait w s resume).Meets P d f g ↔ P w g s fun raised g' s' => (resume raised s').Meets P d f g' := Iff.rfl

theorem meets_bind (x : Step σ ε α) (k : α → σ → Step σ ε β) (e : β → γ → σ → Prop) (g : γ) :
    (x.bind k).Meets P e f g ↔ x.Meets P (fun a g s => (k a s).Meets P e f g) f g := by
  induction x generalizing g with
  | done a s => rfl
  | fail e s => rfl
  | wait w s resume ih =>
    simp only [bind, meets_wait]
    exact iff_of_eq (congrArg (P w g s) (funext fun r => funext fun g' => funext fun s' => propext (ih r s' g')))

theorem meets_recover (x : Step σ ε α) (k : ε → σ → Step σ ε α) (g : γ) :
    (x.recover k).Meets P d f g ↔ x.Meets P d (fun e g s => (k e s).Meets P d f g) g := by
  induction x generalizing g with
  | done a s => rfl
  | fail e s => rfl
  | wait w s resume ih =>
    simp only [recover, meets_wait]
    exact iff_of_eq (congrArg (P w g s) (funext fun r => funext fun g' => funext fun s' => propext (ih r s' g')))

theorem meets_leave (x : Step σ ε α) (k : σ → σ) (g : γ) :
    (x.leave k).Meets P d f g ↔ x.Meets P (fun a g s => d a g (k s)) (fun e g s => f e g (k s)) g := by
  induction x generalizing g with
  | done a s => rfl
  | fail e s => rfl
  | wait w s resume ih =>
    simp only [leave, meets_wait]
    exact iff_of_eq (congrArg (P w g s) (funext fun r => funext fun g' => funext fun s' => propext (ih r s' g')))

theorem Meets.mono (hP : P.Monotone) (hd : ∀ a g s, d a g s → d' a g s) (hf : ∀ e g s, f e g s → f' e g s)
    {x : Step σ ε α} {g : γ} (h : x.Meets P d f g) : x.Meets P d' f' g := by
  induction x generalizing g with
  | done a s => exact hd a g s h
  | fail e s => exact hf e g s h
  | wait w s resume ih => exact hP w g s _ _ (fun r g' s' h' => ih r s' h') h

/-- The endings that a computation can come to if nothing is raised where it waits, and each wait is followed by a
state that is in relation to the one it waited in. -/
inductive Comes (R : σ → σ → Prop) : Step σ ε α → Ending σ ε α → Prop
  | done (a : α) (s : σ) : Comes R (.done a s) (.done a s)
  | fail (e : ε) (s : σ) : Comes R (.fail e s) (.fail e s)
  | wait {w : Wait} {s s' : σ} {resume : Option ε → σ → Step σ ε α} {ending : Ending σ ε α} :
    R s s' → Comes R (resume none s') ending → Comes R (.wait w s resume) ending

def Ending.state : Ending σ ε α → σ
  | .done _ s | .fail _ s | .stuck s => s

theorem Comes.not_stuck {R : σ → σ → Prop} {x : Step σ ε α} {s : σ} : ¬ x.Comes R (.stuck s) := by
  induction x with
  | done a s => exact nofun
  | fail e s => exact nofun
  | wait w s resume ih =>
    intro h
    cases h with
    | wait _ h => exact ih _ _ h

theorem Comes.of_bind {R : σ → σ → Prop} {x : Step σ ε α} {k : α → σ → Step σ ε β} {ending : Ending σ ε β}
    (h : (x.bind k).Comes R ending) :
    (∃ a s, x.Comes R (.done a s) ∧ (k a s).Comes R ending) ∨ ∃ e s, x.Comes R (.fail e s) ∧ ending = .fail e s := by
  induction x with
  | done a s => exact .inl ⟨a, s, .done a s, h⟩
  | fail e s =>
    cases h
    exact .inr ⟨e, s, .fail e s, rfl⟩
  | wait w s resume ih =>
    cases h with
    | wait hR h =>
      rcases ih _ _ h with ⟨a, s₁, hx, hk⟩ | ⟨e, s₁, hx, heq⟩
      · exact .inl ⟨a, s₁, .wait hR hx, hk⟩
      · exact .inr ⟨e, s₁, .wait hR hx, heq⟩

theorem Comes.of_recover {R : σ → σ → Prop} {x : Step σ ε α} {k : ε → σ → Step σ ε α} {ending : Ending σ ε α}
    (h : (x.recover k).Comes R ending) :
    (∃ a s, x.Comes R (.done a s) ∧ ending = .done a s) ∨ ∃ e s, x.Comes R (.fail e s) ∧ (k e s).Comes R ending := by
  induction x with
  | done a s =>
    cases h
    exact .inl ⟨a, s, .done a s, rfl⟩
  | fail e s => exact .inr ⟨e, s, .fail e s, h⟩
  | wait w s resume ih =>
    cases h with
    | wait hR h =>
      rcases ih _ _ h with ⟨a, s₁, hx, heq⟩ | ⟨e, s₁, hx, hk⟩
      · exact .inl ⟨a, s₁, .wait hR hx, heq⟩
      · exact .inr ⟨e, s₁, .wait hR hx, hk⟩

theorem Comes.of_leave {R : σ → σ → Prop} {x : Step σ ε α} {f : σ → σ} {a : α} {s : σ}
    (h : (x.leave f).Comes R (.done a s)) : ∃ s', x.Comes R (.done a s') ∧ s = f s' := by
  induction x with
  | done b s' =>
    cases h
    exact ⟨s', .done a s', rfl⟩
  | fail e s' => cases h
  | wait w s' resume ih =>
    cases h with
    | wait hR h =>
      obtain ⟨s₁, hx, heq⟩ := ih _ _ h
      exact ⟨s₁, .wait hR hx, heq⟩

namespace Comes

variable {R : σ → σ → Prop} {e : ε} {s : σ}

theorem bind_fail {x : Step σ ε α} {k : α → σ → Step σ ε β} (h : x.Comes R (.fail e s)) :
    (x.bind k).Comes R (.fail e s) := by
  induction x with
  | done a s => cases h
  | fail e s =>
    cases h
    exact .fail e s
  | wait w s resume ih =>
    cases h with
    | wait hR h => exact .wait hR (ih none _ h)

theorem bind_done {x : Step σ ε α} {k : α → σ → Step σ ε β} {a : α} {ending : Ending σ ε β} (hx : x.Comes R (.done a s))
    (hk : (k a s).Comes R ending) : (x.bind k).Comes R ending := by
  induction x with
  | done a s =>
    cases hx
    exact hk
  | fail e s => cases hx
  | wait w s resume ih =>
    cases hx with
    | wait hR h => exact .wait hR (ih none _ h)

theorem bind_congr {x : Step σ ε α} {k l : α → σ → Step σ ε β} (h : ∀ a s, x.Comes R (.done a s) → k a s = l a s)
    (ending : Ending σ ε β) : (x.bind k).Comes R ending ↔ (x.bind l).Comes R ending := by
  constructor
  · intro hc
    rcases hc.of_bind with ⟨a, s, hx, hk⟩ | ⟨e, s, hx, rfl⟩
    · exact hx.bind_done (h a s hx ▸ hk)
    · exact hx.bind_fail
  · intro hc
    rcases hc.of_bind with ⟨a, s, hx, hl⟩ | ⟨e, s, hx, rfl⟩
    · exact hx.bind_done ((h a s hx).symm ▸ hl)
    · exact hx.bind_fail

theorem recover_done {x : Step σ ε α} {k : ε → σ → Step σ ε α} {a : α} (h : x.Comes R (.done a s)) :
    (x.recover k).Comes R (.done a s) := by
  induction x with
  | done a s =>
    cases h
    exact .done a s
  | fail e s => cases h
  | wait w s resume ih =>
    cases h with
    | wait hR h => exact .wait hR (ih none _ h)

theorem recover_fail {x : Step σ ε α} {k : ε → σ → Step σ ε α} {ending : Ending σ ε α} (hx : x.Comes R (.fail e s))
    (hk : (k e s).Comes R ending) : (x.recover k).Comes R ending := by
  induction x with
  | done a s => cases hx
  | fail e s =>
    cases hx
    exact hk
  | wait w s resume ih =>
    cases hx with
    | wait hR h => exact .wait hR (ih none _ h)

theorem leave_fail {x : Step σ ε α} {f : σ → σ} (h : x.Comes R (.fail e s)) : (x.leave f).Comes R (.fail e (f s)) := by
  induction x with
  | done a s => cases h
  | fail e s =>
    cases h
    exact .fail e (f s)
  | wait w s resume ih =>
    cases h with
    | wait hR h => exact .wait hR (ih none _ h)

theorem of_leave_fail {x : Step σ ε α} {f : σ → σ} (h : (x.leave f).Comes R (.fail e s)) :
    ∃ s', x.Comes R (.fail e s') ∧ s = f s' := by
  induction x with
  | done a s' => cases h
  | fail e s' =>
    cases h
    exact ⟨s', .fail e s', rfl⟩
  | wait w s' resume ih =>
    cases h with
    | wait hR h =>
      obtain ⟨s₁, hx, heq⟩ := ih none _ h
      exact ⟨s₁, .wait hR hx, heq⟩

/-- A computation that runs alone comes to its end, where nothing has to happen while it waits. -/
theorem of_alone (hR : ∀ s, R s s) {x : Step σ ε α} {a : α} {s : σ} (h : x.alone = .done a s) :
    x.Comes R (.done a s) := by
  induction x with
  | done a s => exact h ▸ .done a s
  | fail e s => cases h
  | wait w s resume ih =>
    cases w with
    | turn => exact .wait (hR s) (ih none s h)
    | load t => cases h

end Comes

theorem bind_done (x : Step σ ε α) : x.bind done = x := by
  induction x with
  | done a s => rfl
  | fail e s => rfl
  | wait w s resume ih => exact congrArg (wait w s) (funext fun r => funext (ih r))

theorem bind_assoc {δ : Type} (x : Step σ ε α) (k : α → σ → Step σ ε β) (l : β → σ → Step σ ε δ) :
    (x.bind k).bind l = x.bind fun a s => (k a s).bind l := by
  induction x with
  | done a s => rfl
  | fail e s => rfl
  | wait w s resume ih => exact congrArg (wait w s) (funext fun r => funext (ih r))

end Step

instance {σ ε : Type} : LawfulMonad (Run σ ε) :=
  LawfulMonad.mk' (Run σ ε)
    (fun x => funext fun s => Step.bind_done (x s))
    (fun _ _ => rfl)
    (fun x k l => funext fun s => Step.bind_assoc (x s) k l)

namespace Run

variable {σ ε α β γ : Type} {P : Pause ε γ σ} {d : α → γ → σ → Prop} {f : ε → γ → σ → Prop}

@[simp] theorem pure_apply (a : α) (s : σ) : (pure a : Run σ ε α) s = .done a s := rfl

@[simp] theorem bind_apply (x : Run σ ε α) (k : α → Run σ ε β) (s : σ) : (x >>= k) s = (x s).bind k := rfl

@[simp] theorem map_apply (k : α → β) (x : Run σ ε α) (s : σ) :
    (k <$> x) s = (x s).bind fun a s => .done (k a) s := rfl

@[simp] theorem discard_apply (x : Run σ ε α) (s : σ) : (discard x) s = (x s).bind fun _ s => .done ⟨⟩ s := rfl

@[simp] theorem throw_apply (e : ε) (s : σ) : (throw e : Run σ ε α) s = .fail e s := rfl

@[simp] theorem tryCatch_apply (x : Run σ ε α) (k : ε → Run σ ε α) (s : σ) :
    (tryCatch x k) s = (x s).recover k := rfl

@[simp] theorem leaving_apply (x : Run σ ε α) (k : σ → σ) (s : σ) : (x.leaving k) s = (x s).leave k := rfl

@[simp] theorem await_apply (w : Wait) (s : σ) :
    (await w : Run σ ε Unit) s = .wait w s fun raised s' => match raised with
      | none => .done () s'
      | some e => .fail e s' := rfl

@[simp] theorem get_apply (s : σ) : (get : Run σ ε σ) s = .done s s := rfl

@[simp] theorem modify_apply (k : σ → σ) (s : σ) : (modify k : Run σ ε PUnit) s = .done ⟨⟩ (k s) := rfl

theorem meets_bind {x : Run σ ε α} {k : α → Run σ ε β} {e : β → γ → σ → Prop} {s : σ} {g : γ} :
    ((x >>= k) s).Meets P e f g ↔ (x s).Meets P (fun a g s => (k a s).Meets P e f g) f g :=
  Step.meets_bind (x s) k e g

theorem meets_tryCatch {x : Run σ ε α} {k : ε → Run σ ε α} {s : σ} {g : γ} :
    ((tryCatch x k) s).Meets P d f g ↔ (x s).Meets P d (fun e g s => (k e s).Meets P d f g) g :=
  Step.meets_recover (x s) k g

end Run

namespace Play

variable {α : Type} (m : Machine)

@[simp] theorem world_apply : world m = .done m.world m := rfl

@[simp] theorem session_apply : session m = .done m.session m := rfl

@[simp] theorem modifyWorld_apply (k : World → World) :
    modifyWorld k m = .done ⟨⟩ { m with world := k m.world } := rfl

@[simp] theorem modifySession_apply (k : Session → Session) :
    modifySession k m = .done ⟨⟩ { m with session := k m.session } := rfl

@[simp] theorem raise_apply (c : Condition) : (raise c : Play α) m = .fail (.problem (.condition c)) m := rfl

@[simp] theorem failure_apply (f : Failure) : (failure f : Play α) m = .fail (.problem (.failure f)) m := rfl

@[simp] theorem liftE_ok (a : α) : liftE (.ok a) m = .done a m := rfl

@[simp] theorem liftE_error (f : Failure) : (liftE (.error f) : Play α) m = .fail (.problem (.failure f)) m := rfl

@[simp] theorem liftP_ok (a : α) : liftP (.ok a) m = .done a m := rfl

@[simp] theorem liftP_error (p : Problem) : (liftP (.error p) : Play α) m = .fail (.problem p) m := rfl

@[simp] theorem liftC_ok (a : α) : liftC (.ok a) m = .done a m := rfl

@[simp] theorem liftC_error (c : Condition) :
    (liftC (.error c) : Play α) m = .fail (.problem (.condition c)) m := rfl

end Play

end Conductor
