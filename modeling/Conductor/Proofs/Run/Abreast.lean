import Conductor.Proofs.Run.Retained

/-!
# Computations abreast

One computation keeps abreast of another if both do the same, step for step, wherever the
first one meets what is asked of it: they wait in the same states for the same, and end alike.
So a computation may be exchanged for another that keeps abreast of it. The rules are those of
what a computation meets, for two computations at once.
-/

set_option autoImplicit false

namespace Conductor

namespace Step

variable {σ ε α β γ : Type} {P : Pause ε γ σ} {d d' : α → γ → σ → Prop} {f f' : ε → γ → σ → Prop}

/-- Every ending of a computation, through every wait that the pause allows for, with another one that does the same. -/
def Abreast (P : Pause ε γ σ) (d : α → γ → σ → Prop) (f : ε → γ → σ → Prop) : Step σ ε α → Step σ ε α → γ → Prop
  | .done a s, y, g => y = .done a s ∧ d a g s
  | .fail e s, y, g => y = .fail e s ∧ f e g s
  | .wait w s resume, y, g => ∃ resume', y = .wait w s resume' ∧
      P w g s fun raised g' s' => (resume raised s').Abreast P d f (resume' raised s') g'

namespace Abreast

theorem done {a : α} {s : σ} {g : γ} (h : d a g s) : (Step.done a s : Step σ ε α).Abreast P d f (.done a s) g := ⟨rfl, h⟩

theorem fail {e : ε} {s : σ} {g : γ} (h : f e g s) : (Step.fail e s : Step σ ε α).Abreast P d f (.fail e s) g := ⟨rfl, h⟩

theorem mono (hP : P.Monotone) (hd : ∀ a g s, d a g s → d' a g s) (hf : ∀ e g s, f e g s → f' e g s)
    {x y : Step σ ε α} {g : γ} (h : x.Abreast P d f y g) : x.Abreast P d' f' y g := by
  induction x generalizing y g with
  | done a s => exact ⟨h.1, hd _ _ _ h.2⟩
  | fail e s => exact ⟨h.1, hf _ _ _ h.2⟩
  | wait w s resume ih =>
    obtain ⟨resume', rfl, h⟩ := h
    exact ⟨resume', rfl, hP w g s _ _ (fun raised _ s' h' => ih raised s' h') h⟩

theorem bind (hP : P.Monotone) {e : β → γ → σ → Prop} {x x' : Step σ ε α} {k k' : α → σ → Step σ ε β} {g : γ}
    (hx : x.Abreast P d f x' g) (hk : ∀ a g s, d a g s → (k a s).Abreast P e f' (k' a s) g)
    (hf : ∀ e g s, f e g s → f' e g s) : (x.bind k).Abreast P e f' (x'.bind k') g := by
  induction x generalizing x' g with
  | done a s =>
    obtain ⟨rfl, h⟩ := hx
    exact hk a g s h
  | fail e s =>
    obtain ⟨rfl, h⟩ := hx
    exact ⟨rfl, hf _ _ _ h⟩
  | wait w s resume ih =>
    obtain ⟨resume', rfl, h⟩ := hx
    exact ⟨_, rfl, hP w g s _ _ (fun raised _ s' h' => ih raised s' h') h⟩

theorem recover (hP : P.Monotone) {x x' : Step σ ε α} {k k' : ε → σ → Step σ ε α} {g : γ}
    (hx : x.Abreast P d f x' g) (hd : ∀ a g s, d a g s → d' a g s)
    (hk : ∀ e g s, f e g s → (k e s).Abreast P d' f' (k' e s) g) : (x.recover k).Abreast P d' f' (x'.recover k') g := by
  induction x generalizing x' g with
  | done a s =>
    obtain ⟨rfl, h⟩ := hx
    exact ⟨rfl, hd _ _ _ h⟩
  | fail e s =>
    obtain ⟨rfl, h⟩ := hx
    exact hk e g s h
  | wait w s resume ih =>
    obtain ⟨resume', rfl, h⟩ := hx
    exact ⟨_, rfl, hP w g s _ _ (fun raised _ s' h' => ih raised s' h') h⟩

theorem leave (hP : P.Monotone) {x x' : Step σ ε α} {k : σ → σ} {g : γ} (hx : x.Abreast P d f x' g)
    (hd : ∀ a g s, d a g s → d' a g (k s)) (hf : ∀ e g s, f e g s → f' e g (k s)) :
    (x.leave k).Abreast P d' f' (x'.leave k) g := by
  induction x generalizing x' g with
  | done a s =>
    obtain ⟨rfl, h⟩ := hx
    exact ⟨rfl, hd _ _ _ h⟩
  | fail e s =>
    obtain ⟨rfl, h⟩ := hx
    exact ⟨rfl, hf _ _ _ h⟩
  | wait w s resume ih =>
    obtain ⟨resume', rfl, h⟩ := hx
    exact ⟨_, rfl, hP w g s _ _ (fun raised _ s' h' => ih raised s' h') h⟩

end Abreast

end Step

namespace Run

variable {σ ε α β γ : Type} {P : Pause ε γ σ} {d d' : α → γ → σ → Prop} {f f' : ε → γ → σ → Prop} {s : σ} {g : γ}

theorem abreast_bind (hP : P.Monotone) {e : β → γ → σ → Prop} {x x' : Run σ ε α} {k k' : α → Run σ ε β}
    (hx : (x s).Abreast P d f (x' s) g) (hk : ∀ a g s, d a g s → (k a s).Abreast P e f' (k' a s) g)
    (hf : ∀ e g s, f e g s → f' e g s) : ((x >>= k) s).Abreast P e f' ((x' >>= k') s) g :=
  Step.Abreast.bind hP hx hk hf

theorem abreast_tryCatch (hP : P.Monotone) {x x' : Run σ ε α} {k k' : ε → Run σ ε α}
    (hx : (x s).Abreast P d f (x' s) g) (hd : ∀ a g s, d a g s → d' a g s)
    (hk : ∀ e g s, f e g s → (k e s).Abreast P d' f' (k' e s) g) :
    ((tryCatch x k) s).Abreast P d' f' ((tryCatch x' k') s) g :=
  Step.Abreast.recover hP hx hd hk

end Run

end Conductor
