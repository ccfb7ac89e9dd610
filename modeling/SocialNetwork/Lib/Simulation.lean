import Mathlib.Data.List.Forall2
import SocialNetwork.Lib.Transition

/-!
# Machines compared run by run

Three ways to carry what is known of the runs of one machine over to another one. `simulated`
answers every step of the first by some steps of the second, possibly none, and keeps a
relation between the two histories and states. `refined` is the case of one step for one step
and a function that reads the second machine's state off the first's. `lockstep` runs both at
once, event by event, from any two moments on.
-/

namespace SocialNetwork.Lib

variable {σ ε τ φ : Type}

namespace Machine.Run

/-- The older steps of a run are a run. -/
theorem earlier {M : Machine σ ε} {newer older : History σ ε} {s : σ}
    (hr : M.Run (newer ++ older) s) : ∃ s₀, M.Run older s₀ := by
  induction newer generalizing s with
  | nil => exact ⟨s, hr⟩
  | cons x newer ih => exact ih hr.of_cons.1

/-- **The simulation rule**: if the second machine can answer every admitted step of the
first, it can answer every run. -/
theorem simulated {M : Machine σ ε} {N : Machine τ φ} {P : Step σ ε → Prop}
    {R : History σ ε → σ → History τ φ → τ → Prop} (h0 : R [] M.init [] N.init)
    (hstep : ∀ {h s k t} e, M.Run h s → (∀ x ∈ h, P x) → N.Run k t → R h s k t → M.guard s e →
      P ⟨s, e⟩ → ∃ new t', N.Run (new ++ k) t' ∧ R (⟨s, e⟩ :: h) (M.next s e) (new ++ k) t')
    {h : History σ ε} {s : σ} (hr : M.Run h s) (hP : ∀ x ∈ h, P x) :
    ∃ k t, N.Run k t ∧ R h s k t := by
  induction hr with
  | init => exact ⟨[], N.init, .init, h0⟩
  | @step h s e hr hg ih =>
    have hold : ∀ x ∈ h, P x := fun x hx => hP x (List.mem_cons_of_mem _ hx)
    obtain ⟨k, t, hk, hR⟩ := ih hold
    obtain ⟨new, t', hk', hR'⟩ := hstep e hr hold hk hR hg (hP _ (List.mem_cons_self ..))
    exact ⟨new ++ k, t', hk', hR'⟩

/-- **The refinement rule**: if every admitted step is, seen through `f` and `g`, a step of the
second machine, every run is one of its runs. -/
theorem refined {M : Machine σ ε} {N : Machine τ φ} {P : Step σ ε → Prop} (f : σ → τ)
    (g : Step σ ε → φ) (h0 : f M.init = N.init)
    (hstep : ∀ {h s} e, M.Run h s → (∀ x ∈ h, P x) → M.guard s e → P ⟨s, e⟩ →
      N.guard (f s) (g ⟨s, e⟩) ∧ f (M.next s e) = N.next (f s) (g ⟨s, e⟩))
    {h : History σ ε} {s : σ} (hr : M.Run h s) (hP : ∀ x ∈ h, P x) :
    N.Run (h.map fun x => ⟨f x.pre, g x⟩) (f s) := by
  induction hr with
  | init => exact h0 ▸ .init
  | @step h s e hr hg ih =>
    have hold : ∀ x ∈ h, P x := fun x hx => hP x (List.mem_cons_of_mem _ hx)
    obtain ⟨hguard, hnext⟩ := hstep e hr hold hg (hP _ (List.mem_cons_self ..))
    rw [hnext]
    exact (ih hold).step (g ⟨s, e⟩) hguard

/-- **The lockstep rule**: two runs that go on from related states, the second one by steps
related one by one to those the first one does not leave out, visit related states. -/
theorem lockstep {M : Machine σ ε} {N : Machine τ φ} {P : Step σ ε → Prop}
    {Q : Step τ φ → Prop} {R : σ → τ → Prop} {E : Step σ ε → Step τ φ → Prop}
    (keep : Step σ ε → Bool)
    (hkept : ∀ {x y}, P x → Q y → E x y → R x.pre y.pre → R (M.post x) (N.post y))
    (hdropped : ∀ {x t}, P x → keep x = false → R x.pre t → R (M.post x) t)
    {h₀ : History σ ε} {k₀ : History τ φ} {s₀ : σ} {t₀ : τ} (hs₀ : M.Run h₀ s₀)
    (ht₀ : N.Run k₀ t₀) (h0 : R s₀ t₀) {h : History σ ε} :
    ∀ {k : History τ φ} {s : σ} {t : τ}, M.Run (h ++ h₀) s → N.Run (k ++ k₀) t →
      (∀ x ∈ h, P x) → (∀ y ∈ k, Q y) → List.Forall₂ E (h.filter keep) k →
      R s t ∧ List.Forall₂ (fun x y => P x ∧ Q y ∧ E x y ∧ R x.pre y.pre) (h.filter keep) k := by
  induction h with
  | nil =>
    intro k s t hs ht _ _ he
    cases he
    rw [hs.unique hs₀, ht.unique ht₀]
    exact ⟨h0, .nil⟩
  | cons x h ih =>
    intro k s t hs ht hP hQ he
    have hpx := hP x (List.mem_cons_self ..)
    have hP' : ∀ x ∈ h, P x := fun x hx => hP x (List.mem_cons_of_mem _ hx)
    obtain ⟨hs', _, rfl⟩ := of_cons hs
    cases hkeep : keep x with
    | false =>
      -- left out: the second run stays where it is
      rw [List.filter_cons_of_neg (by simp [hkeep])] at he ⊢
      obtain ⟨hR, hall⟩ := ih hs' ht hP' hQ he
      exact ⟨hdropped hpx hkeep hR, hall⟩
    | true =>
      rw [List.filter_cons_of_pos hkeep] at he ⊢
      cases he with
      | @cons _ y _ k he hrest =>
        have hqy := hQ y (List.mem_cons_self ..)
        obtain ⟨ht', _, rfl⟩ := of_cons ht
        obtain ⟨hR, hall⟩ := ih hs' ht' hP' (fun y hy => hQ y (List.mem_cons_of_mem _ hy)) hrest
        exact ⟨hkept hpx hqy he hR, .cons ⟨hpx, hqy, he, hR⟩ hall⟩

end Machine.Run

end SocialNetwork.Lib
