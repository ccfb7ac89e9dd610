import SocialNetwork.Lib.Transition

/-!
# Since

What a run does after the last time something happened: `Since P Q h` says that some step of the
history was a `Q`, and every step after it a `P`. A machine that remembers what it learnt at a
`Q` and loses it at a step that is not a `P` is described by it (`Since.step`).
-/

namespace SocialNetwork.Lib

variable {σ ε : Type} {P Q : Step σ ε → Prop} {h : History σ ε} {x : Step σ ε}

/-- Some step was a `Q`, and all steps after it were `P`s. -/
def Since (P Q : Step σ ε → Prop) : History σ ε → Prop
  | [] => False
  | x :: h => Q x ∨ (P x ∧ Since P Q h)

namespace Since

theorem here (hx : Q x) : Since P Q (x :: h) := Or.inl hx

theorem step (hs : Since P Q h) (hx : P x) : Since P Q (x :: h) := Or.inr ⟨hx, hs⟩

/-- The step it is about, with what came after it and before it. -/
theorem exists_step : ∀ {h : History σ ε}, Since P Q h →
    ∃ newer x older, h = newer ++ x :: older ∧ Q x ∧ ∀ y ∈ newer, P y
  | [], hs => hs.elim
  | x :: h, hs => by
    rcases hs with hx | ⟨hx, hs⟩
    · exact ⟨[], x, h, rfl, hx, List.forall_mem_nil _⟩
    · obtain ⟨newer, y, older, rfl, hy, hnewer⟩ := exists_step hs
      exact ⟨x :: newer, y, older, rfl, hy, List.forall_mem_cons.mpr ⟨hx, hnewer⟩⟩

end Since

/-- **What was no `P` came before.** In a history in which no step is both, everything that is
not a `P` was over when the `Q` happened. -/
theorem Since.settled (hs : Since P Q h) (hQ : ∀ x, Q x → P x) :
    ∃ newer x older, h = newer ++ x :: older ∧ Q x ∧ ∀ y ∈ h, ¬ P y → y ∈ older := by
  obtain ⟨newer, x, older, rfl, hx, hnewer⟩ := hs.exists_step
  refine ⟨newer, x, older, rfl, hx, fun y hy hnot => ?_⟩
  rcases List.mem_append.mp hy with hy | hy
  · exact absurd (hnewer y hy) hnot
  · rcases List.mem_cons.mp hy with rfl | hy
    · exact absurd (hQ y hx) hnot
    · exact hy

end SocialNetwork.Lib
