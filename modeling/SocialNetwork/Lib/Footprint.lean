import Mathlib.Data.Set.Basic

/-!
# Changes with footprints

A state seen as cells: an equivalence for each cell says when two states hold the same in it,
and states that hold the same in all cells are equal (`Cells`). `Local f s reads writes` says
that at `s` the change `f` depends on the cells `reads` and touches at most the cells `writes`.
Two changes neither of which writes what the other one reads or writes can be made in either
order (`commute`), and neither notices that the other one came first (`Local.keeps`).
-/

namespace SocialNetwork.Lib

variable {κ σ : Type}

/-- A way to see states as made of cells. -/
structure Cells (κ σ : Type) where
  same : κ → σ → σ → Prop
  equiv : ∀ k, Equivalence (same k)
  ext : ∀ {s t : σ}, (∀ k, same k s t) → s = t

namespace Cells

variable {C : Cells κ σ}

/-- The states hold the same in the cells `A`. -/
def Agree (C : Cells κ σ) (A : Set κ) (s t : σ) : Prop := ∀ k ∈ A, C.same k s t

theorem Agree.refl (A : Set κ) (s : σ) : C.Agree A s s := fun k _ => (C.equiv k).refl s

theorem Agree.symm {A : Set κ} {s t : σ} (h : C.Agree A s t) : C.Agree A t s :=
  fun k hk => (C.equiv k).symm (h k hk)

theorem Agree.trans {A : Set κ} {s t u : σ} (h : C.Agree A s t) (h' : C.Agree A t u) :
    C.Agree A s u :=
  fun k hk => (C.equiv k).trans (h k hk) (h' k hk)

/-- In the states that agree with `s` on `reads`, `f` changes at most `writes`, and to the
same. -/
structure Local (C : Cells κ σ) (f : σ → σ) (s : σ) (reads writes : Set κ) : Prop where
  frame : ∀ t, C.Agree reads s t → C.Agree writesᶜ t (f t)
  result : ∀ t, C.Agree reads s t → C.Agree writes (f s) (f t)

variable {f g : σ → σ} {s : σ} {rf wf rg wg : Set κ}

/-- A change is not noticed outside the cells it writes. -/
theorem Local.keeps (hg : C.Local g s rg wg) {A : Set κ} (hA : ∀ k ∈ A, k ∉ wg) :
    C.Agree A s (g s) :=
  fun k hk => hg.frame s (.refl rg s) k (hA k hk)

/-- A change that writes nothing but `hidden` cells is not noticed outside them. -/
theorem Local.hidden (hf : C.Local f s rf wf) {hidden : Set κ} (hw : wf ⊆ hidden) :
    C.Agree hiddenᶜ s (f s) :=
  hf.keeps fun _ hk hwf => hk (hw hwf)

/-- A change that reads no `hidden` cell does the same to states that differ in them. -/
theorem Local.seen (hf : C.Local f s rf wf) {hidden : Set κ} {t : σ}
    (hst : C.Agree hiddenᶜ s t) (hr : ∀ k ∈ rf, k ∉ hidden) : C.Agree hiddenᶜ (f s) (f t) := by
  intro k hk
  have hreads : C.Agree rf s t := fun k hk => hst k (hr k hk)
  by_cases hkw : k ∈ wf
  · exact hf.result t hreads k hkw
  · have hs := hf.frame s (.refl rf s) k hkw
    exact (C.equiv k).trans ((C.equiv k).symm hs)
      ((C.equiv k).trans (hst k hk) (hf.frame t hreads k hkw))

/-- **Changes neither of which writes what the other one reads commute.** What a change writes
counts as read. -/
theorem commute (hf : C.Local f s rf wf) (hg : C.Local g s rg wg) (hsub : wf ⊆ rf)
    (hfg : ∀ k ∈ rg, k ∉ wf) (hgf : ∀ k ∈ rf, k ∉ wg) : f (g s) = g (f s) := by
  have hsf := hf.keeps hfg
  have hsg := hg.keeps hgf
  refine C.ext fun k => ?_
  by_cases hkf : k ∈ wf
  · -- written by `f`, to the same before and after `g`, which leaves it alone
    exact (C.equiv k).trans ((C.equiv k).symm (hf.result (g s) hsg k hkf))
      (hg.frame (f s) hsf k (hgf k (hsub hkf)))
  · by_cases hkg : k ∈ wg
    · exact (C.equiv k).trans ((C.equiv k).symm (hf.frame (g s) hsg k hkf))
        (hg.result (f s) hsf k hkg)
    · -- written by neither
      have hgs := (C.equiv k).trans (hg.frame s (.refl rg s) k hkg) (hf.frame (g s) hsg k hkf)
      have hfs := (C.equiv k).trans (hf.frame s (.refl rf s) k hkf) (hg.frame (f s) hsf k hkg)
      exact (C.equiv k).trans ((C.equiv k).symm hgs) hfs

end Cells

end SocialNetwork.Lib
