import Mathlib.Order.Basic
import Mathlib.Data.List.Basic

/-!
# Event-driven machines and the histories of their runs

A `Machine` has one initial state, a guard saying which events the environment
may deliver in a state, and a deterministic successor. A run is recorded as a
`History`: the list of steps taken, *newest first*, each with the state it left.
Newest-first makes "the last step that did X" the first match of the list, and
makes every suffix of a history the history of an earlier moment of the same run
(`Run.at_step`).

The induction is packaged once, in three strengths:

* `Run.invariant`: a state predicate kept by every step the history may contain;
* `Run.invariant_history`: the same for a predicate relating state and history
  (the ghost-history invariants);
* `Run.later`: a reflexive, transitive relation kept by every step relates each
  earlier state of a run to each later one.

Two more rules are about termination: a rank that every step lowers bounds the runs
(`Run.length_add_rank_le`), and bounded runs that cannot get stuck go on to a final state
(`Run.extends_to_final`).

`P` restricts the steps a run may take; the unrestricted rules take
`fun _ => True`.

`observed` lists what the steps of a run show of themselves. Two such lists that once
`Diverged` never agree again.
-/

namespace SocialNetwork.Lib

variable {σ ε : Type}

/-- A deterministic machine driven by the events its environment delivers. -/
structure Machine (σ ε : Type) where
  init : σ
  guard : σ → ε → Prop
  next : σ → ε → σ

/-- One step of a run: the state it left and the event it took. -/
structure Step (σ ε : Type) where
  pre : σ
  event : ε

/-- The steps of a run, newest first. -/
abbrev History (σ ε : Type) := List (Step σ ε)

/-- The states a run that has reached `s` by `h` has been in, newest first. -/
def visited (h : History σ ε) (s : σ) : List σ := s :: h.map (·.pre)

namespace Machine

variable (M : Machine σ ε)

/-- The state a step leads to. -/
def post (x : Step σ ε) : σ := M.next x.pre x.event

/-- `M.Run h s`: the steps `h` lead from the initial state to `s`. -/
inductive Run : History σ ε → σ → Prop
  | init : Run [] M.init
  | step {h : History σ ε} {s : σ} (e : ε) :
      Run h s → M.guard s e → Run (⟨s, e⟩ :: h) (M.next s e)

/-- Deliver the events in order (oldest first), as long as the guard admits them. -/
def replay [∀ s e, Decidable (M.guard s e)] :
    List ε → History σ ε × σ → Option (History σ ε × σ)
  | [], r => some r
  | e :: es, r =>
    if M.guard r.2 e then replay es (⟨r.2, e⟩ :: r.1, M.next r.2 e) else none

/-- The steps `replay` adds to a history take the events it delivers. -/
theorem replay_events {M : Machine σ ε} [∀ s e, Decidable (M.guard s e)] :
    ∀ {es : List ε} {r r' : History σ ε × σ}, M.replay es r = some r' →
      ∀ x ∈ r'.1, x.event ∈ es ∨ x ∈ r.1
  | [], r, r', h => by
    rw [replay, Option.some.injEq] at h
    intro x hx
    exact Or.inr (h ▸ hx)
  | e :: es, r, r', h => by
    rw [replay] at h
    split at h
    next =>
      intro x hx
      rcases replay_events h x hx with hin | hin
      · exact Or.inl (List.mem_cons_of_mem _ hin)
      · rcases List.mem_cons.mp hin with rfl | hold
        · exact Or.inl (List.mem_cons_self ..)
        · exact Or.inr hold
    next => cases h

end Machine

namespace Machine.Run

variable {M : Machine σ ε} {h : History σ ε} {s : σ}

/-- The first component of a nonempty history is the state before its newest step. -/
theorem of_cons {x : Step σ ε} (hr : M.Run (x :: h) s) :
    M.Run h x.pre ∧ M.guard x.pre x.event ∧ s = M.post x := by
  cases hr with
  | step e hr hg => exact ⟨hr, hg, rfl⟩

/-- A history determines the state it leads to. -/
theorem unique (hr : M.Run h s) : ∀ {s' : σ}, M.Run h s' → s = s' := by
  intro s' hr'
  cases hr with
  | init => cases hr'; rfl
  | step e _ _ => exact (of_cons hr').2.2.symm

/-- Every step of a run left a state the run had reached, through a guarded event. -/
theorem at_step {newer older : History σ ε} {x : Step σ ε} :
    M.Run (newer ++ x :: older) s → M.Run older x.pre ∧ M.guard x.pre x.event := by
  induction newer generalizing s with
  | nil => intro hr; exact ⟨(of_cons hr).1, (of_cons hr).2.1⟩
  | cons y newer ih => intro hr; exact ih (of_cons hr).1

/-- A run passes through the state after each of its steps. -/
theorem post_visited {x : Step σ ε} (hr : M.Run h s) (hx : x ∈ h) :
    M.post x ∈ visited h s := by
  induction hr with
  | init => cases hx
  | @step h s e hr hg ih =>
    rcases List.mem_cons.mp hx with rfl | hx'
    · exact List.mem_cons_self ..
    · exact List.mem_cons_of_mem _ (ih hx')

/-- Every state a run has been in is the result of an older part of its history. -/
theorem of_visited {s' : σ} (hr : M.Run h s) (hs' : s' ∈ visited h s) :
    ∃ h', M.Run h' s' ∧ h' <:+ h := by
  rcases List.mem_cons.mp hs' with rfl | hin
  · exact ⟨h, hr, List.suffix_refl h⟩
  · obtain ⟨x, hx, rfl⟩ := List.mem_map.mp hin
    obtain ⟨newer, older, rfl⟩ := List.append_of_mem hx
    exact ⟨older, hr.at_step.1, newer ++ [x], by rw [List.append_assoc]; rfl⟩

/-- **The invariant rule for histories**: a predicate on state and history that
holds at the start and is kept by every admitted step holds after every run. -/
theorem invariant_history {P : Step σ ε → Prop} {I : History σ ε → σ → Prop}
    (h0 : I [] M.init)
    (hstep : ∀ h s e, M.Run h s → (∀ x ∈ h, P x) → I h s → M.guard s e → P ⟨s, e⟩ →
      I (⟨s, e⟩ :: h) (M.next s e))
    (hr : M.Run h s) : (∀ x ∈ h, P x) → I h s := by
  induction hr with
  | init => intro _; exact h0
  | @step h s e hr hg ih =>
    intro hP
    -- the older steps of the run are admitted as well
    have hold : ∀ x ∈ h, P x := fun x hx => hP x (List.mem_cons_of_mem _ hx)
    exact hstep h s e hr hold (ih hold) hg (hP _ (List.mem_cons_self ..))

/-- **The invariant rule**: a state predicate that holds at the start and is kept
by every admitted step holds after every run. -/
theorem invariant {P : Step σ ε → Prop} {I : σ → Prop} (h0 : I M.init)
    (hstep : ∀ s e, I s → M.guard s e → P ⟨s, e⟩ → I (M.next s e))
    (hr : M.Run h s) (hP : ∀ x ∈ h, P x) : I s :=
  invariant_history (I := fun _ s => I s) h0
    (fun _ s e _ _ hI hg hp => hstep s e hI hg hp) hr hP

/-- **The monotonicity rule**: a preorder on states kept by every admitted step
relates an earlier state of a run to any later one. -/
theorem later {P : Step σ ε → Prop} {R : σ → σ → Prop} (hrefl : ∀ s, R s s)
    (htrans : ∀ {a b c}, R a b → R b c → R a c)
    (hstep : ∀ s e, M.guard s e → P ⟨s, e⟩ → R s (M.next s e)) :
    ∀ {newer older : History σ ε} {s s₀ : σ}, M.Run (newer ++ older) s → M.Run older s₀ →
      (∀ x ∈ newer, P x) → R s₀ s := by
  intro newer
  induction newer with
  | nil =>
    intro older s s₀ hr hr₀ _
    rw [unique hr₀ hr]
    exact hrefl s
  | cons x newer ih =>
    intro older s s₀ hr hr₀ hP
    obtain ⟨hr', hg, rfl⟩ := of_cons hr
    -- the induction is on the later steps; the newest one prolongs the relation
    exact htrans (ih hr' hr₀ fun y hy => hP y (List.mem_cons_of_mem _ hy))
      (hstep x.pre x.event hg (hP x (List.mem_cons_self ..)))

/-- **The rule for a repeated event**: if each delivery of `e` counts one further, some
run counts up to any `n`. -/
theorem repeated {P : Step σ ε → Prop} {I : Nat → σ → Prop} (e : ε)
    (h0 : ∃ h s, M.Run h s ∧ (∀ x ∈ h, P x) ∧ I 0 s) (n : Nat)
    (hstep : ∀ m < n, ∀ s, I m s → M.guard s e ∧ P ⟨s, e⟩ ∧ I (m + 1) (M.next s e)) :
    ∃ h s, M.Run h s ∧ (∀ x ∈ h, P x) ∧ I n s := by
  induction n with
  | zero => exact h0
  | succ n ih =>
    obtain ⟨h, s, hr, hP, hI⟩ := ih fun m hm => hstep m (Nat.lt_succ_of_lt hm)
    obtain ⟨hg, hp, hI'⟩ := hstep n (Nat.lt_succ_self n) s hI
    exact ⟨_, _, hr.step e hg, List.forall_mem_cons.mpr ⟨hp, hP⟩, hI'⟩

/-- **The rank rule**: if an invariant makes every step lower the rank, the rank at the start
bounds the length of every run. -/
theorem length_add_rank_le (rank : σ → Nat) {I : σ → Prop} (h0 : I M.init)
    (hstep : ∀ s e, I s → M.guard s e → I (M.next s e) ∧ rank (M.next s e) < rank s)
    (hr : M.Run h s) : I s ∧ h.length + rank s ≤ rank M.init := by
  induction hr with
  | init => exact ⟨h0, by simp⟩
  | @step h s e hr hg ih =>
    obtain ⟨hI, hle⟩ := ih
    obtain ⟨hI', hlt⟩ := hstep s e hI hg
    refine ⟨hI', ?_⟩
    rw [List.length_cons]
    omega

/-- **The progress rule**: if no run is longer than `bound` and only final states can be
stuck, every run goes on to a final state. -/
theorem extends_to_final {final : σ → Prop} {bound : Nat}
    (hbound : ∀ h s, M.Run h s → h.length ≤ bound)
    (hgo : ∀ h s, M.Run h s → ¬ final s → ∃ e, M.guard s e) (hr : M.Run h s) :
    ∃ newer s', M.Run (newer ++ h) s' ∧ final s' := by
  induction hleft : bound - h.length generalizing h s with
  | zero =>
    by_contra hno
    obtain ⟨e, hg⟩ := hgo h s hr fun hfinal => hno ⟨[], s, hr, hfinal⟩
    have hlong := hbound _ _ (hr.step e hg)
    rw [List.length_cons] at hlong
    omega
  | succ left ih =>
    by_cases hfinal : final s
    · exact ⟨[], s, hr, hfinal⟩
    · obtain ⟨e, hg⟩ := hgo h s hr hfinal
      obtain ⟨newer, s', hr', hfinal'⟩ := ih (hr.step e hg) (by rw [List.length_cons]; omega)
      exact ⟨newer ++ [⟨s, e⟩], s', by rw [List.append_assoc]; exact hr', hfinal'⟩

/-- What `replay` delivers is a run. -/
theorem of_replay [∀ s e, Decidable (M.guard s e)] :
    ∀ {es : List ε} {r r' : History σ ε × σ}, M.Run r.1 r.2 → M.replay es r = some r' →
      M.Run r'.1 r'.2
  | [], r, r', hr, h => by
    rw [replay, Option.some.injEq] at h
    exact h ▸ hr
  | e :: es, r, r', hr, h => by
    rw [replay] at h
    split at h
    next hg => exact of_replay (.step e hr hg) h
    next => cases h

/-- **A replay can be evaluated**: what holds of the history and the last state is read off
its result, and the steps inherit what the events delivered have in common. -/
theorem replay_exists [∀ s e, Decidable (M.guard s e)] {es : List ε} {Q : ε → Prop}
    {p : History σ ε × σ → Prop} [DecidablePred p] (hes : ∀ e ∈ es, Q e)
    (hp : (M.replay es ([], M.init)).any (fun r => decide (p r)) = true) :
    ∃ r, M.replay es ([], M.init) = some r ∧ M.Run r.1 r.2 ∧ (∀ x ∈ r.1, Q x.event) ∧ p r := by
  obtain ⟨r, hr, hp⟩ := (Option.any_eq_true ..).mp hp
  refine ⟨r, hr, of_replay .init hr, fun x hx => hes _ ?_, of_decide_eq_true hp⟩
  rcases replay_events hr x hx with hin | hin
  · exact hin
  · cases hin

end Machine.Run

/-! ## Observations -/

section

variable {α : Type}

/-- What `f` sees of the steps of a run, oldest first. -/
def observed (f : Step σ ε → Option α) (h : History σ ε) : List α := (h.filterMap f).reverse

theorem observed_none {f : Step σ ε → Option α} {x : Step σ ε} (hx : f x = none)
    (h : History σ ε) : observed f (x :: h) = observed f h := by
  unfold observed
  rw [List.filterMap_cons_none hx]

theorem observed_some {f : Step σ ε → Option α} {x : Step σ ε} {a : α} (hx : f x = some a)
    (h : History σ ε) : observed f (x :: h) = observed f h ++ [a] := by
  unfold observed
  rw [List.filterMap_cons_some hx, List.reverse_cons]

/-- More steps can only append. -/
theorem observed_append (f : Step σ ε → Option α) (newer h : History σ ε) :
    observed f h <+: observed f (newer ++ h) := by
  unfold observed
  rw [List.filterMap_append, List.reverse_append]
  exact List.prefix_append ..

/-- One more step can only append. -/
theorem observed_mono (f : Step σ ε → Option α) (x : Step σ ε) (h : History σ ε) :
    observed f h <+: observed f (x :: h) := observed_append f [x] h

/-- The lists differ at a position that both have. -/
def Diverged (l l' : List α) : Prop :=
  ∃ p a b, a ≠ b ∧ p ++ [a] <+: l ∧ p ++ [b] <+: l'

theorem Diverged.mono {l l' m m' : List α} (h : Diverged l l') (hl : l <+: m) (hl' : l' <+: m') :
    Diverged m m' := by
  obtain ⟨p, a, b, hne, ha, hb⟩ := h
  exact ⟨p, a, b, hne, ha.trans hl, hb.trans hl'⟩

theorem Diverged.not_prefix {l l' : List α} (h : Diverged l l') : ¬ l <+: l' := by
  intro hpre
  obtain ⟨p, a, b, hne, ha, hb⟩ := h
  -- both are the start of `l'` of that length
  have hab := List.prefix_of_prefix_length_le (ha.trans hpre) hb (by simp)
  have heq := hab.eq_of_length (by simp)
  rw [List.append_cancel_left_eq, List.singleton_inj] at heq
  exact hne heq

end

end SocialNetwork.Lib
