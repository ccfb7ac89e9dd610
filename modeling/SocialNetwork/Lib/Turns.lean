import Mathlib.Order.Lattice

/-!
# Taking turns

A scheduler that works in rounds. `key x` is the client whose turn `x` is, if it is anybody's.
In an orderly round the turns come in the order of the clients, so nobody has two. If someone
has a turn in every round, then nobody else has two without a turn of theirs in between
(`turn_between`), wherever in the rounds the two may be.
-/

namespace SocialNetwork.Lib

variable {α ι : Type}

/-- The turns of a round come in the order of their clients, one each. -/
def Orderly [LT ι] (key : α → Option ι) (round : List α) : Prop :=
  round.Pairwise fun x y => ∀ i j, key x = some i → key y = some j → i < j

/-- The round in which something happens, and what comes before and after it. -/
theorem exists_round {rounds : List (List α)} {a t : List α} {e : α}
    (h : rounds.flatten = a ++ e :: t) :
    ∃ before u v after, rounds = before ++ (u ++ e :: v) :: after ∧ a = before.flatten ++ u ∧
      t = v ++ after.flatten := by
  induction rounds generalizing a with
  | nil => simp at h
  | cons round rounds ih =>
    have hlater : ∀ a', rounds.flatten = a' ++ e :: t → ∃ before u v after,
        round :: rounds = before ++ (u ++ e :: v) :: after ∧
          round ++ a' = before.flatten ++ u ∧ t = v ++ after.flatten := by
      intro a' ha'
      obtain ⟨before, u, v, after, hrounds, ha, ht⟩ := ih ha'
      refine ⟨round :: before, u, v, after, by rw [hrounds, List.cons_append], ?_, ht⟩
      rw [ha, List.flatten_cons, List.append_assoc]
    rw [List.flatten_cons, List.append_eq_append_iff] at h
    rcases h with ⟨rest, rfl, hrest⟩ | ⟨rest, hround, hrest⟩
    · exact hlater rest hrest
    · cases rest with
      | nil =>
        rw [List.append_nil] at hround
        subst hround
        have hhere := hlater [] hrest.symm
        rwa [List.append_nil] at hhere
      | cons x v =>
        rw [List.cons_append, List.cons.injEq] at hrest
        obtain ⟨rfl, rfl⟩ := hrest
        exact ⟨[], a, v, rounds, by rw [hround, List.nil_append], rfl, rfl⟩

section

variable [LinearOrder ι] {key : α → Option ι} {rounds : List (List α)} {u v : List α} {e : α}
  {i : ι}

/-- Nobody has two turns in a round. -/
theorem Orderly.once (h : Orderly key (u ++ e :: v)) (he : key e = some i) :
    ∀ x ∈ v, key x ≠ some i := by
  intro x hx heq
  have hpair := (List.pairwise_cons.mp (List.pairwise_append.mp h).2.1).1 x hx
  exact lt_irrefl i (hpair i i he heq)

/-- Those before have their turn before. -/
theorem Orderly.lt_of_mem_left (h : Orderly key (u ++ e :: v)) (he : key e = some i) {x : α}
    {j : ι} (hx : x ∈ u) (hj : key x = some j) : j < i :=
  (List.pairwise_append.mp h).2.2 x hx e (List.mem_cons_self ..) j i hj he

theorem Orderly.lt_of_mem_right (h : Orderly key (u ++ e :: v)) (he : key e = some i) {x : α}
    {j : ι} (hx : x ∈ v) (hj : key x = some j) : i < j :=
  (List.pairwise_cons.mp (List.pairwise_append.mp h).2.1).1 x hx i j he hj

/-- **Nobody has two turns while somebody waits.** -/
theorem turn_between (hrounds : ∀ r ∈ rounds, Orderly key r) {j : ι} (hij : i ≠ j)
    (hj : ∀ r ∈ rounds, ∃ z ∈ r, key z = some j) {a b c : List α} {e' : α}
    (h : rounds.flatten = a ++ e :: (b ++ e' :: c)) (he : key e = some i)
    (he' : key e' = some i) : ∃ z ∈ b, key z = some j := by
  obtain ⟨before, u, v, after, rfl, _, ht⟩ := exists_round h
  have horderly := hrounds _ (List.mem_append_right _ (List.mem_cons_self ..))
  obtain ⟨z, hz, hzj⟩ := hj _ (List.mem_append_right _ (List.mem_cons_self ..))
  -- the second turn is in a later round, so the rest of the first one lies between
  rw [List.append_eq_append_iff] at ht
  obtain ⟨w, hv, hw⟩ : ∃ w, b = v ++ w ∧ after.flatten = w ++ e' :: c := by
    rcases ht with ⟨rest, hv, hrest⟩ | ⟨rest, hb, hrest⟩
    · cases rest with
      | nil => exact ⟨[], by rw [hv, List.append_nil, List.append_nil], hrest.symm⟩
      | cons x rest =>
        rw [List.cons_append, List.cons.injEq] at hrest
        obtain ⟨rfl, _⟩ := hrest
        have hin : e' ∈ v := by
          rw [hv]
          exact List.mem_append_right _ (List.mem_cons_self ..)
        exact absurd he' (horderly.once he e' hin)
    · exact ⟨rest, hb, hrest⟩
  rcases lt_or_gt_of_ne hij with hlt | hgt
  · -- the one who waits comes later in the round
    rcases List.mem_append.mp hz with hu | hz
    · exact absurd (horderly.lt_of_mem_left he hu hzj) (not_lt_of_gt hlt)
    · rcases List.mem_cons.mp hz with rfl | hz
      · rw [he, Option.some.injEq] at hzj
        exact absurd hzj hij
      · exact ⟨z, hv ▸ List.mem_append_left _ hz, hzj⟩
  · -- or earlier, and then in the round of the second turn
    obtain ⟨before', u', v', after', rfl, rfl, _⟩ := exists_round hw
    have hin : u' ++ e' :: v' ∈
        before ++ (u ++ e :: v) :: (before' ++ (u' ++ e' :: v') :: after') :=
      List.mem_append_right _ (List.mem_cons_of_mem _
        (List.mem_append_right _ (List.mem_cons_self ..)))
    have horderly' := hrounds _ hin
    obtain ⟨z', hz', hzj'⟩ := hj _ hin
    rcases List.mem_append.mp hz' with hu | hz'
    · refine ⟨z', ?_, hzj'⟩
      rw [hv]
      exact List.mem_append_right _ (List.mem_append_right _ hu)
    · rcases List.mem_cons.mp hz' with rfl | hz'
      · rw [he', Option.some.injEq] at hzj'
        exact absurd hzj' hij
      · exact absurd (horderly'.lt_of_mem_right he' hz' hzj') (not_lt_of_gt hgt)

end

end SocialNetwork.Lib
