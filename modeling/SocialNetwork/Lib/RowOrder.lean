import Mathlib.Data.List.Sort
import Mathlib.Data.Set.Image

/-!
# Rows in an order the engine leaves unspecified

SQL returns the rows of an unordered query in whatever order the engine likes,
and the rows of an ordered one in some order compatible with the sort key. A
`Shuffle` is one such choice, as a list of insertion positions: `arrange` puts
the first row at position `σ 0` of the arrangement of the rest. Every shuffle
yields a permutation (`arrange_perm`) and every permutation is the work of some
shuffle (`exists_arrange`), so quantifying over shuffles is quantifying over the
engine's freedom. `orderBy` sorts stably *after* a shuffle, which leaves exactly
the order of equal keys open.
-/

namespace SocialNetwork.Lib

variable {α β : Type}

/-- One choice of row order: the position each row is inserted at. -/
abbrev Shuffle := Nat → Nat

/-- Insert `a` at position `k`, or at the end if the list is shorter. -/
def insertAt (k : Nat) (a : α) (l : List α) : List α := l.take k ++ a :: l.drop k

theorem insertAt_perm (k : Nat) (a : α) (l : List α) : (insertAt k a l).Perm (a :: l) := by
  unfold insertAt
  refine List.perm_middle.trans ?_
  rw [List.take_append_drop]

/-- The rows `l` in the order `σ` chooses. -/
def arrange : Shuffle → List α → List α
  | _, [] => []
  | σ, a :: l => insertAt (σ 0) a (arrange (fun n => σ (n + 1)) l)

/-- An arrangement neither drops, adds nor repeats a row. -/
theorem arrange_perm : ∀ (σ : Shuffle) (l : List α), (arrange σ l).Perm l
  | _, [] => List.Perm.refl _
  | _, a :: l => (insertAt_perm _ a _).trans ((arrange_perm _ l).cons a)

@[simp] theorem mem_arrange {σ : Shuffle} {l : List α} {a : α} : a ∈ arrange σ l ↔ a ∈ l :=
  (arrange_perm σ l).mem_iff

@[simp] theorem arrange_eq_nil {σ : Shuffle} {l : List α} : arrange σ l = [] ↔ l = [] := by
  rw [← List.length_eq_zero_iff, (arrange_perm σ l).length_eq, List.length_eq_zero_iff]

/-- Every permutation of the rows is some shuffle's arrangement of them. -/
theorem exists_arrange : ∀ {l l' : List α}, l.Perm l' → ∃ σ, arrange σ l = l'
  | [], l', h => ⟨fun _ => 0, by rw [List.nil_perm.mp h]; rfl⟩
  | a :: l, l', h => by
    have hmem : a ∈ l' := h.subset (List.mem_cons_self ..)
    obtain ⟨s, t, rfl⟩ := List.append_of_mem hmem
    -- the first choice is the place of `a` in `l'`, the others arrange the rest
    have hrest : l.Perm (s ++ t) := (h.trans List.perm_middle).cons_inv
    obtain ⟨σ, hσ⟩ := exists_arrange hrest
    refine ⟨fun n => n.casesOn s.length σ, ?_⟩
    show insertAt s.length a (arrange σ l) = s ++ a :: t
    rw [hσ, insertAt, List.take_left, List.drop_left]

/-- Permuted rows admit the same arrangements. -/
theorem exists_arrange_eq {l l' : List α} (h : l.Perm l') (σ : Shuffle) :
    ∃ σ', arrange σ' l' = arrange σ l :=
  exists_arrange (h.symm.trans (arrange_perm σ l).symm)

/-- A shuffle only looks at positions, so it commutes with a row function. -/
theorem arrange_map (f : α → β) : ∀ (σ : Shuffle) (l : List α),
    arrange σ (l.map f) = (arrange σ l).map f
  | _, [] => rfl
  | σ, a :: l => by
    show insertAt (σ 0) (f a) (arrange _ (l.map f)) = (insertAt (σ 0) a (arrange _ l)).map f
    rw [arrange_map f _ l]
    simp only [insertAt, List.map_append, List.map_cons, List.map_take, List.map_drop]

/-- `ORDER BY`: sort by a key comparison, keeping equal keys in the given order. -/
def orderBy (le : α → α → Bool) (l : List α) : List α := l.insertionSort fun a b => le a b = true

theorem orderBy_perm (le : α → α → Bool) (l : List α) : (orderBy le l).Perm l :=
  List.perm_insertionSort _ l

@[simp] theorem mem_orderBy {le : α → α → Bool} {l : List α} {a : α} :
    a ∈ orderBy le l ↔ a ∈ l :=
  (orderBy_perm le l).mem_iff

/-- Sorting commutes with a row function that keeps the key. -/
theorem orderBy_map (f : α → β) {le : α → α → Bool} {le' : β → β → Bool}
    (h : ∀ a b, le' (f a) (f b) = le a b) (l : List α) :
    orderBy le' (l.map f) = (orderBy le l).map f := by
  unfold orderBy
  rw [List.map_insertionSort (r := fun a b => le a b = true) (s := fun a b => le' a b = true)]
  intro a _ b _
  rw [h]

/-! ## What a sort leaves open -/

section

variable {le : α → α → Bool} {l l' : List α} {f : α → β}

theorem orderBy_pairwise (total : ∀ a b, le a b = true ∨ le b a = true)
    (trans : ∀ a b c, le a b = true → le b c = true → le a c = true) (l : List α) :
    (orderBy le l).Pairwise fun a b => le a b = true := by
  have : Std.Total fun a b => le a b = true := ⟨total⟩
  have : IsTrans α fun a b => le a b = true := ⟨trans⟩
  exact List.pairwise_insertionSort _ l

/-- Rows in order stay as they are. -/
theorem orderBy_of_pairwise (h : l.Pairwise fun a b => le a b = true) : orderBy le l = l :=
  h.insertionSort_eq

/-- Two ordered lists of the same rows look the same if equal keys do. -/
theorem map_eq_of_ties (h : l.Pairwise fun a b => le a b = true)
    (h' : l'.Pairwise fun a b => le a b = true) (hp : l.Perm l')
    (hties : ∀ a ∈ l, ∀ b ∈ l, le a b = true → le b a = true → f a = f b) :
    l.map f = l'.map f := by
  induction l generalizing l' with
  | nil => rw [List.nil_perm.mp hp]
  | cons a l ih =>
    obtain ⟨p, q, rfl⟩ := List.append_of_mem (hp.subset (List.mem_cons_self ..))
    rw [List.pairwise_cons] at h
    rw [List.pairwise_append] at h'
    -- what comes before `a` in the other list has its key
    have hp' : ∀ x ∈ p, f x = f a := by
      intro x hx
      rcases List.mem_cons.mp (hp.symm.subset (List.mem_append_left _ hx)) with rfl | hxl
      · rfl
      · exact hties x (List.mem_cons_of_mem _ hxl) a (List.mem_cons_self ..)
          (h'.2.2 x hx a (List.mem_cons_self ..)) (h.1 x hxl)
    have hrest : (p ++ q).Pairwise fun a b => le a b = true :=
      List.pairwise_append.mpr ⟨h'.1, (List.pairwise_cons.mp h'.2.1).2,
        fun x hx y hy => h'.2.2 x hx y (List.mem_cons_of_mem _ hy)⟩
    have htail := ih h.2 hrest (hp.trans List.perm_middle).cons_inv fun x hx y hy =>
      hties x (List.mem_cons_of_mem _ hx) y (List.mem_cons_of_mem _ hy)
    have hfront : p.map f = List.replicate p.length (f a) := List.map_eq_replicate_iff.mpr hp'
    calc (a :: l).map f = f a :: (p.map f ++ q.map f) := by
          rw [List.map_cons, htail, List.map_append]
      _ = p.map f ++ f a :: q.map f := by
        rw [hfront, ← List.cons_append, ← List.replicate_succ, List.replicate_succ',
          List.append_assoc, List.singleton_append]
      _ = (p ++ a :: q).map f := by rw [List.map_append, List.map_cons]

/-- Two rows with the same key may change places. -/
theorem pairwise_swap (trans : ∀ a b c, le a b = true → le b c = true → le a c = true)
    {s t u : List α} {a b : α}
    (h : (s ++ a :: (t ++ b :: u)).Pairwise fun a b => le a b = true) (hba : le b a = true) :
    (s ++ b :: (t ++ a :: u)).Pairwise fun a b => le a b = true := by
  simp only [List.pairwise_append, List.pairwise_cons, List.mem_append, List.mem_cons] at h ⊢
  obtain ⟨hs, ⟨ha, ht, ⟨hb, hu⟩, htb⟩, hsr⟩ := h
  refine ⟨hs, ⟨?_, ht, ⟨fun x hx => ha x (Or.inr (Or.inr hx)), hu⟩, ?_⟩, ?_⟩
  · rintro x (hx | rfl | hx)
    · exact trans _ _ _ hba (ha x (Or.inl hx))
    · exact hba
    · exact hb x hx
  · rintro x hx y (rfl | hy)
    · exact trans _ _ _ (htb x hx b (Or.inl rfl)) hba
    · exact htb x hx y (Or.inr hy)
  · rintro x hx y (rfl | hy | rfl | hy)
    · exact hsr x hx y (Or.inr (Or.inr (Or.inl rfl)))
    · exact hsr x hx y (Or.inr (Or.inl hy))
    · exact hsr x hx y (Or.inl rfl)
    · exact hsr x hx y (Or.inr (Or.inr (Or.inr hy)))

/-- **What `ORDER BY` promises**: rows that are in order already come back as they are, for
every order the engine may choose, exactly if rows with the same key look the same. -/
theorem orderBy_map_eq_iff (total : ∀ a b, le a b = true ∨ le b a = true)
    (trans : ∀ a b c, le a b = true → le b c = true → le a c = true)
    (h : l.Pairwise fun a b => le a b = true) (hp : l'.Perm l) (f : α → β) :
    (∀ σ, (orderBy le (arrange σ l')).map f = l.map f) ↔
      ∀ a ∈ l, ∀ b ∈ l, le a b = true → le b a = true → f a = f b := by
  constructor
  · intro hall
    -- swapping two ties is one of the answers
    have hswap : ∀ s a t b u, l = s ++ a :: (t ++ b :: u) → le b a = true → f a = f b := by
      rintro s a t b u rfl hba
      have hperm : (s ++ a :: (t ++ b :: u)).Perm (s ++ b :: (t ++ a :: u)) := by
        refine List.Perm.append_left s ?_
        exact (List.perm_middle.cons a).trans
          ((List.Perm.swap b a _).trans (List.perm_middle.symm.cons b))
      obtain ⟨σ, hσ⟩ := exists_arrange (hp.trans hperm)
      have heq := hall σ
      have hsorted := pairwise_swap trans h hba
      rw [hσ, orderBy_of_pairwise hsorted] at heq
      simp only [List.map_append, List.map_cons, List.append_cancel_left_eq, List.cons.injEq] at heq
      exact heq.1.symm
    intro a ha b hb hab hba
    obtain ⟨s, r, hl⟩ := List.append_of_mem ha
    rw [hl] at hb
    rcases List.mem_append.mp hb with hb | hb
    · obtain ⟨s, t, rfl⟩ := List.append_of_mem hb
      exact (hswap s b t a r (by rw [hl, List.append_assoc, List.cons_append]) hab).symm
    · rcases List.mem_cons.mp hb with rfl | hb
      · rfl
      · obtain ⟨t, u, rfl⟩ := List.append_of_mem hb
        exact hswap s a t b u hl hba
  · intro hties σ
    have hsame := ((orderBy_perm le (arrange σ l')).trans (arrange_perm σ l')).trans hp
    exact (map_eq_of_ties h (orderBy_pairwise total trans _) hsame.symm hties).symm

end

/-! ## The answers of a query -/

/-- The answers a query may give in a state, by the choices it does not control. -/
def answers {ω σ : Type} (query : ω → σ → β) (s : σ) : Set β := Set.range fun o => query o s

/-- A state that can match every answer of another has all its answers. -/
theorem answers_subset {ω σ : Type} {query : ω → σ → β} {s s' : σ}
    (h : ∀ o, ∃ o', query o' s' = query o s) : answers query s ⊆ answers query s' := by
  intro reply hreply
  obtain ⟨o, rfl⟩ := hreply
  obtain ⟨o', ho'⟩ := h o
  exact ⟨o', ho'⟩

end SocialNetwork.Lib
