import Mathlib.Data.List.Forall2
import Mathlib.Data.List.Infix
import Mathlib.Tactic.ByContra
import SocialNetwork.Lib.Stream

/-!
# Terminated lines in a stream

`unlines x ls` is the stream that carries the lines `ls`, each followed by the terminator
`x`. Splitting it at the terminators gives the lines back (`splitOn_unlines`), and so does
`getline` (`lines_unlines`). A text without terminator that occurs in the stream occurs in one
of the lines (`infix_unlines_iff`).

A receiver without a line buffer sees the stream cut into chunks and takes each chunk for
a line, less what `p` calls line ends at its tail. `chunks_eq_of_trimmed` says when it gets
the lines all the same: only if every chunk is one line with its terminator.
-/

namespace SocialNetwork.Lib

variable {α : Type}

/-- The lines, each followed by the terminator. -/
def unlines (x : α) (ls : List (List α)) : List α := ls.flatMap (· ++ [x])

@[simp] theorem unlines_nil (x : α) : unlines x [] = [] := rfl

@[simp] theorem unlines_cons (x : α) (l : List α) (ls : List (List α)) :
    unlines x (l :: ls) = l ++ x :: unlines x ls := by
  unfold unlines
  rw [List.flatMap_cons, List.append_assoc]
  rfl

/-- **Lines without terminators inside are found again.** The empty list at the end is
what follows the last terminator. -/
theorem splitOn_unlines [BEq α] [LawfulBEq α] {x : α} {ls : List (List α)}
    (h : ∀ l ∈ ls, x ∉ l) : (unlines x ls).splitOn x = ls ++ [[]] := by
  induction ls with
  | nil => exact List.splitOn_nil x
  | cons l ls ih =>
    rw [unlines_cons, List.splitOn_append_cons_self_of_not_mem (h l (List.mem_cons_self ..)),
      ih fun l' hl' => h l' (List.mem_cons_of_mem _ hl')]
    rfl

/-! ## Texts in a stream of lines -/

/-- A text without the separator lies on one side of it. -/
theorem infix_append_cons_iff {x : α} {w l r : List α} (hx : x ∉ w) :
    w <:+: l ++ x :: r ↔ w <:+: l ∨ w <:+: r := by
  -- what starts at the separator is empty or has it inside
  have hstop : ∀ {w' : List α}, x ∉ w' → w' <+: x :: r → w' = [] := by
    intro w' hx' hpre
    rcases List.prefix_cons_iff.mp hpre with hnil | ⟨t, rfl, _⟩
    · exact hnil
    · exact (hx' (List.mem_cons_self ..)).elim
  rw [List.infix_append_iff, List.infix_cons_iff]
  constructor
  · rintro (hl | (hpre | hr) | ⟨u, v, rfl, hu, hv⟩)
    · exact Or.inl hl
    · rw [hstop hx hpre]
      exact Or.inl (List.nil_infix ..)
    · exact Or.inr hr
    · rw [hstop (fun hin => hx (List.mem_append_right _ hin)) hv, List.append_nil]
      exact Or.inl hu.isInfix
  · rintro (hl | hr)
    · exact Or.inl hl
    · exact Or.inr (Or.inl (Or.inr hr))

/-- A text without the terminator lies in one of the lines. -/
theorem infix_unlines_iff {x : α} {w : List α} (hne : w ≠ []) (hx : x ∉ w) {ls : List (List α)} :
    w <:+: unlines x ls ↔ ∃ l ∈ ls, w <:+: l := by
  induction ls with
  | nil => simpa using hne
  | cons l ls ih => rw [unlines_cons, infix_append_cons_iff hx, ih, List.exists_mem_cons_iff]

/-- What a joined text is made of. -/
theorem mem_intercalate {sep : List α} {a : α} {ts : List (List α)} (h : a ∈ sep.intercalate ts) :
    a ∈ sep ∨ ∃ t ∈ ts, a ∈ t := by
  induction ts with
  | nil => cases h
  | cons t ts ih =>
    cases ts with
    | nil =>
      rw [List.intercalate_singleton] at h
      exact Or.inr ⟨t, List.mem_cons_self .., h⟩
    | cons t' ts =>
      rw [List.intercalate_cons_cons, List.mem_append, List.mem_append] at h
      rcases h with (h | h) | h
      · exact Or.inr ⟨t, List.mem_cons_self .., h⟩
      · exact Or.inl h
      · refine (ih h).imp_right ?_
        rintro ⟨t'', ht'', hin⟩
        exact ⟨t'', List.mem_cons_of_mem _ ht'', hin⟩

/-- `find` finds what occurs. -/
theorem contains_iff {a t : Text} : contains a t = true ↔ a <:+: t := by
  unfold contains
  rw [List.any_eq_true]
  constructor
  · rintro ⟨u, hu, hpre⟩
    exact (List.isPrefixOf_iff_prefix.mp hpre).isInfix.trans ((List.mem_tails _ _).mp hu).isInfix
  · intro h
    obtain ⟨u, hpre, hsuf⟩ := List.infix_iff_prefix_suffix.mp h
    exact ⟨u, (List.mem_tails _ _).mpr hsuf, List.isPrefixOf_iff_prefix.mpr hpre⟩

theorem lines_of_not_mem {l : Text} (h : 10 ∉ l) (hne : l ≠ []) : lines l = [l] := by
  induction l with
  | nil => exact (hne rfl).elim
  | cons b l ih =>
    rw [List.mem_cons, not_or] at h
    rw [lines, if_neg (Ne.symm h.1)]
    cases l with
    | nil => rfl
    | cons c l => rw [ih h.2 (List.cons_ne_nil _ _)]

theorem lines_append_cons {l : Text} (rest : Text) (h : 10 ∉ l) :
    lines (l ++ 10 :: rest) = l :: lines rest := by
  induction l with
  | nil => rfl
  | cons b l ih =>
    rw [List.mem_cons, not_or] at h
    rw [List.cons_append, lines, if_neg (Ne.symm h.1), ih h.2]

theorem lines_eq_nil {t : Text} : lines t = [] ↔ t = [] := by
  cases t with
  | nil => simp [lines]
  | cons b t =>
    rw [lines]
    split
    · simp
    · split <;> simp

/-- **The first line of a text**, with its terminator or at the end. -/
theorem lines_eq_cons {t l : Text} {ls : List Text} (h : lines t = l :: ls) :
    10 ∉ l ∧ ((t = l ∧ l ≠ [] ∧ ls = []) ∨ ∃ rest, t = l ++ 10 :: rest ∧ lines rest = ls) := by
  induction t generalizing l with
  | nil => cases h
  | cons b t ih =>
    rw [lines] at h
    split at h
    next hb =>
      rw [List.cons.injEq] at h
      obtain ⟨rfl, hls⟩ := h
      exact ⟨by simp, Or.inr ⟨t, by rw [hb]; rfl, hls⟩⟩
    next hb =>
      split at h
      next hnil =>
        rw [List.cons.injEq] at h
        obtain ⟨rfl, rfl⟩ := h
        obtain rfl := lines_eq_nil.mp hnil
        exact ⟨by simpa using Ne.symm hb, Or.inl ⟨rfl, by simp, rfl⟩⟩
      next line more hline =>
        rw [List.cons.injEq] at h
        obtain ⟨rfl, rfl⟩ := h
        obtain ⟨hnot, hcases⟩ := ih hline
        refine ⟨by simp [Ne.symm hb, hnot], ?_⟩
        rcases hcases with ⟨rfl, _, hls⟩ | ⟨rest, rfl, hls⟩
        · exact Or.inl ⟨rfl, by simp, hls⟩
        · exact Or.inr ⟨rest, rfl, hls⟩

/-- `getline` finds the lines in front of a text again. -/
theorem lines_unlines_append {ls : List Text} (t : Text) (h : ∀ l ∈ ls, 10 ∉ l) :
    lines (unlines 10 ls ++ t) = ls ++ lines t := by
  induction ls with
  | nil => rfl
  | cons l ls ih =>
    rw [unlines_cons, List.append_assoc, List.cons_append,
      lines_append_cons _ (h l (List.mem_cons_self ..)),
      ih fun l' hl' => h l' (List.mem_cons_of_mem _ hl')]
    rfl

/-- **`getline` finds the lines again.** -/
theorem lines_unlines {ls : List Text} (h : ∀ l ∈ ls, 10 ∉ l) : lines (unlines 10 ls) = ls := by
  have hall := lines_unlines_append [] h
  rwa [List.append_nil, lines, List.append_nil] at hall

/-- It finds the lines after a header, if none of them is taken for an empty one. -/
theorem lines_unlines_tail {header : Text} {ls : List Text} (hheader : 10 ∉ header)
    (hls : ∀ l ∈ ls, l ≠ [] ∧ 10 ∉ l) :
    (lines (unlines 10 (header :: ls))).tail.filter (!·.isEmpty) = ls := by
  rw [lines_unlines, List.tail_cons, List.filter_eq_self]
  · intro l hl
    rw [List.isEmpty_eq_false_iff.mpr (hls l hl).1]
    rfl
  · intro l hl
    rcases List.mem_cons.mp hl with rfl | hl
    · exact hheader
    · exact (hls l hl).2

/-- Where a start of a joined list ends. -/
theorem prefix_append_cases {t l r : List α} (h : t <+: l ++ r) :
    t <+: l ∨ ∃ r', r' <+: r ∧ t = l ++ r' := by
  rcases List.prefix_or_prefix_of_prefix h (List.prefix_append l r) with ht | ⟨r', rfl⟩
  · exact Or.inl ht
  · exact Or.inr ⟨r', (List.prefix_append_right_inj l).mp h, rfl⟩

/-- **A stream that is cut** has some lines whole, and perhaps the start of the next. -/
theorem prefix_unlines {x : α} {t : List α} {ls : List (List α)} (h : t <+: unlines x ls) :
    ∃ whole part, (∀ l ∈ whole, l ∈ ls) ∧ t = unlines x whole ++ part ∧
      (part = [] ∨ ∃ l ∈ ls, part <+: l) := by
  induction ls generalizing t with
  | nil => exact ⟨[], t, List.forall_mem_nil _, rfl, Or.inl (List.prefix_nil.mp h)⟩
  | cons l ls ih =>
    rw [unlines_cons] at h
    rcases prefix_append_cases h with hl | ⟨r, hr, rfl⟩
    · exact ⟨[], t, List.forall_mem_nil _, rfl, Or.inr ⟨l, List.mem_cons_self .., hl⟩⟩
    · rcases List.prefix_cons_iff.mp hr with rfl | ⟨r, rfl, hrest⟩
      · exact ⟨[], l, List.forall_mem_nil _, List.append_nil l,
          Or.inr ⟨l, List.mem_cons_self .., List.prefix_refl l⟩⟩
      · obtain ⟨whole, part, hwhole, rfl, hpart⟩ := ih hrest
        refine ⟨l :: whole, part, ?_, ?_, ?_⟩
        · exact List.forall_mem_cons.mpr ⟨List.mem_cons_self ..,
            fun l' hl' => List.mem_cons_of_mem _ (hwhole l' hl')⟩
        · rw [unlines_cons, List.append_assoc, List.cons_append]
        · refine hpart.imp_right ?_
          rintro ⟨l', hl', hp⟩
          exact ⟨l', List.mem_cons_of_mem _ hl', hp⟩

/-! ## A stream cut into chunks -/

section

variable {x : α} {p : α → Bool}

/-- A line of which the receiver leaves everything: it has no terminator inside and does
not end in what is taken for a line end. -/
structure Trimmed (x : α) (p : α → Bool) (l : List α) : Prop where
  ne_nil : l ≠ []
  inner : x ∉ l
  last : ∀ a ∈ l.getLast?, p a = false

/-- The chunk is the line followed by line ends. -/
def Carries (p : α → Bool) (c l : List α) : Prop := ∃ t, c = l ++ t ∧ ∀ a ∈ t, p a = true

/-- A shorter start cannot be followed by the terminator inside a longer one. -/
theorem mem_of_append_eq {a l u v : List α} (h : l ++ u = a ++ x :: v)
    (hlen : a.length < l.length) : x ∈ l := by
  rcases List.append_eq_append_iff.mp h with ⟨w, hw, _⟩ | ⟨w, hw, hrest⟩
  · have := congrArg List.length hw
    rw [List.length_append] at this
    omega
  · cases w with
    | nil =>
      rw [hw, List.append_nil] at hlen
      omega
    | cons b w =>
      rw [List.cons_append, List.cons.injEq] at hrest
      rw [hw, hrest.1]
      simp

/-- Line ends in front of a line do not make the same stream as the line. -/
theorem ends_eq_nil {t l u v : List α} (ht : ∀ a ∈ t, p a = true) (hl : Trimmed x p l)
    (h : t ++ (l ++ u) = l ++ x :: v) : t = [] := by
  by_contra hne
  have hpos : 0 < t.length := List.length_pos_iff.mpr hne
  rcases List.append_eq_append_iff.mp h with ⟨a, hla, hrest⟩ | ⟨w, htw, _⟩
  · -- the terminator after the line falls inside the line
    have hlen := congrArg List.length hla
    rw [List.length_append] at hlen
    exact hl.inner (mem_of_append_eq hrest (by omega))
  · -- the line lies within the line ends, and ends in one
    obtain ⟨b, hb⟩ := Option.ne_none_iff_exists'.mp (mt List.getLast?_eq_none_iff.mp hl.ne_nil)
    have hlast := hl.last b hb
    rw [ht b (htw ▸ List.mem_append_left _ (List.mem_of_getLast? hb))] at hlast
    cases hlast

/-- **A receiver that takes chunks for lines gets the lines only if every chunk is one
line with its terminator.** -/
theorem chunks_eq_of_trimmed {cs ls : List (List α)} (hcarry : List.Forall₂ (Carries p) cs ls)
    (hls : ∀ l ∈ ls, Trimmed x p l) (hstream : cs.flatten = unlines x ls) :
    cs = ls.map (· ++ [x]) := by
  induction hcarry with
  | nil => rfl
  | @cons c l cs ls hc hrest ih =>
    obtain ⟨t, rfl, ht⟩ := hc
    have hls' : ∀ l' ∈ ls, Trimmed x p l' := fun l' hl' => hls l' (List.mem_cons_of_mem _ hl')
    rw [List.flatten_cons, unlines_cons, List.append_assoc, List.append_cancel_left_eq] at hstream
    cases t with
    | nil =>
      -- the terminator would be the start of the next line
      cases hrest with
      | nil => cases hstream
      | @cons c' l' cs ls hc' _ =>
        obtain ⟨t', rfl, _⟩ := hc'
        have hl' := hls' l' (List.mem_cons_self ..)
        cases l' with
        | nil => exact absurd rfl hl'.ne_nil
        | cons b l' =>
          simp only [List.nil_append, List.flatten_cons, List.cons_append,
            List.cons.injEq] at hstream
          exact absurd (hstream.1 ▸ List.mem_cons_self ..) hl'.inner
    | cons b t =>
      rw [List.cons_append, List.cons.injEq] at hstream
      obtain ⟨rfl, hstream⟩ := hstream
      have hnil : t = [] := by
        cases hrest with
        | nil => exact (List.append_eq_nil_iff.mp hstream).1
        | @cons c' l' cs ls hc' _ =>
          obtain ⟨t', rfl, _⟩ := hc'
          rw [List.flatten_cons, unlines_cons, List.append_assoc] at hstream
          exact ends_eq_nil (fun a ha => ht a (List.mem_cons_of_mem _ ha))
            (hls' l' (List.mem_cons_self ..)) hstream
      subst hnil
      rw [List.map_cons, ih hls' hstream]

end

end SocialNetwork.Lib
