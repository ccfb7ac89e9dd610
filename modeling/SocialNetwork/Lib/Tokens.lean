import SocialNetwork.Lib.Decimal

/-!
# The words of a text, and what a stream extracts

`tokens` are the words of a text without reference to streams: what stands between its
white space. `IStream.left` are the words a stream still has to give, none once it has
ended or failed. Extractions take them one by one: `ss >> s` takes the first
(`word_fst`, `word_left`), a loop of extractions all of them (`words_eq`), and `ss >> n`
reads the number at the start of the first (`int_fst`).
-/

namespace SocialNetwork.Lib

/-- The words of a text. -/
def tokens (t : Text) : List Text := (t.splitOnP isSpace).filter (!·.isEmpty)

@[simp] theorem tokens_nil : tokens [] = [] := rfl

theorem tokens_space_cons {b : UInt8} (h : isSpace b = true) (t : Text) :
    tokens (b :: t) = tokens t := by
  unfold tokens
  rw [List.splitOnP_cons_eq_if_modifyHead, if_pos h]
  rfl

/-- White space in front does not count. -/
theorem tokens_dropWhile : ∀ t : Text, tokens (t.dropWhile isSpace) = tokens t
  | [] => rfl
  | b :: t => by
    rw [List.dropWhile_cons]
    split
    next hb => rw [tokens_dropWhile t, tokens_space_cons hb]
    next => rfl

/-- A word in front is the first one. -/
theorem tokens_append {w rest : Text} (hne : w ≠ []) (hw : ∀ b ∈ w, isSpace b = false)
    (hrest : ∀ b ∈ rest.head?, isSpace b = true) : tokens (w ++ rest) = w :: tokens rest := by
  have hkeep : ∀ l : List Text, (w :: l).filter (!·.isEmpty) = w :: l.filter (!·.isEmpty) := by
    intro l
    exact List.filter_cons_of_pos (by simpa using hne)
  cases rest with
  | nil =>
    unfold tokens
    rw [List.append_nil, List.splitOnP_eq_singleton hw, hkeep]
    rfl
  | cons b rest =>
    have hb := hrest b rfl
    rw [tokens_space_cons hb]
    unfold tokens
    rw [List.splitOnP_append_cons_of_forall_mem hw b hb, hkeep]

/-- A text without white space is one word. -/
theorem tokens_word {w : Text} (hne : w ≠ []) (hw : ∀ b ∈ w, isSpace b = false) :
    tokens w = [w] := by
  have h := @tokens_append w [] hne hw (by simp)
  rwa [List.append_nil] at h

/-- A word before a blank is the first one. -/
theorem tokens_blank {w : Text} (rest : Text) (hne : w ≠ []) (hw : ∀ b ∈ w, isSpace b = false) :
    tokens (w ++ 32 :: rest) = w :: tokens rest := by
  rw [tokens_append hne hw (by intro b hb; cases hb; rfl), tokens_space_cons rfl]

/-- White space separates words. -/
theorem tokens_append_cons (a b : Text) {c : UInt8} (hc : isSpace c = true) :
    tokens (a ++ c :: b) = tokens a ++ tokens b := by
  unfold tokens
  rw [List.splitOnP_append_cons _ _ hc, List.filter_append]

/-- The first word and the others. -/
theorem tokens_of_dropWhile {t rest : Text} {b : UInt8} (h : t.dropWhile isSpace = b :: rest) :
    tokens t = (b :: rest).takeWhile (!isSpace ·) ::
      tokens ((b :: rest).dropWhile (!isSpace ·)) := by
  have hb : isSpace b = false := by
    have hhead := List.head?_dropWhile_not isSpace t
    rw [h] at hhead
    exact hhead
  have hne : (b :: rest).takeWhile (!isSpace ·) ≠ [] := by
    rw [List.takeWhile_cons_of_pos (by rw [hb]; rfl)]
    exact List.cons_ne_nil _ _
  rw [← tokens_dropWhile, h, ← tokens_append hne, List.takeWhile_append_dropWhile]
  · intro a ha
    have := List.mem_takeWhile_imp ha
    rwa [Bool.not_eq_true'] at this
  · intro a ha
    have := List.head?_dropWhile_not (!isSpace ·) (b :: rest)
    rw [ha] at this
    simpa using this

theorem tokens_intText (n : Int) : tokens (intText n) = [intText n] := by
  refine tokens_word ?_ fun b hb => ?_
  · obtain ⟨b, ds, heq, _⟩ := intText_cons n
    rw [heq]
    exact List.cons_ne_nil _ _
  · rw [← Bool.not_eq_true]
    intro hspace
    rcases mem_intText hb with rfl | hdigit
    · cases hspace
    · rw [isSpace_of_isDigit hdigit] at hspace
      cases hspace

/-- Each word takes at least one byte. -/
theorem length_tokens_le (t : Text) : (tokens t).length ≤ t.length := by
  induction h : t.length using Nat.strong_induction_on generalizing t with
  | _ n ih =>
    subst h
    rw [← tokens_dropWhile]
    cases hdrop : t.dropWhile isSpace with
    | nil => exact Nat.zero_le _
    | cons b rest =>
      have hle := List.length_dropWhile_le isSpace t
      have hb : isSpace b = false := by
        have hhead := List.head?_dropWhile_not isSpace t
        rw [hdrop] at hhead
        exact hhead
      have hless : ((b :: rest).dropWhile (!isSpace ·)).length ≤ rest.length := by
        rw [List.dropWhile_cons_of_pos (by rw [hb]; rfl)]
        exact List.length_dropWhile_le _ _
      rw [hdrop, List.length_cons] at hle
      rw [← hdrop, tokens_dropWhile, tokens_of_dropWhile hdrop, List.length_cons]
      have := ih ((b :: rest).dropWhile (!isSpace ·)).length (by omega) _ rfl
      omega

/-! ## Extraction -/

/-- The number `num_get` makes of a word: the digits after an optional sign, 0 without
digits, the nearest limit if they are too many. -/
def numberOf (w : Text) : Int :=
  let (negative, rest) := IStream.sign w
  (IStream.intValue negative (rest.takeWhile isDigit)).1

namespace IStream

/-- The words a stream still has to give. -/
def left (ss : IStream) : List Text := if ss.good then tokens ss.rest else []

@[simp] theorem left_ofText (t : Text) : (ofText t).left = tokens t := rfl

/-- A refused extraction leaves nothing. -/
theorem failed_left (ss : IStream) : ss.failed.left = [] ∧ ss.failed.fail = true := by
  unfold failed
  split
  next => exact ⟨rfl, rfl⟩
  next hgood =>
    refine ⟨?_, rfl⟩
    unfold left good
    rw [if_neg (by simp)]

/-- The sentry refuses exactly when no word is left. -/
theorem sentry_cases (ss : IStream) :
    (ss.sentry = none ∧ ss.left = []) ∨
      ∃ b t, ss.sentry = some (b :: t) ∧ isSpace b = false ∧
        ss.left = (b :: t).takeWhile (!isSpace ·) :: tokens ((b :: t).dropWhile (!isSpace ·)) := by
  unfold sentry left
  split
  next =>
    cases hdrop : ss.rest.dropWhile isSpace with
    | nil =>
      left
      rw [← tokens_dropWhile, hdrop]
      exact ⟨rfl, rfl⟩
    | cons b t =>
      right
      have hhead := List.head?_dropWhile_not isSpace ss.rest
      rw [hdrop] at hhead
      exact ⟨b, t, rfl, hhead, tokens_of_dropWhile hdrop⟩
  next => exact Or.inl ⟨rfl, rfl⟩

/-- What is left after the bytes `rest` were left unread. -/
theorem left_mk (rest : Text) : (mk rest rest.isEmpty false).left = tokens rest := by
  unfold left good
  cases rest with
  | nil => rfl
  | cons b rest => rfl

/-- **`ss >> s` takes the first word**, and leaves `s` alone if there is none. -/
theorem word_fst (ss : IStream) (old : Text) : (ss.word old).1 = ss.left.headD old := by
  unfold word
  rcases ss.sentry_cases with ⟨hnone, hleft⟩ | ⟨b, t, hsome, _, hleft⟩
  · rw [hnone, hleft]
    rfl
  · rw [hsome, hleft]
    rfl

theorem word_left (ss : IStream) (old : Text) : (ss.word old).2.left = ss.left.tail := by
  unfold word
  rcases ss.sentry_cases with ⟨hnone, hleft⟩ | ⟨b, t, hsome, _, hleft⟩
  · rw [hnone, hleft]
    exact ss.failed_left.1
  · rw [hsome, hleft]
    exact left_mk _

theorem word_fail (ss : IStream) (old : Text) : (ss.word old).2.fail = ss.left.isEmpty := by
  unfold word
  rcases ss.sentry_cases with ⟨hnone, hleft⟩ | ⟨b, t, hsome, _, hleft⟩
  · rw [hnone, hleft]
    exact ss.failed_left.2
  · rw [hsome, hleft]
    rfl

/-- The first extraction from a text with a first word. -/
theorem word_ofText {t w : Text} {ws : List Text} (h : tokens t = w :: ws) :
    ∃ ss, (ofText t).word [] = (w, ss) ∧ ss.left = ws := by
  refine ⟨((ofText t).word []).2, Prod.ext ?_ rfl, ?_⟩
  · rw [word_fst, left_ofText, h]
    rfl
  · rw [word_left, left_ofText, h]
    rfl

theorem wordsFuel_eq {fuel : Nat} {ss : IStream} (h : ss.left.length < fuel) :
    wordsFuel fuel ss = ss.left := by
  induction fuel generalizing ss with
  | zero => omega
  | succ fuel ih =>
    rw [wordsFuel]
    dsimp only
    rw [word_fail, word_fst]
    cases hleft : ss.left with
    | nil => rfl
    | cons w ws =>
      have htail : (ss.word []).2.left = ws := by rw [word_left, hleft]; rfl
      rw [if_neg (by simp), ih, htail]
      · rfl
      · rw [htail]
        rw [hleft, List.length_cons] at h
        omega

/-- **A loop of extractions takes all words.** -/
theorem words_eq (ss : IStream) : ss.words = ss.left := by
  refine wordsFuel_eq (Nat.lt_succ_of_le ?_)
  unfold left
  split
  · exact length_tokens_le _
  · exact Nat.zero_le _

/-- A number ends with the word it starts. -/
theorem numberOf_append {w rest : Text} (hne : w ≠ [])
    (hrest : ∀ b ∈ rest.head?, isSpace b = true) :
    numberOf (w ++ rest) = numberOf w := by
  have hdigits : ∀ ds : Text, (ds ++ rest).takeWhile isDigit = ds.takeWhile isDigit := by
    intro ds
    induction ds with
    | nil =>
      cases rest with
      | nil => rfl
      | cons b rest =>
        have hb := hrest b rfl
        have hnot : isDigit b = false := by
          unfold isSpace at hb
          unfold isDigit
          rw [Bool.or_eq_true, beq_iff_eq, Bool.and_eq_true, decide_eq_true_eq,
            decide_eq_true_eq] at hb
          rw [Bool.and_eq_false_iff, decide_eq_false_iff_not, decide_eq_false_iff_not]
          rcases hb with rfl | hb
          · exact Or.inl (by decide)
          · omega
        exact List.takeWhile_cons_of_neg (by simp [hnot])
    | cons d ds ih =>
      rw [List.cons_append, List.takeWhile_cons, List.takeWhile_cons, ih]
  have hsign : sign (w ++ rest) = ((sign w).1, (sign w).2 ++ rest) := by
    cases w with
    | nil => exact (hne rfl).elim
    | cons b w =>
      rw [List.cons_append]
      unfold sign
      split
      next heq =>
        cases heq
        rfl
      next heq =>
        cases heq
        rfl
      next h45 h43 =>
        split
        next heq =>
          cases heq
          exact (h45 _ rfl).elim
        next heq =>
          cases heq
          exact (h43 _ rfl).elim
        next => rfl
  unfold numberOf
  rw [hsign]
  dsimp only
  rw [hdigits]

/-- **`ss >> n` reads the number at the start of the first word**, and leaves `n` alone if
there is none. -/
theorem int_fst (ss : IStream) (old : Int) : (ss.int old).1 = (ss.left.map numberOf).headD old := by
  unfold int
  rcases ss.sentry_cases with ⟨hnone, hleft⟩ | ⟨b, t, hsome, hb, hleft⟩
  · rw [hnone, hleft]
    rfl
  · rw [hsome, hleft, List.map_cons, List.headD_cons]
    have hne : (b :: t).takeWhile (!isSpace ·) ≠ [] := by
      rw [List.takeWhile_cons_of_pos (by rw [hb]; rfl)]
      exact List.cons_ne_nil _ _
    rw [← @numberOf_append _ ((b :: t).dropWhile (!isSpace ·)) hne,
      List.takeWhile_append_dropWhile]
    · rfl
    · intro a ha
      have := List.head?_dropWhile_not (!isSpace ·) (b :: t)
      rw [ha] at this
      simpa using this

/-- A printed number is what a stream reads. -/
theorem numberOf_intText {n : Int} (h : intMin ≤ n ∧ n ≤ intMax) : numberOf (intText n) = n := by
  have hint := int_intText h [] (by intro b hb; cases hb) 0
  have hleft : (mk (32 :: intText n) false false).left = [intText n] := by
    rw [← tokens_intText, ← tokens_space_cons (by decide : isSpace 32 = true)]
    exact left_mk _
  have hfst := int_fst (mk (32 :: intText n) false false) 0
  rw [List.append_nil] at hint
  rw [hint, hleft] at hfst
  exact hfst.symm

end IStream

end SocialNetwork.Lib
