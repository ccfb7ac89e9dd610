import SocialNetwork.Lib.Stream

/-!
# Words and numbers, printed and read back

A word printed before a blank is the word a stream extracts (`IStream.word_append`), and
an `int` printed by `std::to_string` is the number that `ss >> n` and `std::stoi` read
(`IStream.int_intText`, `stoi_intText`), provided no digit follows it. `std::stoi` throws
exactly on the texts that do not start with a number in range (`stoi_isSome_iff`).
-/

namespace SocialNetwork.Lib

/-! ## Prefixes -/

section

variable {α : Type} {p : α → Bool} {l rest : List α}

/-- Where a run of accepted elements ends. -/
theorem takeWhile_append_stop (hl : ∀ a ∈ l, p a = true) (hrest : ∀ a ∈ rest.head?, p a = false) :
    (l ++ rest).takeWhile p = l := by
  rw [List.takeWhile_append_of_pos hl]
  cases rest with
  | nil => rw [List.takeWhile_nil, List.append_nil]
  | cons a rest =>
    rw [List.takeWhile_cons_of_neg (by simp [hrest a rfl]), List.append_nil]

theorem dropWhile_append_stop (hl : ∀ a ∈ l, p a = true) (hrest : ∀ a ∈ rest.head?, p a = false) :
    (l ++ rest).dropWhile p = rest := by
  rw [List.dropWhile_append_of_pos hl]
  cases rest with
  | nil => rfl
  | cons a rest => rw [List.dropWhile_cons_of_neg (by simp [hrest a rfl])]

end

/-! ## Words -/

/-- A good stream that has more than white space left. -/
theorem IStream.sentry_good {t rest : Text} {b : UInt8} (h : t.dropWhile isSpace = b :: rest) :
    (IStream.mk t false false).sentry = some (b :: rest) := by
  have hgood : (IStream.mk t false false).good = true := rfl
  unfold sentry
  rw [if_pos hgood]
  dsimp only
  rw [h]

/-- **A word printed before a blank is extracted whole**, and the blank stays. -/
theorem IStream.word_append {w : Text} (rest old : Text) (hne : w ≠ [])
    (hspace : w.any isSpace = false) :
    (IStream.ofText (w ++ 32 :: rest)).word old = (w, ⟨32 :: rest, false, false⟩) := by
  have hw : ∀ b ∈ w, isSpace b = false := by
    intro b hb
    rw [← Bool.not_eq_true]
    exact List.any_eq_false.mp hspace b hb
  have hsentry : (IStream.ofText (w ++ 32 :: rest)).sentry = some (w ++ 32 :: rest) := by
    cases w with
    | nil => exact absurd rfl hne
    | cons b w =>
      have hb : isSpace b = false := hw b (List.mem_cons_self ..)
      rw [List.cons_append]
      apply sentry_good
      rw [List.dropWhile_cons_of_neg (by simp [hb])]
  have hstop : ∀ a ∈ (32 :: rest : Text).head?, (!isSpace a) = false := by
    intro a ha
    rw [List.head?_cons, Option.mem_some_iff] at ha
    subst ha
    rfl
  have hword : ∀ b ∈ w, (!isSpace b) = true := by
    intro b hb
    rw [hw b hb]
    rfl
  unfold word
  rw [hsentry]
  simp only [takeWhile_append_stop hword hstop, dropWhile_append_stop hword hstop]
  rfl

/-! ## Digits -/

theorem toUInt8_toNat_of_isDigit {c : Char} (h : c.isDigit = true) :
    c.toUInt8.toNat = c.toNat ∧ 48 ≤ c.toNat ∧ c.toNat ≤ 57 := by
  rw [Char.isDigit, Bool.and_eq_true, decide_eq_true_eq, decide_eq_true_eq] at h
  have hlow : 48 ≤ c.toNat := h.1
  have hhigh : c.toNat ≤ 57 := h.2
  refine ⟨?_, hlow, hhigh⟩
  show c.toNat % 256 = c.toNat
  omega

theorem natText_isDigit (n : Nat) : ∀ b ∈ natText n, isDigit b = true := by
  intro b hb
  obtain ⟨c, hc, rfl⟩ := List.mem_map.mp hb
  have hdigit : c.isDigit = true := Nat.isDigit_of_mem_toDigits (by omega) (by omega) hc
  obtain ⟨heq, hlow, hhigh⟩ := toUInt8_toNat_of_isDigit hdigit
  unfold isDigit
  rw [heq, Bool.and_eq_true, decide_eq_true_eq, decide_eq_true_eq]
  exact ⟨hlow, hhigh⟩

theorem natText_ne_nil (n : Nat) : natText n ≠ [] := by
  unfold natText
  rw [ne_eq, List.map_eq_nil_iff]
  exact Nat.toDigits_ne_nil

/-- **The digits of a number denote it.** -/
theorem digitsValue_natText (n : Nat) : digitsValue (natText n) = n := by
  have hfold : ∀ (cs : List Char) (init : Nat), (∀ c ∈ cs, c.isDigit = true) →
      (cs.map Char.toUInt8).foldl (fun n d => 10 * n + (d.toNat - 48)) init =
        Nat.ofDigitChars 10 cs init := by
    intro cs
    induction cs with
    | nil => intro init _; rw [Nat.ofDigitChars_nil]; rfl
    | cons c cs ih =>
      intro init hcs
      have hc := (toUInt8_toNat_of_isDigit (hcs c (List.mem_cons_self ..))).1
      rw [List.map_cons, List.foldl_cons, ih _ fun d hd => hcs d (List.mem_cons_of_mem _ hd),
        Nat.ofDigitChars_cons, hc]
      rfl
  unfold digitsValue natText
  rw [hfold _ _ fun c hc => Nat.isDigit_of_mem_toDigits (by omega) (by omega) hc,
    Nat.ofDigitChars_ten_toDigits]

/-! ## Integers -/

/-- What follows a number does not continue it. -/
def EndsNumber (rest : Text) : Prop := ∀ b ∈ rest.head?, isDigit b = false

theorem natText_cons (n : Nat) : ∃ b ds, natText n = b :: ds ∧ isDigit b = true := by
  cases h : natText n with
  | nil => exact absurd h (natText_ne_nil n)
  | cons b ds => exact ⟨b, ds, rfl, natText_isDigit n b (h ▸ List.mem_cons_self ..)⟩

theorem isDigit_not_sign {b : UInt8} (h : isDigit b = true) : b ≠ 45 ∧ b ≠ 43 := by
  constructor
  · intro heq
    subst heq
    cases h
  · intro heq
    subst heq
    cases h

/-- The sign and the digits `std::to_string` prints. -/
theorem sign_intText (n : Int) (rest : Text) :
    IStream.sign (intText n ++ rest) = (decide (n < 0), natText n.natAbs ++ rest) := by
  unfold intText
  by_cases hn : n < 0
  · rw [if_pos hn, decide_eq_true hn]
    rfl
  · rw [if_neg hn, decide_eq_false hn]
    obtain ⟨b, ds, heq, hb⟩ := natText_cons n.natAbs
    obtain ⟨h45, h43⟩ := isDigit_not_sign hb
    rw [heq, List.cons_append]
    unfold IStream.sign
    split
    next h => exact absurd (List.cons.inj h).1 h45
    next h => exact absurd (List.cons.inj h).1 h43
    next => rfl

/-- The printed digits and sign denote the number. -/
theorem intValue_natText {n : Int} (h : intMin ≤ n ∧ n ≤ intMax) :
    IStream.intValue (decide (n < 0)) (natText n.natAbs) = (n, false) := by
  have hvalue : (if decide (n < 0) = true then -((n.natAbs : Nat) : Int) else (n.natAbs : Int)) =
      n := by
    by_cases hn : n < 0
    · rw [if_pos (decide_eq_true hn)]
      omega
    · rw [if_neg (by simp [hn])]
      omega
  unfold IStream.intValue
  rw [digitsValue_natText]
  simp only [hvalue]
  rw [if_neg (by simp [natText_ne_nil]), if_neg (by omega), if_neg (by omega)]

/-- A printed number consists of digits and perhaps a minus sign. -/
theorem mem_intText {n : Int} {b : UInt8} (hb : b ∈ intText n) : b = 45 ∨ isDigit b = true := by
  unfold intText at hb
  split at hb
  · rcases List.mem_append.mp hb with hb | hb
    · rw [show bytes "-" = [45] from rfl, List.mem_singleton] at hb
      exact Or.inl hb
    · exact Or.inr (natText_isDigit _ b hb)
  · exact Or.inr (natText_isDigit _ b hb)

theorem isSpace_of_isDigit {b : UInt8} (h : isDigit b = true) : isSpace b = false := by
  unfold isDigit at h
  rw [Bool.and_eq_true, decide_eq_true_eq, decide_eq_true_eq] at h
  unfold isSpace
  have h32 : b ≠ 32 := by
    intro heq
    subst heq
    simp at h
  rw [Bool.or_eq_false_iff, beq_eq_false_iff_ne]
  refine ⟨h32, ?_⟩
  simp only [Bool.and_eq_false_iff, decide_eq_false_iff_not]
  omega

theorem not_mem_intText {b : UInt8} (hminus : b ≠ 45) (hdigit : isDigit b = false) (n : Int) :
    b ∉ intText n := by
  intro hin
  rcases mem_intText hin with heq | hd
  · exact hminus heq
  · rw [hdigit] at hd
    cases hd

theorem intText_cons (n : Int) : ∃ b ds, intText n = b :: ds ∧ isSpace b = false := by
  unfold intText
  split
  · exact ⟨45, natText n.natAbs, rfl, rfl⟩
  · obtain ⟨b, ds, heq, hb⟩ := natText_cons n.natAbs
    exact ⟨b, ds, heq, isSpace_of_isDigit hb⟩

/-- **A printed `int` is read back**: `ss >> n` after a blank. -/
theorem IStream.int_intText {n : Int} (h : intMin ≤ n ∧ n ≤ intMax) (rest : Text)
    (hrest : EndsNumber rest) (old : Int) :
    (IStream.mk (32 :: (intText n ++ rest)) false false).int old =
      (n, ⟨rest, rest.isEmpty, false⟩) := by
  have hsentry : (IStream.mk (32 :: (intText n ++ rest)) false false).sentry =
      some (intText n ++ rest) := by
    obtain ⟨b, ds, heq, hb⟩ := intText_cons n
    rw [heq, List.cons_append]
    apply sentry_good
    rw [List.dropWhile_cons_of_pos rfl, List.dropWhile_cons_of_neg (by simp [hb])]
  unfold int
  rw [hsentry]
  simp only [sign_intText, takeWhile_append_stop (natText_isDigit _) hrest,
    dropWhile_append_stop (natText_isDigit _) hrest, intValue_natText h]

/-! ## `std::stoi` -/

/-- `std::stoi`: leading white space, a sign, digits; what follows is ignored. `none` is
the exception thrown when there is no digit or the number is no `int`. -/
def stoi (s : Text) : Option Int :=
  let (negative, rest) := IStream.sign (s.dropWhile isSpace)
  let (n, fail) := IStream.intValue negative (rest.takeWhile isDigit)
  if fail then none else some n

/-- **A printed `int` is read back** by `std::stoi`. -/
theorem stoi_intText {n : Int} (h : intMin ≤ n ∧ n ≤ intMax) {rest : Text}
    (hrest : EndsNumber rest) : stoi (intText n ++ rest) = some n := by
  have hskip : (intText n ++ rest).dropWhile isSpace = intText n ++ rest := by
    obtain ⟨b, ds, heq, hb⟩ := intText_cons n
    rw [heq, List.cons_append, List.dropWhile_cons_of_neg (by simp [hb])]
  unfold stoi
  rw [hskip]
  simp only [sign_intText, takeWhile_append_stop (natText_isDigit _) hrest, intValue_natText h]
  rfl

theorem stoi_printed {n : Int} (h : intMin ≤ n ∧ n ≤ intMax) : stoi (intText n) = some n := by
  have hread : stoi (intText n ++ []) = some n := stoi_intText h (by intro b hb; cases hb)
  rwa [List.append_nil] at hread

/-- The text begins with a number in `int` range: white space, a sign and digits. -/
def StartsWithInt (s : Text) : Prop :=
  ∃ space sign digits rest, s = space ++ (sign ++ (digits ++ rest)) ∧
    (∀ b ∈ space, isSpace b = true) ∧ (sign = [] ∨ sign = [43] ∨ sign = [45]) ∧ digits ≠ [] ∧
    (∀ b ∈ digits, isDigit b = true) ∧ EndsNumber rest ∧
    (sign = [45] → (digitsValue digits : Int) ≤ -intMin) ∧
    (sign ≠ [45] → (digitsValue digits : Int) ≤ intMax)

/-- When digits and a sign make an `int`. -/
theorem intValue_snd (negative : Bool) (ds : Text) :
    (IStream.intValue negative ds).2 = false ↔ ds ≠ [] ∧
      (negative = true → (digitsValue ds : Int) ≤ -intMin) ∧
      (negative = false → (digitsValue ds : Int) ≤ intMax) := by
  unfold IStream.intValue intMin intMax
  cases negative with
  | true =>
    simp only [List.isEmpty_iff]
    split_ifs <;> simp_all
    omega
  | false =>
    simp only [List.isEmpty_iff]
    split_ifs <;> simp_all
    omega

/-- The sign that is read is one byte or none, and the rest stays. -/
theorem sign_cases (t : Text) :
    (IStream.sign t = (false, t) ∧ ∀ b ∈ t.head?, b ≠ 45 ∧ b ≠ 43) ∨
      (∃ rest, t = [43] ++ rest ∧ IStream.sign t = (false, rest)) ∨
      ∃ rest, t = [45] ++ rest ∧ IStream.sign t = (true, rest) := by
  unfold IStream.sign
  split
  next rest => exact Or.inr (Or.inr ⟨rest, rfl, rfl⟩)
  next rest => exact Or.inr (Or.inl ⟨rest, rfl, rfl⟩)
  next h45 h43 =>
    refine Or.inl ⟨rfl, fun b hb => ?_⟩
    obtain ⟨rest, rfl⟩ := List.head?_eq_some_iff.mp hb
    exact ⟨fun heq => h45 rest (by rw [heq]), fun heq => h43 rest (by rw [heq])⟩

/-- **`std::stoi` throws unless its argument begins with a number in `int` range.** -/
theorem stoi_isSome_iff {s : Text} : (stoi s).isSome = true ↔ StartsWithInt s := by
  have hsome : (stoi s).isSome = true ↔
      (IStream.intValue (IStream.sign (s.dropWhile isSpace)).1
        ((IStream.sign (s.dropWhile isSpace)).2.takeWhile isDigit)).2 = false := by
    unfold stoi
    dsimp only
    split
    next h => simp [h]
    next h => simpa using h
  rw [hsome, intValue_snd]
  constructor
  · rintro ⟨hne, hlow, hhigh⟩
    -- the parts of the text, for each sign it can have
    have hparts : ∀ sign t, s.dropWhile isSpace = sign ++ t →
        (sign = [] ∨ sign = [43] ∨ sign = [45]) → t.takeWhile isDigit ≠ [] →
        (sign = [45] → (digitsValue (t.takeWhile isDigit) : Int) ≤ -intMin) →
        (sign ≠ [45] → (digitsValue (t.takeWhile isDigit) : Int) ≤ intMax) → StartsWithInt s := by
      intro sign t hs hsign hne hlow hhigh
      refine ⟨s.takeWhile isSpace, sign, t.takeWhile isDigit, t.dropWhile isDigit, ?_,
        fun b hb => List.mem_takeWhile_imp hb, hsign, hne, fun b hb => List.mem_takeWhile_imp hb,
        ?_, hlow, hhigh⟩
      · rw [List.takeWhile_append_dropWhile, ← hs, List.takeWhile_append_dropWhile]
      · intro b hb
        have hhead := List.head?_dropWhile_not isDigit t
        rw [hb] at hhead
        exact hhead
    rcases sign_cases (s.dropWhile isSpace) with ⟨hsign, _⟩ | ⟨t, ht, hsign⟩ | ⟨t, ht, hsign⟩
    · rw [hsign] at hne hhigh
      exact hparts [] _ rfl (Or.inl rfl) hne (fun h => by cases h) fun _ => hhigh rfl
    · rw [hsign] at hne hhigh
      exact hparts _ _ ht (Or.inr (Or.inl rfl)) hne (fun h => by cases h) fun _ => hhigh rfl
    · rw [hsign] at hne hlow
      exact hparts _ _ ht (Or.inr (Or.inr rfl)) hne (fun _ => hlow rfl) fun h => (h rfl).elim
  · rintro ⟨space, sign, digits, rest, rfl, hspace, hsign, hne, hdigits, hrest, hlow, hhigh⟩
    obtain ⟨d, ds, rfl⟩ := List.exists_cons_of_ne_nil hne
    have hd := hdigits d (List.mem_cons_self ..)
    have hnumber : ((d :: ds) ++ rest).takeWhile isDigit = d :: ds :=
      takeWhile_append_stop hdigits hrest
    -- the sign ends the white space, or else the first digit does
    have hskip : (space ++ (sign ++ (d :: ds ++ rest))).dropWhile isSpace =
        sign ++ (d :: ds ++ rest) := by
      refine dropWhile_append_stop hspace fun b hb => ?_
      rcases hsign with rfl | rfl | rfl <;> cases hb
      · exact isSpace_of_isDigit hd
      · rfl
      · rfl
    rw [hskip]
    rcases hsign with rfl | rfl | rfl
    · have hplain : IStream.sign ([] ++ (d :: ds ++ rest)) = (false, d :: ds ++ rest) := by
        rcases sign_cases (d :: ds ++ rest) with ⟨heq, _⟩ | ⟨t, ht, _⟩ | ⟨t, ht, _⟩
        · exact heq
        · cases ht
          cases hd
        · cases ht
          cases hd
      rw [hplain, hnumber]
      exact ⟨hne, fun h => (Bool.false_ne_true h).elim, fun _ => hhigh (by simp)⟩
    · have hplus : IStream.sign ([43] ++ (d :: ds ++ rest)) = (false, d :: ds ++ rest) := rfl
      rw [hplus, hnumber]
      exact ⟨hne, fun h => (Bool.false_ne_true h).elim, fun _ => hhigh (by decide)⟩
    · have hminus : IStream.sign ([45] ++ (d :: ds ++ rest)) = (true, d :: ds ++ rest) := rfl
      rw [hminus, hnumber]
      exact ⟨hne, fun _ => hlow rfl, fun h => by cases h⟩

end SocialNetwork.Lib
