import Mathlib.Data.List.Basic
import Mathlib.Data.List.TakeWhile

/-!
# Byte strings, C++ string streams and C++ integers

`Text` is `std::string`: a list of bytes. `IStream` is the part of an
`std::istringstream` that decides what extraction returns: the bytes still
unread and the two state bits. The extraction operators follow the C++11
library in the classic locale:

* an extraction from a stream that is not good (after a failure, or once the end
  has been reached) sets the fail bit and leaves its variable *untouched*;
* skipping white space up to the end of input is such a failure as well;
* a numeric parse without digits stores `0` and fails, one that overflows `int`
  stores the nearest limit and fails;
* reaching the end while reading sets the end bit without failing.

`narrow` is the conversion of a 64-bit integer to a 32-bit `int`, which is what
the assignment of a rowid to an `int` and `sqlite3_column_int` do.
-/

namespace SocialNetwork.Lib

/-- `std::string`. -/
abbrev Text := List UInt8

/-- The bytes of a string literal. -/
def bytes (s : String) : Text := s.toUTF8.data.toList

/-- The decimal digits of a natural number. -/
def natText (n : Nat) : Text := (Nat.toDigits 10 n).map Char.toUInt8

/-- `std::to_string` of an integer. -/
def intText (n : Int) : Text :=
  if n < 0 then bytes "-" ++ natText n.natAbs else natText n.natAbs

/-- `a ≤ b` byte by byte, a proper prefix first: SQL's BINARY collation. -/
def textLe : Text → Text → Bool
  | [], _ => true
  | _ :: _, [] => false
  | a :: as, b :: bs => decide (a.toNat < b.toNat) || (a == b && textLe as bs)

/-- `a` occurs in `t`: `t.find(a) != npos`. -/
def contains (a t : Text) : Bool := t.tails.any fun u => a.isPrefixOf u

/-- The lines `while (std::getline(iss, line))` reads: an unterminated last line counts if
it is not empty. -/
def lines : Text → List Text
  | [] => []
  | b :: rest =>
    if b = 10 then [] :: lines rest
    else
      match lines rest with
      | [] => [[b]]
      | line :: more => (b :: line) :: more

/-- `isspace` in the classic locale: blank, tab, newline, vertical tab, form
feed, carriage return. -/
def isSpace (b : UInt8) : Bool := b == 32 || (9 ≤ b.toNat && b.toNat ≤ 13)

/-- `'0' … '9'`. -/
def isDigit (b : UInt8) : Bool := 48 ≤ b.toNat && b.toNat ≤ 57

/-- The number a digit string denotes. -/
def digitsValue (ds : Text) : Nat := ds.foldl (fun n d => 10 * n + (d.toNat - 48)) 0

/-- `INT_MAX`. -/
def intMax : Int := 2147483647

/-- `INT_MIN`. -/
def intMin : Int := -2147483648

/-- A 64-bit value stored in a 32-bit `int`. -/
def narrow (n : Int) : Int := n.bmod 4294967296

theorem narrow_of_fits {n : Int} (h : intMin ≤ n ∧ n ≤ intMax) : narrow n = n := by
  unfold narrow
  simp only [intMin, intMax] at h
  exact Int.bmod_eq_of_le (by omega) (by omega)

/-- What an `int` holds fits. -/
theorem narrow_fits (n : Int) : intMin ≤ narrow n ∧ narrow n ≤ intMax := by
  have hlow := Int.le_bmod (x := n) (m := 4294967296) (by omega)
  have hhigh := Int.bmod_lt (x := n) (m := 4294967296) (by omega)
  unfold narrow intMin intMax
  omega

/-- A 64-bit value survives the narrowing if and only if it fits. -/
theorem narrow_eq_self_iff {n : Int} : narrow n = n ↔ intMin ≤ n ∧ n ≤ intMax := by
  constructor
  · intro h
    rw [← h]
    exact narrow_fits n
  · exact narrow_of_fits

/-- `textLe` is a total order. -/
theorem textLe_total : ∀ a b : Text, textLe a b = true ∨ textLe b a = true
  | [], _ => Or.inl rfl
  | _ :: _, [] => Or.inr rfl
  | a :: as, b :: bs => by
    have ih := textLe_total as bs
    simp only [textLe, Bool.or_eq_true, decide_eq_true_eq, Bool.and_eq_true, beq_iff_eq]
    rcases lt_trichotomy a.toNat b.toNat with hlt | heq | hgt
    · exact Or.inl (Or.inl hlt)
    · have hab := UInt8.toNat_inj.mp heq
      exact ih.imp (fun h => Or.inr ⟨hab, h⟩) fun h => Or.inr ⟨hab.symm, h⟩
    · exact Or.inr (Or.inl hgt)

theorem textLe_refl (a : Text) : textLe a a = true := (textLe_total a a).elim id id

theorem textLe_trans : ∀ {a b c : Text}, textLe a b = true → textLe b c = true → textLe a c = true
  | [], _, _, _, _ => by simp [textLe]
  | _ :: _, [], _, h, _ => by cases h
  | _ :: _, _ :: _, [], _, h => by cases h
  | a :: as, b :: bs, c :: cs, h, h' => by
    simp only [textLe, Bool.or_eq_true, decide_eq_true_eq, Bool.and_eq_true, beq_iff_eq] at h h' ⊢
    rcases h with hlt | ⟨rfl, h⟩
    · rcases h' with hlt' | ⟨rfl, _⟩
      · exact Or.inl (hlt.trans hlt')
      · exact Or.inl hlt
    · rcases h' with hlt' | ⟨heq, h'⟩
      · exact Or.inl hlt'
      · exact Or.inr ⟨heq, textLe_trans h h'⟩

theorem textLe_antisymm : ∀ {a b : Text}, textLe a b = true → textLe b a = true → a = b
  | [], [], _, _ => rfl
  | [], _ :: _, _, h => by cases h
  | _ :: _, [], h, _ => by cases h
  | a :: as, b :: bs, h, h' => by
    simp only [textLe, Bool.or_eq_true, decide_eq_true_eq, Bool.and_eq_true, beq_iff_eq] at h h'
    rcases h with hlt | ⟨rfl, h⟩
    · rcases h' with hlt' | ⟨rfl, _⟩
      · exact absurd hlt (Nat.lt_asymm hlt')
      · exact absurd hlt (Nat.lt_irrefl _)
    · rcases h' with hlt' | ⟨_, h'⟩
      · exact absurd hlt' (Nat.lt_irrefl _)
      · rw [textLe_antisymm h h']

/-- The state of an input string stream. -/
structure IStream where
  rest : Text
  eof : Bool
  fail : Bool
  deriving DecidableEq, Repr

namespace IStream

/-- `std::stringstream ss(input)`. -/
def ofText (input : Text) : IStream := ⟨input, false, false⟩

/-- `ss.good()`. -/
def good (ss : IStream) : Bool := !ss.eof && !ss.fail

/-- The sentry of a formatted extraction: skip white space. `none` when there is
nothing to extract; the stream has then failed. -/
def sentry (ss : IStream) : Option Text :=
  if ss.good then
    match ss.rest.dropWhile isSpace with
    | [] => none
    | b :: rest => some (b :: rest)
  else none

/-- The stream after its sentry refused: white space is skipped only while good. -/
def failed (ss : IStream) : IStream :=
  if ss.good then ⟨[], true, true⟩ else { ss with fail := true }

/-- `ss >> s` for a string variable whose value is `old`. -/
def word (ss : IStream) (old : Text) : Text × IStream :=
  match ss.sentry with
  | none => (old, ss.failed)
  | some rest =>
    let s := rest.takeWhile (!isSpace ·)
    let rest := rest.dropWhile (!isSpace ·)
    (s, ⟨rest, rest.isEmpty, false⟩)

/-- An optional sign. -/
def sign : Text → Bool × Text
  | 45 :: rest => (true, rest)
  | 43 :: rest => (false, rest)
  | rest => (false, rest)

/-- The value `num_get` stores for a signed digit string, and whether it failed. -/
def intValue (negative : Bool) (ds : Text) : Int × Bool :=
  let n : Int := if negative then -(digitsValue ds : Int) else digitsValue ds
  if ds.isEmpty then (0, true)
  else if n > intMax then (intMax, true)
  else if n < intMin then (intMin, true)
  else (n, false)

/-- `ss >> n` for an `int` variable whose value is `old`. -/
def int (ss : IStream) (old : Int) : Int × IStream :=
  match ss.sentry with
  | none => (old, ss.failed)
  | some rest =>
    let (negative, rest) := sign rest
    let (n, fail) := intValue negative (rest.takeWhile isDigit)
    let rest := rest.dropWhile isDigit
    (n, ⟨rest, rest.isEmpty, fail⟩)

/-- `std::getline(ss, line)` into an empty string. The newline is consumed. -/
def getline (ss : IStream) : Text × IStream :=
  if ss.good then
    let line := ss.rest.takeWhile (· != 10)
    match ss.rest.dropWhile (· != 10) with
    | [] => (line, ⟨[], true, line.isEmpty⟩)
    | _ :: rest => (line, ⟨rest, false, false⟩)
  else ([], { ss with fail := true })

/-- `while (ss >> u) us.push_back(u)`, with fuel for the bytes left. -/
def wordsFuel : Nat → IStream → List Text
  | 0, _ => []
  | fuel + 1, ss =>
    let (u, ss') := ss.word []
    if ss'.fail then [] else u :: wordsFuel fuel ss'

/-- `while (ss >> u) us.push_back(u)`. Each word takes at least one byte. -/
def words (ss : IStream) : List Text := wordsFuel (ss.rest.length + 1) ss

/-! ## What extraction returns -/

/-- The stored number is always an `int`. -/
theorem intValue_fits (negative : Bool) (ds : Text) :
    intMin ≤ (intValue negative ds).1 ∧ (intValue negative ds).1 ≤ intMax := by
  unfold intValue
  simp only [intMin, intMax]
  split_ifs <;> simp <;> omega

/-- What the sentry lets through is unread and does not start with white space. -/
theorem sentry_eq_some {ss : IStream} {rest : Text} (h : ss.sentry = some rest) :
    ∃ b t, rest = b :: t ∧ isSpace b = false ∧ rest ⊆ ss.rest := by
  unfold sentry at h
  split at h
  next =>
    split at h
    next => cases h
    next b t hdrop =>
      rw [Option.some.injEq] at h
      have hhead := List.head?_dropWhile_not isSpace ss.rest
      have hsub := List.dropWhile_subset (l := ss.rest) isSpace
      rw [hdrop] at hhead hsub
      exact ⟨b, t, h.symm, hhead, h ▸ hsub⟩
  next => cases h

/-- Extraction only consumes. -/
theorem failed_rest (ss : IStream) : ss.failed.rest ⊆ ss.rest := by
  unfold failed
  split
  next => exact List.nil_subset _
  next => exact fun _ hb => hb

theorem word_rest (ss : IStream) (old : Text) : (ss.word old).2.rest ⊆ ss.rest := by
  unfold word
  split
  next => exact ss.failed_rest
  next rest hsentry =>
    obtain ⟨_, _, _, _, hsub⟩ := sentry_eq_some hsentry
    exact fun b hb => hsub (List.dropWhile_subset _ hb)

theorem sign_rest (t : Text) : (sign t).2 ⊆ t := by
  unfold sign
  split
  next => exact List.subset_cons_self _ _
  next => exact List.subset_cons_self _ _
  next => exact fun _ hb => hb

theorem int_rest (ss : IStream) (old : Int) : (ss.int old).2.rest ⊆ ss.rest := by
  unfold int
  split
  next => exact ss.failed_rest
  next rest hsentry =>
    obtain ⟨_, _, _, _, hsub⟩ := sentry_eq_some hsentry
    exact fun b hb => hsub (sign_rest rest (List.dropWhile_subset _ hb))

/-- A word has no white space in it. -/
theorem mem_word {ss : IStream} {b : UInt8} (hb : b ∈ (ss.word []).1) :
    isSpace b = false ∧ b ∈ ss.rest := by
  unfold word at hb
  split at hb
  next => cases hb
  next rest hsentry =>
    obtain ⟨_, _, _, _, hsub⟩ := sentry_eq_some hsentry
    have hnot := List.mem_takeWhile_imp hb
    rw [Bool.not_eq_true'] at hnot
    exact ⟨hnot, hsub (List.takeWhile_subset _ hb)⟩

/-- An extraction that does not fail returns a word that is not empty. -/
theorem word_ne_nil {ss : IStream} (h : (ss.word []).2.fail = false) : (ss.word []).1 ≠ [] := by
  unfold word at h ⊢
  split
  next hsentry =>
    -- the stream has failed
    rw [hsentry] at h
    dsimp only at h
    unfold failed at h
    split at h <;> cases h
  next rest hsentry =>
    obtain ⟨b, t, rfl, hb, _⟩ := sentry_eq_some hsentry
    dsimp only
    rw [List.takeWhile_cons_of_pos (by rw [hb]; rfl)]
    exact List.cons_ne_nil _ _

/-- A line has no newline in it. -/
theorem mem_getline {ss : IStream} {b : UInt8} (hb : b ∈ ss.getline.1) :
    b ≠ 10 ∧ b ∈ ss.rest := by
  have hline : b ∈ ss.rest.takeWhile (· != 10) := by
    unfold getline at hb
    split at hb
    next =>
      split at hb
      next => exact hb
      next => exact hb
    next => cases hb
  have hne := List.mem_takeWhile_imp hline
  rw [bne_iff_ne] at hne
  exact ⟨hne, List.takeWhile_subset _ hline⟩

theorem mem_wordsFuel {fuel : Nat} {ss : IStream} {w : Text} (hw : w ∈ wordsFuel fuel ss) :
    w ≠ [] ∧ ∀ b ∈ w, isSpace b = false ∧ b ∈ ss.rest := by
  induction fuel generalizing ss with
  | zero => cases hw
  | succ fuel ih =>
    rw [wordsFuel] at hw
    dsimp only at hw
    split at hw
    next => cases hw
    next hfail =>
      rw [Bool.not_eq_true] at hfail
      rcases List.mem_cons.mp hw with rfl | hw
      · exact ⟨word_ne_nil hfail, fun b hb => mem_word hb⟩
      · obtain ⟨hne, hmem⟩ := ih hw
        exact ⟨hne, fun b hb => ⟨(hmem b hb).1, ss.word_rest [] (hmem b hb).2⟩⟩

/-- The words of a stream are not empty and have no white space in them. -/
theorem mem_words {ss : IStream} {w : Text} (hw : w ∈ ss.words) :
    w ≠ [] ∧ ∀ b ∈ w, isSpace b = false ∧ b ∈ ss.rest :=
  mem_wordsFuel hw

example : (IStream.ofText (bytes "bob 1x")).words = [bytes "bob", bytes "1x"] := by decide
example : ((IStream.ofText (bytes " -7x")).int 5).1 = -7 := by decide
example : ((IStream.ofText (bytes "  ")).int 5).1 = 5 := by decide
example : ((IStream.ofText (bytes "99999999999")).int 5).1 = intMax := by decide

end IStream

end SocialNetwork.Lib
