import Mathlib.Data.List.TakeWhile
import SocialNetwork.Lib.Lines
import SocialNetwork.Server.Loop

/-!
# One read is one command

A client writes lines, each with a newline; TCP delivers the bytes in whatever chunks it
likes. The loop keeps nothing from one `read` to the next: each chunk goes to
`CommandFactory::create` as one command, less its trailing line ends. So a chunk with two
lines is one command, and the tail of a split line is a command of its own.

`lines_executed_iff` says for every run and every cutting exactly when the commands
executed are the lines written.
-/

namespace SocialNetwork.Server

open SocialNetwork.Lib

variable {hasher : Text → Nat} {serverSocket : Int}

/-- What a step read on a slot. -/
def chunkOn (i : Slot) (x : Step LoopState Event) : Option Text :=
  match x.event with
  | .recv j _ data => if j = i then some data else none
  | _ => none

/-- What successive reads on a slot returned, oldest first. -/
def readsOn (i : Slot) (h : History LoopState Event) : List Text :=
  h.reverse.filterMap (chunkOn i)

/-- What `CommandFactory::create` was given for a slot, oldest first: the texts executed
as commands. -/
def executedOn (i : Slot) (h : History LoopState Event) : List Text :=
  h.reverse.filterMap fun x => (chunkOn i x).map inputOf

theorem executedOn_eq (i : Slot) (h : History LoopState Event) :
    executedOn i h = (readsOn i h).map inputOf :=
  (List.map_filterMap ..).symm

/-- A text executed is parsed, and what it parses to is the command of its step. -/
theorem commandOf_of_chunkOn {i : Slot} {x : Step LoopState Event} {data : Text}
    (h : chunkOn i x = some data) :
    ∃ env, x.event = .recv i env data ∧
      commandOf x = CommandFactory.create env.junk (inputOf data) := by
  obtain ⟨s, e⟩ := x
  cases e with
  | recv j env data' =>
    unfold chunkOn at h
    dsimp only at h
    split at h
    next hji =>
      cases h
      subst hji
      exact ⟨env, rfl, rfl⟩
    next => cases h
  | _ => cases h

/-- A command line without its newline: not empty, no NUL, no newline inside. -/
structure IsLine (l : Text) : Prop where
  ne_nil : l ≠ []
  nul : 0 ∉ l
  newline : 10 ∉ l

instance (l : Text) : Decidable (IsLine l) :=
  decidable_of_iff (l ≠ [] ∧ 0 ∉ l ∧ 10 ∉ l)
    ⟨fun h => ⟨h.1, h.2.1, h.2.2⟩, fun h => ⟨h.ne_nil, h.nul, h.newline⟩⟩

/-! ## Trimming -/

/-- What `find_last_not_of("\n\r")` passes over. -/
def isLineEnd (b : UInt8) : Bool := b == 10 || b == 13

/-- Trimming takes line ends off the tail and nothing else. -/
theorem trimLineEnd_carries (t : Text) : Carries isLineEnd t (trimLineEnd t) := by
  refine ⟨(t.reverse.takeWhile isLineEnd).reverse, ?_, ?_⟩
  · have hsplit := congrArg List.reverse (List.takeWhile_append_dropWhile (p := isLineEnd)
      (l := t.reverse))
    rw [List.reverse_append, List.reverse_reverse] at hsplit
    exact hsplit.symm
  · intro b hb
    exact List.mem_takeWhile_imp (List.mem_reverse.mp hb)

/-- What is left does not end in a line end. -/
theorem trimLineEnd_last (t : Text) : ∀ b ∈ (trimLineEnd t).getLast?, isLineEnd b = false := by
  intro b hb
  have hstop := List.head?_dropWhile_not isLineEnd t.reverse
  rw [show trimLineEnd t = (t.reverse.dropWhile isLineEnd).reverse from rfl,
    List.getLast?_reverse] at hb
  rw [hb] at hstop
  exact hstop

/-- Trimming takes off a newline and leaves what does not end in a line end. -/
theorem trimLineEnd_append {l : Text} (hl : ∀ b ∈ l.getLast?, isLineEnd b = false) :
    trimLineEnd (l ++ [10]) = l := by
  show ((l ++ [10]).reverse.dropWhile isLineEnd).reverse = l
  rw [List.reverse_append, List.reverse_singleton, List.singleton_append,
    List.dropWhile_cons_of_pos rfl]
  cases hrev : l.reverse with
  | nil => rw [List.reverse_eq_nil_iff.mp hrev]; rfl
  | cons b r =>
    have hlast : l.getLast? = some b := by rw [← List.head?_reverse, hrev]; rfl
    rw [List.dropWhile_cons_of_neg (by simp [hl b hlast]), ← hrev, List.reverse_reverse]

/-- Trimming a line with its newline leaves the line, unless it ends in a carriage return. -/
theorem trimLineEnd_line {l : Text} (hnl : 10 ∉ l) (hcr : l.getLast? ≠ some 13) :
    trimLineEnd (l ++ [10]) = l := by
  refine trimLineEnd_append fun b hb => ?_
  unfold isLineEnd
  rw [Bool.or_eq_false_iff, beq_eq_false_iff_ne, beq_eq_false_iff_ne]
  refine ⟨fun h10 => ?_, fun h13 => hcr (h13 ▸ hb)⟩
  subst h10
  exact hnl (List.mem_of_getLast? hb)

/-- Without a NUL the whole chunk is the input. -/
theorem inputOf_of_nul {data : Text} (h : 0 ∉ data) : inputOf data = trimLineEnd data := by
  unfold inputOf
  rw [List.takeWhile_eq_self_iff.mpr]
  intro b hb
  rw [bne_iff_ne]
  intro h0
  exact h (h0 ▸ hb)

/-! ## Chunks and lines -/

/-- A stream of lines has no NUL. -/
theorem nul_not_mem_unlines {lines : List Text} (h : ∀ l ∈ lines, IsLine l) :
    (0 : UInt8) ∉ unlines 10 lines := by
  intro hmem
  obtain ⟨l, hl, hb⟩ := List.mem_flatMap.mp hmem
  rcases List.mem_append.mp hb with hb | hb
  · exact (h l hl).nul hb
  · cases List.mem_singleton.mp hb

/-- The chunks of a stream of lines are executed as these lines only if they are the lines. -/
theorem map_inputOf_eq_iff {cs lines : List Text} (hlines : ∀ l ∈ lines, IsLine l)
    (hstream : cs.flatten = unlines 10 lines) :
    cs.map inputOf = lines ↔
      cs = lines.map (· ++ [10]) ∧ ∀ l ∈ lines, l.getLast? ≠ some 13 := by
  constructor
  · intro hexec
    have hinput : ∀ c ∈ cs, inputOf c = trimLineEnd c := by
      intro c hc
      refine inputOf_of_nul fun h0 => nul_not_mem_unlines hlines ?_
      rw [← hstream]
      exact List.mem_flatten.mpr ⟨c, hc, h0⟩
    rw [List.map_congr_left hinput] at hexec
    have htrimmed : ∀ l ∈ lines, Trimmed 10 isLineEnd l := by
      intro l hl
      refine ⟨(hlines l hl).ne_nil, (hlines l hl).newline, ?_⟩
      obtain ⟨c, _, rfl⟩ := List.mem_map.mp (hexec ▸ hl)
      exact trimLineEnd_last c
    have hcarry : List.Forall₂ (Carries isLineEnd) cs lines := by
      rw [← hexec, List.forall₂_map_right_iff]
      exact List.forall₂_same.mpr fun c _ => trimLineEnd_carries c
    refine ⟨chunks_eq_of_trimmed hcarry htrimmed hstream, fun l hl h13 => ?_⟩
    cases (htrimmed l hl).last 13 h13
  · rintro ⟨rfl, hcr⟩
    rw [List.map_map]
    refine (List.map_congr_left fun l hl => ?_).trans (List.map_id lines)
    have hnul : (0 : UInt8) ∉ l ++ [10] := by
      simpa using (hlines l hl).nul
    exact (inputOf_of_nul hnul).trans (trimLineEnd_line (hlines l hl).newline (hcr l hl))

/-- Every read of a run fits the buffer. -/
theorem readsOn_length {h : History LoopState Event} {s : LoopState}
    (hr : (machine hasher serverSocket).Run h s) {i : Slot} {c : Text} (hc : c ∈ readsOn i h) :
    c.length ≤ bufferSize - 1 := by
  obtain ⟨x, hx, hchunk⟩ := List.mem_filterMap.mp hc
  obtain ⟨newer, older, rfl⟩ := List.append_of_mem (List.mem_reverse.mp hx)
  obtain ⟨env, he, _⟩ := commandOf_of_chunkOn hchunk
  have hg : admits x.pre x.event := hr.at_step.2
  rw [he] at hg
  exact hg.2

/-- **The lines a client writes are executed, each once, in order and whole, if and only
if every read returned one line with its newline** (and no line ends in a carriage
return, which the loop trims as well). In particular a line of more than `bufferSize - 2`
bytes is never executed whole. -/
theorem lines_executed_iff {newer older : History LoopState Event} {s : LoopState}
    (hr : (machine hasher serverSocket).Run (newer ++ older) s) (i : Slot) {lines : List Text}
    (hlines : ∀ l ∈ lines, IsLine l) (hstream : (readsOn i newer).flatten = unlines 10 lines) :
    (executedOn i newer = lines ↔
      readsOn i newer = lines.map (· ++ [10]) ∧ ∀ l ∈ lines, l.getLast? ≠ some 13) ∧
    (executedOn i newer = lines → ∀ l ∈ lines, l.length ≤ bufferSize - 2) := by
  have hiff := map_inputOf_eq_iff hlines hstream
  rw [← executedOn_eq] at hiff
  refine ⟨hiff, fun hexec l hl => ?_⟩
  have hchunk : l ++ [10] ∈ readsOn i (newer ++ older) := by
    unfold readsOn
    rw [List.reverse_append, List.filterMap_append]
    refine List.mem_append_right _ ?_
    show l ++ [10] ∈ readsOn i newer
    rw [(hiff.mp hexec).1]
    exact List.mem_map_of_mem hl
  have hlen := readsOn_length hr hchunk
  rw [List.length_append, List.length_singleton] at hlen
  omega

/-- Two lines in two reads. -/
def twoLineEvents : List Event := [.accept 4, .line 0 "logout\n", .line 0 "show\n"]

theorem lines_executed_iff_two :
    ∃ h s, (machine List.length 3).Run h s ∧ executedOn 0 h = [bytes "logout", bytes "show"] := by
  obtain ⟨h, s, _, hrun, _, hreads⟩ := runEvents_exists List.length 3 twoLineEvents
    (p := fun h _ => readsOn 0 h = [bytes "logout\n", bytes "show\n"])
    (by simp [twoLineEvents]) (by decide)
  have hrun' : (machine List.length 3).Run (h ++ []) s := by rwa [List.append_nil]
  have hstream : (readsOn 0 h).flatten = unlines 10 [bytes "logout", bytes "show"] := by
    rw [hreads]
    decide
  exact ⟨h, s, hrun, (lines_executed_iff hrun' 0 (by decide) hstream).1.mpr
    ⟨hreads.trans (by decide), by decide⟩⟩

/-- One line that TCP cuts in two: the post's last word is a command of its own. -/
def splitPostEvents : List Event :=
  [.accept 4, .line 0 "create_post 0 time to ", .line 0 "logout\n"]

/-- Not every cutting of the stream executes the lines. -/
theorem lines_not_executed :
    ¬ ∀ (hasher : Text → Nat) (serverSocket : Int) (h : History LoopState Event) (s : LoopState)
      (i : Slot) (lines : List Text), (machine hasher serverSocket).Run h s →
        (∀ l ∈ lines, IsLine l) → (∀ c ∈ readsOn i h, c ≠ []) →
          (readsOn i h).flatten = unlines 10 lines → executedOn i h = lines := by
  intro hall
  obtain ⟨h, s, _, hrun, _, hne, hstream, hexec⟩ :=
    runEvents_exists List.length 3 splitPostEvents
      (p := fun h _ => (∀ c ∈ readsOn 0 h, c ≠ []) ∧
        (readsOn 0 h).flatten = unlines 10 [bytes "create_post 0 time to logout"] ∧
        executedOn 0 h = [bytes "create_post 0 time to ", bytes "logout"])
      (by simp [splitPostEvents]) (by decide)
  have hlines := hall _ _ h s 0 _ hrun (by decide) hne hstream
  rw [hexec] at hlines
  revert hlines
  decide

end SocialNetwork.Server
