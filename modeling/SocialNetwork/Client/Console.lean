import SocialNetwork.Client.NetworkClient
import SocialNetwork.Server.Replies

/-!
# The command-line client

`Console` is `main` of `client.cpp` in its loop: the standard input still to be read, the C
string in `message`, and the bytes in flight to and from the server. The server is any that
answers every chunk it reads with something, as the one of this repository does
(`admits_handle`); TCP cuts and joins the bytes as it likes.

The loop looks neither at the result of `fgets` nor at what it has read. So it sends the
lines of its input one by one and stops, for every such server, if and only if an `exit` line
ends them and each of them is one message (`sends_once_iff`): at the end of the input the last
line is sent again and again, an empty line waits for a reply to nothing, and a line that
does not fit in `message` is sent in pieces.

Mirroring notes:
- The server closes a connection only after the client has, so `read` returns no 0.
- `send` takes the whole message.
-/

namespace SocialNetwork.Client

open SocialNetwork.Lib SocialNetwork.Server

/-! ## The loop -/

/-- `sizeof(message)`. -/
def messageSize : Nat := 1024

/-- `sizeof(buffer) - 1`. -/
def replySize : Nat := 1023

/-- `fgets` into an array that has room for `n` bytes and the terminator: the bytes it
stores, and what is left of the stream. -/
def fgets : Nat → Text → Text × Text
  | 0, stdin => ([], stdin)
  | _ + 1, [] => ([], [])
  | n + 1, b :: stdin =>
    if b = 10 then ([b], stdin) else (b :: (fgets n stdin).1, (fgets n stdin).2)

/-- The C string in an array after `message[strcspn(message, "\n")] = 0`. -/
def cutLine (content : Text) : Text := content.takeWhile fun b => b != 0 && b != 10

/-- The text that ends the loop. -/
def exitLine : Text := bytes "exit"

/-- Where the loop is: before `fgets`, in `read`, or left. -/
inductive Place
  | top
  | reading
  | ended
  deriving DecidableEq, Repr

structure Console where
  stdin : Text
  message : Text
  up : Text
  down : Text
  place : Place

/-- The client has connected; `junk` is what the array `message` happens to hold. -/
def Console.init (junk input : Text) : Console := ⟨input, junk, [], [], .top⟩

namespace Console

/-- The content of `message` after `fgets`. At the end of the input it stays as it was. -/
def nextMessage (c : Console) : Text :=
  if c.stdin.isEmpty then cutLine c.message else cutLine (fgets (messageSize - 1) c.stdin).1

/-- What `fgets` leaves. -/
def nextStdin (c : Console) : Text := (fgets (messageSize - 1) c.stdin).2

/-- From the top of the loop to `read`, or out of the loop. -/
def turn (c : Console) : Console :=
  if c.nextMessage = exitLine then
    { c with stdin := c.nextStdin, message := c.nextMessage, place := .ended }
  else
    { c with
      stdin := c.nextStdin
      message := c.nextMessage
      up := c.up ++ c.nextMessage
      place := .reading }

end Console

inductive ConsoleEvent
  /-- The client reads a line and sends it, or leaves the loop. -/
  | turn
  /-- The server reads `n` bytes and replies. -/
  | answer (n : Nat) (reply : Text)
  /-- `read` returns `n` bytes. -/
  | recv (n : Nat)

namespace Console

/-- What can happen: the server reads what has been sent, up to its buffer, and never
replies with nothing; `read` waits until there is something. -/
def admits (c : Console) : ConsoleEvent → Prop
  | .turn => c.place = .top
  | .answer n reply => 0 < n ∧ n ≤ c.up.length ∧ n ≤ bufferSize - 1 ∧ reply ≠ []
  | .recv n => c.place = .reading ∧ 0 < n ∧ n ≤ c.down.length ∧ n ≤ replySize

instance (c : Console) (e : ConsoleEvent) : Decidable (c.admits e) := by
  unfold admits
  split
  · infer_instance
  · infer_instance
  · infer_instance

def next (c : Console) : ConsoleEvent → Console
  | .turn => c.turn
  | .answer n reply => { c with up := c.up.drop n, down := c.down ++ reply }
  | .recv n => { c with down := c.down.drop n, place := .top }

end Console

/-- The client on the given standard input. -/
def consoleMachine (junk input : Text) : Machine Console ConsoleEvent where
  init := .init junk input
  guard := Console.admits
  next := Console.next

/-- **The server of this repository is one that answers.** -/
theorem admits_handle {hasher : Text → Nat} {serverSocket : Int} {h : History LoopState Event}
    {s : LoopState} (hr : (machine hasher serverSocket).Run h s) (ht : ∀ x ∈ h, Timed x)
    (env : Env) (sd : Int) (c : Console) {n : Nat} (hpos : 0 < n) (hlen : n ≤ c.up.length)
    (hbuf : n ≤ bufferSize - 1) :
    c.admits (.answer n (handle hasher env sd (c.up.take n) s.app).1) :=
  ⟨hpos, hlen, hbuf, (handle_sendable hr ht env sd _).1⟩

/-! ## What is claimed and what it takes -/

/-- The message a step sends. -/
def messageSent (x : Step Console ConsoleEvent) : Option Text :=
  match x.event with
  | .turn => if x.pre.nextMessage = exitLine then none else some x.pre.nextMessage
  | _ => none

theorem messageSent_exit {c : Console} (h : c.nextMessage = exitLine) :
    messageSent ⟨c, .turn⟩ = none := if_pos h

theorem messageSent_send {c : Console} (h : c.nextMessage ≠ exitLine) :
    messageSent ⟨c, .turn⟩ = some c.nextMessage := if_neg h

/-- The lines before the first `exit`, or all. -/
def linesToSend (input : Text) : List Text := (lines input).takeWhile (· != exitLine)

/-- On this input the loop ends after finitely many steps, has then sent the lines, each
once and in order, and never waits for a reply to nothing. -/
structure SendsOnce (junk input : Text) : Prop where
  ends : ∃ bound, ∀ h c, (consoleMachine junk input).Run h c → h.length ≤ bound
  sends : ∀ h c, (consoleMachine junk input).Run h c → c.place = .ended →
    observed messageSent h = linesToSend input
  waits : ∀ h c, (consoleMachine junk input).Run h c → c.place = .reading →
    c.up ≠ [] ∨ c.down ≠ []

/-- A line that goes through `message` as it is, with its newline. -/
structure IsMessage (l : Text) : Prop where
  ne_nil : l ≠ []
  nul : 0 ∉ l
  fits : l.length < messageSize - 1

instance (l : Text) : Decidable (IsMessage l) :=
  decidable_of_iff (l ≠ [] ∧ 0 ∉ l ∧ l.length < messageSize - 1)
    ⟨fun h => ⟨h.1, h.2.1, h.2.2⟩, fun h => ⟨h.ne_nil, h.nul, h.fits⟩⟩

/-- The input has a line `exit`, and each line before it is one message. Or there is no
input, and `message` happens to say `exit`. -/
def LineByLine (message input : Text) : Prop :=
  (exitLine ∈ lines input ∧ ∀ l ∈ linesToSend input, IsMessage l) ∨
    (input = [] ∧ cutLine message = exitLine)

instance (message input : Text) : Decidable (LineByLine message input) :=
  inferInstanceAs (Decidable (_ ∨ _))

/-! ## `fgets` and the lines -/

/-- As long as there is room and no newline, the bytes are stored. -/
theorem fgets_append {l : Text} (hl : 10 ∉ l) (n : Nat) (rest : Text) :
    fgets (n + l.length) (l ++ rest) = (l ++ (fgets n rest).1, (fgets n rest).2) := by
  induction l with
  | nil => rfl
  | cons b l ih =>
    rw [List.mem_cons, not_or] at hl
    show fgets (n + l.length + 1) (b :: (l ++ rest)) = _
    rw [fgets, if_neg (Ne.symm hl.1), ih hl.2]
    rfl

/-- A line with room for its newline, or the last one, is stored whole. -/
theorem fgets_short {l : Text} {n : Nat} (hl : 10 ∉ l) (hlen : l.length < n) :
    (∀ rest, fgets n (l ++ 10 :: rest) = (l ++ [10], rest)) ∧ fgets n l = (l, []) := by
  obtain ⟨m, rfl⟩ := Nat.exists_eq_add_of_lt hlen
  have hroom := fgets_append hl (m + 1)
  rw [show m + 1 + l.length = l.length + m + 1 by omega] at hroom
  refine ⟨fun rest => hroom (10 :: rest), ?_⟩
  have hlast := hroom []
  rwa [List.append_nil, show fgets (m + 1) [] = ([], []) from rfl, List.append_nil] at hlast

/-- Of a longer one, as much as there is room for. -/
theorem fgets_long {l : Text} {n : Nat} (hl : 10 ∉ l) (hlen : n ≤ l.length) (rest : Text) :
    fgets n (l ++ rest) = (l.take n, l.drop n ++ rest) := by
  have hpart := @fgets_append (l.take n) (fun hin => hl (List.mem_of_mem_take hin)) 0
    (l.drop n ++ rest)
  rw [← List.append_assoc, List.take_append_drop, List.length_take_of_le hlen, Nat.zero_add,
    show fgets 0 (l.drop n ++ rest) = ([], l.drop n ++ rest) from rfl, List.append_nil] at hpart
  exact hpart

theorem cutLine_append_newline (l : Text) : cutLine (l ++ [10]) = cutLine l := by
  induction l with
  | nil => rfl
  | cons b l ih =>
    unfold cutLine at ih ⊢
    rw [List.cons_append, List.takeWhile_cons, List.takeWhile_cons, ih]

/-- What is sent has neither NUL nor newline. -/
theorem not_mem_cutLine (t : Text) : 0 ∉ cutLine t ∧ 10 ∉ cutLine t := by
  refine ⟨fun h => ?_, fun h => ?_⟩
  · cases List.mem_takeWhile_imp h
  · cases List.mem_takeWhile_imp h

theorem cutLine_eq_self {l : Text} (h0 : 0 ∉ l) (h10 : 10 ∉ l) : cutLine l = l := by
  refine List.takeWhile_eq_self_iff.mpr fun b hb => ?_
  rw [Bool.and_eq_true, bne_iff_ne, bne_iff_ne]
  exact ⟨fun h => h0 (h ▸ hb), fun h => h10 (h ▸ hb)⟩

namespace Console

variable {c : Console} {l : Text} {ls : List Text}

theorem nextMessage_of_eof (h : c.stdin = []) :
    c.nextMessage = cutLine c.message ∧ c.nextStdin = [] := by
  unfold nextMessage nextStdin
  rw [h]
  exact ⟨rfl, rfl⟩

theorem nextMessage_of_ne (h : c.stdin ≠ []) :
    c.nextMessage = cutLine (fgets (messageSize - 1) c.stdin).1 := by
  unfold nextMessage
  rw [if_neg (by simpa using h)]

/-- **A line with room for its newline is read whole**, up to a NUL in it. -/
theorem nextMessage_short (h : lines c.stdin = l :: ls) (hlen : l.length < messageSize - 1) :
    c.nextMessage = cutLine l ∧ lines c.nextStdin = ls := by
  have hne : c.stdin ≠ [] := fun hnil => by
    rw [hnil] at h
    cases h
  obtain ⟨h10, ⟨hlast, _, rfl⟩ | ⟨rest, hline, hrest⟩⟩ := lines_eq_cons h
  · rw [nextMessage_of_ne hne]
    unfold nextStdin
    rw [hlast, (fgets_short h10 hlen).2]
    exact ⟨rfl, rfl⟩
  · rw [nextMessage_of_ne hne]
    unfold nextStdin
    rw [hline, (fgets_short h10 hlen).1]
    exact ⟨cutLine_append_newline l, hrest⟩

/-- **A longer line is read in pieces.** -/
theorem nextMessage_long (h : lines c.stdin = l :: ls) (hlen : messageSize - 1 ≤ l.length) :
    c.nextMessage = cutLine (l.take (messageSize - 1)) ∧
      (c.nextStdin = l.drop (messageSize - 1) ∨
        ∃ rest, c.nextStdin = l.drop (messageSize - 1) ++ 10 :: rest ∧ lines rest = ls) := by
  have hne : c.stdin ≠ [] := fun hnil => by
    rw [hnil] at h
    cases h
  rw [nextMessage_of_ne hne]
  unfold nextStdin
  obtain ⟨h10, ⟨hlast, _, _⟩ | ⟨rest, hline, hrest⟩⟩ := lines_eq_cons h
  · have hpart := fgets_long h10 hlen []
    rw [List.append_nil, List.append_nil] at hpart
    rw [hlast, hpart]
    exact ⟨rfl, Or.inl rfl⟩
  · rw [hline, fgets_long h10 hlen]
    exact ⟨rfl, Or.inr ⟨rest, rfl, hrest⟩⟩

end Console

theorem linesToSend_nil : linesToSend [] = [] := rfl

theorem linesToSend_exit {input : Text} {ls : List Text} (h : lines input = exitLine :: ls) :
    linesToSend input = [] := by
  unfold linesToSend
  rw [h]
  exact List.takeWhile_cons_of_neg (by simp)

theorem linesToSend_cons {input rest l : Text} (h : lines input = l :: lines rest)
    (hl : l ≠ exitLine) : linesToSend input = l :: linesToSend rest := by
  unfold linesToSend
  rw [h]
  exact List.takeWhile_cons_of_pos (by simpa using hl)

/-! ## Such an input is sent -/

/-- **One turn on such an input** ends the loop, with nothing left to send, or sends the next
line. -/
theorem LineByLine.turn {c : Console} (h : LineByLine c.message c.stdin) :
    (c.nextMessage = exitLine ∧ linesToSend c.stdin = []) ∨
      (c.nextMessage ≠ exitLine ∧ c.nextMessage ≠ [] ∧
        linesToSend c.stdin = c.nextMessage :: linesToSend c.nextStdin ∧
        LineByLine c.nextMessage c.nextStdin) := by
  rcases h with ⟨hexit, hall⟩ | ⟨hnil, hmsg⟩
  · cases hlines : lines c.stdin with
    | nil =>
      rw [hlines] at hexit
      cases hexit
    | cons l ls =>
      have h10 := (lines_eq_cons hlines).1
      by_cases hl : l = exitLine
      · subst hl
        obtain ⟨hnext, _⟩ := Console.nextMessage_short hlines (by decide)
        exact Or.inl ⟨hnext, linesToSend_exit hlines⟩
      · right
        have hmessage : IsMessage l := by
          refine hall l ?_
          unfold linesToSend
          rw [hlines, List.takeWhile_cons_of_pos (by simpa using hl)]
          exact List.mem_cons_self ..
        obtain ⟨hnext, hrest⟩ := Console.nextMessage_short hlines hmessage.fits
        rw [cutLine_eq_self hmessage.nul h10] at hnext
        have hsend : linesToSend c.stdin = l :: linesToSend c.nextStdin :=
          linesToSend_cons (hrest ▸ hlines) hl
        rw [hnext]
        refine ⟨hl, hmessage.ne_nil, hsend, Or.inl ⟨?_, fun l' hl' => hall l' ?_⟩⟩
        · rw [hlines, List.mem_cons] at hexit
          exact hrest ▸ hexit.resolve_left (Ne.symm hl)
        · exact hsend ▸ List.mem_cons_of_mem _ hl'
  · refine Or.inl ⟨(Console.nextMessage_of_eof hnil).1.trans hmsg, ?_⟩
    rw [hnil]
    exact linesToSend_nil

namespace Console

theorem turn_exit {c : Console} (h : c.nextMessage = exitLine) :
    c.turn = { c with stdin := c.nextStdin, message := c.nextMessage, place := .ended } := by
  unfold turn
  rw [if_pos h]

theorem turn_send {c : Console} (h : c.nextMessage ≠ exitLine) :
    c.turn = { c with stdin := c.nextStdin, message := c.nextMessage,
                      up := c.up ++ c.nextMessage, place := .reading } := by
  unfold turn
  rw [if_neg h]

/-- The steps the lines still to be sent can take: one answer for each byte, and for each line
its turn and one receipt. -/
def linesRank (input : Text) : Nat :=
  (linesToSend input).flatten.length + 2 * (linesToSend input).length

/-- A bound on the steps that can follow. -/
def rank (c : Console) : Nat :=
  match c.place with
  | .top => linesRank c.stdin + 1 + c.up.length
  | .reading => linesRank c.stdin + 2 + c.up.length
  | .ended => c.up.length

end Console

section

variable {junk input : Text} {h : History Console ConsoleEvent} {c : Console}

/-- What holds while the lines are sent one by one: the lines sent and those to come are the
lines to send, and whoever is in `read` has something to wait for. -/
structure Sending (input : Text) (h : History Console ConsoleEvent) (c : Console) : Prop where
  ready : c.place ≠ .ended → LineByLine c.message c.stdin
  sent : c.place ≠ .ended → observed messageSent h ++ linesToSend c.stdin = linesToSend input
  done : c.place = .ended → observed messageSent h = linesToSend input
  waits : c.place = .reading → c.up ≠ [] ∨ c.down ≠ []

/-- The state part of that, and the rank. -/
theorem ready_step {e : ConsoleEvent} (hready : c.place ≠ .ended → LineByLine c.message c.stdin)
    (hg : c.admits e) :
    ((c.next e).place ≠ .ended → LineByLine (c.next e).message (c.next e).stdin) ∧
      (c.next e).rank < c.rank := by
  cases e with
  | turn =>
    have htop : c.place = .top := hg
    have hbefore : c.rank = Console.linesRank c.stdin + 1 + c.up.length := by
      unfold Console.rank
      rw [htop]
    rw [hbefore]
    rcases (hready (by simp [htop])).turn with ⟨hexit, _⟩ | ⟨hsend, _, hlines, hready'⟩
    · rw [show c.next .turn = c.turn from rfl, Console.turn_exit hexit]
      refine ⟨fun hne => absurd rfl hne, ?_⟩
      show c.up.length < _
      omega
    · rw [show c.next .turn = c.turn from rfl, Console.turn_send hsend]
      refine ⟨fun _ => hready', ?_⟩
      show Console.linesRank c.nextStdin + 2 + (c.up ++ c.nextMessage).length < _
      unfold Console.linesRank
      rw [hlines, List.flatten_cons, List.length_append, List.length_append, List.length_cons]
      omega
  | answer n reply =>
    obtain ⟨hpos, hlen, _⟩ := hg
    refine ⟨hready, ?_⟩
    unfold Console.rank
    show (match c.place with
      | .top => Console.linesRank c.stdin + 1 + (c.up.drop n).length
      | .reading => Console.linesRank c.stdin + 2 + (c.up.drop n).length
      | .ended => (c.up.drop n).length) < _
    rw [List.length_drop]
    cases c.place <;> dsimp only <;> omega
  | recv n =>
    have hreading : c.place = .reading := hg.1
    have hbefore : c.rank = Console.linesRank c.stdin + 2 + c.up.length := by
      unfold Console.rank
      rw [hreading]
    refine ⟨fun _ => hready (by simp [hreading]), ?_⟩
    rw [hbefore]
    show Console.linesRank c.stdin + 1 + c.up.length < _
    omega

theorem sending_run (hinput : LineByLine junk input) (hr : (consoleMachine junk input).Run h c) :
    Sending input h c := by
  refine Machine.Run.invariant_history (P := fun _ => True) (I := Sending input) ?_ ?_ hr
    fun _ _ => trivial
  · exact ⟨fun _ => hinput, fun _ => rfl, nofun, nofun⟩
  · intro h c e _ _ ho hg _
    cases e with
    | turn =>
      have htop : c.place = .top := hg
      have hne : c.place ≠ .ended := by simp [htop]
      have hsent := ho.sent hne
      show Sending input _ c.turn
      rcases (ho.ready hne).turn with ⟨hexit, hnone⟩ | ⟨hsend, hmsg, hlines, hready⟩
      · have hobserved : observed messageSent (⟨c, .turn⟩ :: h) = observed messageSent h :=
          observed_none (messageSent_exit hexit) h
        rw [Console.turn_exit hexit]
        refine ⟨fun hno => absurd rfl hno, fun hno => absurd rfl hno, fun _ => ?_, nofun⟩
        rw [hobserved, ← hsent, hnone, List.append_nil]
      · have hobserved : observed messageSent (⟨c, .turn⟩ :: h) =
            observed messageSent h ++ [c.nextMessage] :=
          observed_some (messageSent_send hsend) h
        rw [Console.turn_send hsend]
        refine ⟨fun _ => hready, fun _ => ?_, nofun,
          fun _ => Or.inl (List.append_ne_nil_of_right_ne_nil _ hmsg)⟩
        rw [hobserved, List.append_assoc]
        show observed messageSent h ++ (c.nextMessage :: linesToSend c.nextStdin) = _
        rw [← hlines, hsent]
    | answer n reply =>
      have hobserved : observed messageSent (⟨c, .answer n reply⟩ :: h) =
          observed messageSent h := observed_none rfl h
      obtain ⟨_, _, _, hreply⟩ := hg
      refine ⟨ho.ready, ?_, ?_, fun _ => Or.inr (List.append_ne_nil_of_right_ne_nil _ hreply)⟩
      · rw [hobserved]
        exact ho.sent
      · rw [hobserved]
        exact ho.done
    | recv n =>
      have hobserved : observed messageSent (⟨c, .recv n⟩ :: h) = observed messageSent h :=
        observed_none rfl h
      have hne : c.place ≠ .ended := by simp [show c.place = .reading from hg.1]
      refine ⟨fun _ => ho.ready hne, fun _ => ?_, nofun, nofun⟩
      rw [hobserved]
      exact ho.sent hne

/-- **Such an input is sent, and the loop ends.** -/
theorem sendsOnce_of_lineByLine (hinput : LineByLine junk input) : SendsOnce junk input where
  ends := by
    refine ⟨(Console.init junk input).rank, fun h c hr => ?_⟩
    have hrank := (hr.length_add_rank_le Console.rank
      (I := fun c => c.place ≠ .ended → LineByLine c.message c.stdin) (fun _ => hinput)
      fun _ _ hready hg => ready_step hready hg).2
    exact Nat.le_trans (Nat.le_add_right _ _) hrank
  sends _ _ hr := (sending_run hinput hr).done
  waits _ _ hr := (sending_run hinput hr).waits

end

/-! ## No other input is -/

section

variable {junk input : Text} {h : History Console ConsoleEvent} {c : Console}

/-- **One round of the loop**, in which the server reads `n` bytes and its reply comes in
one piece. -/
theorem round_run (hr : (consoleMachine junk input).Run h c) (htop : c.place = .top)
    (hsend : c.nextMessage ≠ exitLine) {n : Nat} (hpos : 0 < n)
    (hlen : n ≤ (c.up ++ c.nextMessage).length) (hbuf : n ≤ bufferSize - 1) :
    ∃ h', (consoleMachine junk input).Run h' ⟨c.nextStdin, c.nextMessage,
        (c.up ++ c.nextMessage).drop n, (c.down ++ [10]).drop 1, .top⟩ ∧
      h.length < h'.length ∧
      observed messageSent h' = observed messageSent h ++ [c.nextMessage] := by
  have hturn : (consoleMachine junk input).Run (⟨c, .turn⟩ :: h) _ := hr.step _ htop
  rw [show (consoleMachine junk input).next c .turn = c.turn from rfl,
    Console.turn_send hsend] at hturn
  have hadmits : Console.admits ⟨c.nextStdin, c.nextMessage, c.up ++ c.nextMessage, c.down,
      .reading⟩ (.answer n [10]) := ⟨hpos, hlen, hbuf, by simp⟩
  have hanswer := hturn.step (ConsoleEvent.answer n [10]) hadmits
  have hadmits' : Console.admits ⟨c.nextStdin, c.nextMessage, (c.up ++ c.nextMessage).drop n,
      c.down ++ [10], .reading⟩ (.recv 1) := by
    refine ⟨rfl, Nat.one_pos, ?_, by decide⟩
    show 1 ≤ (c.down ++ [10]).length
    rw [List.length_append]
    exact Nat.le_add_left _ _
  have hrecv := hanswer.step (ConsoleEvent.recv 1) hadmits'
  refine ⟨_, hrecv, ?_, ?_⟩
  · simp only [List.length_cons]
    omega
  · rw [observed_none rfl, observed_none rfl]
    exact observed_some (messageSent_send hsend) h

/-- **At the end of the input the last message is sent again and again.** -/
theorem repeats (hr : (consoleMachine junk input).Run h c) (htop : c.place = .top)
    (hnil : c.stdin = []) (hne : cutLine c.message ≠ []) (hexit : cutLine c.message ≠ exitLine)
    (k : Nat) : ∃ h' c', (consoleMachine junk input).Run h' c' ∧ k ≤ h'.length := by
  suffices hgo : ∃ h' c', (consoleMachine junk input).Run h' c' ∧ k ≤ h'.length ∧
      c'.place = .top ∧ c'.stdin = [] ∧ cutLine c'.message = cutLine c.message by
    obtain ⟨h', c', hr', hlong, _⟩ := hgo
    exact ⟨h', c', hr', hlong⟩
  induction k with
  | zero => exact ⟨h, c, hr, Nat.zero_le _, htop, hnil, rfl⟩
  | succ k ih =>
    obtain ⟨h', c', hr', hlong, htop', hnil', hsame⟩ := ih
    obtain ⟨hnext, hrest⟩ := Console.nextMessage_of_eof hnil'
    rw [hsame] at hnext
    obtain ⟨h'', hr'', hlonger, _⟩ := round_run hr' htop' (by rw [hnext]; exact hexit) Nat.one_pos
      (by
        rw [hnext, List.length_append]
        have := List.length_pos_iff.mpr hne
        omega)
      (by decide)
    refine ⟨h'', _, hr'', by omega, rfl, hrest, ?_⟩
    show cutLine c'.nextMessage = _
    rw [hnext, cutLine_eq_self (not_mem_cutLine _).1 (not_mem_cutLine _).2]

/-- The loop is at its top, and nothing is under way. -/
structure Quiet (c : Console) : Prop where
  top : c.place = .top
  up : c.up = []
  down : c.down = []

namespace SendsOnce

/-- Nothing to be sent means waiting for a reply to nothing. -/
theorem nextMessage_ne_nil (hs : SendsOnce junk input)
    (hr : (consoleMachine junk input).Run h c) (hq : Quiet c) : c.nextMessage ≠ [] := by
  intro hnil
  have hsend : c.nextMessage ≠ exitLine := by
    rw [hnil]
    decide
  have hturn : (consoleMachine junk input).Run (⟨c, .turn⟩ :: h) _ := hr.step _ hq.top
  rw [show (consoleMachine junk input).next c .turn = c.turn from rfl,
    Console.turn_send hsend] at hturn
  rcases hs.waits _ _ hturn rfl with hup | hdown
  · exact hup (List.append_eq_nil_iff.mpr ⟨hq.up, hnil⟩)
  · exact hdown hq.down

/-- The input can only end where the message already says `exit`. -/
theorem exit_of_eof (hs : SendsOnce junk input) (hr : (consoleMachine junk input).Run h c)
    (hq : Quiet c) (hnil : c.stdin = []) : cutLine c.message = exitLine := by
  by_contra hexit
  have hne := hs.nextMessage_ne_nil hr hq
  rw [(Console.nextMessage_of_eof hnil).1] at hne
  obtain ⟨bound, hbound⟩ := hs.ends
  obtain ⟨h', c', hr', hlong⟩ := repeats hr hq.top hnil hne hexit (bound + 1)
  have := hbound h' c' hr'
  omega

/-- Every run goes on until the loop is left. -/
theorem goes_on (hs : SendsOnce junk input) (hr : (consoleMachine junk input).Run h c) :
    observed messageSent h <+: linesToSend input := by
  have hgo : ∀ h c, (consoleMachine junk input).Run h c → ¬ c.place = .ended →
      ∃ e, (consoleMachine junk input).guard c e := by
    intro h c hr hnot
    cases hplace : c.place with
    | top => exact ⟨.turn, hplace⟩
    | reading =>
      rcases hs.waits h c hr hplace with hup | hdown
      · exact ⟨.answer 1 [10], Nat.one_pos, List.length_pos_iff.mpr hup, by decide, by simp⟩
      · exact ⟨.recv 1, hplace, Nat.one_pos, List.length_pos_iff.mpr hdown, by decide⟩
    | ended => exact absurd hplace hnot
  obtain ⟨bound, hbound⟩ := hs.ends
  obtain ⟨newer, c', hr', hended⟩ := hr.extends_to_final hbound hgo
  rw [← hs.sends _ _ hr' hended]
  exact observed_append ..

/-- **What is sent next is the next line**, if there is one and it is not `exit`. -/
theorem nextMessage_eq (hs : SendsOnce junk input) (hr : (consoleMachine junk input).Run h c)
    (hq : Quiet c) {l : Text} {ls : List Text}
    (hsent : observed messageSent h ++ l :: ls = linesToSend input) :
    c.nextMessage = l ∧ l ≠ exitLine := by
  have hturn : (consoleMachine junk input).Run (⟨c, .turn⟩ :: h) _ := hr.step _ hq.top
  rw [show (consoleMachine junk input).next c .turn = c.turn from rfl] at hturn
  by_cases hexit : c.nextMessage = exitLine
  · -- the loop is left although there is a line to send
    rw [Console.turn_exit hexit] at hturn
    have hall := hs.sends _ _ hturn rfl
    rw [observed_none (messageSent_exit hexit), ← hsent] at hall
    exact absurd hall.symm (by simp)
  · have hpre := hs.goes_on hturn
    rw [observed_some (messageSent_send hexit), ← hsent, List.prefix_append_right_inj,
      List.cons_prefix_cons] at hpre
    exact ⟨hpre.1, hpre.1 ▸ hexit⟩

/-- The next line is one message. -/
theorem isMessage (hs : SendsOnce junk input) (hr : (consoleMachine junk input).Run h c)
    (hq : Quiet c) {l : Text} {ls : List Text} (hlines : lines c.stdin = l :: ls)
    (hl : l ≠ exitLine) (hnext : c.nextMessage = l) : IsMessage l := by
  have hne : l ≠ [] := hnext ▸ hs.nextMessage_ne_nil hr hq
  have hnul : ∀ t, cutLine t = l → 0 ∉ l := fun t ht => ht ▸ (not_mem_cutLine t).1
  rcases Nat.lt_or_ge l.length (messageSize - 1) with hlen | hlen
  · obtain ⟨hcut, _⟩ := Console.nextMessage_short hlines hlen
    exact ⟨hne, hnul l (hcut.symm.trans hnext), hlen⟩
  · -- the line fills the array, so its newline is left and read as a line of its own
    obtain ⟨hcut, hrest⟩ := Console.nextMessage_long hlines hlen
    have htake : cutLine (l.take (messageSize - 1)) = l := hcut.symm.trans hnext
    have hsize : l.length = messageSize - 1 := by
      have hle : (cutLine (l.take (messageSize - 1))).length ≤ (l.take (messageSize - 1)).length :=
        (List.takeWhile_prefix _).length_le
      rw [htake, List.length_take] at hle
      omega
    have hdrop : l.drop (messageSize - 1) = [] := List.drop_of_length_le (Nat.le_of_eq hsize)
    obtain ⟨h', hr', _, _⟩ := round_run hr hq.top (by rw [hnext]; exact hl)
      (n := (c.up ++ c.nextMessage).length)
      (by rw [hq.up, hnext]; exact List.length_pos_iff.mpr hne) (Nat.le_refl _)
      (by rw [hq.up, hnext, List.nil_append, hsize]; decide)
    have hq' : Quiet ⟨c.nextStdin, c.nextMessage,
        (c.up ++ c.nextMessage).drop (c.up ++ c.nextMessage).length, (c.down ++ [10]).drop 1,
        .top⟩ := ⟨rfl, List.drop_length, by rw [hq.down]; rfl⟩
    rw [hdrop] at hrest
    rcases hrest with heof | ⟨rest, hnewline, _⟩
    · refine absurd ?_ hl
      have hexit := hs.exit_of_eof hr' hq' heof
      rw [← hexit]
      show l = cutLine c.nextMessage
      rw [hnext]
      have hcutl : 0 ∉ l ∧ 10 ∉ l := htake ▸ not_mem_cutLine _
      exact (cutLine_eq_self hcutl.1 hcutl.2).symm
    · refine absurd ?_ (hs.nextMessage_ne_nil hr' hq')
      rw [Console.nextMessage_of_ne (by show c.nextStdin ≠ []; rw [hnewline]; simp)]
      show cutLine (fgets (messageSize - 1) c.nextStdin).1 = []
      rw [hnewline]
      rfl

/-- **What such an input must be**, from any quiet moment on, by induction on the lines
left. -/
theorem lineByLine (hs : SendsOnce junk input) {ls : List Text} :
    ∀ {h : History Console ConsoleEvent} {c : Console}, (consoleMachine junk input).Run h c →
      Quiet c → lines c.stdin = ls →
      observed messageSent h ++ linesToSend c.stdin = linesToSend input →
      LineByLine c.message c.stdin := by
  induction ls with
  | nil =>
    intro h c hr hq hlines _
    have hnil := lines_eq_nil.mp hlines
    exact Or.inr ⟨hnil, hs.exit_of_eof hr hq hnil⟩
  | cons l ls ih =>
    intro h c hr hq hlines hsent
    by_cases hl : l = exitLine
    · subst hl
      refine Or.inl ⟨by rw [hlines]; exact List.mem_cons_self .., ?_⟩
      rw [linesToSend_exit hlines]
      exact List.forall_mem_nil _
    · have hfirst : linesToSend c.stdin = l :: ls.takeWhile (· != exitLine) := by
        unfold linesToSend
        rw [hlines, List.takeWhile_cons_of_pos (by simpa using hl)]
      obtain ⟨hnext, _⟩ := hs.nextMessage_eq hr hq (hfirst ▸ hsent)
      have hmessage := hs.isMessage hr hq hlines hl hnext
      obtain ⟨_, hrest⟩ := Console.nextMessage_short hlines hmessage.fits
      have hsend : linesToSend c.stdin = l :: linesToSend c.nextStdin :=
        linesToSend_cons (hrest ▸ hlines) hl
      -- one round later the moment is quiet again
      obtain ⟨h', hr', _, hobserved⟩ := round_run hr hq.top (by rw [hnext]; exact hl)
        (n := (c.up ++ c.nextMessage).length)
        (by rw [hq.up, hnext]; exact List.length_pos_iff.mpr hmessage.ne_nil) (Nat.le_refl _)
        (by
          have := hmessage.fits
          unfold messageSize at this
          rw [hq.up, hnext, List.nil_append]
          unfold bufferSize
          omega)
      have hlater := ih hr' ⟨rfl, List.drop_length, by rw [hq.down]; rfl⟩ hrest (by
        rw [hobserved, hnext, List.append_assoc, List.singleton_append]
        exact hsend ▸ hsent)
      rcases hlater with ⟨hexit, hall⟩ | ⟨_, hexit⟩
      · refine Or.inl ⟨?_, ?_⟩
        · rw [hlines]
          exact List.mem_cons_of_mem _ (hrest ▸ hexit)
        · rw [hsend]
          exact List.forall_mem_cons.mpr ⟨hmessage, hall⟩
      · refine absurd ?_ hl
        rw [← hexit]
        show l = cutLine c.nextMessage
        rw [hnext]
        exact (cutLine_eq_self hmessage.nul (lines_eq_cons hlines).1).symm

end SendsOnce

end

/-- **The loop sends its input line by line and ends exactly if** an `exit` line ends it and
each line before is one message: not empty, without NUL, and short enough for the array with
its newline. For every server that answers each chunk, and every way TCP delivers. -/
theorem sends_once_iff (junk input : Text) : SendsOnce junk input ↔ LineByLine junk input := by
  refine ⟨fun hs => ?_, sendsOnce_of_lineByLine⟩
  exact hs.lineByLine .init ⟨rfl, rfl, rfl⟩ rfl rfl

example : LineByLine [] (bytes "login a p\nsend hi\nexit\nnot read") := by decide
example : ¬ LineByLine [] (bytes "login a p\n\nexit\n") := by decide

/-- Not every input is sent so: without an `exit` line the loop does not end. -/
theorem last_line_repeated : ¬ ∀ junk input : Text, SendsOnce junk input := by
  intro hall
  rcases (hall [] (bytes "show\n")).lineByLine .init ⟨rfl, rfl, rfl⟩ rfl rfl with
    ⟨hexit, _⟩ | ⟨hnil, _⟩
  · exact absurd hexit (by decide)
  · exact absurd hnil (by decide)

end SocialNetwork.Client
