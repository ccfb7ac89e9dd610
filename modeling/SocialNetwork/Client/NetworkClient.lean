import SocialNetwork.Server.Writes

/-!
# `NetworkClient` and its connection

`Link` is one connection of the client, seen from both ends: the server at its other end,
whether the client's socket is open, and the bytes in flight, `up` from the client to the
server and `down` back. TCP keeps their order and nothing else, so each `read` and each
`recv` takes any number of the bytes that wait, up to its buffer.

`sendCommand` has two halves, with the server's work between them: `Link.send` writes the
command, `Link.receive` returns from `recv`. Its error returns are `notConnected`,
`sendFailed` and `noResponse`.
-/

namespace SocialNetwork.Client

open SocialNetwork.Lib SocialNetwork.Server

/-- `sizeof(buffer) - 1`. -/
def recvSize : Nat := 2047

/-- `fullCmd`. No caller passes an empty command, whose `back()` would be undefined. -/
def fullCmd (cmd : Text) : Text := if cmd.getLast? = some 10 then cmd else cmd ++ [10]

/-- `std::string(buffer)` of a zeroed buffer that `data` was received into. -/
def bufferText (data : Text) : Text := data.takeWhile (· != 0)

def notConnected : Text := bytes "ERROR Not connected\n"

def sendFailed : Text := bytes "ERROR Send failed\n"

def noResponse : Text := bytes "ERROR Server did not respond\n"

/-- A connection, whose socket is in one slot of the server. -/
structure Link where
  server : LoopState
  connected : Bool
  up : Text
  down : Text

namespace Link

/-- `send(sock, …)` took the whole command. -/
def send (k : Link) (cmd : Text) : Link := { k with up := k.up ++ fullCmd cmd }

/-- `disconnect()`. -/
def disconnect (k : Link) : Link := { k with connected := false }

/-- `recv` returned `n` bytes. -/
def receive (k : Link) (n : Nat) : Link := { k with down := k.down.drop n }

/-- What `sendCommand` returns after that. -/
def received (k : Link) (n : Nat) : Text := bufferText (k.down.take n)

/-- The event in which the server reads `n` bytes of the connection on slot `i`. -/
def readEvent (k : Link) (i : Slot) (env : Env) (n : Nat) : Event := .recv i env (k.up.take n)

/-- The response to that read. -/
def response (hasher : Text → Nat) (k : Link) (i : Slot) (env : Env) (n : Nat) : Text :=
  (handle hasher env (k.server.clientSocket i) (k.up.take n) k.server.app).1

/-- The server reads `n` bytes, runs what they say and sends the response. -/
def read (hasher : Text → Nat) (k : Link) (i : Slot) (env : Env) (n : Nat) : Link :=
  { k with
    server := next hasher k.server (k.readEvent i env n)
    up := k.up.drop n
    down := k.down ++ k.response hasher i env n }

/-- The server does something else. -/
def elsewhere (hasher : Text → Nat) (k : Link) (e : Event) : Link :=
  { k with server := next hasher k.server e }

/-- The descriptor the server serves the connection on. -/
def sd (k : Link) (i : Slot) : Int := k.server.clientSocket i

end Link

/-- The slot an event is about. -/
def slotOf : Event → Option Slot
  | .accept _ => none
  | .hangup i => some i
  | .recv i _ _ => some i

theorem fullCmd_ne_nil (cmd : Text) : fullCmd cmd ≠ [] := by
  unfold fullCmd
  split
  next h =>
    intro hnil
    rw [hnil] at h
    cases h
  next => simp

/-- A command with a fixed start keeps it. -/
theorem fullCmd_append (pre rest : Text) : ∃ rest', fullCmd (pre ++ rest) = pre ++ rest' := by
  unfold fullCmd
  split
  · exact ⟨rest, rfl⟩
  · exact ⟨rest ++ [10], List.append_assoc ..⟩

/-! ## How the server parses a command -/

/-- Neither NUL nor a line end. -/
def isInner (b : UInt8) : Bool := b != 0 && b != 10 && b != 13

theorem isInner_iff {b : UInt8} : isInner b = true ↔ b ≠ 0 ∧ b ≠ 10 ∧ b ≠ 13 := by
  unfold isInner
  rw [Bool.and_eq_true, Bool.and_eq_true, bne_iff_ne, bne_iff_ne, bne_iff_ne, and_assoc]

/-- Trimming leaves a start without NUL and line ends alone. -/
theorem inputOf_append {pre : Text} (hpre : ∀ b ∈ pre, isInner b = true) (rest : Text) :
    inputOf (pre ++ rest) = pre ++ inputOf rest := by
  have hnul : ∀ b ∈ pre, (b != 0) = true := by
    intro b hb
    rw [bne_iff_ne]
    exact (isInner_iff.mp (hpre b hb)).1
  have hstop : ∀ b ∈ pre.reverse.head?, (b == 10 || b == 13) = false := by
    intro b hb
    have hmem := List.mem_reverse.mp (List.mem_of_mem_head? hb)
    obtain ⟨_, h10, h13⟩ := isInner_iff.mp (hpre b hmem)
    rw [Bool.or_eq_false_iff, beq_eq_false_iff_ne, beq_eq_false_iff_ne]
    exact ⟨h10, h13⟩
  unfold inputOf trimLineEnd
  rw [List.takeWhile_append_of_pos hnul, List.reverse_append]
  -- trimming stops at the latest where `pre` ends
  have htrim : ∀ t : Text, (t ++ pre.reverse).dropWhile (fun b => b == 10 || b == 13) =
      t.dropWhile (fun b => b == 10 || b == 13) ++ pre.reverse := by
    intro t
    induction t with
    | nil =>
      cases hrev : pre.reverse with
      | nil => rfl
      | cons b r =>
        rw [hrev] at hstop
        rw [List.nil_append, List.dropWhile_cons_of_neg (by simp [hstop b rfl])]
        rfl
    | cons b t ih =>
      rw [List.cons_append, List.dropWhile_cons, List.dropWhile_cons, ih]
      split
      · rfl
      · rfl
  rw [htrim, List.reverse_append, List.reverse_reverse]

end SocialNetwork.Client
