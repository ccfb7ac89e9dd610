import Mathlib.Data.Finset.Insert
import Mathlib.Data.Fintype.Basic
import SocialNetwork.Lib.Transition
import SocialNetwork.Server.Execute

/-!
# The server loop

`LoopState` is what `main` keeps between passes of its `while (true)`: the singletons,
`client_socket`, `master_set`, and (of the kernel) the set of descriptors it has
open. One pass calls `select`, may `accept` one connection, and then serves the
slots in order. `Event` cuts a pass into the parts that touch one descriptor:

* `accept fd`: `accept` returned `fd`, which goes into the first free slot, *if
  there is one*, and into `master_set` either way;
* `hangup i`: `read` on slot `i` returned 0;
* `recv i env data`: `read` on slot `i` returned the bytes `data`. A failed read
  (`valread < 0`) leaves the zeroed buffer and is `data = []`; the real process
  gets no further than the `send` of its reply, where it dies of SIGPIPE, and
  that `machine` goes on after it only adds runs.

`machine` takes these events in any order. `Server/Turns` has the loop body as
written, with what ends the process, and shows that each pass is a run of `machine`.
-/

namespace SocialNetwork.Server

open SocialNetwork.Lib

/-- `MAX_CLIENTS`. -/
def maxClients : Nat := 30

/-- `BUFFER_SIZE`. -/
def bufferSize : Nat := 1024

/-- A position of `client_socket`. -/
abbrev Slot := Fin maxClients

instance : @NeZero Nat Zero.ofOfNat0 maxClients := ⟨Nat.succ_ne_zero 29⟩

structure LoopState where
  app : App
  serverSocket : Int
  clientSocket : Slot → Int
  masterSet : Finset Int
  opened : Finset Int

/-- The state in which `main` enters its loop. -/
def LoopState.init (serverSocket : Int) : LoopState where
  app := App.init
  serverSocket := serverSocket
  clientSocket := fun _ => 0
  masterSet := {serverSocket}
  opened := {serverSocket}

inductive Event
  | accept (fd : Int)
  | hangup (i : Slot)
  | recv (i : Slot) (env : Env) (data : Text)

/-- `input.erase(input.find_last_not_of("\n\r") + 1)`. -/
def trimLineEnd (input : Text) : Text :=
  (input.reverse.dropWhile fun b => b == 10 || b == 13).reverse

/-- `string input(buffer)`, trimmed: the buffer is zeroed before the read. -/
def inputOf (data : Text) : Text := trimLineEnd (data.takeWhile (· != 0))

/-- Parse one read, run the command and produce the response. -/
def handle (hasher : Text → Nat) (env : Env) (sd : Int) (data : Text) (a : App) : Text × App :=
  match CommandFactory.create env.junk (inputOf data) with
  | none => (bytes "ERROR Unknown command\n", a)
  | some cmd => execute hasher env sd a cmd

theorem handle_of_none (hasher : Text → Nat) (env : Env) (sd : Int) {data : Text} (a : App)
    (h : CommandFactory.create env.junk (inputOf data) = none) :
    handle hasher env sd data a = (bytes "ERROR Unknown command\n", a) := by
  unfold handle
  rw [h]

theorem handle_of_some (hasher : Text → Nat) (env : Env) (sd : Int) {data : Text} (a : App)
    {cmd : Command} (h : CommandFactory.create env.junk (inputOf data) = some cmd) :
    handle hasher env sd data a = execute hasher env sd a cmd := by
  unfold handle
  rw [h]

/-- The first slot whose entry is 0. -/
def freeSlot (clientSocket : Slot → Int) : Option Slot :=
  (List.finRange maxClients).find? fun i => clientSocket i == 0

/-- `accept` returned `fd`. -/
def LoopState.acceptFd (s : LoopState) (fd : Int) : LoopState :=
  { s with
    clientSocket :=
      match freeSlot s.clientSocket with
      -- all slots taken: the descriptor is watched but served by nobody
      | none => s.clientSocket
      | some i => Function.update s.clientSocket i fd
    masterSet := insert fd s.masterSet
    opened := insert fd s.opened }

/-- `read` on slot `i` returned 0: log out, close, clear. -/
def LoopState.hangupSlot (s : LoopState) (i : Slot) : LoopState :=
  { s with
    app := { s.app with sessions := s.app.sessions.logout (s.clientSocket i) }
    clientSocket := Function.update s.clientSocket i 0
    masterSet := s.masterSet.erase (s.clientSocket i)
    opened := s.opened.erase (s.clientSocket i) }

/-- `read` on slot `i` returned `data`. -/
def LoopState.recvSlot (hasher : Text → Nat) (s : LoopState) (i : Slot) (env : Env) (data : Text) :
    LoopState :=
  { s with app := (handle hasher env (s.clientSocket i) data s.app).2 }

/-- Which events the kernel can deliver: `accept` returns a positive descriptor
that is not open, `select` reports members of `master_set`, a read fills at most
the buffer less its terminator. -/
def admits (s : LoopState) : Event → Prop
  | .accept fd => 0 < fd ∧ fd ∉ s.opened
  | .hangup i => 0 < s.clientSocket i ∧ s.clientSocket i ∈ s.masterSet
  | .recv i _ data =>
    (0 < s.clientSocket i ∧ s.clientSocket i ∈ s.masterSet) ∧ data.length ≤ bufferSize - 1

instance : ∀ (s : LoopState) (e : Event), Decidable (admits s e)
  | s, .accept fd => inferInstanceAs (Decidable (0 < fd ∧ fd ∉ s.opened))
  | s, .hangup i =>
    inferInstanceAs (Decidable (0 < s.clientSocket i ∧ s.clientSocket i ∈ s.masterSet))
  | s, .recv i _ data =>
    inferInstanceAs (Decidable
      ((0 < s.clientSocket i ∧ s.clientSocket i ∈ s.masterSet) ∧ data.length ≤ bufferSize - 1))

def next (hasher : Text → Nat) (s : LoopState) : Event → LoopState
  | .accept fd => s.acceptFd fd
  | .hangup i => s.hangupSlot i
  | .recv i env data => s.recvSlot hasher i env data

/-- The server as an event-driven machine. -/
def machine (hasher : Text → Nat) (serverSocket : Int) : Machine LoopState Event where
  init := LoopState.init serverSocket
  guard := admits
  next := next hasher

instance (hasher : Text → Nat) (serverSocket : Int) :
    ∀ s e, Decidable ((machine hasher serverSocket).guard s e) :=
  fun s e => inferInstanceAs (Decidable (admits s e))

/-- Deliver events to a fresh server. -/
def runEvents (hasher : Text → Nat) (serverSocket : Int) (es : List Event) :
    Option (History LoopState Event × LoopState) :=
  (machine hasher serverSocket).replay es ([], LoopState.init serverSocket)

/-- An environment without failures that returns rows in table order. -/
def Env.plain : Env where
  fails _ _ := false
  order _ _ _ := 0
  now := bytes "2024-01-01 00:00:00"
  junk := 0

theorem Env.plain_sound : Env.plain.Sound := fun _ _ => rfl

/-- A client line that arrives in one read on slot `i`. -/
def Event.line (i : Slot) (text : String) : Event := .recv i Env.plain (bytes text)

/-! ## Reading a step of the history -/

/-- The descriptor an event is about. -/
def sdOf (x : Step LoopState Event) : Int :=
  match x.event with
  | .accept fd => fd
  | .hangup i => x.pre.clientSocket i
  | .recv i _ _ => x.pre.clientSocket i

/-- The command a step executed. -/
def commandOf (x : Step LoopState Event) : Option Command :=
  match x.event with
  | .recv _ env data => CommandFactory.create env.junk (inputOf data)
  | _ => none

/-- The user logged in on the step's descriptor when it was taken. -/
def issuerOf (x : Step LoopState Event) : Option Text := x.pre.app.sessions.sessions (sdOf x)

/-- The response a step sent. -/
def replyOf (hasher : Text → Nat) (x : Step LoopState Event) : Option Text :=
  match x.event with
  | .recv i env data => some (handle hasher env (x.pre.clientSocket i) data x.pre.app).1
  | _ => none

/-- The step replied OK. -/
def repliedOk (hasher : Text → Nat) (x : Step LoopState Event) : Bool :=
  match replyOf hasher x with
  | some reply => isOk reply
  | none => false

/-- SQLite executes the statements of this event as written. -/
def Event.Sound : Event → Prop
  | .recv _ env _ => env.Sound
  | _ => True

@[simp] theorem Event.sound_accept (fd : Int) : (Event.accept fd).Sound := trivial

@[simp] theorem Event.sound_hangup (i : Slot) : (Event.hangup i).Sound := trivial

@[simp] theorem Event.sound_line (i : Slot) (text : String) : (Event.line i text).Sound :=
  Env.plain_sound

/-- SQLite executed the statements of this step as written. -/
def SoundStep (x : Step LoopState Event) : Prop := x.event.Sound

theorem SoundStep.env {x : Step LoopState Event} {i : Slot} {env : Env} {data : Text}
    (h : SoundStep x) (he : x.event = .recv i env data) : env.Sound := by
  unfold SoundStep at h
  rw [he] at h
  exact h

/-- A run without failures can be evaluated: what holds of its history and its last state
is read off the replay. -/
theorem runEvents_exists (hasher : Text → Nat) (serverSocket : Int) (es : List Event)
    {p : History LoopState Event → LoopState → Prop} [∀ h s, Decidable (p h s)]
    (hes : ∀ e ∈ es, e.Sound)
    (hp : (runEvents hasher serverSocket es).any (fun r => decide (p r.1 r.2)) = true) :
    ∃ h s, runEvents hasher serverSocket es = some (h, s) ∧
      (machine hasher serverSocket).Run h s ∧ (∀ x ∈ h, SoundStep x) ∧ p h s := by
  obtain ⟨⟨h, s⟩, hr, hrun, hsound, hp⟩ := Machine.Run.replay_exists hes hp
  exact ⟨h, s, hr, hrun, hsound, hp⟩

end SocialNetwork.Server
