import SocialNetwork.Authority.Ownership
import SocialNetwork.Client.MessagesWindow

/-!
# The conversation the window shows and the one the server has open

`Desk` is one messages window on a logged-in connection, with the server at the other
end. Its machine interleaves the user's actions, the two halves of every `sendCommand`,
the reads of the server, and whatever the server does for others.

The selection is kept twice: `currentConversationId` in the window, the open conversation
in the session. `Synced` relates the two at every moment, also while an `open` is on its
way. `selection_shown` proves it for all runs that stay in step, click conversations of
the user and create no group: `group` opens the new conversation on the server, and
`onNewGroupClicked` does not notice.
-/

namespace SocialNetwork.Client

open SocialNetwork.Lib SocialNetwork.Server

variable {hasher : Text → Nat} {serverSocket : Int} {i : Slot} {u : Text}

/-! ## The machine -/

structure Desk where
  link : Link
  window : MessagesWindow
  phase : Phase

/-- The constructor of the window is about to call `loadConversations`; `down` may hold
bytes that an earlier call left behind. -/
def Desk.opened (server : LoopState) (down : Text) : Desk where
  link := ⟨server, true, [], down⟩
  window := .fresh
  phase := .calling .chats

inductive DeskEvent
  /-- A slot function starts. -/
  | act (a : Action)
  /-- `send` takes the command, or fails. -/
  | send (ok : Bool)
  /-- The server reads `n` bytes of this connection. -/
  | read (env : Env) (n : Nat)
  /-- `recv` returns `n` bytes, or fails. -/
  | recv (n : Option Nat)
  /-- The server does something else. -/
  | server (e : Event)

/-- The call that is about to send. -/
def Phase.toSend : Phase → Option Call
  | .calling c => some c
  | _ => none

/-- The call that waits for its response. -/
def Phase.toReceive : Phase → Option Call
  | .awaiting c => some c
  | _ => none

/-- What can happen: the window's thread blocks in its calls, reads and receipts fit their
buffers, and a slot in use is not given to another connection. -/
def Desk.admits (i : Slot) (d : Desk) : DeskEvent → Prop
  | .act _ => d.phase = .idle
  | .send ok => d.phase.toSend ≠ none ∧ (ok = true → d.link.connected = true)
  | .read env n => 0 < n ∧ n ≤ d.link.up.length ∧
      Server.admits d.link.server (d.link.readEvent i env n)
  | .recv none => d.phase.toReceive ≠ none
  | .recv (some n) => d.phase.toReceive ≠ none ∧ 0 < n ∧ n ≤ d.link.down.length ∧ n ≤ recvSize
  | .server e => (d.link.connected = true → slotOf e ≠ some i) ∧ Server.admits d.link.server e

instance (i : Slot) (d : Desk) (e : DeskEvent) : Decidable (d.admits i e) := by
  unfold Desk.admits
  split
  · infer_instance
  · infer_instance
  · infer_instance
  · infer_instance
  · infer_instance
  · infer_instance

/-- A slot function goes on with the response to the call it waits in. -/
def Desk.resume (d : Desk) (c : Option Call) (response : Text) : Desk :=
  match c with
  | none => d
  | some c =>
    let (window, phase) := d.window.resume c response
    { d with window := window, phase := phase }

def Desk.next (hasher : Text → Nat) (i : Slot) (d : Desk) : DeskEvent → Desk
  | .act a =>
    let (window, phase) := d.window.start a
    { d with window := window, phase := phase }
  | .send true =>
    match d.phase with
    | .calling c => { d with link := d.link.send c.command, phase := .awaiting c }
    | _ => d
  | .send false =>
    if d.link.connected then
      { d with link := d.link.disconnect }.resume d.phase.toSend sendFailed
    else d.resume d.phase.toSend notConnected
  | .read env n => { d with link := d.link.read hasher i env n }
  | .recv none => d.resume d.phase.toReceive noResponse
  | .recv (some n) =>
    { d with link := d.link.receive n }.resume d.phase.toReceive (d.link.received n)
  | .server e => { d with link := d.link.elsewhere hasher e }

/-- One messages window, opened when the server is in the state `server`. -/
def deskMachine (hasher : Text → Nat) (i : Slot) (server : LoopState) (down : Text) :
    Machine Desk DeskEvent where
  init := .opened server down
  guard := Desk.admits i
  next := Desk.next hasher i

instance (hasher : Text → Nat) (i : Slot) (server : LoopState) (down : Text) :
    ∀ d e, Decidable ((deskMachine hasher i server down).guard d e) :=
  fun d e => inferInstanceAs (Decidable (d.admits i e))

/-! ## What is claimed and what it takes -/

/-- The window shows what the server has open: whenever no slot function is running the
two selections are the same, and a message the server accepts is stored in the
conversation the window shows. -/
structure SelectionShown (hasher : Text → Nat) (i : Slot) (h : History Desk DeskEvent)
    (d : Desk) : Prop where
  agrees : ∀ d' ∈ visited h d, d'.phase = .idle →
    d'.link.server.app.sessions.getCurrentConversation (d'.link.sd i) =
      d'.window.currentConversationId
  delivered : ∀ x ∈ h, ∀ text env n, x.pre.phase = .awaiting (.send text) →
    x.event = .read env n → isOk (x.pre.link.response hasher i env n) = true →
      ∃ m, (x.pre.link.read hasher i env n).server.app.db.messages.rows =
          x.pre.link.server.app.db.messages.rows ++ [m] ∧
        m.conversationId = x.pre.window.currentConversationId

/-- SQLite executes the statements of the command as written. -/
def DeskEvent.Sound : DeskEvent → Prop
  | .read env _ => env.Sound
  | _ => True

@[simp] theorem DeskEvent.sound_act (a : Action) : (DeskEvent.act a).Sound := trivial

@[simp] theorem DeskEvent.sound_send (ok : Bool) : (DeskEvent.send ok).Sound := trivial

@[simp] theorem DeskEvent.sound_recv (n : Option Nat) : (DeskEvent.recv n).Sound := trivial

@[simp] theorem DeskEvent.sound_read_plain (n : Nat) : (DeskEvent.read Env.plain n).Sound :=
  Env.plain_sound

/-- The calls stay in step: `send` succeeds, the server reads each command at once, and
has read it when `recv` returns. -/
def InStep (x : Step Desk DeskEvent) : Prop :=
  match x.event with
  | .send ok => ok = true
  | .read _ n => n = x.pre.link.up.length
  | .recv _ => x.pre.link.up = []
  | _ => True

/-- A clicked item is a conversation of the user. -/
def OwnClick (i : Slot) (x : Step Desk DeskEvent) : Prop :=
  match x.event with
  | .act (.click row) => ∀ item ∈ x.pre.window.conversationsList[row]?,
    ∀ u ∈ x.pre.link.server.app.sessions.sessions (x.pre.link.sd i),
      Member x.pre.link.server.app.db item.conversationId u
  | _ => True

/-- A `group` request the server reads names somebody who is not registered. -/
def CreatesNoGroup (x : Step Desk DeskEvent) : Prop :=
  match x.event with
  | .read env n =>
    match CommandFactory.create env.junk (inputOf (x.pre.link.up.take n)) with
    | some (.group users) => ∃ w ∈ users, ¬ Registered x.pre.link.server.app.db w
    | _ => True
  | _ => True

instance (x : Step Desk DeskEvent) : Decidable (InStep x) := by
  unfold InStep
  split
  · infer_instance
  · infer_instance
  · infer_instance
  · infer_instance

instance (i : Slot) (x : Step Desk DeskEvent) : Decidable (OwnClick i x) := by
  unfold OwnClick
  split
  · infer_instance
  · infer_instance

instance (x : Step Desk DeskEvent) : Decidable (CreatesNoGroup x) := by
  unfold CreatesNoGroup
  split
  · split
    · infer_instance
    · infer_instance
  · infer_instance

/-- What the steps of a run must meet. -/
structure Orderly (i : Slot) (x : Step Desk DeskEvent) : Prop where
  inStep : InStep x
  ownClick : OwnClick i x
  noGroup : CreatesNoGroup x

/-! ## The server's side -/

/-- What the server does for others leaves the slot and the session of the connection
alone. -/
theorem elsewhere_frame (hasher : Text → Nat) {s : LoopState} {e : Event} (ht : Tracked s)
    (hi : s.clientSocket i ≠ 0) (hg : Server.admits s e) (he : slotOf e ≠ some i) :
    (next hasher s e).clientSocket i = s.clientSocket i ∧
      (next hasher s e).app.sessions.sessions (s.clientSocket i) =
        s.app.sessions.sessions (s.clientSocket i) ∧
      (next hasher s e).app.sessions.currentConversation (s.clientSocket i) =
        s.app.sessions.currentConversation (s.clientSocket i) := by
  cases e with
  | accept fd => exact ⟨acceptFd_slot_of_ne fd hi, rfl, rfl⟩
  | hangup j =>
    have hij : i ≠ j := by
      intro heq
      subst heq
      exact he rfl
    -- no descriptor is in two slots
    have hne : s.clientSocket i ≠ s.clientSocket j := fun heq => hij (ht.distinct i j hi heq)
    exact ⟨Function.update_of_ne hij .., SessionManager.logout_sessions_ne hne,
      SessionManager.logout_currentConversation_ne hne⟩
  | recv j env data =>
    have hij : i ≠ j := by
      intro heq
      subst heq
      exact he rfl
    have hne : s.clientSocket i ≠ s.clientSocket j := fun heq => hij (ht.distinct i j hi heq)
    have hframe := handle_frame hasher env (s.clientSocket j) data s.app hne
    exact ⟨rfl, hframe.1, hframe.2⟩

/-- No step of the server removes a participant. -/
theorem next_member {s : LoopState} {e : Event} {c : Int} (hm : Member s.app.db c u) :
    Member (next hasher s e).app.db c u :=
  step_db (x := ⟨s, e⟩) (I := fun db => Member db c u) hm fun hw => hw.member_mono hm

/-- The commands that touch the session maps. -/
def movesSession : Command → Bool
  | .login _ _ | .logout | .open _ | .group _ => true
  | _ => false

/-- Every other command leaves the maps alone. -/
theorem sessions_of_effect {env : Env} {sd : Int} {a : App} {cmd : Command} {r : Text × App}
    (h : Effect hasher env sd a cmd r) (hcmd : movesSession cmd = false) :
    r.2.sessions = a.sessions := by
  cases h with
  | login => cases hcmd
  | logout => cases hcmd
  | openConversation => cases hcmd
  | group => cases hcmd
  | _ => rfl

/-- A `group` with an unknown name leaves the maps alone. -/
theorem sessions_of_group {env : Env} {sd : Int} {a : App} {users : List Text} {r : Text × App}
    (h : Effect hasher env sd a (.group users) r) (hno : ∃ w ∈ users, ¬ Registered a.db w) :
    r.2.sessions = a.sessions := by
  cases h with
  | idle => rfl
  | group _ hknown =>
    obtain ⟨w, hw, hnew⟩ := hno
    exact absurd (unknown_eq_none _ 0 hknown w (List.mem_append_left _ hw)) hnew

/-- The command the server makes of a call: an `open` of the same conversation, a `group`,
or one that leaves the maps alone. -/
theorem create_call {junk : Int} {c : Call} {cmd : Command}
    (hfits : ∀ id, c = .open id → intMin ≤ id ∧ id ≤ intMax)
    (h : CommandFactory.create junk (inputOf (fullCmd c.command)) = some cmd) :
    (∃ id, c = .open id ∧ cmd = .open id) ∨
      (∃ text users, c = .group text ∧ cmd = .group users) ∨
      ((∀ id, c ≠ .open id) ∧ movesSession cmd = false) := by
  cases c with
  | «open» id =>
    rw [create_open junk (hfits id rfl)] at h
    exact Or.inl ⟨id, rfl, (Option.some.inj h).symm⟩
  | group text =>
    obtain ⟨users, rfl⟩ := create_group h
    exact Or.inr (Or.inl ⟨text, users, rfl, rfl⟩)
  | chats =>
    rw [create_chats, Option.some.injEq] at h
    subst h
    exact Or.inr (Or.inr ⟨by simp, rfl⟩)
  | send text =>
    obtain ⟨content, rfl⟩ := create_send h
    exact Or.inr (Or.inr ⟨by simp, rfl⟩)
  | chat user =>
    obtain ⟨v, rfl⟩ := create_chat h
    exact Or.inr (Or.inr ⟨by simp, rfl⟩)
  | _ =>
    -- both calls that read the history send `show`
    have hshow : cmd = .show := (Option.some.inj ((create_show junk).symm.trans h)).symm
    subst hshow
    exact Or.inr (Or.inr ⟨by simp, rfl⟩)

/-- `open` of a conversation of the user opens it. -/
theorem open_execute {env : Env} (he : env.Sound) {sd : Int} {a : App} {c : Int}
    (hs : a.sessions.sessions sd = some u) (hm : Member a.db c u) :
    (OpenCommand.execute env sd a c).2 =
      { a with sessions := a.sessions.openConversation sd c } := by
  obtain ⟨hauth, hname⟩ := SessionManager.sessions_eq_some hs
  unfold OpenCommand.execute
  simp only [hauth, hname, (isParticipant_iff he).mpr hm]
  rfl

/-- The selection a call asks for. -/
def Call.selects (old : Int) : Call → Int
  | .open id => id
  | _ => old

/-- **What the server's read of a whole command does to the selection**: an `open` moves
it to its conversation, no other call moves it. -/
theorem read_call (hasher : Text → Nat) {env : Env} (he : env.Sound) {sd : Int} {a : App} (c : Call)
    (hs : a.sessions.sessions sd = some u)
    (hopen : ∀ id, c = .open id → (intMin ≤ id ∧ id ≤ intMax) ∧ Member a.db id u)
    (hgroup : ∀ users, CommandFactory.create env.junk (inputOf (fullCmd c.command)) =
      some (.group users) → ∃ w ∈ users, ¬ Registered a.db w) :
    (handle hasher env sd (fullCmd c.command) a).2.sessions.sessions sd = some u ∧
      (handle hasher env sd (fullCmd c.command) a).2.sessions.getCurrentConversation sd =
        c.selects (a.sessions.getCurrentConversation sd) := by
  have hfits : ∀ id, c = .open id → intMin ≤ id ∧ id ≤ intMax := fun id hc => (hopen id hc).1
  -- what leaves the maps alone keeps both, unless the call is an `open`
  have hkeep : (handle hasher env sd (fullCmd c.command) a).2.sessions = a.sessions →
      (∀ id, c ≠ .open id) →
      (handle hasher env sd (fullCmd c.command) a).2.sessions.sessions sd = some u ∧
        (handle hasher env sd (fullCmd c.command) a).2.sessions.getCurrentConversation sd =
          c.selects (a.sessions.getCurrentConversation sd) := by
    intro hsame hne
    rw [hsame]
    refine ⟨hs, ?_⟩
    cases c with
    | «open» id => exact absurd rfl (hne id)
    | _ => rfl
  rcases handle_cases hasher env sd (fullCmd c.command) a with ⟨hnone, h⟩ | ⟨cmd, hcmd, h⟩
  · refine hkeep (by rw [h]) fun id hc => ?_
    subst hc
    rw [create_open env.junk (hfits id rfl)] at hnone
    cases hnone
  · rcases create_call hfits hcmd with ⟨id, rfl, rfl⟩ | ⟨text, users, rfl, rfl⟩ | ⟨hne, hmoves⟩
    · have hexec : (handle hasher env sd (fullCmd (Call.open id).command) a).2 =
          { a with sessions := a.sessions.openConversation sd id } := by
        rw [← open_execute he hs (hopen id rfl).2, handle_of_some hasher env sd a hcmd]
        rfl
      rw [hexec]
      refine ⟨hs, ?_⟩
      show (a.sessions.openConversation sd id).getCurrentConversation sd = id
      unfold SessionManager.getCurrentConversation
      rw [SessionManager.openConversation_currentConversation_self]
      rfl
    · exact hkeep (sessions_of_group h (hgroup users hcmd)) (by simp)
    · exact hkeep (sessions_of_effect h hmoves) hne

/-! ## The invariant -/

/-- The conversation of an `open` the server has not read yet. -/
def Desk.pending (d : Desk) : Option Int :=
  match d.phase with
  | .calling (.open id) => some id
  | .awaiting (.open id) => if d.link.up = [] then none else some id
  | _ => none

theorem pending_of_quiet {d : Desk} (h : d.phase.isQuiet = true) : d.pending = none := by
  unfold Phase.isQuiet at h
  unfold Desk.pending
  split
  next heq =>
    rw [heq] at h
    cases h
  next heq =>
    rw [heq] at h
    cases h
  next => rfl

theorem pending_of_read {d : Desk} (h : d.link.up = []) (hp : d.phase.toReceive ≠ none) :
    d.pending = none := by
  unfold Desk.pending
  split
  next heq =>
    rw [heq] at hp
    exact absurd rfl hp
  next => rw [if_pos h]
  next => rfl

/-- The server's selection is the window's, or an `open` for the window's is on its way. -/
structure Synced (i : Slot) (u : Text) (d : Desk) : Prop where
  tracked : Tracked d.link.server
  connected : d.link.connected = true
  session : d.link.server.app.sessions.sessions (d.link.sd i) = some u
  unread : d.link.up = [] ∨ ∃ c, d.phase = .awaiting c ∧ d.link.up = fullCmd c.command
  listed : ∀ item ∈ d.window.conversationsList,
    intMin ≤ item.conversationId ∧ item.conversationId ≤ intMax
  settled : d.pending = none →
    d.link.server.app.sessions.getCurrentConversation (d.link.sd i) =
      d.window.currentConversationId
  opening : ∀ id, d.pending = some id → d.window.currentConversationId = id ∧
    (intMin ≤ id ∧ id ≤ intMax) ∧ Member d.link.server.app.db id u

namespace Synced

variable {d : Desk}

/-- The slot of a logged-in connection is in use. -/
theorem socket (hd : Synced i u d) : d.link.server.clientSocket i ≠ 0 := by
  intro hzero
  obtain ⟨j, hj, hne⟩ := hd.tracked.session (d.link.sd i) (by rw [hd.session]; simp)
  exact hne hzero

theorem unread_of_not_awaiting (hd : Synced i u d) (h : d.phase.toReceive = none) :
    d.link.up = [] := by
  rcases hd.unread with hup | ⟨c, hphase, _⟩
  · exact hup
  · rw [hphase] at h
    cases h

theorem act (hd : Synced i u d) {a : Action} (hg : d.phase = .idle)
    (hown : OwnClick i ⟨d, .act a⟩) : Synced i u (d.next hasher i (.act a)) := by
  have hup : d.link.up = [] := hd.unread_of_not_awaiting (by rw [hg]; rfl)
  have hagree := hd.settled (pending_of_quiet (by rw [hg]; rfl))
  rcases start_cases (w := d.window) a with ⟨row, item, rfl, hrow, hstart⟩ | ⟨hsame, hquiet⟩
  · have hnext : d.next hasher i (.act (.click row)) =
        { d with
          window := { d.window with currentConversationId := item.conversationId }
          phase := .calling (.open item.conversationId) } := by
      simp only [Desk.next, hstart]
    rw [hnext]
    have hitem := hd.listed item (List.mem_of_getElem? hrow)
    have hm := hown item hrow u hd.session
    refine ⟨hd.tracked, hd.connected, hd.session, Or.inl hup, hd.listed, ?_, ?_⟩
    · intro hnone
      cases hnone
    · intro id hid
      have heq : item.conversationId = id := Option.some.inj hid
      subst heq
      exact ⟨rfl, hitem, hm⟩
  · have hnone : (d.next hasher i (.act a)).pending = none := pending_of_quiet hquiet
    have hwindow : (d.next hasher i (.act a)).window = d.window := hsame
    refine ⟨hd.tracked, hd.connected, hd.session, Or.inl hup, ?_, ?_, ?_⟩
    · rw [hwindow]
      exact hd.listed
    · intro _
      rw [hwindow]
      exact hagree
    · intro id hid
      rw [hnone] at hid
      cases hid

theorem send (hd : Synced i u d) (hg : d.phase.toSend ≠ none) :
    Synced i u (d.next hasher i (.send true)) := by
  cases hphase : d.phase with
  | calling c =>
    have hup : d.link.up = [] := hd.unread_of_not_awaiting (by rw [hphase]; rfl)
    have hnext : d.next hasher i (.send true) =
        { d with link := d.link.send c.command, phase := .awaiting c } := by
      simp only [Desk.next, hphase]
    have hsent : (d.link.send c.command).up = fullCmd c.command := by
      show d.link.up ++ fullCmd c.command = _
      rw [hup, List.nil_append]
    -- the command under way is the one that was about to be sent
    have hpending : (d.next hasher i (.send true)).pending = d.pending := by
      rw [hnext]
      unfold Desk.pending
      rw [hphase]
      cases c with
      | «open» id =>
        show (if (d.link.send (Call.open id).command).up = [] then none else some id) = some id
        rw [hsent, if_neg (fullCmd_ne_nil _)]
      | _ => rfl
    have hsettled := hd.settled
    have hopening := hd.opening
    rw [← hpending, hnext] at hsettled hopening
    rw [hnext]
    exact ⟨hd.tracked, hd.connected, hd.session, Or.inr ⟨c, rfl, hsent⟩, hd.listed, hsettled,
      hopening⟩
  | _ =>
    rw [hphase] at hg
    exact absurd rfl hg

/-- The slot functions go on without moving the selection. -/
theorem resume (hd : Synced i u d) {c : Option Call} (hup : d.link.up = [])
    (hnone : d.pending = none) (response : Text) : Synced i u (d.resume c response) := by
  cases c with
  | none => exact hd
  | some c =>
    obtain ⟨hsame, hquiet⟩ := resume_selection (w := d.window) c response
    have hpending : (d.resume (some c) response).pending = none := pending_of_quiet hquiet
    refine ⟨hd.tracked, hd.connected, hd.session, Or.inl hup, ?_, ?_, ?_⟩
    · show ∀ item ∈ (d.window.resume c response).1.conversationsList, _
      unfold MessagesWindow.resume
      split
      next =>
        split
        next => simp
        next items hitems => exact loadLines_fits hitems
      next => exact hd.listed
      next => exact hd.listed
      next =>
        split
        · exact hd.listed
        · exact hd.listed
      next => exact hd.listed
      next => exact hd.listed
      next => exact hd.listed
    · intro _
      show _ = (d.window.resume c response).1.currentConversationId
      rw [hsame]
      exact hd.settled hnone
    · intro id hid
      rw [hpending] at hid
      cases hid

theorem recv (hd : Synced i u d) {n : Option Nat} (hg : d.phase.toReceive ≠ none)
    (hup : d.link.up = []) : Synced i u (d.next hasher i (.recv n)) := by
  have hnone := pending_of_read hup hg
  cases n with
  | none => exact hd.resume hup hnone noResponse
  | some n =>
    have hreceived : Synced i u { d with link := d.link.receive n } :=
      ⟨hd.tracked, hd.connected, hd.session, hd.unread, hd.listed, hd.settled, hd.opening⟩
    exact hreceived.resume hup hnone _

theorem server (hd : Synced i u d) {e : Event} (hslot : slotOf e ≠ some i)
    (hg : Server.admits d.link.server e) : Synced i u (d.next hasher i (.server e)) := by
  obtain ⟨hsocket, hsession, hcurrent⟩ := elsewhere_frame hasher hd.tracked hd.socket
    hg hslot
  have hsd : (d.next hasher i (.server e)).link.sd i = d.link.sd i := hsocket
  refine ⟨hd.tracked.step hg, hd.connected, ?_, hd.unread, hd.listed, ?_, ?_⟩
  · rw [hsd]
    exact hsession.trans hd.session
  · intro hnone
    rw [hsd]
    show (next hasher d.link.server e).app.sessions.getCurrentConversation _ = _
    unfold SessionManager.getCurrentConversation
    rw [show (next hasher d.link.server e).app.sessions.currentConversation (d.link.sd i) = _ from
      hcurrent]
    exact hd.settled hnone
  · intro id hid
    obtain ⟨hid, hfits, hm⟩ := hd.opening id hid
    exact ⟨hid, hfits, next_member hm⟩

/-- A read takes the one command that is under way. -/
theorem reads (hd : Synced i u d) {env : Env} {n : Nat} (hg : d.admits i (.read env n))
    (hn : n = d.link.up.length) :
    ∃ c, d.phase = .awaiting c ∧ d.link.up = fullCmd c.command ∧
      d.link.up.take n = fullCmd c.command := by
  rcases hd.unread with hup | ⟨c, hphase, hup⟩
  · have hpos := hg.1
    rw [hup, List.length_nil] at hn
    omega
  · exact ⟨c, hphase, hup, by rw [hn, List.take_length, hup]⟩

theorem read (hd : Synced i u d) {env : Env} {n : Nat} (hg : d.admits i (.read env n))
    (hn : n = d.link.up.length) (he : env.Sound) (hgroup : CreatesNoGroup ⟨d, .read env n⟩) :
    Synced i u (d.next hasher i (.read env n)) := by
  obtain ⟨c, hphase, hup, htake⟩ := hd.reads hg hn
  have hopen : ∀ id, c = .open id → d.pending = some id := by
    intro id hc
    subst hc
    unfold Desk.pending
    rw [hphase]
    show (if d.link.up = [] then none else some id) = some id
    rw [if_neg (by rw [hup]; exact fullCmd_ne_nil _)]
  obtain ⟨hsession, hselected⟩ := read_call hasher he c hd.session
    (fun id hc => (hd.opening id (hopen id hc)).2) fun users hcreate => by
      unfold CreatesNoGroup at hgroup
      dsimp only at hgroup
      rw [htake, hcreate] at hgroup
      exact hgroup
  -- the state of the server after the read
  have happ : (d.next hasher i (.read env n)).link.server.app =
      (handle hasher env (d.link.sd i) (fullCmd c.command) d.link.server.app).2 := by
    rw [← htake]
    rfl
  have hread : (d.next hasher i (.read env n)).link.up = [] := by
    show d.link.up.drop n = []
    rw [hn, List.drop_length]
  have hnone : (d.next hasher i (.read env n)).pending = none :=
    pending_of_read hread (by
      show d.phase.toReceive ≠ none
      rw [hphase]
      simp [Phase.toReceive])
  refine ⟨hd.tracked.step hg.2.2, hd.connected, ?_, Or.inl hread, hd.listed, ?_, ?_⟩
  · rw [happ]
    exact hsession
  · intro _
    rw [happ]
    refine hselected.trans ?_
    show c.selects _ = d.window.currentConversationId
    cases c with
    | «open» id => exact (hd.opening id (hopen id rfl)).1.symm
    | _ => exact hd.settled (by unfold Desk.pending; rw [hphase])
  · intro id hid
    rw [hnone] at hid
    cases hid

/-- **An accepted message lands in the conversation the window shows.** -/
theorem stored (hd : Synced i u d) {env : Env} {n : Nat} {text : Text}
    (hg : d.admits i (.read env n)) (hn : n = d.link.up.length)
    (hphase : d.phase = .awaiting (.send text))
    (hok : isOk (d.link.response hasher i env n) = true) :
    ∃ m, (d.link.read hasher i env n).server.app.db.messages.rows =
        d.link.server.app.db.messages.rows ++ [m] ∧
      m.conversationId = d.window.currentConversationId := by
  obtain ⟨c, hphase', _, htake⟩ := hd.reads hg hn
  rw [hphase, Phase.awaiting.injEq] at hphase'
  subst hphase'
  have hsettled := hd.settled (by unfold Desk.pending; rw [hphase])
  have hok : isOk (handle hasher env (d.link.sd i) (d.link.up.take n) d.link.server.app).1 = true :=
    hok
  show ∃ m, (handle hasher env (d.link.sd i) (d.link.up.take n)
    d.link.server.app).2.db.messages.rows = _ ∧ _
  rw [htake] at hok ⊢
  rcases handle_cases hasher env (d.link.sd i) (fullCmd (Call.send text).command)
    d.link.server.app with ⟨_, h⟩ | ⟨cmd, hcmd, h⟩
  · rw [h] at hok
    cases hok
  · have hw := h.write
    obtain ⟨content, rfl⟩ := create_send hcmd
    -- of the writes of a `send`, only the insert replies OK
    generalize handle hasher env (d.link.sd i) (fullCmd (Call.send text).command)
      d.link.server.app = r at hw hok
    obtain ⟨reply, db', sessions⟩ := r
    cases hw with
    | unchanged hread => cases hread hok
    | send _ hc _ ht =>
      refine ⟨_, ht, ?_⟩
      rw [← hsettled]
      unfold SessionManager.getCurrentConversation
      rw [hc]
      rfl

end Synced

/-! ## Whole runs -/

/-- The window is opened with nothing selected on either side. -/
theorem synced_opened {s : LoopState} (ht : Tracked s)
    (hs : s.app.sessions.sessions (s.clientSocket i) = some u)
    (hnone : s.app.sessions.getCurrentConversation (s.clientSocket i) = -1) (down : Text) :
    Synced i u (.opened s down) where
  tracked := ht
  connected := rfl
  session := hs
  unread := Or.inl rfl
  listed := by
    intro item hitem
    cases hitem
  settled _ := hnone
  opening id hid := by cases hid

/-- One step keeps the two sides together. -/
theorem Synced.step {d : Desk} {e : DeskEvent} (hd : Synced i u d) (hg : d.admits i e)
    (hsound : e.Sound) (ho : Orderly i ⟨d, e⟩) : Synced i u (d.next hasher i e) := by
  cases e with
  | act a => exact hd.act hg ho.ownClick
  | send ok =>
    have hok : ok = true := ho.inStep
    subst hok
    exact hd.send hg.1
  | read env n => exact hd.read hg ho.inStep hsound ho.noGroup
  | recv n =>
    have hwait : d.phase.toReceive ≠ none := by
      cases n with
      | none => exact hg
      | some n => exact hg.1
    exact hd.recv hwait ho.inStep
  | server e => exact hd.server (hg.1 hd.connected) hg.2

theorem synced_run {s : LoopState} (ht : Tracked s)
    (hs : s.app.sessions.sessions (s.clientSocket i) = some u)
    (hnone : s.app.sessions.getCurrentConversation (s.clientSocket i) = -1) {down : Text}
    {h : History Desk DeskEvent} {d : Desk} (hr : (deskMachine hasher i s down).Run h d)
    (ho : ∀ x ∈ h, x.event.Sound ∧ Orderly i x) : Synced i u d :=
  hr.invariant (P := fun x => x.event.Sound ∧ Orderly i x) (I := Synced i u)
    (synced_opened ht hs hnone down) (fun _ _ hd hg ho => hd.step hg ho.1 ho.2) ho

/-- **The window shows the conversation the server has open**, and accepted messages are
stored there, in every run of a messages window opened in a reachable state by a
logged-in client with no conversation open, as long as no statement of its commands fails, the
calls stay in step, clicked items are conversations of the user, and no group is created. -/
theorem selection_shown {h₀ : History LoopState Event} {s : LoopState}
    (hr₀ : (machine hasher serverSocket).Run h₀ s)
    (hs : s.app.sessions.sessions (s.clientSocket i) = some u)
    (hnone : s.app.sessions.getCurrentConversation (s.clientSocket i) = -1) {down : Text}
    {h : History Desk DeskEvent} {d : Desk} (hr : (deskMachine hasher i s down).Run h d)
    (hsound : ∀ x ∈ h, x.event.Sound) (ho : ∀ x ∈ h, Orderly i x) :
    SelectionShown hasher i h d := by
  have ht := tracked_run hr₀
  constructor
  · intro d' hd' hidle
    obtain ⟨h', hr', hsub⟩ := hr.of_visited hd'
    have hsynced := synced_run ht hs hnone hr' fun x hx =>
      ⟨hsound x (hsub.subset hx), ho x (hsub.subset hx)⟩
    exact hsynced.settled (pending_of_quiet (by rw [hidle]; rfl))
  · intro x hx text env n hphase hevent hok
    obtain ⟨newer, older, rfl⟩ := List.append_of_mem hx
    obtain ⟨hrx, hg⟩ := hr.at_step
    have hsynced := synced_run ht hs hnone hrx fun y hy =>
      have hy' := List.mem_append_right newer (List.mem_cons_of_mem x hy)
      ⟨hsound y hy', ho y hy'⟩
    have hin := (ho x hx).inStep
    unfold InStep at hin
    rw [hevent] at hg hin
    exact hsynced.stored hg hin hphase hok

/-! ## A message that goes elsewhere -/

/-- Deliver events to a fresh window. -/
def runDesk (hasher : Text → Nat) (i : Slot) (server : LoopState) (es : List DeskEvent) :
    Option (History Desk DeskEvent × Desk) :=
  (deskMachine hasher i server []).replay es ([], .opened server [])

/-- A run of the window without failures can be evaluated. -/
theorem runDesk_exists {server : LoopState} {es : List DeskEvent}
    {p : History Desk DeskEvent × Desk → Prop} [DecidablePred p] (hes : ∀ e ∈ es, e.Sound)
    (hp : (runDesk hasher i server es).any (fun q => decide (p q)) = true) :
    ∃ q, runDesk hasher i server es = some q ∧ (deskMachine hasher i server []).Run q.1 q.2 ∧
      (∀ x ∈ q.1, x.event.Sound) ∧ p q :=
  Machine.Run.replay_exists hes hp

/-- A call in step: the command has `up` bytes, the response `down`. -/
def exchange (up down : Nat) : List DeskEvent :=
  [.send true, .read Env.plain up, .recv (some down)]

/-- `a` is logged in and has a chat with `b`. -/
def chatReadyEvents : List Event :=
  [.accept 4, .line 0 "register a p a@x normal public\n",
    .line 0 "register b p b@x normal public\n", .line 0 "login a p\n", .line 0 "chat b\n"]

/-- `a` opens the window, clicks the chat and writes to it. -/
def clickAndSend : List DeskEvent :=
  exchange 6 9 ++ [.act (.click 0)] ++ exchange 7 24 ++ exchange 5 11 ++
    [.act (.send (bytes "hi"))] ++ exchange 8 15 ++ exchange 5 7

theorem selection_shown_click :
    ∃ r q, runEvents List.length 3 chatReadyEvents = some r ∧
      runDesk List.length 0 r.2 clickAndSend = some q ∧
      q.2.link.server.app.db.messages.rows ≠ [] ∧ SelectionShown List.length 0 q.1 q.2 := by
  obtain ⟨h, s, hr, hrun, _, hs, hnone, hdesk⟩ :=
    runEvents_exists List.length 3 chatReadyEvents
      (p := fun _ s => s.app.sessions.sessions (s.clientSocket 0) = some (bytes "a") ∧
        s.app.sessions.getCurrentConversation (s.clientSocket 0) = -1 ∧
        (runDesk List.length 0 s clickAndSend).any (fun q =>
          decide (q.2.link.server.app.db.messages.rows ≠ [] ∧ (∀ x ∈ q.1, InStep x) ∧
            (∀ x ∈ q.1, OwnClick 0 x) ∧ ∀ x ∈ q.1, CreatesNoGroup x)) = true)
      (by simp [chatReadyEvents]) (by decide)
  obtain ⟨q, hq, hrunq, hsound, hrows, hin, hown, hgroup⟩ :=
    runDesk_exists (by simp [clickAndSend, exchange]) hdesk
  exact ⟨(h, s), q, hr, hq, hrows, selection_shown hrun hs hnone hrunq hsound
    fun x hx => ⟨hin x hx, hown x hx, hgroup x hx⟩⟩

/-- The server accepts a message of the window and stores it in another conversation than
the window shows. -/
def Misfiles (hasher : Text → Nat) (i : Slot) (x : Step Desk DeskEvent) : Prop :=
  match x.event, x.pre.phase with
  | .read env n, .awaiting (.send _) =>
    isOk (x.pre.link.response hasher i env n) = true ∧
      ∃ m ∈ (x.pre.link.read hasher i env n).server.app.db.messages.rows.getLast?,
        m.conversationId ≠ x.pre.window.currentConversationId
  | _, _ => False

instance (hasher : Text → Nat) (i : Slot) (x : Step Desk DeskEvent) :
    Decidable (Misfiles hasher i x) := by
  unfold Misfiles
  split
  · infer_instance
  · infer_instance

theorem not_shown_of_misfiles {h : History Desk DeskEvent} {d : Desk} {x : Step Desk DeskEvent}
    (hx : x ∈ h) (hmis : Misfiles hasher i x) : ¬ SelectionShown hasher i h d := by
  intro hshown
  unfold Misfiles at hmis
  split at hmis
  next env n text hevent hphase =>
    obtain ⟨hok, m, hlast, hne⟩ := hmis
    obtain ⟨m', hrows, hstored⟩ := hshown.delivered x hx text env n hphase hevent hok
    rw [hrows, List.getLast?_append, List.getLast?_singleton, Option.some_or,
      Option.mem_some_iff] at hlast
    exact hne (hlast ▸ hstored)
  next => exact hmis

/-- `a` opens the window, clicks the chat, creates a group with `b` and then writes: the
window still shows the chat. -/
def groupAndSend : List DeskEvent :=
  exchange 6 9 ++ [.act (.click 0)] ++ exchange 7 24 ++ exchange 5 11 ++
    [.act (.newGroup (bytes "b"))] ++ exchange 8 37 ++ exchange 6 18 ++
    [.act (.send (bytes "secret")), .send true, .read Env.plain 12]

/-- The window does not always show where a message goes, not even in runs that stay in
step and click conversations of the user: after `onNewGroupClicked` the message typed
under the chat is stored in the new group. -/
theorem selection_not_shown :
    ¬ ∀ (hasher : Text → Nat) (serverSocket : Int) (i : Slot) (u : Text)
      (h₀ : History LoopState Event) (s : LoopState) (down : Text)
      (h : History Desk DeskEvent) (d : Desk), (machine hasher serverSocket).Run h₀ s →
      s.app.sessions.sessions (s.clientSocket i) = some u →
      s.app.sessions.getCurrentConversation (s.clientSocket i) = -1 →
      (deskMachine hasher i s down).Run h d → (∀ x ∈ h, x.event.Sound) →
      (∀ x ∈ h, InStep x) → (∀ x ∈ h, OwnClick i x) → SelectionShown hasher i h d := by
  intro hall
  obtain ⟨_, s, _, hrun, _, hs, hnone, hdesk⟩ :=
    runEvents_exists List.length 3 chatReadyEvents
      (p := fun _ s => s.app.sessions.sessions (s.clientSocket 0) = some (bytes "a") ∧
        s.app.sessions.getCurrentConversation (s.clientSocket 0) = -1 ∧
        (runDesk List.length 0 s groupAndSend).any (fun q =>
          decide ((∀ x ∈ q.1, InStep x) ∧ (∀ x ∈ q.1, OwnClick 0 x) ∧
            ∃ x ∈ q.1, Misfiles List.length 0 x)) = true)
      (by simp [chatReadyEvents]) (by decide)
  obtain ⟨q, _, hrunq, hsound, hin, hown, x, hx, hmis⟩ :=
    runDesk_exists (by simp [groupAndSend, exchange]) hdesk
  exact not_shown_of_misfiles hx hmis
    (hall _ _ _ _ _ _ _ _ _ hrun hs hnone hrunq hsound hin hown)

end SocialNetwork.Client
