import SocialNetwork.Authority.Ownership
import SocialNetwork.Messaging.PrivateChat

/-!
# A conversation id past `INT_MAX`

One client that keeps asking for a chat gets a new conversation each time, and nothing
stops it: for every `n` up to `INT_MAX` some run has created `n` conversations
(`flooded_run`). The next one has a row id that does not fit in an `int`. The server
inserts its participants under the narrowed id, so the new conversation has nobody in it
and the rows written lie in a conversation that was not created by this step
(`not_userOwns_of_overflow`).
-/

namespace SocialNetwork.Server

open SocialNetwork.Lib

variable {hasher : Text → Nat} {serverSocket : Int}

/-- `a` is logged in on the first slot, `b` is registered, `n` conversations have been
created, and every participant is in one with a positive id. -/
structure Flooded (n : Int) (s : LoopState) : Prop where
  socket : s.clientSocket 0 = 4
  watched : (4 : Int) ∈ s.masterSet
  session : s.app.sessions.sessions 4 = some (bytes "a")
  other : Registered s.app.db (bytes "b")
  seq : s.app.db.conversations.seq = n
  positive : ∀ r ∈ s.app.db.participants.rows, 0 < r.conversationId

/-- The request `a` repeats. -/
def floodEvent : Event := .line 0 "chat b\n"

theorem floodEvent_command (s : LoopState) :
    commandOf ⟨s, floodEvent⟩ = some (.chat (bytes "b")) := by
  show CommandFactory.create 0 (inputOf (bytes "chat b\n")) = _
  decide

/-- It creates a conversation under the narrowed row id. -/
theorem floodEvent_creates (hasher : Text → Nat) {s : LoopState} (hsocket : s.clientSocket 0 = 4)
    (hsession : s.app.sessions.sessions 4 = some (bytes "a"))
    (hother : Registered s.app.db (bytes "b")) (hseq : s.app.db.conversations.seq < maxRowid) :
    ∃ db', (next hasher s floodEvent).app = ⟨db', s.app.sessions⟩ ∧
      Created Env.plain s.app.db [bytes "a", bytes "b"]
        (narrow (s.app.db.conversations.seq + 1)) db' := by
  obtain ⟨id, db', hexec, hcreated⟩ := chat_execute Env.plain_sound hsession (by decide) hother hseq
  obtain rfl := hcreated.id_eq
  refine ⟨db', ?_, hcreated⟩
  -- the event carries the plain environment, and the slot is the one of `a`
  show (handle hasher Env.plain (s.clientSocket 0) (bytes "chat b\n") s.app).2 = _
  have hcmd : CommandFactory.create Env.plain.junk (inputOf (bytes "chat b\n")) =
      some (.chat (bytes "b")) := floodEvent_command s
  rw [handle_of_some hasher Env.plain _ _ hcmd, hsocket]
  exact congrArg Prod.snd hexec

namespace Flooded

variable {n : Int} {s : LoopState}

theorem sdOf_eq (hf : Flooded n s) : sdOf ⟨s, floodEvent⟩ = 4 := hf.socket

theorem admits (hf : Flooded n s) : admits s floodEvent := by
  refine ⟨?_, by decide⟩
  rw [hf.socket]
  exact ⟨by decide, hf.watched⟩

theorem issuer (hf : Flooded n s) : issuerOf ⟨s, floodEvent⟩ = some (bytes "a") := by
  unfold issuerOf
  rw [hf.sdOf_eq]
  exact hf.session

/-- The request creates a conversation under the narrowed row id. -/
theorem creates (hasher : Text → Nat) (hf : Flooded n s) (hn : n < maxRowid) :
    ∃ db', (next hasher s floodEvent).app = ⟨db', s.app.sessions⟩ ∧
      Created Env.plain s.app.db [bytes "a", bytes "b"] (narrow (n + 1)) db' := by
  rw [← hf.seq]
  exact floodEvent_creates hasher hf.socket hf.session hf.other (hf.seq ▸ hn)

/-- As long as the ids fit, one more request leaves one more conversation. -/
theorem step (hf : Flooded n s) (hn : 0 ≤ n ∧ n < intMax) :
    Flooded (n + 1) (next hasher s floodEvent) := by
  have hmax : n < maxRowid := by
    have := hn.2
    unfold intMax at this
    unfold maxRowid
    omega
  obtain ⟨db', happ, hcreated⟩ := hf.creates hasher hmax
  have hid : narrow (n + 1) = n + 1 := by
    apply narrow_of_fits
    unfold intMin
    omega
  obtain ⟨new, hrows, hnew⟩ := hcreated.attached.rows
  refine ⟨hf.socket, hf.watched, ?_, ?_, ?_, ?_⟩
  · rw [happ]
    exact hf.session
  · rw [happ]
    unfold Registered
    rw [show (⟨db', s.app.sessions⟩ : App).db.users = s.app.db.users from hcreated.users]
    exact hf.other
  · rw [happ]
    exact hcreated.seq_eq.trans (by rw [hf.seq])
  · rw [happ]
    intro r hr
    rw [show (⟨db', s.app.sessions⟩ : App).db.participants.rows = _ from hrows] at hr
    rcases List.mem_append.mp hr with hold | hr
    · exact hf.positive r hold
    · rw [(hnew r hr).1, hid]
      omega

end Flooded

/-- `a` and `b` register and `a` logs in. -/
def floodStartEvents : List Event :=
  [.accept 4, .line 0 "register a p a@x normal public\n",
    .line 0 "register b p b@x normal public\n", .line 0 "login a p\n"]

theorem flooded_start :
    ∃ h s, (machine List.length 3).Run h s ∧ (∀ x ∈ h, SoundStep x) ∧ Flooded 0 s := by
  obtain ⟨h, s, _, hrun, hsound, hsocket, hwatched, hsession, hother, hseq, hnone⟩ :=
    runEvents_exists List.length 3 floodStartEvents
      (p := fun _ s => s.clientSocket 0 = 4 ∧ (4 : Int) ∈ s.masterSet ∧
        s.app.sessions.sessions 4 = some (bytes "a") ∧ Registered s.app.db (bytes "b") ∧
        s.app.db.conversations.seq = 0 ∧ s.app.db.participants.rows = [])
      (by simp [floodStartEvents]) (by decide)
  refine ⟨h, s, hrun, hsound, hsocket, hwatched, hsession, hother, hseq, ?_⟩
  rw [hnone]
  simp

/-- **Nothing limits the conversations a client creates**: up to `INT_MAX` of them, some
run without failures has created that many. -/
theorem flooded_run (n : Nat) (hn : (n : Int) ≤ intMax) :
    ∃ h s, (machine List.length 3).Run h s ∧ (∀ x ∈ h, SoundStep x) ∧ Flooded n s := by
  refine Machine.Run.repeated (I := fun n s => Flooded n s) floodEvent flooded_start n ?_
  intro m hm s hf
  exact ⟨hf.admits, Env.plain_sound, hf.step ⟨by omega, by omega⟩⟩

/-- The request after that writes participants of a conversation that is neither `a`'s
nor created by it. -/
theorem not_userOwns_of_overflow {s : LoopState} (hf : Flooded intMax s) (u : Text)
    (cmd : Command) :
    ¬ UserOwns u cmd s.app.db (next hasher s floodEvent).app.db := by
  intro howns
  obtain ⟨db', happ, hcreated⟩ := hf.creates hasher (by decide)
  rw [happ] at howns
  have hid : narrow (intMax + 1) = -2147483648 := by decide
  rw [hid] at hcreated
  -- `a` is now a participant of the conversation with the narrowed id
  have hmem := hcreated.attached.all Env.plain_sound.joins (bytes "a") (by simp)
  obtain ⟨old, new, hrows, hold, hnew⟩ := howns.participants
  rw [show db'.participants.rows = old ++ new from hrows] at hmem
  have hnegative : ∀ r ∈ s.app.db.participants.rows, r.conversationId ≠ -2147483648 := by
    intro r hr
    have := hf.positive r hr
    omega
  have hsame : old = s.app.db.participants.rows := by
    rw [List.forall₂_eq_eq_eq] at hold
    exact hold.symm
  -- as an old row it would have a positive id; as a new one it is not owned
  rcases List.mem_append.mp hmem with hmem | hmem
  · exact hnegative _ (hsame ▸ hmem) rfl
  · rcases hnew _ hmem with hmember | ⟨_, row, hrow, heq⟩
    · exact hnegative _ hmember rfl
    · have := (db'.conversations.bounded row hrow).1
      rw [heq] at this
      dsimp only at this
      omega

/-- Not every line changes only what its issuer owns: after `INT_MAX` requests for a
chat the next one does not. -/
theorem writes_not_authorized :
    ¬ ∀ (hasher : Text → Nat) (serverSocket : Int) (h : History LoopState Event)
      (x : Step LoopState Event) (i : Slot) (env : Env) (data : Text),
      (machine hasher serverSocket).Run h x.pre → (∀ y ∈ h, SoundStep y) →
        admits x.pre x.event → SoundStep x → x.event = .recv i env data →
        LineAuthorized hasher x := by
  intro hall
  obtain ⟨h, s, hr, hsound, hf⟩ := flooded_run 2147483647 (by decide)
  have hline := hall _ _ h ⟨s, floodEvent⟩ _ _ _ hr hsound hf.admits Env.plain_sound rfl
  unfold LineAuthorized at hline
  rw [floodEvent_command] at hline
  exact not_userOwns_of_overflow hf _ _ (hline.user _ hf.issuer)

end SocialNetwork.Server
