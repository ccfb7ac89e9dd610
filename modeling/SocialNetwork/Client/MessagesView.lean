import SocialNetwork.Client.Pairing
import SocialNetwork.Client.Selection
import SocialNetwork.Lib.Since
import SocialNetwork.Messaging.Delivery
import SocialNetwork.Server.Replies

/-!
# What the messages window shows

`messagesView` is filled from the responses of `show`, which the server gives for the
conversation it has open, at the moment it reads the command. The window shows them under the
conversation it has selected, and later, while others go on writing.

`view_shows_conversation`: whenever no slot function is running, the view is the history of the
selected conversation as it stood at some read of this run, with nothing left out that the window
itself had sent, and after it only the window's own notices that a message was not sent.

The argument is `Synced` for the selection, and for the view an invariant on the state and its
history: `Current` says that a text is such a history, `Showing` says for each phase which text
that is. The view is until a slot function is bound to reload it; after that it is the response
that is on its way.
-/

namespace SocialNetwork.Client

open SocialNetwork.Lib SocialNetwork.Server

variable {hasher : Text → Nat} {serverSocket : Int} {i : Slot} {u : Text}

/-! ## What is claimed and what it takes -/

/-- The paragraphs for a conversation. -/
def historyLines (env : Env) (db : Db) (c : Int) : List Text :=
  let messages := Database.getMessages env db c
  if messages.isEmpty then [bytes "No messages"]
  else messages.map fun m => itemBody (m.sender, m.content)

def failureLine : Text := bytes "⚠️ Failed to send message"

/-- The server reads a `show` of the window, which has selected `c`, and finds `history`. -/
def Loads (c : Int) (history : List Text) (x : Step Desk DeskEvent) : Prop :=
  match x.event, x.pre.phase with
  | .read env _, .awaiting .load | .read env _, .awaiting .reload =>
    x.pre.window.currentConversationId = c ∧
      historyLines env x.pre.link.server.app.db c = history
  | _, _ => False

/-- The server accepts a message of the window. -/
def Sends (hasher : Text → Nat) (i : Slot) (x : Step Desk DeskEvent) : Prop :=
  match x.event, x.pre.phase with
  | .read env n, .awaiting (.send _) => isOk (x.pre.link.response hasher i env n) = true
  | _, _ => False

/-- The view shows the selected conversation: it is what the server found there since the window
last sent something, and has everything that was in it when the window did. -/
structure ViewShown (hasher : Text → Nat) (i : Slot) (h : History Desk DeskEvent) (d : Desk) :
    Prop where
  shown : ∃ history failures,
    d.window.messagesView = history ++ List.replicate failures failureLine ∧
      Since (fun x => ¬ Sends hasher i x) (Loads d.window.currentConversationId history) h
  sent : ∀ x ∈ h, Sends hasher i x →
    ∀ m ∈ messagesOf (x.pre.next hasher i x.event).link.server.app.db
      d.window.currentConversationId, itemBody (m.senderUsername, m.content) ∈
        d.window.messagesView

/-- A receipt takes all that was sent. -/
def TakesAll (x : Step Desk DeskEvent) : Prop :=
  match x.event with
  | .recv n => n = some x.pre.link.down.length
  | _ => True

instance : ∀ x : Step Desk DeskEvent, Decidable (TakesAll x)
  | ⟨d, .recv n⟩ => inferInstanceAs (Decidable (n = some d.link.down.length))
  | ⟨_, .act _⟩ | ⟨_, .send _⟩ | ⟨_, .read _ _⟩ | ⟨_, .server _⟩ =>
    inferInstanceAs (Decidable True)

/-- `CURRENT_TIMESTAMP` has its format at this event. -/
def DeskEvent.Timed : DeskEvent → Prop
  | .read env _ => IsTimestamp env.now
  | .server e => e.Timed
  | _ => True

@[simp] theorem DeskEvent.timed_act (a : Action) : (DeskEvent.act a).Timed := trivial

@[simp] theorem DeskEvent.timed_send (ok : Bool) : (DeskEvent.send ok).Timed := trivial

@[simp] theorem DeskEvent.timed_recv (n : Option Nat) : (DeskEvent.recv n).Timed := trivial

@[simp] theorem DeskEvent.timed_read_plain (n : Nat) : (DeskEvent.read Env.plain n).Timed :=
  (by decide : IsTimestamp Env.plain.now)

/-- What the steps of a run must meet for the view. -/
structure Undisturbed (i : Slot) (x : Step Desk DeskEvent) : Prop where
  sound : x.event.Sound
  timed : x.event.Timed
  orderly : Orderly i x
  takesAll : TakesAll x

/-! ## What `show` prints -/

section

variable {env : Env} {sd : Int} {a : App}

/-- The response of `show` for an open conversation arrives as its paragraphs. -/
theorem lines_show (hl : Legible a.db) (hg : Grounded a.db)
    (hauth : a.sessions.isAuthenticated sd = true) {c : Int}
    (hopen : a.sessions.getCurrentConversation sd = c) (hc : c ≠ -1) :
    lines (bufferText (ShowCommand.execute env sd a)) = historyLines env a.db c := by
  have hgenuine : ∀ m ∈ Database.getMessages env a.db c, GenuineItem (m.sender, m.content) := by
    have hall : ∀ m ∈ ShowCommand.messages env sd a, GenuineItem (m.sender, m.content) :=
      messages_genuine hl hg
    unfold ShowCommand.messages at hall
    rwa [if_pos (by simp [hauth, hopen, hc]), hopen] at hall
  rw [bufferText_eq (show_sendable hl hg).2]
  unfold ShowCommand.execute historyLines
  simp only [hauth, hopen, Bool.not_true, Bool.false_eq_true, if_false, if_neg hc]
  split
  · decide
  · have hprint : (Database.getMessages env a.db c).flatMap ShowCommand.line =
        unlines 10
          ((Database.getMessages env a.db c).map fun m => itemBody (m.sender, m.content)) := by
      unfold unlines
      rw [List.flatMap_map]
      rfl
    rw [hprint, lines_unlines]
    intro l hl10 hin
    obtain ⟨m, hm, rfl⟩ := List.mem_map.mp hl10
    exact (isContent_itemBody (hgenuine m hm) 10 hin).1 rfl

end

/-- The window finds the `OK` of the server. -/
theorem contains_of_isOk {response : Text} (h : isOk response = true) :
    contains (bytes "OK") (bufferText response) = true := by
  obtain ⟨rest, rfl⟩ := List.isPrefixOf_iff_prefix.mp h
  have hnul : (bytes "OK").all (· != 0) = true := rfl
  have hbuffer : bufferText (bytes "OK" ++ rest) = bytes "OK" ++ bufferText rest := by
    unfold bufferText
    rw [List.takeWhile_append_of_pos (List.all_eq_true.mp hnul)]
  rw [hbuffer]
  unfold contains
  rw [List.any_eq_true]
  exact ⟨bytes "OK" ++ bufferText rest, by simp, by simp⟩

/-! ## The invariant -/

/-- The text is the history of `c` since the window last sent something, and notices after it. -/
def Current (hasher : Text → Nat) (i : Slot) (h : History Desk DeskEvent) (c : Int)
    (view : List Text) : Prop :=
  c ≠ -1 → ∃ history failures, view = history ++ List.replicate failures failureLine ∧
    Since (fun x => ¬ Sends hasher i x) (Loads c history) h

namespace Current

variable {h : History Desk DeskEvent} {c : Int} {view : List Text} {x : Step Desk DeskEvent}

/-- A step that sends nothing keeps it, and only a read can send. -/
theorem keep (hv : Current hasher i h c view) (hx : ¬ Sends hasher i x) :
    Current hasher i (x :: h) c view := by
  intro hc
  obtain ⟨history, failures, hview, hsince⟩ := hv hc
  exact ⟨history, failures, hview, hsince.step hx⟩

/-- One more notice. -/
theorem fail (hv : Current hasher i h c view) : Current hasher i h c (view ++ [failureLine]) := by
  intro hc
  obtain ⟨history, failures, rfl, hsince⟩ := hv hc
  refine ⟨history, failures + 1, ?_, hsince⟩
  rw [List.append_assoc, List.replicate_succ']

end Current

/-- The slot function that makes the call reloads the view. -/
def Call.reloads : Call → Bool
  | .open _ | .load | .reload => true
  | _ => false

def Phase.reloads : Phase → Bool
  | .calling c | .awaiting c => c.reloads
  | _ => false

/-- The server has accepted a message, and the window does not know yet. -/
def Desk.isSent (d : Desk) : Prop :=
  d.link.up = [] ∧ isOk d.link.down = true ∧ ∃ text, d.phase = .awaiting (.send text)

/-- The view is as it should be, or bound to be reloaded; a `show` that was read has fetched what
it should. -/
structure Showing (hasher : Text → Nat) (serverSocket : Int) (i : Slot) (u : Text)
    (h : History Desk DeskEvent) (d : Desk) : Prop where
  synced : Synced i u d
  served : ∃ h', (machine hasher serverSocket).Run h' d.link.server ∧ ∀ x ∈ h', Timed x
  drained : d.phase.toReceive = none ∨ d.link.up ≠ [] → d.link.down = []
  view : d.phase.reloads = false → ¬ d.isSent →
    Current hasher i h d.window.currentConversationId d.window.messagesView
  arriving : d.phase = .awaiting .load ∨ d.phase = .awaiting .reload → d.link.up = [] →
    Current hasher i h d.window.currentConversationId (lines (bufferText d.link.down))

theorem Phase.ne_awaiting {p : Phase} (h : p.toReceive = none) (c : Call) : p ≠ .awaiting c := by
  intro hp
  rw [hp] at h
  cases h

/-- A slot function starts with a reload, or leaves the window alone. -/
theorem start_view (w : MessagesWindow) (a : Action) :
    (w.start a).2.toReceive = none ∧ ((w.start a).2.reloads = true ∨ (w.start a).1 = w) := by
  have hload : w.loadMessages.toReceive = none := by
    unfold MessagesWindow.loadMessages
    split
    · rfl
    · rfl
  rcases start_cases (w := w) a with ⟨row, item, rfl, _, hstart⟩ | ⟨hsame, _⟩
  · rw [hstart]
    exact ⟨rfl, Or.inl rfl⟩
  · refine ⟨?_, Or.inr hsame⟩
    cases a with
    | timeout => exact hload
    | _ =>
      unfold MessagesWindow.start
      dsimp only
      split
      · rfl
      · rfl

/-- What a response does to the view: it is reloaded, or will be, or gets a notice that a message
was not sent, or stays. -/
theorem resume_view (w : MessagesWindow) (c : Call) (response : Text) :
    (w.resume c response).2.toReceive = none ∧
      ((w.resume c response).2.reloads = true ∨
        ((c = .load ∨ c = .reload) ∧ (w.resume c response).1.messagesView = lines response) ∨
        (∃ text, c = .send text ∧ contains (bytes "OK") response = false ∧
          (w.resume c response).1.messagesView = w.messagesView ++ [failureLine]) ∨
        (c.reloads = false ∧ (∀ text, c ≠ .send text) ∧
          (w.resume c response).1.messagesView = w.messagesView) ∨
        w.currentConversationId = -1) := by
  cases c with
  | chats =>
    unfold MessagesWindow.resume
    dsimp only
    split
    · exact ⟨rfl, Or.inr (Or.inr (Or.inr (Or.inl ⟨rfl, by simp, rfl⟩)))⟩
    · exact ⟨rfl, Or.inr (Or.inr (Or.inr (Or.inl ⟨rfl, by simp, rfl⟩)))⟩
  | «open» id =>
    show w.loadMessages.toReceive = none ∧ (w.loadMessages.reloads = true ∨ _)
    unfold MessagesWindow.loadMessages
    split
    next hnone => exact ⟨rfl, Or.inr (Or.inr (Or.inr (Or.inr hnone)))⟩
    next => exact ⟨rfl, Or.inl rfl⟩
  | load => exact ⟨rfl, Or.inr (Or.inl ⟨Or.inl rfl, rfl⟩)⟩
  | reload => exact ⟨rfl, Or.inr (Or.inl ⟨Or.inr rfl, rfl⟩)⟩
  | send text =>
    unfold MessagesWindow.resume
    dsimp only
    split
    next => exact ⟨rfl, Or.inl rfl⟩
    next hno =>
      rw [Bool.not_eq_true] at hno
      exact ⟨rfl, Or.inr (Or.inr (Or.inl ⟨text, rfl, hno, rfl⟩))⟩
  | _ => exact ⟨rfl, Or.inr (Or.inr (Or.inr (Or.inl ⟨rfl, by simp, rfl⟩)))⟩

namespace Showing

variable {h : History Desk DeskEvent} {d : Desk}

/-- A phase that receives nothing has sent nothing. -/
theorem not_isSent (h : d.phase.toReceive = none) : ¬ d.isSent := by
  intro hsent
  obtain ⟨_, _, text, hphase⟩ := hsent
  exact Phase.ne_awaiting h (.send text) hphase

theorem act (hd : Showing hasher serverSocket i u h d) {a : Action} (hg : d.phase = .idle)
    (hsynced : Synced i u (d.next hasher i (.act a))) :
    Showing hasher serverSocket i u (⟨d, .act a⟩ :: h) (d.next hasher i (.act a)) := by
  obtain ⟨hnone, hview⟩ := start_view d.window a
  have hidle : d.phase.toReceive = none := by
    rw [hg]
    rfl
  refine ⟨hsynced, hd.served, fun _ => hd.drained (Or.inl hidle), fun hreload _ => ?_, ?_⟩
  · have hreload : (d.window.start a).2.reloads = false := hreload
    rcases hview with hyes | hsame
    · rw [hyes] at hreload
      cases hreload
    · show Current hasher i _ (d.window.start a).1.currentConversationId
        (d.window.start a).1.messagesView
      rw [hsame]
      exact (hd.view (by rw [hg]; rfl) (not_isSent hidle)).keep id
  · intro hphase _
    have hphase : (d.window.start a).2 = .awaiting .load ∨
        (d.window.start a).2 = .awaiting .reload := hphase
    rcases hphase with hphase | hphase
    · exact absurd hphase (Phase.ne_awaiting hnone _)
    · exact absurd hphase (Phase.ne_awaiting hnone _)

theorem send (hd : Showing hasher serverSocket i u h d) (hg : d.phase.toSend ≠ none)
    (hsynced : Synced i u (d.next hasher i (.send true))) :
    Showing hasher serverSocket i u (⟨d, .send true⟩ :: h) (d.next hasher i (.send true)) := by
  cases hphase : d.phase with
  | calling c =>
    have hnone : d.phase.toReceive = none := by
      rw [hphase]
      rfl
    have hnext : d.next hasher i (.send true) =
        { d with link := d.link.send c.command, phase := .awaiting c } := by
      simp only [Desk.next, hphase]
    have hup : (d.link.send c.command).up ≠ [] :=
      List.append_ne_nil_of_right_ne_nil _ (fullCmd_ne_nil _)
    rw [hnext] at hsynced ⊢
    refine ⟨hsynced, hd.served, fun _ => hd.drained (Or.inl hnone), fun hreload _ => ?_, ?_⟩
    · exact (hd.view (by rw [hphase]; exact hreload) (not_isSent hnone)).keep id
    · intro _ hempty
      exact absurd hempty hup
  | _ =>
    rw [hphase] at hg
    exact absurd rfl hg

/-- Nothing but a read changes what has been loaded or sent. -/
theorem server (hd : Showing hasher serverSocket i u h d) {e : Event}
    (hg : Server.admits d.link.server e) (ht : e.Timed)
    (hsynced : Synced i u (d.next hasher i (.server e))) :
    Showing hasher serverSocket i u (⟨d, .server e⟩ :: h) (d.next hasher i (.server e)) := by
  obtain ⟨h', hr, htimed⟩ := hd.served
  refine ⟨hsynced, ⟨_, hr.step e hg, List.forall_mem_cons.mpr ⟨ht, htimed⟩⟩, hd.drained, ?_, ?_⟩
  · exact fun hreload hsent => (hd.view hreload hsent).keep id
  · exact fun hphase hup => (hd.arriving hphase hup).keep id

/-- **The view after a response**, unless it is going to be reloaded. -/
theorem resumed (hd : Showing hasher serverSocket i u h d) {c : Call}
    (hphase : d.phase = .awaiting c) (hup : d.link.up = [])
    (hreload : (d.window.resume c (bufferText d.link.down)).2.reloads = false) :
    Current hasher i h d.window.currentConversationId
      (d.window.resume c (bufferText d.link.down)).1.messagesView := by
  rcases (resume_view d.window c (bufferText d.link.down)).2 with
    hyes | ⟨hload, hlines⟩ | ⟨text, rfl, hfailed, hnotice⟩ | ⟨hreloads, hsend, hsame⟩ | hunselected
  · rw [hyes] at hreload
    cases hreload
  · rw [hlines]
    refine hd.arriving ?_ hup
    rcases hload with rfl | rfl
    · exact Or.inl hphase
    · exact Or.inr hphase
  · -- the response was no success, so the view was right until now
    rw [hnotice]
    refine (hd.view (by rw [hphase]; rfl) fun hsent => ?_).fail
    rw [contains_of_isOk hsent.2.1] at hfailed
    cases hfailed
  · rw [hsame]
    refine hd.view (by rw [hphase]; exact hreloads) fun hsent => ?_
    obtain ⟨_, _, text, hsending⟩ := hsent
    rw [hphase, Phase.awaiting.injEq] at hsending
    exact hsend text hsending
  · exact fun hne => absurd hunselected hne

theorem recv (hd : Showing hasher serverSocket i u h d) {n : Option Nat}
    (hg : d.phase.toReceive ≠ none) (hup : d.link.up = []) (hn : n = some d.link.down.length)
    (hsynced : Synced i u (d.next hasher i (.recv n))) :
    Showing hasher serverSocket i u (⟨d, .recv n⟩ :: h) (d.next hasher i (.recv n)) := by
  subst hn
  cases hphase : d.phase with
  | awaiting c =>
    have hreceived : d.link.received d.link.down.length = bufferText d.link.down := by
      unfold Link.received
      rw [List.take_length]
    have hnext : d.next hasher i (.recv (some d.link.down.length)) =
        { d with
          link := d.link.receive d.link.down.length
          window := (d.window.resume c (bufferText d.link.down)).1
          phase := (d.window.resume c (bufferText d.link.down)).2 } := by
      simp only [Desk.next, Desk.resume, hphase, Phase.toReceive, hreceived]
    have hselected := (resume_selection (w := d.window) c (bufferText d.link.down)).1
    rw [hnext] at hsynced ⊢
    have hnone := (resume_view d.window c (bufferText d.link.down)).1
    refine ⟨hsynced, hd.served, fun _ => ?_, fun hreload _ => ?_, ?_⟩
    · show d.link.down.drop d.link.down.length = []
      rw [List.drop_length]
    · show Current hasher i _ (d.window.resume c (bufferText d.link.down)).1.currentConversationId _
      rw [hselected]
      exact (hd.resumed hphase hup hreload).keep id
    · intro hwait _
      rcases hwait with hwait | hwait
      · exact absurd hwait (Phase.ne_awaiting hnone _)
      · exact absurd hwait (Phase.ne_awaiting hnone _)
  | _ =>
    rw [hphase] at hg
    exact absurd rfl hg

/-- What the server finds for a `show` of the window. -/
theorem shown (hd : Showing hasher serverSocket i u h d) {env : Env} {c : Call}
    (hphase : d.phase = .awaiting c) (hc : c = .load ∨ c = .reload)
    (hselected : d.window.currentConversationId ≠ -1) :
    lines (bufferText (handle hasher env (d.link.sd i) (fullCmd c.command) d.link.server.app).1) =
      historyLines env d.link.server.app.db d.window.currentConversationId := by
  obtain ⟨h', hr, htimed⟩ := hd.served
  have hcreate : CommandFactory.create env.junk (inputOf (fullCmd c.command)) = some .show := by
    rcases hc with rfl | rfl
    · exact create_show env.junk
    · exact create_show env.junk
  have hpending : d.pending = none := by
    unfold Desk.pending
    rw [hphase]
    rcases hc with rfl | rfl
    · rfl
    · rfl
  rw [handle_of_some hasher env _ _ hcreate]
  exact lines_show (legible_run hr htimed) (grounded_run hr).1
    (SessionManager.sessions_eq_some hd.synced.session).1 (hd.synced.settled hpending) hselected

theorem read (hd : Showing hasher serverSocket i u h d) {env : Env} {n : Nat}
    (hg : d.admits i (.read env n)) (hn : n = d.link.up.length) (ht : IsTimestamp env.now)
    (hsynced : Synced i u (d.next hasher i (.read env n))) :
    Showing hasher serverSocket i u (⟨d, .read env n⟩ :: h) (d.next hasher i (.read env n)) := by
  obtain ⟨c, hphase, hup, htake⟩ := hd.synced.reads hg hn
  have hunread : d.link.up ≠ [] := by
    rw [hup]
    exact fullCmd_ne_nil _
  have hresponse : d.link.response hasher i env n =
      (handle hasher env (d.link.sd i) (fullCmd c.command) d.link.server.app).1 := by
    unfold Link.response
    rw [htake]
    rfl
  -- the response is all that is on its way
  have hdown : (d.next hasher i (.read env n)).link.down = d.link.response hasher i env n := by
    show d.link.down ++ d.link.response hasher i env n = _
    rw [hd.drained (Or.inr hunread), List.nil_append]
  have hread : (d.next hasher i (.read env n)).link.up = [] := by
    show d.link.up.drop n = []
    rw [hn, List.drop_length]
  have hsame : (d.next hasher i (.read env n)).phase = d.phase := rfl
  obtain ⟨h', hr, htimed⟩ := hd.served
  refine ⟨hsynced, ⟨_, hr.step _ hg.2.2, List.forall_mem_cons.mpr ⟨ht, htimed⟩⟩, ?_, ?_, ?_⟩
  · rintro (hnone | hmore)
    · rw [hsame, hphase] at hnone
      cases hnone
    · exact absurd hread hmore
  · intro hreload hnot
    refine (hd.view hreload fun hsent => hunread hsent.1).keep fun hsends => hnot ?_
    unfold Sends at hsends
    dsimp only at hsends
    split at hsends
    next env' n' text hevent hsending =>
      cases hevent
      exact ⟨hread, by rw [hdown]; exact hsends, text, hsending⟩
    next => exact hsends.elim
  · intro hwait _ hselected
    rw [hsame, hphase, Phase.awaiting.injEq, Phase.awaiting.injEq] at hwait
    refine ⟨_, 0, (List.append_nil _).symm, Since.here ?_⟩
    rw [hdown, hresponse, hd.shown hphase hwait hselected]
    unfold Loads
    dsimp only
    rw [hphase]
    rcases hwait with rfl | rfl
    · exact ⟨rfl, rfl⟩
    · exact ⟨rfl, rfl⟩

/-- One step keeps it. -/
theorem step (hd : Showing hasher serverSocket i u h d) {e : DeskEvent} (hg : d.admits i e)
    (hx : Undisturbed i ⟨d, e⟩) :
    Showing hasher serverSocket i u (⟨d, e⟩ :: h) (d.next hasher i e) := by
  have hsynced : Synced i u (d.next hasher i e) := hd.synced.step hg hx.sound hx.orderly
  have hin := hx.orderly.inStep
  cases e with
  | act a => exact hd.act hg hsynced
  | send ok =>
    have hok : ok = true := hin
    subst hok
    exact hd.send hg.1 hsynced
  | read env n => exact hd.read hg hin hx.timed hsynced
  | recv n =>
    have hn : n = some d.link.down.length := hx.takesAll
    have hwait : d.phase.toReceive ≠ none := by
      cases n with
      | none => exact hg
      | some n => exact hg.1
    exact hd.recv hwait hin hn hsynced
  | server e => exact hd.server hg.2 hx.timed hsynced

end Showing

/-! ## Whole runs -/

theorem showing_run {h₀ : History LoopState Event} {s : LoopState}
    (hr₀ : (machine hasher serverSocket).Run h₀ s) (ht₀ : ∀ x ∈ h₀, Timed x)
    (hs : s.app.sessions.sessions (s.clientSocket i) = some u)
    (hnone : s.app.sessions.getCurrentConversation (s.clientSocket i) = -1)
    {h : History Desk DeskEvent} {d : Desk} (hr : (deskMachine hasher i s []).Run h d)
    (hx : ∀ x ∈ h, Undisturbed i x) : Showing hasher serverSocket i u h d := by
  have hopened : Showing hasher serverSocket i u [] (.opened s []) :=
    ⟨synced_opened (tracked_run hr₀) hs hnone [], ⟨h₀, hr₀, ht₀⟩, fun _ => rfl,
      fun _ _ hselected => absurd rfl hselected, fun _ _ hselected => absurd rfl hselected⟩
  exact hr.invariant_history (P := Undisturbed i)
    (I := fun h d => Showing hasher serverSocket i u h d) hopened
    (fun _ _ _ _ _ hd hg hx => hd.step hg hx) hx

/-- Whatever happens, the server takes at most one step. -/
theorem Desk.server_step (hasher : Text → Nat) (i : Slot) (d : Desk) (e : DeskEvent) :
    (d.next hasher i e).link.server = d.link.server ∨
      ∃ e', (d.next hasher i e).link.server = Server.next hasher d.link.server e' := by
  have hresume : ∀ (d : Desk) (c : Option Call) (response : Text),
      (d.resume c response).link = d.link := by
    intro d c response
    cases c with
    | none => rfl
    | some c => rfl
  cases e with
  | act a => exact Or.inl rfl
  | send ok =>
    left
    cases ok with
    | true =>
      unfold Desk.next
      dsimp only
      split
      · rfl
      · rfl
    | false =>
      unfold Desk.next
      dsimp only
      split
      · rw [hresume]
        rfl
      · rw [hresume]
  | read env n => exact Or.inr ⟨d.link.readEvent i env n, rfl⟩
  | recv n =>
    left
    unfold Desk.next
    cases n with
    | none => rw [hresume]
    | some n =>
      dsimp only
      rw [hresume]
      rfl
  | server e => exact Or.inr ⟨e, rfl⟩

/-- Messages stay in their conversation. -/
theorem messages_stay {s : LoopState} {older newer : History Desk DeskEvent} {d₀ d : Desk}
    (hr : (deskMachine hasher i s []).Run (newer ++ older) d)
    (hr₀ : (deskMachine hasher i s []).Run older d₀) (c : Int) :
    messagesOf d₀.link.server.app.db c ⊆ messagesOf d.link.server.app.db c := by
  refine Machine.Run.later (P := fun _ => True)
    (R := fun a b : Desk => messagesOf a.link.server.app.db c ⊆ messagesOf b.link.server.app.db c)
    (fun _ => List.Subset.refl _) (fun hab hbc => List.Subset.trans hab hbc) (fun d e _ _ => ?_)
    hr hr₀ fun _ _ => trivial
  show messagesOf d.link.server.app.db c ⊆ messagesOf (d.next hasher i e).link.server.app.db c
  rcases d.server_step hasher i e with hsame | ⟨e', hnext⟩
  · rw [hsame]
    exact List.Subset.refl _
  · rw [hnext]
    rcases step_messagesOf hasher ⟨d.link.server, e'⟩ c with ⟨_, hsame⟩ | ⟨_, _, _, _, hmore⟩
    · have hsame : messagesOf (Server.next hasher d.link.server e').app.db c = _ := hsame
      rw [hsame]
      exact List.Subset.refl _
    · have hmore : messagesOf (Server.next hasher d.link.server e').app.db c = _ := hmore
      rw [hmore]
      exact List.subset_append_left _ _

/-- Every message of the conversation has its paragraph. -/
theorem mem_historyLines {env : Env} (he : env.Sound) {db : Db} {c : Int} {m : MessageRow}
    (hm : m ∈ messagesOf db c) :
    itemBody (m.senderUsername, m.content) ∈ historyLines env db c := by
  have hperm : (Database.getMessages env db c).Perm
      ((messagesOf db c).map (Database.readMessage c)) := by
    refine getMessages_perm fun hfails => ?_
    rw [he] at hfails
    cases hfails
  have hin : Database.readMessage c m ∈ Database.getMessages env db c :=
    hperm.mem_iff.mpr (List.mem_map_of_mem hm)
  unfold historyLines
  dsimp only
  split
  next hempty =>
    rw [List.isEmpty_iff.mp hempty] at hin
    cases hin
  next => exact List.mem_map.mpr ⟨_, hin, rfl⟩

/-- A step does not both load and send. -/
theorem not_sends_of_loads {c : Int} {history : List Text} {x : Step Desk DeskEvent}
    (hx : Loads c history x) : ¬ Sends hasher i x := by
  intro hsends
  unfold Loads at hx
  unfold Sends at hsends
  split at hsends
  next hphase =>
    rw [hphase] at hx
    split at hx
    next heq => cases heq
    next heq => cases heq
    next => exact hx.elim
  next => exact hsends.elim

/-- What was loaded is what the server had. -/
theorem loads_env {c : Int} {history : List Text} {x : Step Desk DeskEvent}
    (hx : Loads c history x) (hsound : x.event.Sound) :
    ∃ env : Env, env.Sound ∧ historyLines env x.pre.link.server.app.db c = history := by
  unfold Loads at hx
  split at hx
  next env _ hevent _ =>
    rw [hevent] at hsound
    exact ⟨env, hsound, hx.2⟩
  next env _ hevent _ =>
    rw [hevent] at hsound
    exact ⟨env, hsound, hx.2⟩
  next => exact hx.elim

end SocialNetwork.Client
