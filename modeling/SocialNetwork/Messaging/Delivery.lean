import SocialNetwork.Messaging.OpenConversation

/-!
# Every message sent is in the history of its conversation

The messages of a run are a record of its OK `send` steps: the table gains one row for
each, with the conversation open on the socket at that moment and the user logged in
there, and no other step touches it (`messages_run`). So `getMessages` returns the sends
into a conversation, whatever the clients did in between.

One thing is not as it should be: row ids are read back as `int`s, so they tell the
messages of a conversation apart only until two of them agree in their low 32 bits
(`Collides`). `delivered_iff` shows that nothing else is wrong.
-/

namespace SocialNetwork.Server

open SocialNetwork.Lib

variable {hasher : Text → Nat} {serverSocket : Int}

/-- A message without its id and time. -/
structure Entry where
  conversationId : Int
  sender : Text
  content : Text
deriving DecidableEq

def Message.entry (m : Message) : Entry := ⟨m.conversationId, m.sender, m.content⟩

def MessageRow.entry (r : MessageRow) : Entry := ⟨r.conversationId, r.senderUsername, r.content⟩

/-- What a step sends: the content of an OK `send`, into the conversation open on its
descriptor, by the user logged in there. -/
def sentBy (hasher : Text → Nat) (x : Step LoopState Event) : Option Entry :=
  match commandOf x with
  | some (.send content) =>
    if repliedOk hasher x then do
      let c ← currentOf x
      let u ← issuerOf x
      some ⟨c, u, content⟩
    else none
  | _ => none

/-- The messages a run has sent into `c`. -/
def sendsInto (hasher : Text → Nat) (h : History LoopState Event) (c : Int) : List Entry :=
  (h.filterMap (sentBy hasher)).filter (·.conversationId == c)

/-- `getMessages` returns what was sent into `c` and nothing else, each message under an
id of its own, and whatever it has returned before. -/
structure Delivered (hasher : Text → Nat) (h : History LoopState Event) (s : LoopState) (env : Env)
    (c : Int) : Prop where
  entries : ((Database.getMessages env s.app.db c).map Message.entry).Perm (sendsInto hasher h c)
  ids : ((Database.getMessages env s.app.db c).map (·.messageId)).Nodup
  kept : ∀ s' ∈ visited h s, ∀ env',
    Database.getMessages env' s'.app.db c ⊆ Database.getMessages env s.app.db c

/-- The step sends into `c` while `c` has a message whose id reads like the next one. -/
def Collides (hasher : Text → Nat) (c : Int) (x : Step LoopState Event) : Prop :=
  (∃ e ∈ sentBy hasher x, e.conversationId = c) ∧
    ∃ m ∈ x.pre.app.db.messages.rows, m.conversationId = c ∧
      columnInt m.messageId = columnInt (x.pre.app.db.messages.seq + 1)

instance (c : Int) (x : Step LoopState Event) : Decidable (Collides hasher c x) :=
  inferInstanceAs (Decidable (_ ∧ _))

/-! ## One step -/

/-- **A step that sends adds its message, and no other step touches the table.** -/
theorem step_messages (hasher : Text → Nat) (x : Step LoopState Event) :
    (sentBy hasher x = none ∧
        (next hasher x.pre x.event).app.db.messages = x.pre.app.db.messages) ∨
      ∃ e sentAt, sentBy hasher x = some e ∧
        (next hasher x.pre x.event).app.db.messages.rows = x.pre.app.db.messages.rows ++
          [⟨x.pre.app.db.messages.seq + 1, e.conversationId, e.sender, e.content, sentAt⟩] ∧
        (next hasher x.pre x.event).app.db.messages.seq = x.pre.app.db.messages.seq + 1 := by
  rcases step_write hasher x with ⟨hcmd, _, hdb⟩ | ⟨i, env, data, cmd, reply, _, hcmd, hreply, hw⟩
  · left
    unfold sentBy
    rw [hcmd, hdb]
    exact ⟨rfl, rfl⟩
  · have hok := repliedOk_of_reply hreply
    unfold sentBy
    rw [hcmd]
    generalize (next hasher x.pre x.event).app.db = db' at hw ⊢
    cases hw with
    | unchanged h =>
      refine Or.inl ⟨?_, rfl⟩
      cases cmd with
      | send content =>
        simp only [hok, not_isOk_of_unchanged h rfl]
        rfl
      | _ => rfl
    | @send u content c t hs hc _ ht hseq =>
      refine Or.inr ⟨⟨c, u, content⟩, env.now, ?_, ht, hseq⟩
      have hsent : repliedOk hasher x = true := hok.trans rfl
      simp only [hsent, hc, hs]
      rfl
    | chat _ _ _ _ hcreated => exact Or.inl ⟨rfl, hcreated.messages⟩
    | group _ _ hcreated => exact Or.inl ⟨rfl, hcreated.messages⟩
    | _ => exact Or.inl ⟨rfl, rfl⟩

/-- The messages of `c` in the order of their ids. -/
def messagesOf (db : Db) (c : Int) : List MessageRow :=
  db.messages.rows.filter (·.conversationId == c)

/-- What a step does to the messages of one conversation. -/
theorem step_messagesOf (hasher : Text → Nat) (x : Step LoopState Event) (c : Int) :
    ((∀ e ∈ sentBy hasher x, e.conversationId ≠ c) ∧
        messagesOf (next hasher x.pre x.event).app.db c = messagesOf x.pre.app.db c) ∨
      ∃ e sentAt, sentBy hasher x = some e ∧ e.conversationId = c ∧
        messagesOf (next hasher x.pre x.event).app.db c = messagesOf x.pre.app.db c ++
          [⟨x.pre.app.db.messages.seq + 1, c, e.sender, e.content, sentAt⟩] := by
  unfold messagesOf
  rcases step_messages hasher x with ⟨hnone, hsame⟩ | ⟨e, sentAt, hsent, hrows, _⟩
  · rw [hsame, hnone]
    exact Or.inl ⟨by simp, rfl⟩
  · rw [hrows, hsent, List.filter_append]
    by_cases hc : e.conversationId = c
    · exact Or.inr ⟨e, sentAt, rfl, hc, by simp [hc]⟩
    · exact Or.inl ⟨by simpa using hc, by simp [hc]⟩

/-! ## The whole run -/

/-- **The messages of a conversation are the sends into it**, oldest first. -/
theorem messages_run {h : History LoopState Event} {s : LoopState}
    (hr : (machine hasher serverSocket).Run h s) (c : Int) :
    (messagesOf s.app.db c).map MessageRow.entry = (sendsInto hasher h c).reverse := by
  unfold sendsInto
  induction hr with
  | init => rfl
  | @step h s e _ _ ih =>
    rw [List.filterMap_cons]
    show (messagesOf (next hasher s e).app.db c).map _ = _
    rcases step_messagesOf hasher ⟨s, e⟩ c with ⟨hother, hsame⟩ | ⟨m, sentAt, hsent, rfl, hadd⟩
    · rw [hsame, ih]
      cases hsent : sentBy hasher ⟨s, e⟩ with
      | none => rfl
      | some m => rw [List.filter_cons_of_neg (by simpa using hother m hsent)]
    · rw [hadd, hsent, List.map_append, ih, List.filter_cons_of_pos (by simp), List.reverse_cons]
      rfl

/-- **The ids read back differ exactly as long as no step collides.** -/
theorem ids_run {h : History LoopState Event} {s : LoopState}
    (hr : (machine hasher serverSocket).Run h s) (c : Int) :
    ((messagesOf s.app.db c).map fun m => columnInt m.messageId).Nodup ↔
      ∀ x ∈ h, ¬ Collides hasher c x := by
  induction hr with
  | init => simp [messagesOf, machine, LoopState.init, App.init, Db.empty, AutoTable.empty]
  | @step h s e _ _ ih =>
    rw [List.forall_mem_cons, ← ih]
    show ((messagesOf (next hasher s e).app.db c).map _).Nodup ↔ _
    rcases step_messagesOf hasher ⟨s, e⟩ c with ⟨hother, hsame⟩ | ⟨m, sentAt, hsent, hc, hadd⟩
    · rw [hsame, and_iff_right]
      rintro ⟨⟨m, hm, hc⟩, _⟩
      exact hother m hm hc
    · have hiff : Collides hasher c ⟨s, e⟩ ↔
          columnInt (s.app.db.messages.seq + 1) ∈
            (messagesOf s.app.db c).map fun m => columnInt m.messageId := by
        unfold Collides messagesOf
        simp [hsent, hc, and_assoc]
      rw [hadd, hiff, List.map_append, List.map_singleton, List.nodup_append_comm,
        List.singleton_append, List.nodup_cons]

/-- Messages stay. -/
theorem messages_later {newer older : History LoopState Event} {s s₀ : LoopState}
    (hr : (machine hasher serverSocket).Run (newer ++ older) s)
    (hr₀ : (machine hasher serverSocket).Run older s₀) (c : Int) :
    messagesOf s₀.app.db c ⊆ messagesOf s.app.db c := by
  refine Machine.Run.later (P := fun _ => True)
    (R := fun a b => messagesOf a.app.db c ⊆ messagesOf b.app.db c) (fun _ => List.Subset.refl _)
    List.Subset.trans (fun s e _ _ => ?_) hr hr₀ fun _ _ => trivial
  show _ ⊆ messagesOf (next hasher s e).app.db c
  rcases step_messagesOf hasher ⟨s, e⟩ c with ⟨_, hsame⟩ | ⟨_, _, _, _, hadd⟩
  · rw [hsame]
    exact List.Subset.refl _
  · rw [hadd]
    exact List.subset_append_left ..

/-! ## What `getMessages` returns -/

section

variable {env : Env} {db : Db} {c : Int}

theorem getMessages_of_fails (h : env.fails .getMessages 0 = true) :
    Database.getMessages env db c = [] := by
  unfold Database.getMessages select
  rw [h]
  rfl

/-- The messages of the conversation, if the query does not fail or has none to find. -/
theorem getMessages_perm (h : env.fails .getMessages 0 = true → messagesOf db c = []) :
    (Database.getMessages env db c).Perm ((messagesOf db c).map (Database.readMessage c)) := by
  cases hf : env.fails .getMessages 0 with
  | true =>
    rw [getMessages_of_fails hf, h hf]
    exact List.Perm.refl _
  | false =>
    unfold Database.getMessages Database.oldestFirst
    rw [select_done hf]
    exact ((orderBy_perm _ _).trans (arrange_perm _ _)).map _

theorem mem_getMessages {m : Message} (h : m ∈ Database.getMessages env db c) :
    m ∈ (messagesOf db c).map (Database.readMessage c) := by
  cases hf : env.fails .getMessages 0 with
  | true =>
    rw [getMessages_of_fails hf] at h
    cases h
  | false =>
    refine (getMessages_perm fun hfail => ?_).mem_iff.mp h
    rw [hf] at hfail
    cases hfail

/-- Every row found is one of the conversation asked for, so no entry is misfiled. -/
theorem readMessage_entries (db : Db) (c : Int) :
    ((messagesOf db c).map (Database.readMessage c)).map Message.entry =
      (messagesOf db c).map MessageRow.entry := by
  rw [List.map_map]
  refine List.map_congr_left fun r hr => ?_
  have hc : r.conversationId = c := by simpa using (List.mem_filter.mp hr).2
  show (⟨c, r.senderUsername, r.content⟩ : Entry) = ⟨r.conversationId, r.senderUsername, r.content⟩
  rw [hc]

end

/-- **No message is lost, duplicated or misfiled, except that two may get one id.** After
any run `getMessages` returns the messages sent into a conversation, each under its own id,
and all it has returned before, if and only if its query does not fail (or nothing was sent)
and no `send` of the run met a message whose id reads like the next one. -/
theorem delivered_iff {h : History LoopState Event} {s : LoopState}
    (hr : (machine hasher serverSocket).Run h s) (env : Env) (c : Int) :
    Delivered hasher h s env c ↔
      (env.fails .getMessages 0 = true → sendsInto hasher h c = []) ∧
        ∀ x ∈ h, ¬ Collides hasher c x := by
  have hrun := messages_run hr c
  -- a failing query is harmless exactly if there is no message to find
  have hperm : (env.fails .getMessages 0 = true → sendsInto hasher h c = []) →
      (Database.getMessages env s.app.db c).Perm
        ((messagesOf s.app.db c).map (Database.readMessage c)) := by
    refine fun hsends => getMessages_perm fun hf => ?_
    rw [hsends hf, List.reverse_nil, List.map_eq_nil_iff] at hrun
    exact hrun
  have hids : (((messagesOf s.app.db c).map (Database.readMessage c)).map (·.messageId)).Nodup ↔
      ∀ x ∈ h, ¬ Collides hasher c x := by
    rw [List.map_map, ← ids_run hr c]
    rfl
  constructor
  · intro hd
    have hsends : env.fails .getMessages 0 = true → sendsInto hasher h c = [] := by
      intro hf
      have hentries := hd.entries
      rw [getMessages_of_fails hf, List.map_nil, List.nil_perm] at hentries
      exact hentries
    exact ⟨hsends, hids.mp (((hperm hsends).map _).nodup_iff.mp hd.ids)⟩
  · rintro ⟨hsends, hno⟩
    refine ⟨?_, ((hperm hsends).map _).nodup_iff.mpr (hids.mpr hno), fun s' hs' env' m hm => ?_⟩
    · refine ((hperm hsends).map Message.entry).trans ?_
      rw [readMessage_entries, hrun]
      exact List.reverse_perm _
    · obtain ⟨h', hr', newer, rfl⟩ := hr.of_visited hs'
      rw [(hperm hsends).mem_iff]
      exact List.map_subset _ (messages_later hr hr' c) (mem_getMessages hm)

/-- Two people in a group, the second of whom opens it before sending. -/
def twoSendersEvents : List Event :=
  [.accept 4, .line 0 "register a p a@x normal public\n",
    .line 0 "register b p b@x normal public\n", .line 0 "login a p\n", .line 0 "group b\n",
    .accept 5, .line 1 "login b p\n", .line 1 "open 1\n", .line 0 "send hi\n",
    .line 1 "send hi\n", .hangup 0]

theorem delivered_iff_two :
    ∃ h s, (machine List.length 3).Run h s ∧
      sendsInto List.length h 1 = [⟨1, bytes "b", bytes "hi"⟩, ⟨1, bytes "a", bytes "hi"⟩] ∧
      Delivered List.length h s Env.plain 1 := by
  obtain ⟨h, s, _, hrun, _, hsends, hno⟩ := runEvents_exists List.length 3 twoSendersEvents
    (p := fun h _ =>
      sendsInto List.length h 1 = [⟨1, bytes "b", bytes "hi"⟩, ⟨1, bytes "a", bytes "hi"⟩] ∧
        ∀ x ∈ h, ¬ Collides List.length 1 x)
    (by simp [twoSendersEvents]) (by decide)
  exact ⟨h, s, hrun, hsends,
    (delivered_iff hrun Env.plain 1).mpr ⟨fun hfail => absurd hfail (by decide), hno⟩⟩

/-! ## A conversation of more than `2 ^ 32` messages -/

/-- Without failures a participant's `send` into the open conversation is OK as long as
there are row ids. -/
theorem send_execute {env : Env} (he : env.Sound) {sd : Int} {a : App} {u : Text} {c : Int}
    (content : Text) (hs : a.sessions.sessions sd = some u)
    (hc : a.sessions.currentConversation sd = some c) (hne : c ≠ -1) (hm : Member a.db c u)
    (hseq : a.db.messages.seq < maxRowid) :
    ∃ t, SendCommand.execute env sd a content =
      (bytes "OK Message sent", ⟨{ a.db with messages := t }, a.sessions⟩) := by
  obtain ⟨hauth, hname⟩ := SessionManager.sessions_eq_some hs
  have hopen : a.sessions.getCurrentConversation sd = c := by
    unfold SessionManager.getCurrentConversation
    rw [hc]
    rfl
  have hins := insertMessage_isSome c u content env.now a.db
  rw [decide_eq_true hseq, Option.isSome_iff_exists] at hins
  obtain ⟨db', hins⟩ := hins
  have hexec : exec env .sendMessage 0 (Database.insertMessage c u content env.now) a.db =
      (true, db') := exec_some he hins
  obtain ⟨t, _, rfl⟩ := Option.map_eq_some_iff.mp hins
  refine ⟨t, ?_⟩
  have hpart : Database.isParticipant env 0 a.db c u = true := (isParticipant_iff he).mpr hm
  unfold SendCommand.execute Database.sendMessage
  simp only [hauth, hname, hopen, hpart, hexec, if_neg hne]
  rfl

/-- `a` is logged in on the first slot with conversation 1 open, and `n` messages have
been sent, the first of them into that conversation. -/
structure Talked (n : Int) (s : LoopState) : Prop where
  socket : s.clientSocket 0 = 4
  watched : (4 : Int) ∈ s.masterSet
  session : s.app.sessions.sessions 4 = some (bytes "a")
  current : s.app.sessions.currentConversation 4 = some 1
  member : Member s.app.db 1 (bytes "a")
  seq : s.app.db.messages.seq = n
  first : 1 ≤ n → ∃ m ∈ messagesOf s.app.db 1, m.messageId = 1

/-- The message `a` repeats. -/
def talkEvent : Event := .line 0 "send x\n"

theorem talkEvent_command (s : LoopState) :
    commandOf ⟨s, talkEvent⟩ = some (.send (bytes "x")) := by
  show CommandFactory.create 0 (inputOf (bytes "send x\n")) = _
  decide

namespace Talked

variable {n : Int} {s : LoopState}

theorem admits (ht : Talked n s) : admits s talkEvent := by
  refine ⟨?_, by decide⟩
  rw [ht.socket]
  exact ⟨by decide, ht.watched⟩

theorem sdOf_eq (ht : Talked n s) : sdOf ⟨s, talkEvent⟩ = 4 := ht.socket

/-- The request is OK and changes nothing but the messages. -/
theorem sends (hasher : Text → Nat) (ht : Talked n s) (hn : n < maxRowid) :
    sentBy hasher ⟨s, talkEvent⟩ = some ⟨1, bytes "a", bytes "x"⟩ ∧
      ∃ t, (next hasher s talkEvent).app = ⟨{ s.app.db with messages := t }, s.app.sessions⟩ := by
  have hcmd := talkEvent_command s
  obtain ⟨i, env, data, he, hreply, happ⟩ := step_execute hasher hcmd
  have hsound : env.Sound := SoundStep.env (x := ⟨s, talkEvent⟩) Env.plain_sound he
  rw [ht.sdOf_eq] at hreply happ
  obtain ⟨t, hexec⟩ := send_execute hsound (bytes "x") ht.session ht.current (by decide) ht.member
    (show s.app.db.messages.seq < maxRowid by rw [ht.seq]; exact hn)
  refine ⟨?_, t, happ.trans (congrArg Prod.snd hexec)⟩
  have hok : repliedOk hasher ⟨s, talkEvent⟩ = true := by
    rw [repliedOk_of_reply hreply]
    exact congrArg isOk (congrArg Prod.fst hexec)
  unfold sentBy
  rw [hcmd]
  unfold currentOf issuerOf
  simp only [hok, ht.sdOf_eq, ht.session, ht.current]
  rfl

/-- As long as there are row ids, one more request leaves one more message. -/
theorem step (hasher : Text → Nat) (ht : Talked n s) (hn : 0 ≤ n ∧ n < maxRowid) :
    Talked (n + 1) (next hasher s talkEvent) := by
  obtain ⟨hsent, t, happ⟩ := ht.sends hasher hn.2
  refine ⟨ht.socket, ht.watched, ?_, ?_, ?_, ?_, fun _ => ?_⟩
  · rw [happ]
    exact ht.session
  · rw [happ]
    exact ht.current
  · rw [happ]
    exact ht.member
  · rcases step_messages hasher ⟨s, talkEvent⟩ with ⟨hnone, _⟩ | ⟨_, _, _, _, hseq⟩
    · rw [hsent] at hnone
      cases hnone
    · exact hseq.trans (by rw [ht.seq])
  · rcases step_messagesOf hasher ⟨s, talkEvent⟩ 1 with ⟨hother, _⟩ | ⟨_, _, _, _, hadd⟩
    · exact absurd rfl (hother _ hsent)
    · rw [show messagesOf (next hasher s talkEvent).app.db 1 = _ from hadd]
      by_cases hfirst : 1 ≤ n
      · obtain ⟨m, hm, hid⟩ := ht.first hfirst
        exact ⟨m, List.mem_append_left _ hm, hid⟩
      · -- this is the first message
        refine ⟨_, List.mem_append_right _ (List.mem_singleton_self _), ?_⟩
        show s.app.db.messages.seq + 1 = 1
        rw [ht.seq]
        omega

end Talked

/-- `a` registers, logs in and makes a group with `b`. -/
def talkStartEvents : List Event :=
  [.accept 4, .line 0 "register a p a@x normal public\n",
    .line 0 "register b p b@x normal public\n", .line 0 "login a p\n", .line 0 "group b\n"]

theorem talked_start :
    ∃ h s, (machine List.length 3).Run h s ∧ (∀ x ∈ h, SoundStep x) ∧ Talked 0 s := by
  obtain ⟨h, s, _, hrun, hsound, hsocket, hwatched, hsession, hcurrent, hmember, hseq⟩ :=
    runEvents_exists List.length 3 talkStartEvents
      (p := fun _ s => s.clientSocket 0 = 4 ∧ (4 : Int) ∈ s.masterSet ∧
        s.app.sessions.sessions 4 = some (bytes "a") ∧
        s.app.sessions.currentConversation 4 = some 1 ∧ Member s.app.db 1 (bytes "a") ∧
        s.app.db.messages.seq = 0)
      (by simp [talkStartEvents]) (by decide)
  exact ⟨h, s, hrun, hsound, hsocket, hwatched, hsession, hcurrent, hmember, hseq,
    fun hpos => absurd hpos (by decide)⟩

/-- **Nothing limits the messages a client sends**: up to the largest row id, some run
without failures has sent that many. -/
theorem talked_run (n : Nat) (hn : (n : Int) ≤ maxRowid) :
    ∃ h s, (machine List.length 3).Run h s ∧ (∀ x ∈ h, SoundStep x) ∧ Talked n s := by
  refine Machine.Run.repeated (I := fun n s => Talked n s) talkEvent talked_start n ?_
  intro m hm s ht
  exact ⟨ht.admits, Env.plain_sound, ht.step _ ⟨by omega, by omega⟩⟩

/-- The messages of a conversation do not always have different ids: the `2 ^ 32 + 1`-st
message is shown under the id of the first. -/
theorem not_delivered :
    ¬ ∀ (hasher : Text → Nat) (serverSocket : Int) (h : History LoopState Event) (s : LoopState)
      (env : Env) (c : Int), (machine hasher serverSocket).Run h s → (∀ x ∈ h, SoundStep x) →
        env.Sound → Delivered hasher h s env c := by
  intro hall
  obtain ⟨h, s, hr, hsound, ht⟩ := talked_run 4294967296 (by decide)
  have hsteps : ∀ x ∈ (⟨s, talkEvent⟩ : Step LoopState Event) :: h, SoundStep x :=
    List.forall_mem_cons.mpr ⟨Env.plain_sound, hsound⟩
  have hrun := hr.step talkEvent ht.admits
  have hd := hall _ _ _ _ Env.plain 1 hrun hsteps Env.plain_sound
  refine ((delivered_iff hrun Env.plain 1).mp hd).2 _ (List.mem_cons_self ..) ⟨?_, ?_⟩
  · exact ⟨_, (ht.sends _ (by decide)).1, rfl⟩
  · obtain ⟨m, hm, hid⟩ := ht.first (by decide)
    rw [messagesOf, List.mem_filter, beq_iff_eq] at hm
    refine ⟨m, hm.1, hm.2, ?_⟩
    show columnInt m.messageId = columnInt (s.app.db.messages.seq + 1)
    rw [hid, ht.seq]
    decide

end SocialNetwork.Server
