import SocialNetwork.Messaging.Provenance

/-!
# `chat` and the conversations that exist already

`chat` looks for an existing private conversation by joining the participants table
with itself, grouping by conversation and keeping the groups of two rows. The join
has one row for a conversation both users participate in (`joinedConversations_nodup`),
so no group has two and the lookup never finds anything
(`getPrivateConversation_eq_none`): every `chat` creates a conversation, and it does
so as intended (`chat_creates`).

`chat_reuses_iff` draws the line: the requests of a run do what `chat` is meant for
exactly when none of them is made while the two already have a private conversation.
-/

namespace SocialNetwork.Server

open SocialNetwork.Lib

variable {hasher : Text → Nat} {serverSocket : Int}

/-! ## The lookup -/

section

variable {env : Env} {db : Db}

/-- A row of the join: its conversation is the first row's, which is `user1`'s. -/
theorem mem_joined {cp1 : ParticipantRow} {user1 user2 : Text} {c : Int}
    (h : c ∈ (db.participants.rows.filter fun cp2 =>
      cp1.conversationId == cp2.conversationId
        && cp1.username == user1 && cp2.username == user2).map fun _ => cp1.conversationId) :
    cp1 = ⟨c, user1⟩ := by
  obtain ⟨cp2, hcp2, rfl⟩ := List.mem_map.mp h
  rw [List.mem_filter, Bool.and_eq_true, Bool.and_eq_true, beq_iff_eq, beq_iff_eq] at hcp2
  rw [← hcp2.2.1.2]

/-- **The join yields every conversation at most once.** -/
theorem joinedConversations_nodup (db : Db) (user1 user2 : Text) :
    (Database.joinedConversations db user1 user2).Nodup := by
  unfold Database.joinedConversations
  rw [List.nodup_flatMap]
  constructor
  · intro cp1 _
    refine List.Nodup.map_on ?_ ((participants_nodup db).filter _)
    -- the key of the second row is fixed by the first
    intro x hx y hy _
    rw [List.mem_filter, Bool.and_eq_true, Bool.and_eq_true, beq_iff_eq, beq_iff_eq,
      beq_iff_eq] at hx hy
    obtain ⟨c, w⟩ := x
    obtain ⟨d, w'⟩ := y
    rw [ParticipantRow.mk.injEq]
    exact ⟨hx.2.1.1.symm.trans hy.2.1.1, hx.2.2.trans hy.2.2.symm⟩
  · refine (participants_nodup db).imp ?_
    intro a b hne c hca hcb
    exact hne ((mem_joined hca).trans (mem_joined hcb).symm)

/-- **The lookup never finds a conversation**: no group of the join has two rows. -/
theorem getPrivateConversation_eq_none (env : Env) (db : Db) (user1 user2 : Text) :
    Database.getPrivateConversation env db user1 user2 = none := by
  have hgroups : Database.groupsOfTwo (Database.joinedConversations db user1 user2) = [] := by
    unfold Database.groupsOfTwo
    rw [List.filter_eq_nil_iff]
    intro c _ hcount
    rw [beq_iff_eq] at hcount
    have hle := List.nodup_iff_count_le_one.mp (joinedConversations_nodup db user1 user2) c
    omega
  unfold Database.getPrivateConversation
  split
  next => rfl
  next c rest hsel =>
    have hc := mem_of_mem_select (hsel ▸ List.mem_cons_self .. : c ∈ select _ _ _ _)
    rw [hgroups] at hc
    cases hc

end

/-! ## What `chat` is meant for -/

/-- `c` is a conversation of `u` and `v` alone. -/
def IsPrivate (db : Db) (c : Int) (u v : Text) : Prop :=
  Exists db c ∧ ∀ w, Member db c w ↔ w = u ∨ w = v

/-- `u` and `v` have a private conversation. -/
def HasPrivate (db : Db) (u v : Text) : Prop := ∃ c, IsPrivate db c u v

/-- The step is a `chat v` by a client logged in as another user `u`, and `v` is
registered. -/
structure ChatStep (x : Step LoopState Event) (u v : Text) : Prop where
  command : commandOf x = some (.chat v)
  issuer : issuerOf x = some u
  other : u ≠ v
  registered : ∃ row ∈ x.pre.app.db.users.rows, row.username = v

/-- The reply reports the conversation `c`. -/
def Reports (hasher : Text → Nat) (x : Step LoopState Event) (c : Int) : Prop :=
  replyOf hasher x = some (bytes "OK Chat already exists. conversation_id = " ++ intText c) ∨
    replyOf hasher x = some (bytes "OK Private chat created. conversation_id = " ++ intText c)

/-- The step created `c` for `u` and `v` and changed nothing else. -/
structure CreatesPrivate (hasher : Text → Nat) (x : Step LoopState Event) (u v : Text) (c : Int) :
    Prop where
  fresh : ¬ Exists x.pre.app.db c
  isPrivate : IsPrivate (next hasher x.pre x.event).app.db c u v
  reported : Reports hasher x c
  conversations : ∃ row, row.conversationId = c ∧
    (next hasher x.pre x.event).app.db.conversations.rows =
      x.pre.app.db.conversations.rows ++ [row]
  participants : ∃ new, (∀ r ∈ new, r.conversationId = c) ∧
    (next hasher x.pre x.event).app.db.participants.rows =
      x.pre.app.db.participants.rows ++ new
  users : (next hasher x.pre x.event).app.db.users = x.pre.app.db.users
  friends : (next hasher x.pre x.event).app.db.friends = x.pre.app.db.friends
  posts : (next hasher x.pre x.event).app.db.posts = x.pre.app.db.posts
  messages : (next hasher x.pre x.event).app.db.messages = x.pre.app.db.messages
  sessions : (next hasher x.pre x.event).app.sessions = x.pre.app.sessions

/-- A `chat` reuses the private conversation of the two if there is one, and creates
one otherwise. -/
structure ChatSpec (hasher : Text → Nat) (x : Step LoopState Event) (u v : Text) : Prop where
  reuses : HasPrivate x.pre.app.db u v →
    (next hasher x.pre x.event).app.db = x.pre.app.db ∧
      ∃ c, IsPrivate x.pre.app.db c u v ∧ Reports hasher x c
  creates : ¬ HasPrivate x.pre.app.db u v → ∃ c, CreatesPrivate hasher x u v c

/-- Every `chat` of the run does what it is meant for, and repeated requests of the
same two users with no `add` in between report the same conversation. -/
structure ChatsReuse (hasher : Text → Nat) (h : History LoopState Event) : Prop where
  spec : ∀ x ∈ h, ∀ u v, ChatStep x u v → ChatSpec hasher x u v
  repeats : ∀ newer mid older x y u v, h = newer ++ y :: (mid ++ x :: older) →
    ChatStep x u v → ChatStep y u v ∨ ChatStep y v u →
    (∀ z ∈ mid, ∀ w, commandOf z ≠ some (.add w)) → ∀ c, Reports hasher x c → Reports hasher y c

theorem IsPrivate.symm {db : Db} {c : Int} {u v : Text} (h : IsPrivate db c u v) :
    IsPrivate db c v u :=
  ⟨h.1, fun w => (h.2 w).trans or_comm⟩

/-! ## What `chat` does -/

/-- An insert into `conversations` is refused only when the row ids are exhausted. -/
theorem insertConversation_of_lt {db : Db} (now : Text)
    (h : db.conversations.seq < maxRowid) :
    ∃ db', Database.insertConversation now db = some db' := by
  have hfit : db.conversations.toTable.Fits ⟨db.conversations.seq + 1, now⟩ := by
    intro r hr
    have := db.conversations.id_ne_next hr
    simpa [conversationsConstraints] using this
  unfold Database.insertConversation AutoTable.insert
  rw [dif_pos ⟨h, hfit⟩]
  exact ⟨_, rfl⟩

/-- Without failures a conversation is created as long as there are row ids. -/
theorem createConversation_created {env : Env} (he : env.Sound) {db : Db} (u v : Text)
    (h : db.conversations.seq < maxRowid) :
    ∃ id db', Database.createConversation env db u v = (id, db') ∧
      Created env db [u, v] id db' := by
  obtain ⟨db₁, hins⟩ := insertConversation_of_lt env.now h
  refine ⟨_, _, ?_, created_of_insert [u, v] hins⟩
  unfold Database.createConversation
  rw [exec_some he hins]
  rfl

/-- Without failures a `chat` of a client logged in as `u` with another registered user
creates a conversation. -/
theorem chat_execute {env : Env} (he : env.Sound) {sd : Int} {a : App} {u v : Text}
    (hs : a.sessions.sessions sd = some u) (hne : u ≠ v)
    (hv : ∃ row ∈ a.db.users.rows, row.username = v) (hseq : a.db.conversations.seq < maxRowid) :
    ∃ id db', ChatCommand.execute env sd a v = (ChatCommand.created id, ⟨db', a.sessions⟩) ∧
      Created env a.db [u, v] id db' := by
  obtain ⟨id, db', hcreate, hcreated⟩ := createConversation_created he u v hseq
  refine ⟨id, db', ?_, hcreated⟩
  obtain ⟨hauth, hname⟩ := SessionManager.sessions_eq_some hs
  have hfound : (Database.getUserByUsername env 0 a.db v).isNone = false := by
    cases hget : Database.getUserByUsername env 0 a.db v with
    | some user => rfl
    | none =>
      obtain ⟨row, hrow, hv⟩ := hv
      exact absurd hv ((getUserByUsername_eq_none he).mp hget row hrow)
  unfold ChatCommand.execute
  simp only [hauth, hname, hne, hfound, getPrivateConversation_eq_none, hcreate]
  rfl

/-- **Every `chat` creates a private conversation**, whatever conversations exist. -/
theorem chat_creates {h : History LoopState Event} {x : Step LoopState Event}
    (hr : (machine hasher serverSocket).Run h x.pre) (hj : ∀ y ∈ h, JoinStep y)
    (hsound : SoundStep x) (hf : FewConversations (next hasher x.pre x.event).app.db)
    {u v : Text} (hx : ChatStep x u v) : ∃ c, CreatesPrivate hasher x u v c := by
  obtain ⟨i, env, data, he, hreply, happ⟩ := step_execute hasher hx.command
  have hcount := counted_run hr
  have hres := (rooms_run hr hj (few_of_next hf)).2.2
  -- few conversations leave row ids, and ids that fit in an `int`
  have hseq : x.pre.app.db.conversations.seq < 2147483648 := by
    have hpre := few_of_next hf
    unfold FewConversations at hpre
    unfold Counted at hcount
    omega
  obtain ⟨id, db', hexec, hcreated⟩ := chat_execute (hsound.env he) hx.issuer hx.other
    hx.registered (show _ < maxRowid by unfold maxRowid; omega)
  have hstep : execute hasher env (sdOf x) x.pre.app (.chat v) = _ := hexec
  rw [hstep] at hreply happ
  rw [happ] at hf
  have hid := hcreated.id_eq_next hcount hf
  have hroom : rooms db' id = some { w | w ∈ [u, v] } := by
    rw [hcreated.rooms (hsound.env he).joins hcount hf hres, hid, Function.update_self]
  obtain ⟨new, hnew, hnewc⟩ := hcreated.attached.rows
  have hprivate : IsPrivate db' id u v := by
    refine ⟨(rooms_eq_some hroom).1, fun w => ((rooms_eq_some hroom).2 w).trans ?_⟩
    show w ∈ [u, v] ↔ _
    simp
  have hcreatedReply : ChatCommand.created id =
      bytes "OK Private chat created. conversation_id = " ++ intText id := by
    unfold ChatCommand.created
    have hpos : ¬ id < 0 := by
      have := x.pre.app.db.conversations.nonneg
      omega
    rw [if_neg hpos]
  refine ⟨id, ?_⟩
  constructor
  case fresh =>
    rw [hid]
    exact not_exists_next _
  case reported =>
    right
    rw [hreply, hcreatedReply]
  -- the frame: what the insert says of the other tables
  all_goals rw [happ]
  case isPrivate => exact hprivate
  case conversations => exact ⟨⟨_, env.now⟩, hid.symm, hcreated.conversations⟩
  case participants => exact ⟨new, fun r hr => (hnewc r hr).1, hnew⟩
  case users => exact hcreated.users
  case friends => exact hcreated.friends
  case posts => exact hcreated.posts
  case messages => exact hcreated.messages

/-- A `chat` that creates a conversation although there is one fails its purpose. -/
theorem not_chatSpec_of_hasPrivate {x : Step LoopState Event} {u v : Text} {c : Int}
    (hc : CreatesPrivate hasher x u v c) (hp : HasPrivate x.pre.app.db u v) :
    ¬ ChatSpec hasher x u v := by
  intro hspec
  obtain ⟨hsame, _⟩ := hspec.reuses hp
  obtain ⟨row, _, hrows⟩ := hc.conversations
  have hlen := congrArg List.length hrows
  rw [hsame, List.length_append, List.length_singleton] at hlen
  omega

/-- A private conversation stays private as long as nobody is added. -/
theorem IsPrivate.persists {newer older : History LoopState Event} {s s₀ : LoopState}
    {c : Int} {u v : Text} (hp : IsPrivate s₀.app.db c u v)
    (hr : (machine hasher serverSocket).Run (newer ++ older) s)
    (hr₀ : (machine hasher serverSocket).Run older s₀) (hj : ∀ x ∈ newer ++ older, JoinStep x)
    (hf : FewConversations s.app.db) (hno : ∀ z ∈ newer, ∀ w, commandOf z ≠ some (.add w)) :
    IsPrivate s.app.db c u v := by
  refine ⟨exists_later hr hr₀ hp.1, fun w => ?_⟩
  rw [member_later hr hr₀ hj hf hp.1, ← hp.2 w]
  refine or_iff_left ?_
  intro ⟨z, hz, host, hevent⟩
  exact hno z hz w (add_of_roomEvent hevent).1

/-- **`chat` reuses the private conversation of two users exactly in the runs that never
ask for it**: the requests of a run with few conversations, whose statements SQLite
executes as written, do what `chat` is meant for if and only if each is made while the
two have no private conversation. -/
theorem chat_reuses_iff {h : History LoopState Event} {s : LoopState}
    (hr : (machine hasher serverSocket).Run h s) (hsound : ∀ x ∈ h, SoundStep x)
    (hf : FewConversations s.app.db) :
    ChatsReuse hasher h ↔
      ∀ x ∈ h, ∀ u v, ChatStep x u v → ¬ HasPrivate x.pre.app.db u v := by
  -- what each request of the run does
  have hcreates : ∀ newer older x, h = newer ++ x :: older → ∀ u v, ChatStep x u v →
      (machine hasher serverSocket).Run (x :: older) (next hasher x.pre x.event) ∧
        ∃ c, CreatesPrivate hasher x u v c := by
    intro newer older x hsplit u v hx
    subst hsplit
    obtain ⟨hrx, hg⟩ := hr.at_step
    have hrpost := hrx.step x.event hg
    refine ⟨hrpost, chat_creates hrx (fun y hy => (hsound y ?_).join) (hsound x ?_)
      (few_earlier hr hrpost hf) hx⟩
    · exact List.mem_append_right _ (List.mem_cons_of_mem _ hy)
    · exact List.mem_append_right _ (List.mem_cons_self ..)
  constructor
  · intro hreuse x hx u v hchat hp
    obtain ⟨newer, older, hsplit⟩ := List.append_of_mem hx
    obtain ⟨_, c, hc⟩ := hcreates newer older x hsplit u v hchat
    exact not_chatSpec_of_hasPrivate hc hp (hreuse.spec x hx u v hchat)
  · intro hnone
    constructor
    · intro x hx u v hchat
      obtain ⟨newer, older, hsplit⟩ := List.append_of_mem hx
      obtain ⟨_, hc⟩ := hcreates newer older x hsplit u v hchat
      exact ⟨fun hp => absurd hp (hnone x hx u v hchat), fun _ => hc⟩
    · -- a second request would find the conversation of the first one
      intro newer mid older x y u v hsplit hx hy hno
      have hy_mem : y ∈ h := by
        rw [hsplit]
        exact List.mem_append_right _ (List.mem_cons_self ..)
      have hsplitx : h = (newer ++ y :: mid) ++ x :: older := by
        rw [hsplit]
        simp
      obtain ⟨hrx, c, hc⟩ := hcreates _ _ x hsplitx u v hx
      subst hsplit
      obtain ⟨hry, hg⟩ := hr.at_step
      have hfy : FewConversations y.pre.app.db :=
        few_of_next (few_earlier hr (hry.step y.event hg) hf)
      have hjy : ∀ z ∈ mid ++ x :: older, JoinStep z := fun z hz =>
        (hsound z (List.mem_append_right _ (List.mem_cons_of_mem _ hz))).join
      have hprivate := hc.isPrivate.persists hry hrx hjy hfy hno
      rcases hy with hy | hy
      · exact absurd ⟨c, hprivate⟩ (hnone y hy_mem u v hy)
      · exact absurd ⟨c, hprivate.symm⟩ (hnone y hy_mem v u hy)

/-- `a` asks twice for a chat with `b`. -/
def chatTwiceEvents : List Event :=
  [.accept 4, .line 0 "register a p a@x normal public\n",
    .line 0 "register b p b@x normal public\n", .line 0 "login a p\n", .line 0 "chat b\n",
    .line 0 "chat b\n"]

theorem chat_reuses_iff_twice :
    ∃ r, runEvents List.length 3 chatTwiceEvents = some r ∧
      (ChatsReuse List.length r.1 ↔
        ∀ x ∈ r.1, ∀ u v, ChatStep x u v → ¬ HasPrivate x.pre.app.db u v) := by
  obtain ⟨h, s, hr, hrun, hsound, hlen⟩ := runEvents_exists List.length 3 chatTwiceEvents
    (p := fun _ s => s.app.db.conversations.rows.length = 2)
    (by simp [chatTwiceEvents]) (by decide)
  have hf : FewConversations s.app.db := by
    unfold FewConversations
    omega
  exact ⟨(h, s), hr, chat_reuses_iff hrun hsound hf⟩

/-- `chat` does not reuse the existing private conversation in every run: the second
request of `chatTwiceEvents` creates another one. -/
theorem chat_not_reused :
    ¬ ∀ (hasher : Text → Nat) (serverSocket : Int) (h : History LoopState Event) (s : LoopState),
      (machine hasher serverSocket).Run h s → (∀ x ∈ h, SoundStep x) →
        FewConversations s.app.db → ChatsReuse hasher h := by
  intro hall
  obtain ⟨h, s, _, hrun, hsound, hlen, x, hx, hcmd, hs, hb, hex, hrows⟩ :=
    runEvents_exists List.length 3 chatTwiceEvents
      (p := fun h s => s.app.db.conversations.rows.length = 2 ∧
        ∃ x ∈ h, commandOf x = some (.chat (bytes "b")) ∧ issuerOf x = some (bytes "a") ∧
          (∃ row ∈ x.pre.app.db.users.rows, row.username = bytes "b") ∧
          Exists x.pre.app.db 1 ∧
          x.pre.app.db.participants.rows = [⟨1, bytes "a"⟩, ⟨1, bytes "b"⟩])
      (by simp [chatTwiceEvents]) (by decide)
  have hf : FewConversations s.app.db := by
    unfold FewConversations
    omega
  have hspec := (hall _ _ _ _ hrun hsound hf).spec x hx
  have hchat : ChatStep x (bytes "a") (bytes "b") := ⟨hcmd, hs, by decide, hb⟩
  have hprivate : HasPrivate x.pre.app.db (bytes "a") (bytes "b") := by
    refine ⟨1, hex, fun w => ?_⟩
    unfold Member
    rw [hrows]
    simp
  obtain ⟨newer, older, rfl⟩ := List.append_of_mem hx
  obtain ⟨hrx, hg⟩ := hrun.at_step
  obtain ⟨c, hc⟩ := chat_creates hrx
    (fun y hy => (hsound y (List.mem_append_right _ (List.mem_cons_of_mem _ hy))).join)
    (hsound x hx) (few_earlier hrun (hrx.step x.event hg) hf) hchat
  exact not_chatSpec_of_hasPrivate hc hprivate (hspec _ _ hchat)

end SocialNetwork.Server
