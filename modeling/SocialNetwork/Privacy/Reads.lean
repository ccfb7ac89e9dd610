import SocialNetwork.Messaging.OpenConversation

/-!
# What the reading commands reveal

`SameView sd v a a'` says that two states show the user `v`, logged in on `sd`, the
same: the accepted friends and the pending requests of `v`, the posts `v` may see, and
the conversations of `v` with their participants and messages. Row orders and the ids
nobody is shown are left out. `reads_confidential` shows that the commands that read then
have the same responses, whatever else the two databases hold.

Two invariants of reachable states carry it: the open conversation is one of `v`
(`joined_run`), and participants are filed under ids that fit in an `int` (`Filed`), so
that `chats`, which reads the ids back into an `int`, looks up no other conversation.

The first one takes a run in which the inserts of participants fail on constraints only.
Without that a group may be open for a creator who is not in it, and `show` reads out what
the others say there (`reads_not_confidential`).
-/

namespace SocialNetwork.Server

open SocialNetwork.Lib

variable {hasher : Text → Nat} {serverSocket : Int}

/-! ## What a user may see -/

/-- `v` may see the post: it is public, by `v`, for friends of an author who has `v` as
accepted friend, or for close friends of one who has `v` as a close one. -/
def Sees (db : Db) (v : Text) (p : PostRow) : Prop :=
  p.visibility = 0 ∨ p.authorUsername = v ∨
    (p.visibility = 1 ∧ ∃ f ∈ db.friends.rows,
      f.userUsername = p.authorUsername ∧ f.friendUsername = v ∧ f.status = 1) ∨
    (p.visibility = 2 ∧ ∃ f ∈ db.friends.rows,
      f.userUsername = p.authorUsername ∧ f.friendUsername = v ∧ f.status = 1 ∧
        f.friendType = 1)

instance (db : Db) (v : Text) (p : PostRow) : Decidable (Sees db v p) := by
  unfold Sees
  infer_instance

/-- The `WHERE` clause of the feed admits what the user may see. -/
theorem visibleTo_eq (db : Db) (v : Text) (p : PostRow) :
    Database.visibleTo db v p = decide (Sees db v p) := by
  rw [Bool.eq_iff_iff, decide_eq_true_eq]
  simp only [Database.visibleTo, Bool.or_eq_true, Bool.and_eq_true, beq_iff_eq,
    List.any_eq_true, isPair_iff, and_assoc]
  constructor
  · intro h
    rcases h with ((hown | hpublic) | hfriends) | hclose
    · exact Or.inr (Or.inl hown)
    · exact Or.inl hpublic
    · exact Or.inr (Or.inr (Or.inl hfriends))
    · exact Or.inr (Or.inr (Or.inr hclose))
  · intro h
    rcases h with hpublic | hown | hfriends | hclose
    · exact Or.inl (Or.inl (Or.inr hpublic))
    · exact Or.inl (Or.inl (Or.inl hown))
    · exact Or.inl (Or.inr hfriends)
    · exact Or.inr hclose

/-- A message without its id. -/
def Message.said (m : Message) : Message := { m with messageId := 0 }

/-- The messages of a conversation, without their ids. -/
def said (db : Db) (c : Int) : List Message :=
  (db.messages.rows.filter (·.conversationId == c)).map fun r => (Database.readMessage c r).said

/-- Both states show `v`, logged in on `sd`, the same. -/
structure SameView (sd : Int) (v : Text) (a a' : App) : Prop where
  session : a.sessions.sessions sd = some v
  session' : a'.sessions.sessions sd = some v
  current : a.sessions.currentConversation sd = a'.sessions.currentConversation sd
  friends : (a.db.friends.rows.filter fun r => r.userUsername == v && r.status == 1).Perm
    (a'.db.friends.rows.filter fun r => r.userUsername == v && r.status == 1)
  requests : (a.db.friends.rows.filter fun r => r.friendUsername == v && r.status == 0).Perm
    (a'.db.friends.rows.filter fun r => r.friendUsername == v && r.status == 0)
  posts : ((a.db.posts.rows.filter fun p => decide (Sees a.db v p)).map Database.readPost).Perm
    ((a'.db.posts.rows.filter fun p => decide (Sees a'.db v p)).map Database.readPost)
  member : ∀ c, Member a.db c v ↔ Member a'.db c v
  conversations : ∀ c, Member a.db c v →
    (a.db.conversations.rows.filter (·.conversationId == c)).Perm
      (a'.db.conversations.rows.filter (·.conversationId == c))
  participants : ∀ c, Member a.db c v →
    (a.db.participants.rows.filter (·.conversationId == c)).Perm
      (a'.db.participants.rows.filter (·.conversationId == c))
  messages : ∀ c, Member a.db c v → (said a.db c).Perm (said a'.db c)

/-- Both states show a client that is not logged in on `sd` the same: the public posts. -/
structure SamePublic (sd : Int) (a a' : App) : Prop where
  session : a.sessions.sessions sd = none
  session' : a'.sessions.sessions sd = none
  posts : ((a.db.posts.rows.filter (·.visibility == 0)).map Database.readPost).Perm
    ((a'.db.posts.rows.filter (·.visibility == 0)).map Database.readPost)

theorem SameView.symm {sd : Int} {v : Text} {a a' : App} (h : SameView sd v a a') :
    SameView sd v a' a where
  session := h.session'
  session' := h.session
  current := h.current.symm
  friends := h.friends.symm
  requests := h.requests.symm
  posts := h.posts.symm
  member c := (h.member c).symm
  conversations c hc := (h.conversations c ((h.member c).mpr hc)).symm
  participants c hc := (h.participants c ((h.member c).mpr hc)).symm
  messages c hc := (h.messages c ((h.member c).mpr hc)).symm

theorem SamePublic.symm {sd : Int} {a a' : App} (h : SamePublic sd a a') :
    SamePublic sd a' a :=
  ⟨h.session', h.session, h.posts.symm⟩

/-- The commands that read: the five readers, and `open`, which tells who participates. -/
def Command.isQuery : Command → Bool
  | .listPosts | .listFriends | .listFriendRequests | .chats | .show | .open _ => true
  | _ => false

/-- The responses to one read, by the order in which SQLite returns rows. -/
def responses (hasher : Text → Nat) (env : Env) (sd : Int) (data : Text) : App → Set Text :=
  answers fun order a => (handle hasher { env with order := order } sd data a).1

/-! ## Participants are filed under `int`s -/

/-- Every participant row has a conversation id that fits in an `int`. -/
def Filed (db : Db) : Prop :=
  ∀ r ∈ db.participants.rows, intMin ≤ r.conversationId ∧ r.conversationId ≤ intMax

theorem Attached.filed {env : Env} {before after : List ParticipantRow} {c : Int}
    {names : List Text} (h : Attached env before c names after)
    (hold : ∀ r ∈ before, intMin ≤ r.conversationId ∧ r.conversationId ≤ intMax)
    (hc : intMin ≤ c ∧ c ≤ intMax) :
    ∀ r ∈ after, intMin ≤ r.conversationId ∧ r.conversationId ≤ intMax := by
  obtain ⟨new, rfl, hnew⟩ := h.rows
  intro r hr
  rcases List.mem_append.mp hr with hr | hr
  · exact hold r hr
  · rw [(hnew r hr).1]
    exact hc

/-- A command files participants under `int`s if the open conversation is one. -/
theorem Write.filed {env : Env} {db db' : Db} {issuer : Option Text} {current : Option Int}
    {cmd : Command} {reply : Text} (h : Write hasher env db issuer current cmd reply db')
    (hI : Filed db) (hcur : ∀ c, current = some c → ∃ u, Member db c u) : Filed db' := by
  cases h with
  | chat _ _ _ _ hcreated =>
    exact hcreated.attached.filed hI (hcreated.id_eq ▸ narrow_fits _)
  | group _ _ hcreated =>
    exact hcreated.attached.filed hI (hcreated.id_eq ▸ narrow_fits _)
  | add _ hc _ hattached =>
    obtain ⟨u, hu⟩ := hcur _ hc
    exact hattached.filed hI (hI _ hu)
  | _ => exact hI

theorem filed_run {h : History LoopState Event} {s : LoopState}
    (hr : (machine hasher serverSocket).Run h s) (hj : ∀ x ∈ h, JoinStep x) :
    Filed s.app.db := by
  refine hr.invariant_history (I := fun _ s => Filed s.app.db) (by intro r hr; cases hr) ?_ hj
  intro h s e hr hj hI _ _
  refine step_db (x := ⟨s, e⟩) (I := Filed) hI fun hw => hw.filed hI fun c hc => ?_
  obtain ⟨u, _, hu⟩ := joined_run hr hj _ c hc
  exact ⟨u, hu⟩

/-! ## Matching a choice of row order -/

section

variable {α β : Type} {env : Env} {st : Stmt} {i : Nat}

theorem select_map (env : Env) (st : Stmt) (i : Nat) (f : α → β) (rows : List α) :
    (select env st i rows).map f = select env st i (rows.map f) := by
  unfold select
  split
  · rfl
  · rw [arrange_map]

/-- A query over permuted rows can return them in the same order. -/
theorem exists_select (env : Env) (st : Stmt) (i : Nat) {rows rows' : List α}
    (h : rows.Perm rows') : ∃ σ, ∀ order : Stmt → Nat → Shuffle, order st i = σ →
      select { env with order := order } st i rows' = select env st i rows := by
  obtain ⟨σ, hσ⟩ := exists_arrange_eq h (env.order st i)
  refine ⟨σ, fun order horder => ?_⟩
  unfold select
  rw [show (Env.order { env with order := order } st i) = σ from horder, hσ]

end

section

variable {env : Env} {sd : Int} {v : Text} {a a' : App}

/-- Past the handlers' authentication check. -/
theorem SameView.auth (h : SameView sd v a a') :
    a.sessions.isAuthenticated sd = true ∧ a.sessions.getUsername sd = v :=
  SessionManager.sessions_eq_some h.session

theorem SameView.getCurrent (h : SameView sd v a a') :
    a'.sessions.getCurrentConversation sd = a.sessions.getCurrentConversation sd := by
  unfold SessionManager.getCurrentConversation
  rw [h.current]

theorem SameView.listFriends (h : SameView sd v a a') (env : Env) :
    ∃ order, ListFriendsCommand.execute { env with order := order } sd a' =
      ListFriendsCommand.execute env sd a := by
  obtain ⟨σ, hσ⟩ := exists_select env .getFriends 0 h.friends
  have hread := hσ (fun _ _ => σ) rfl
  refine ⟨fun _ _ => σ, ?_⟩
  unfold ListFriendsCommand.execute Database.getFriends
  simp only [h.auth, h.symm.auth, hread]

theorem SameView.listFriendRequests (h : SameView sd v a a') (env : Env) :
    ∃ order, ListFriendRequestsCommand.execute { env with order := order } sd a' =
      ListFriendRequestsCommand.execute env sd a := by
  obtain ⟨σ, hσ⟩ := exists_select env .getFriendRequests 0 h.requests
  have hread := hσ (fun _ _ => σ) rfl
  refine ⟨fun _ _ => σ, ?_⟩
  unfold ListFriendRequestsCommand.execute Database.getFriendRequests
  simp only [h.auth, h.symm.auth, hread]

/-! ### Posts -/

/-- The order of the feed, as an order of posts. -/
def newerPost (p q : Post) : Bool := textLe q.createdAt p.createdAt

/-- The feed sorts what it reads. -/
theorem newestFirst_map (rows : List PostRow) :
    (Database.newestFirst rows).map Database.readPost =
      orderBy newerPost (rows.map Database.readPost) := by
  have hkey : ∀ p q : PostRow, newerPost (Database.readPost p) (Database.readPost q) =
      textLe q.createdAt p.createdAt := fun _ _ => rfl
  exact (orderBy_map Database.readPost hkey rows).symm

theorem getVisiblePosts_eq (env : Env) (db : Db) (v : Text) :
    Database.getVisiblePosts env db v = orderBy newerPost (select env .getVisiblePosts 0
      ((db.posts.rows.filter fun p => decide (Sees db v p)).map Database.readPost)) := by
  unfold Database.getVisiblePosts
  rw [newestFirst_map, select_map]
  simp only [← visibleTo_eq]

theorem getPublicPosts_eq (env : Env) (db : Db) :
    Database.getPublicPosts env db = orderBy newerPost (select env .getPublicPosts 0
      ((db.posts.rows.filter (·.visibility == 0)).map Database.readPost)) := by
  unfold Database.getPublicPosts
  rw [newestFirst_map, select_map]

theorem SameView.listPosts (h : SameView sd v a a') (env : Env) :
    ∃ order, ListPostsCommand.execute { env with order := order } sd a' =
      ListPostsCommand.execute env sd a := by
  obtain ⟨σ, hσ⟩ := exists_select env .getVisiblePosts 0 h.posts
  have hread := hσ (fun _ _ => σ) rfl
  refine ⟨fun _ _ => σ, ?_⟩
  unfold ListPostsCommand.execute ListPostsCommand.posts
  simp only [h.auth, h.symm.auth, if_true, getVisiblePosts_eq, hread]

theorem SamePublic.listPosts (h : SamePublic sd a a') (env : Env) :
    ∃ order, ListPostsCommand.execute { env with order := order } sd a' =
      ListPostsCommand.execute env sd a := by
  obtain ⟨σ, hσ⟩ := exists_select env .getPublicPosts 0 h.posts
  have hread := hσ (fun _ _ => σ) rfl
  refine ⟨fun _ _ => σ, ?_⟩
  unfold ListPostsCommand.execute ListPostsCommand.posts
  simp only [SessionManager.isAuthenticated_eq_false h.session,
    SessionManager.isAuthenticated_eq_false h.session', if_neg Bool.false_ne_true,
    getPublicPosts_eq, hread]

/-! ### Conversations -/

/-- The rows of `v` in the participants table are the same in both. -/
theorem SameView.ownRows (h : SameView sd v a a') {p : ParticipantRow → Bool}
    (hp : ∀ r, p r = true → r.username = v) :
    (a.db.participants.rows.filter p).Perm (a'.db.participants.rows.filter p) := by
  rw [List.perm_ext_iff_of_nodup ((participants_nodup _).filter _)
    ((participants_nodup _).filter _)]
  intro r
  rw [List.mem_filter, List.mem_filter]
  refine and_congr_left fun hr => ?_
  obtain ⟨c, w⟩ := r
  have hw : w = v := hp _ hr
  subst hw
  exact h.member c

/-- `open` tells who participates. -/
theorem SameView.openConversation (h : SameView sd v a a') (env : Env) (c : Int) :
    ∃ order, (OpenCommand.execute { env with order := order } sd a' c).1 =
      (OpenCommand.execute env sd a c).1 := by
  have hrows : (a.db.participants.rows.filter (Database.isMember c v)).Perm
      (a'.db.participants.rows.filter (Database.isMember c v)) := by
    apply h.ownRows
    intro r hr
    unfold Database.isMember at hr
    rw [Bool.and_eq_true, beq_iff_eq, beq_iff_eq] at hr
    exact hr.2
  obtain ⟨σ, hσ⟩ := exists_select env .isParticipant 0 hrows
  have hread := hσ (fun _ _ => σ) rfl
  refine ⟨fun _ _ => σ, ?_⟩
  unfold OpenCommand.execute Database.isParticipant
  simp only [h.auth, h.symm.auth, hread]
  split
  · rfl
  · split
    · rfl
    · rfl

/-- The order of a history, as an order of messages. -/
def olderMessage (p q : Message) : Bool := textLe p.sentAt q.sentAt

/-- A history without the ids sorts what it reads. -/
theorem getMessages_said (env : Env) (db : Db) (c : Int) :
    (Database.getMessages env db c).map Message.said =
      orderBy olderMessage (select env .getMessages 0 (said db c)) := by
  have hkey : ∀ p q : MessageRow,
      olderMessage (Database.readMessage c p).said (Database.readMessage c q).said =
        textLe p.sentAt q.sentAt := fun _ _ => rfl
  unfold Database.getMessages said
  rw [← select_map, List.map_map]
  exact (orderBy_map (fun r => (Database.readMessage c r).said) hkey _).symm

/-- The reply to `show` does not mention message ids. -/
theorem show_eq_said {c : Int} (hs : a.sessions.isAuthenticated sd = true)
    (hc : a.sessions.getCurrentConversation sd = c) (hne : c ≠ -1) :
    ShowCommand.execute env sd a =
      if ((Database.getMessages env a.db c).map Message.said).isEmpty then bytes "No messages"
      else ((Database.getMessages env a.db c).map Message.said).flatMap ShowCommand.line := by
  have hline : ∀ m : Message, ShowCommand.line m.said = ShowCommand.line m := fun _ => rfl
  unfold ShowCommand.execute
  simp only [hs, hc, if_neg hne, List.isEmpty_map, List.flatMap_map, hline]
  rfl

theorem SameView.show (h : SameView sd v a a') (hI : Joined a) (env : Env) :
    ∃ order, ShowCommand.execute { env with order := order } sd a' =
      ShowCommand.execute env sd a := by
  by_cases hnone : a.sessions.getCurrentConversation sd = -1
  · refine ⟨env.order, ?_⟩
    unfold ShowCommand.execute
    simp only [h.auth, h.symm.auth, h.getCurrent, hnone]
    rfl
  · -- the open conversation is one of `v`
    obtain ⟨u, hu, hm⟩ := hI sd _ (SessionManager.currentConversation_of_ne rfl hnone)
    rw [h.session, Option.some.injEq] at hu
    subst hu
    obtain ⟨σ, hσ⟩ := exists_select env .getMessages 0 (h.messages _ hm)
    have hread := hσ (fun _ _ => σ) rfl
    refine ⟨fun _ _ => σ, ?_⟩
    rw [show_eq_said h.symm.auth.1 h.getCurrent hnone, show_eq_said h.auth.1 rfl hnone,
      getMessages_said, getMessages_said, hread]

/-- The conversations of `v` and the times they were created are the same in both. -/
theorem SameView.joinedOwn (h : SameView sd v a a') :
    (Database.joinedOwn a.db v).Perm (Database.joinedOwn a'.db v) := by
  unfold Database.joinedOwn
  -- first the rows of `v`, then what each of them is joined with
  have hrows : (a.db.participants.rows.filter (·.username == v)).Perm
      (a'.db.participants.rows.filter (·.username == v)) :=
    h.ownRows fun r hr => beq_iff_eq.mp hr
  refine hrows.flatMap fun cp hcp => ?_
  rw [List.mem_filter, beq_iff_eq] at hcp
  have hm : Member a.db cp.conversationId v := by
    obtain ⟨hin, rfl⟩ := hcp
    exact hin
  exact (h.conversations _ hm).map _

/-- `chats` lists conversations of `v`: their ids survive the way through an `int`. -/
theorem mem_getUserConversations {env : Env} {db : Db} (hF : Filed db) {c : Int}
    (hc : c ∈ Database.getUserConversations env db v) : Member db c v := by
  unfold Database.getUserConversations at hc
  obtain ⟨r, hr, rfl⟩ := List.mem_map.mp hc
  have hin := mem_of_mem_select (mem_orderBy.mp hr)
  unfold Database.joinedOwn at hin
  obtain ⟨cp, hcp, hin⟩ := List.mem_flatMap.mp hin
  obtain ⟨row, _, rfl⟩ := List.mem_map.mp hin
  rw [List.mem_filter, beq_iff_eq] at hcp
  obtain ⟨hcp, rfl⟩ := hcp
  show Member db (columnInt cp.conversationId) cp.username
  unfold columnInt
  rw [narrow_of_fits (hF cp hcp)]
  exact hcp

/-- The list of conversations depends on the lookups of its participants only. -/
theorem lines_congr (a a' : App) {env env' : Env} : ∀ (convs : List Int) (i : Nat),
    (∀ j c, convs[j]? = some c →
      Database.getConversationParticipants env' (i + j) a'.db c =
        Database.getConversationParticipants env (i + j) a.db c) →
    ChatsCommand.lines env' a' i convs = ChatsCommand.lines env a i convs
  | [], _, _ => rfl
  | c :: convs, i, h => by
    have hhead := h 0 c rfl
    have htail := lines_congr a a' convs (i + 1) fun j d hd => by
      have := h (j + 1) d (by rw [List.getElem?_cons_succ]; exact hd)
      rwa [Nat.add_comm j 1, ← Nat.add_assoc] at this
    rw [Nat.add_zero] at hhead
    unfold ChatsCommand.lines
    rw [hhead, htail]

theorem SameView.chats (h : SameView sd v a a') (hF : Filed a.db) (env : Env) :
    ∃ order, ChatsCommand.execute { env with order := order } sd a' =
      ChatsCommand.execute env sd a := by
  obtain ⟨σ, hσ⟩ := exists_select env .getUserConversations 0 h.joinedOwn
  -- one order for each pass of the loop over the conversations
  have hpass : ∀ i, ∃ τ : Shuffle, ∀ c,
      (Database.getUserConversations env a.db v)[i]? = some c →
      ∀ order : Stmt → Nat → Shuffle, order .getConversationParticipants i = τ →
        Database.getConversationParticipants { env with order := order } i a'.db c =
          Database.getConversationParticipants env i a.db c := by
    intro i
    cases hi : (Database.getUserConversations env a.db v)[i]? with
    | none => exact ⟨env.order .getConversationParticipants i, fun c hc => by cases hc⟩
    | some d =>
      have hm := mem_getUserConversations hF (List.mem_of_getElem? hi)
      obtain ⟨τ, hτ⟩ := exists_select env .getConversationParticipants i (h.participants d hm)
      refine ⟨τ, fun c hc order horder => ?_⟩
      rw [Option.some.injEq] at hc
      subst hc
      unfold Database.getConversationParticipants
      rw [hτ order horder]
  obtain ⟨τ, hτ⟩ := Classical.axiom_of_choice hpass
  -- the statements of the two queries are different, so one order serves both
  let order : Stmt → Nat → Shuffle := fun st i =>
    if st = .getUserConversations then σ else τ i
  have hconvs : Database.getUserConversations { env with order := order } a'.db v =
      Database.getUserConversations env a.db v := by
    unfold Database.getUserConversations
    rw [hσ order rfl]
  have hlines := lines_congr a a' (Database.getUserConversations env a.db v) 0
    fun j c hc => by
      rw [Nat.zero_add]
      exact hτ j c hc order rfl
  refine ⟨order, ?_⟩
  unfold ChatsCommand.execute
  simp only [h.auth, h.symm.auth, hconvs, hlines]

/-! ## Confidentiality -/

/-- A state that shows `v` the same can answer every query in the same way. -/
theorem SameView.query (h : SameView sd v a a') (hI : Joined a) (hF : Filed a.db) {cmd : Command}
    (hq : cmd.isQuery = true) (env : Env) :
    ∃ order, (execute hasher { env with order := order } sd a' cmd).1 =
      (execute hasher env sd a cmd).1 := by
  cases cmd with
  | listPosts => exact h.listPosts env
  | listFriends => exact h.listFriends env
  | listFriendRequests => exact h.listFriendRequests env
  | chats => exact h.chats hF env
  | «show» => exact h.show hI env
  | «open» c => exact h.openConversation env c
  | _ => cases hq

/-- Without a login only `list_posts` depends on the state at all. -/
theorem SamePublic.query (h : SamePublic sd a a') {cmd : Command} (hq : cmd.isQuery = true)
    (env : Env) :
    ∃ order, (execute hasher { env with order := order } sd a' cmd).1 =
      (execute hasher env sd a cmd).1 := by
  have hauth := SessionManager.isAuthenticated_eq_false h.session
  have hauth' := SessionManager.isAuthenticated_eq_false h.session'
  cases cmd with
  | listPosts => exact h.listPosts env
  | listFriends =>
    refine ⟨env.order, ?_⟩
    simp only [execute, ListFriendsCommand.execute, hauth, hauth']
    rfl
  | listFriendRequests =>
    refine ⟨env.order, ?_⟩
    simp only [execute, ListFriendRequestsCommand.execute, hauth, hauth']
    rfl
  | chats =>
    refine ⟨env.order, ?_⟩
    simp only [execute, ChatsCommand.execute, hauth, hauth']
    rfl
  | «show» =>
    refine ⟨env.order, ?_⟩
    simp only [execute, ShowCommand.execute, hauth, hauth']
    rfl
  | «open» c =>
    refine ⟨env.order, ?_⟩
    simp only [execute, OpenCommand.execute, hauth, hauth']
    rfl
  | _ => cases hq

/-- A read that parses to a query, or to nothing, has its responses in every state that
can answer the query in the same way. -/
theorem responses_subset {data : Text}
    (hq : ∀ cmd, CommandFactory.create env.junk (inputOf data) = some cmd → cmd.isQuery = true)
    (hsim : ∀ cmd : Command, cmd.isQuery = true → ∀ env,
      ∃ order, (execute hasher { env with order := order } sd a' cmd).1 =
        (execute hasher env sd a cmd).1) :
    responses hasher env sd data a ⊆ responses hasher env sd data a' := by
  apply answers_subset
  intro order
  -- the row order plays no part in parsing
  cases hcmd : CommandFactory.create env.junk (inputOf data) with
  | none =>
    refine ⟨order, ?_⟩
    rw [handle_of_none hasher { env with order := order } sd a hcmd,
      handle_of_none hasher { env with order := order } sd a' hcmd]
  | some cmd =>
    obtain ⟨order', horder'⟩ := hsim cmd (hq cmd hcmd) { env with order := order }
    refine ⟨order', ?_⟩
    rw [handle_of_some hasher { env with order := order } sd a hcmd,
      handle_of_some hasher { env with order := order' } sd a' hcmd]
    exact horder'

end

/-- **Confidentiality of reads.** In two reachable states that show the user of a socket
the same, every query on that socket has the same responses, up to the row order SQLite
leaves open; without a login it is enough that the public posts are the same. -/
theorem reads_confidential {h h' : History LoopState Event} {s s' : LoopState}
    (hr : (machine hasher serverSocket).Run h s) (hj : ∀ x ∈ h, JoinStep x)
    (hr' : (machine hasher serverSocket).Run h' s') (hj' : ∀ x ∈ h', JoinStep x)
    (env : Env) (sd : Int) (data : Text)
    (hq : ∀ cmd, CommandFactory.create env.junk (inputOf data) = some cmd →
      cmd.isQuery = true) :
    (∀ v, SameView sd v s.app s'.app →
      responses hasher env sd data s.app = responses hasher env sd data s'.app) ∧
    (SamePublic sd s.app s'.app →
      responses hasher env sd data s.app = responses hasher env sd data s'.app) := by
  constructor
  · intro v hview
    apply Set.Subset.antisymm
    · exact responses_subset hq fun cmd hcmd =>
        hview.query (joined_run hr hj) (filed_run hr hj) hcmd
    · exact responses_subset hq fun cmd hcmd =>
        hview.symm.query (joined_run hr' hj') (filed_run hr' hj') hcmd
  · intro hpublic
    apply Set.Subset.antisymm
    · exact responses_subset hq fun cmd hcmd => hpublic.query hcmd
    · exact responses_subset hq fun cmd hcmd => hpublic.symm.query hcmd

/-- `a` has a chat with `b` open and wrote to it. -/
def quietEvents : List Event :=
  [.accept 4, .line 0 "register a p a@x normal public\n",
    .line 0 "register b p b@x normal public\n", .line 0 "register c p c@x normal public\n",
    .line 0 "login a p\n", .line 0 "chat b\n", .line 0 "open 1\n", .line 0 "send hi\n"]

/-- After that `c` posts for friends, asks `b` for friendship and writes to `b`. -/
def busyEvents : List Event :=
  quietEvents ++ [.accept 5, .line 1 "login c p\n", .line 1 "create_post 1 secret\n",
    .line 1 "add_friend b\n", .line 1 "chat b\n", .line 1 "open 2\n",
    .line 1 "send psst\n"]

/-- What the state shows `a` on descriptor 4: no friends, requests or posts, and one chat with
`b`, which is open and in which `a` said hi. -/
structure ShowsChat (a : App) : Prop where
  session : a.sessions.sessions 4 = some (bytes "a")
  current : a.sessions.currentConversation 4 = some 1
  friends : (a.db.friends.rows.filter fun r => r.userUsername == bytes "a" && r.status == 1) = []
  requests : (a.db.friends.rows.filter fun r =>
    r.friendUsername == bytes "a" && r.status == 0) = []
  posts : (a.db.posts.rows.filter fun p => decide (Sees a.db (bytes "a") p)) = []
  own : (a.db.participants.rows.filter (·.username == bytes "a")) = [⟨1, bytes "a"⟩]
  conversation : a.db.conversations.rows.filter (·.conversationId == 1) = [⟨1, Env.plain.now⟩]
  participants : a.db.participants.rows.filter (·.conversationId == 1) =
    [⟨1, bytes "a"⟩, ⟨1, bytes "b"⟩]
  messages : said a.db 1 = [⟨0, 1, bytes "a", bytes "hi", Env.plain.now⟩]

theorem ShowsChat.member_iff {a : App} (h : ShowsChat a) {c : Int} :
    Member a.db c (bytes "a") ↔ c = 1 := by
  have hown : Member a.db c (bytes "a") ↔
      (⟨c, bytes "a"⟩ : ParticipantRow) ∈
        a.db.participants.rows.filter (·.username == bytes "a") := by
    rw [List.mem_filter]
    exact (and_iff_left (beq_self_eq_true _)).symm
  rw [hown, h.own, List.mem_singleton, ParticipantRow.mk.injEq]
  exact and_iff_left rfl

theorem ShowsChat.sameView {a a' : App} (h : ShowsChat a) (h' : ShowsChat a') :
    SameView 4 (bytes "a") a a' where
  session := h.session
  session' := h'.session
  current := h.current.trans h'.current.symm
  friends := by rw [h.friends, h'.friends]
  requests := by rw [h.requests, h'.requests]
  posts := by rw [h.posts, h'.posts]
  member _ := h.member_iff.trans h'.member_iff.symm
  conversations _ hc := by rw [h.member_iff.mp hc, h.conversation, h'.conversation]
  participants _ hc := by rw [h.member_iff.mp hc, h.participants, h'.participants]
  messages _ hc := by rw [h.member_iff.mp hc, h.messages, h'.messages]

instance (a : App) : Decidable (ShowsChat a) :=
  decidable_of_iff (a.sessions.sessions 4 = some (bytes "a") ∧
      a.sessions.currentConversation 4 = some 1 ∧
      (a.db.friends.rows.filter fun r => r.userUsername == bytes "a" && r.status == 1) = [] ∧
      (a.db.friends.rows.filter fun r => r.friendUsername == bytes "a" && r.status == 0) = [] ∧
      (a.db.posts.rows.filter fun p => decide (Sees a.db (bytes "a") p)) = [] ∧
      (a.db.participants.rows.filter (·.username == bytes "a")) = [⟨1, bytes "a"⟩] ∧
      a.db.conversations.rows.filter (·.conversationId == 1) = [⟨1, Env.plain.now⟩] ∧
      a.db.participants.rows.filter (·.conversationId == 1) =
        [⟨1, bytes "a"⟩, ⟨1, bytes "b"⟩] ∧
      said a.db 1 = [⟨0, 1, bytes "a", bytes "hi", Env.plain.now⟩])
    ⟨fun ⟨h₁, h₂, h₃, h₄, h₅, h₆, h₇, h₈, h₉⟩ => ⟨h₁, h₂, h₃, h₄, h₅, h₆, h₇, h₈, h₉⟩,
      fun ⟨h₁, h₂, h₃, h₄, h₅, h₆, h₇, h₈, h₉⟩ => ⟨h₁, h₂, h₃, h₄, h₅, h₆, h₇, h₈, h₉⟩⟩

theorem reads_confidential_busy :
    ∃ r r', runEvents List.length 3 quietEvents = some r ∧
      runEvents List.length 3 busyEvents = some r' ∧
      r.2.app.db.messages.rows.length ≠ r'.2.app.db.messages.rows.length ∧
      ∀ data ∈ [bytes "list_posts\n", bytes "chats\n", bytes "show\n", bytes "open 2\n"],
        responses List.length Env.plain 4 data r.2.app =
          responses List.length Env.plain 4 data r'.2.app := by
  obtain ⟨h, s, hr, hrun, hsound, hshows, hlen⟩ :=
    runEvents_exists List.length 3 quietEvents
      (p := fun _ s => ShowsChat s.app ∧ s.app.db.messages.rows.length = 1)
      (by simp [quietEvents]) (by decide)
  obtain ⟨h', s', hr', hrun', hsound', hshows', hlen'⟩ :=
    runEvents_exists List.length 3 busyEvents
      (p := fun _ s => ShowsChat s.app ∧ s.app.db.messages.rows.length = 2)
      (by simp [busyEvents, quietEvents]) (by decide)
  refine ⟨(h, s), (h', s'), hr, hr', ?_, fun data hdata => ?_⟩
  · show s.app.db.messages.rows.length ≠ s'.app.db.messages.rows.length
    omega
  -- all four lines are queries
  have hall : ([bytes "list_posts\n", bytes "chats\n", bytes "show\n",
    bytes "open 2\n"].all fun data =>
      (CommandFactory.create Env.plain.junk (inputOf data)).all Command.isQuery) = true := by
    decide
  refine (reads_confidential hrun (fun x hx => (hsound x hx).join) hrun'
    (fun x hx => (hsound' x hx).join) Env.plain 4 data fun cmd hcmd => ?_).1 _
    (hshows.sameView hshows')
  have hquery := List.all_eq_true.mp hall data hdata
  rwa [hcmd] at hquery

/-! ## Where the inserts of participants may fail -/

/-- `b` writes to the group of `a` that `a` is not in. -/
def overheardEvents : List Event :=
  tornGroupEvents ++ [.accept 5, .line 1 "login b p\n", .line 1 "open 1\n",
    .line 1 "send psst\n"]

/-- The state shows `a` on descriptor 4 nothing at all, with conversation 1 open. -/
def ShowsNothing (a : App) : Prop :=
  a.sessions.sessions 4 = some (bytes "a") ∧ a.sessions.currentConversation 4 = some 1 ∧
    a.db.friends.rows = [] ∧ a.db.posts.rows = [] ∧
    ∀ r ∈ a.db.participants.rows, r.username ≠ bytes "a"

instance (a : App) : Decidable (ShowsNothing a) :=
  inferInstanceAs (Decidable (a.sessions.sessions 4 = some (bytes "a") ∧
    a.sessions.currentConversation 4 = some 1 ∧ a.db.friends.rows = [] ∧ a.db.posts.rows = [] ∧
    ∀ r ∈ a.db.participants.rows, r.username ≠ bytes "a"))

theorem ShowsNothing.not_member {a : App} (h : ShowsNothing a) (c : Int) :
    ¬ Member a.db c (bytes "a") := fun hm => h.2.2.2.2 _ hm rfl

theorem ShowsNothing.sameView {a a' : App} (h : ShowsNothing a) (h' : ShowsNothing a') :
    SameView 4 (bytes "a") a a' where
  session := h.1
  session' := h'.1
  current := h.2.1.trans h'.2.1.symm
  friends := by rw [h.2.2.1, h'.2.2.1]
  requests := by rw [h.2.2.1, h'.2.2.1]
  posts := by rw [h.2.2.2.1, h'.2.2.2.1]; exact .refl _
  member c := iff_of_false (h.not_member c) (h'.not_member c)
  conversations c hc := absurd hc (h.not_member c)
  participants c hc := absurd hc (h.not_member c)
  messages c hc := absurd hc (h.not_member c)

/-- Where nobody has said anything, `show` says so. -/
theorem show_empty (env : Env) {sd : Int} {a : App} (hs : a.sessions.isAuthenticated sd = true)
    (hc : a.sessions.getCurrentConversation sd ≠ -1) (hm : a.db.messages.rows = []) :
    ShowCommand.execute env sd a = bytes "No messages" := by
  have hnone : said a.db (a.sessions.getCurrentConversation sd) = [] := by
    unfold said
    rw [hm]
    rfl
  have hselect : select env .getMessages 0
      (said a.db (a.sessions.getCurrentConversation sd)) = [] := by
    refine List.eq_nil_iff_forall_not_mem.mpr fun m hin => ?_
    rw [hnone] at hin
    exact List.not_mem_nil (mem_of_mem_select hin)
  rw [show_eq_said hs rfl hc, getMessages_said, hselect]
  rfl

/-- **Without the assumption `show` reads out foreign conversations**, even if the two states
agree on the ids as well. -/
theorem reads_not_confidential :
    ¬ ∀ {h h' : History LoopState Event} {s s' : LoopState},
      (machine List.length 3).Run h s → (machine List.length 3).Run h' s' →
      ∀ (env : Env) (sd : Int) (data : Text),
        (∀ cmd, CommandFactory.create env.junk (inputOf data) = some cmd →
          cmd.isQuery = true) →
        ∀ v, SameView sd v s.app s'.app →
          (s.app.db.posts.rows.filter fun p => decide (Sees s.app.db v p)).Perm
            (s'.app.db.posts.rows.filter fun p => decide (Sees s'.app.db v p)) →
          (∀ c, Member s.app.db c v →
            (s.app.db.messages.rows.filter (·.conversationId == c)).Perm
              (s'.app.db.messages.rows.filter (·.conversationId == c))) →
          responses List.length env sd data s.app = responses List.length env sd data s'.app := by
  intro hall
  obtain ⟨⟨h, s⟩, _, hrun, _, hshows, hpsst⟩ :=
    Machine.Run.replay_exists (M := machine List.length 3)
      (Q := fun _ => True)
      (p := fun r => ShowsNothing r.2.app ∧
        (handle List.length Env.plain 4 (bytes "show\n") r.2.app).1 ≠ bytes "No messages")
      (fun e (_ : e ∈ overheardEvents) => trivial) (by decide)
  obtain ⟨⟨h', s'⟩, _, hrun', _, hshows', hsilent⟩ :=
    Machine.Run.replay_exists (M := machine List.length 3)
      (Q := fun _ => True)
      (p := fun r => ShowsNothing r.2.app ∧ r.2.app.db.messages.rows = [])
      (fun e (_ : e ∈ tornGroupEvents) => trivial) (by decide)
  have hcmd : CommandFactory.create Env.plain.junk (inputOf (bytes "show\n")) = some .show := by
    decide
  have hsame := hall hrun hrun' Env.plain 4 (bytes "show\n")
    (fun cmd h => by rw [hcmd, Option.some.injEq] at h; rw [← h]; rfl) (bytes "a")
    (hshows.sameView hshows') (by rw [hshows.2.2.2.1, hshows'.2.2.2.1]; exact .refl _)
    (fun c hc => absurd hc (hshows.not_member c))
  -- what `a` is told in the first run is no answer of the second
  have hanswer : (handle List.length Env.plain 4 (bytes "show\n") s.app).1 ∈
      responses List.length Env.plain 4 (bytes "show\n") s.app := ⟨Env.plain.order, rfl⟩
  rw [hsame] at hanswer
  obtain ⟨order, horder⟩ := hanswer
  obtain ⟨hauth, _⟩ := SessionManager.sessions_eq_some hshows'.1
  refine hpsst (horder.symm.trans ?_)
  dsimp only
  rw [handle_of_some List.length { Env.plain with order := order } 4 s'.app hcmd]
  refine show_empty _ hauth ?_ hsilent
  unfold SessionManager.getCurrentConversation
  rw [hshows'.2.1]
  decide

end SocialNetwork.Server
