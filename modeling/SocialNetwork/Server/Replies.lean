import SocialNetwork.Server.Feed

/-!
# Every reply is a C string

The client gets a reply through `send` and `std::string(buffer)`: an empty reply would not
arrive at all, and a NUL in it would end it early. Neither happens (`handle_sendable`): the
replies are literals, numbers, words of the command and stored texts, and the texts are
legible.
-/

namespace SocialNetwork.Server

open SocialNetwork.Lib

variable {hasher : Text → Nat} {serverSocket : Int}

def NulFree (t : Text) : Prop := 0 ∉ t

instance (t : Text) : Decidable (NulFree t) := inferInstanceAs (Decidable (0 ∉ t))

/-- Not empty, and without NUL. -/
def Sendable (t : Text) : Prop := t ≠ [] ∧ NulFree t

instance (t : Text) : Decidable (Sendable t) := inferInstanceAs (Decidable (_ ∧ _))

theorem NulFree.append {a b : Text} (ha : NulFree a) (hb : NulFree b) : NulFree (a ++ b) := by
  intro hmem
  rcases List.mem_append.mp hmem with hmem | hmem
  · exact ha hmem
  · exact hb hmem

theorem NulFree.flatMap {α : Type} {l : List α} {f : α → Text} (h : ∀ a ∈ l, NulFree (f a)) :
    NulFree (l.flatMap f) := by
  intro hmem
  obtain ⟨a, ha, hin⟩ := List.mem_flatMap.mp hmem
  exact h a ha hin

theorem NulFree.intercalate {sep : Text} (hsep : NulFree sep) {ts : List Text}
    (h : ∀ t ∈ ts, NulFree t) : NulFree (sep.intercalate ts) := by
  intro hmem
  rcases mem_intercalate hmem with hin | ⟨t, ht, hin⟩
  · exact hsep hin
  · exact h t ht hin

theorem IsContent.nulFree {t : Text} (h : IsContent t) : NulFree t := fun hmem => (h 0 hmem).2 rfl

theorem Sendable.append {a b : Text} (ha : Sendable a) (hb : NulFree b) : Sendable (a ++ b) :=
  ⟨List.append_ne_nil_of_left_ne_nil ha.1 b, ha.2.append hb⟩

/-- The reply of a handler that goes on with the state `a`. -/
theorem Sendable.reply {t : Text} {a : App} (h : Sendable t) : Sendable (t, a).1 := h

theorem nulFree_intText (n : Int) : NulFree (intText n) := (isContent_intText n).nulFree

/-! ## The replies that print something -/

section

variable {env : Env} {sd : Int} {a : App}

/-- A registered name can be printed. -/
theorem Legible.nulFree {db : Db} (hl : Legible db) {u : Text} (h : Registered db u) : NulFree u :=
  (hl.word h).isContent.nulFree

theorem listFriends_sendable (hl : Legible a.db) (hg : Grounded a.db) :
    Sendable (ListFriendsCommand.execute env sd a) := by
  unfold ListFriendsCommand.execute
  split
  · decide
  · dsimp only
    split
    · decide
    · refine Sendable.append (by decide) (.flatMap fun f hf => ?_)
      have hname := hl.nulFree (hg.friend hf)
      exact ((hname.append (by decide)).append (nulFree_intText _)).append (by decide)

theorem listFriendRequests_sendable (hl : Legible a.db) (hg : Grounded a.db) :
    Sendable (ListFriendRequestsCommand.execute env sd a) := by
  unfold ListFriendRequestsCommand.execute
  split
  · decide
  · dsimp only
    split
    · decide
    · refine Sendable.append (by decide) (.flatMap fun w hw => ?_)
      exact (hl.nulFree (hg.requester hw)).append (by decide)

theorem listPosts_sendable (hl : Legible a.db) (hg : Grounded a.db) :
    Sendable (ListPostsCommand.execute env sd a) := by
  rw [list_posts_eq]
  unfold feedText
  split
  · decide
  · refine Sendable.append (by decide) (.flatMap fun p hp => ?_)
    have hbody := (isContent_postBody (posts_genuine hl hg p hp)).nulFree
    exact hbody.append (by decide)

/-- The lines of `chats`, by induction on the conversations. -/
theorem chats_lines_nulFree (hl : Legible a.db) (hg : Grounded a.db) (conversations : List Int)
    (i : Nat) : NulFree (ChatsCommand.lines env a i conversations) := by
  induction conversations generalizing i with
  | nil => exact List.not_mem_nil
  | cons c conversations ih =>
    have hnames : NulFree
        (ChatsCommand.names (Database.getConversationParticipants env i a.db c)) := by
      refine NulFree.intercalate (by decide) fun w hw => ?_
      obtain ⟨r, hr, rfl⟩ := List.mem_map.mp hw
      have hrow := (List.mem_filter.mp (mem_of_mem_select hr)).1
      exact hl.nulFree (hg.participants r hrow)
    have hbracket : NulFree (bytes "[" ++ intText c ++ bytes "] ") :=
      (NulFree.append (by decide) (nulFree_intText c)).append (by decide)
    exact ((hbracket.append hnames).append (by decide)).append (ih (i + 1))

theorem chats_sendable (hl : Legible a.db) (hg : Grounded a.db) :
    Sendable (ChatsCommand.execute env sd a) := by
  unfold ChatsCommand.execute
  split
  · decide
  · dsimp only
    split
    · decide
    next hne =>
      refine ⟨?_, chats_lines_nulFree hl hg _ 0⟩
      -- there is a first line, and it starts with a bracket
      cases hconv : Database.getUserConversations env a.db (a.sessions.getUsername sd) with
      | nil =>
        rw [hconv] at hne
        exact absurd rfl hne
      | cons c conversations => exact List.cons_ne_nil 91 _

theorem show_sendable (hl : Legible a.db) (hg : Grounded a.db) :
    Sendable (ShowCommand.execute env sd a) := by
  have hline : ∀ m, GenuineItem (m.sender, m.content) → NulFree (ShowCommand.line m) :=
    fun m hm => (isContent_itemBody hm).nulFree.append (by decide)
  have hgenuine : ∀ m ∈ ShowCommand.messages env sd a, GenuineItem (m.sender, m.content) :=
    messages_genuine hl hg
  unfold ShowCommand.messages at hgenuine
  unfold ShowCommand.execute
  split
  · decide
  next hauth =>
    dsimp only
    split
    · decide
    next hc =>
      rw [if_pos (by simpa [hc] using hauth)] at hgenuine
      split
      · decide
      next hne =>
        refine ⟨?_, .flatMap fun m hm => hline m (hgenuine m hm)⟩
        cases hmessages : Database.getMessages env a.db (a.sessions.getCurrentConversation sd) with
        | nil =>
          rw [hmessages] at hne
          exact absurd rfl hne
        | cons m messages => exact List.cons_ne_nil 91 _

/-- The name `group` reports is one of the names checked. -/
theorem unknown_mem {users : List Text} {i : Nat} {u : Text}
    (h : GroupCommand.unknown env a i users = some u) : u ∈ users := by
  induction users generalizing i with
  | nil => cases h
  | cons w users ih =>
    rw [GroupCommand.unknown] at h
    split at h
    · rw [Option.some.injEq] at h
      exact h ▸ List.mem_cons_self ..
    · exact List.mem_cons_of_mem _ (ih h)

theorem group_sendable {users : List Text} (hw : ∀ u ∈ users, IsWord u) (hl : Legible a.db)
    (hs : ∀ u, a.sessions.sessions sd = some u → Registered a.db u) :
    Sendable (GroupCommand.execute env sd a users).1 := by
  unfold GroupCommand.execute
  split
  · exact .reply (by decide)
  next hauth =>
    dsimp only
    split
    next u hu =>
      refine Sendable.append (by decide) ?_
      rcases List.mem_append.mp (unknown_mem hu) with hu | hu
      · exact (hw u hu).isContent.nulFree
      · rw [List.mem_singleton.mp hu]
        exact hl.nulFree (hs _ (SessionManager.sessions_of_guard hauth))
    next =>
      unfold GroupCommand.created
      split
      · exact .reply (by decide)
      · exact Sendable.append (by decide) (nulFree_intText _)

theorem chat_sendable {v : Text} : Sendable (ChatCommand.execute env sd a v).1 := by
  have hid : ∀ {t : Text}, Sendable t → ∀ n, Sendable (t ++ intText n) :=
    fun ht n => ht.append (nulFree_intText n)
  unfold ChatCommand.execute
  dsimp only
  split
  · exact .reply (by decide)
  · split
    · exact .reply (by decide)
    · split
      · exact .reply (by decide)
      · split
        · exact hid (by decide) _
        · show Sendable (ChatCommand.created _)
          unfold ChatCommand.created
          split
          · decide
          · exact hid (by decide) _

theorem open_sendable {c : Int} : Sendable (OpenCommand.execute env sd a c).1 := by
  unfold OpenCommand.execute
  split
  · exact .reply (by decide)
  · split
    · exact .reply (by decide)
    · exact Sendable.append (by decide) (nulFree_intText c)

/-- **No reply is empty or contains a NUL**, provided the stored texts are legible. -/
theorem execute_sendable {cmd : Command} (hw : cmd.WellFormed) (hl : Legible a.db)
    (hg : Grounded a.db) (hs : ∀ u, a.sessions.sessions sd = some u → Registered a.db u) :
    Sendable (execute hasher env sd a cmd).1 := by
  cases cmd with
  | listFriends => exact listFriends_sendable hl hg
  | listFriendRequests => exact listFriendRequests_sendable hl hg
  | listPosts => exact listPosts_sendable hl hg
  | chats => exact chats_sendable hl hg
  | chat v => exact chat_sendable
  | «open» c => exact open_sendable
  | «show» => exact show_sendable hl hg
  | group users => exact group_sendable (fun u hu => (hw.2 u hu).1) hl hs
  | _ =>
    -- the other handlers reply with literals
    dsimp only [execute, LoginCommand.execute, RegisterCommand.execute, LogoutCommand.execute,
      SetProfileVisibilityCommand.execute, FriendRequestCommand.execute,
      AcceptFriendCommand.execute, SetFriendTypeCommand.execute, CreatePostCommand.execute,
      SendCommand.execute, AddCommand.execute]
    repeat' split
    all_goals exact .reply (by decide)

end

/-- **Every reply of a run can be sent**, whatever the client wrote. -/
theorem handle_sendable {h : History LoopState Event} {s : LoopState}
    (hr : (machine hasher serverSocket).Run h s) (ht : ∀ x ∈ h, Timed x) (env : Env) (sd : Int)
    (data : Text) : Sendable (handle hasher env sd data s.app).1 := by
  obtain ⟨hg, hs⟩ := grounded_run hr
  cases hcmd : CommandFactory.create env.junk (inputOf data) with
  | none =>
    rw [handle_of_none hasher env sd s.app hcmd]
    exact .reply (by decide)
  | some cmd =>
    rw [handle_of_some hasher env sd s.app hcmd]
    exact execute_sendable (create_wellFormed hcmd (nul_not_mem_inputOf data)) (legible_run hr ht)
      hg (hs sd)

end SocialNetwork.Server
