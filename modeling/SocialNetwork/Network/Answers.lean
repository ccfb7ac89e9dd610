import SocialNetwork.Network.Footprints
import SocialNetwork.Network.Requests

/-!
# What the queries show of the network

A query answers from its footprint: two states whose networks agree on what it reads can give
the same answers (`query_of_agree`), in whatever order the engine returns the rows. Ids of
posts and messages and the order of the rows in the tables play no part.
-/

namespace SocialNetwork.Server

open SocialNetwork.Lib

/-! ## The rows behind the cells -/

/-- Rows that clash with themselves are there once. -/
theorem rows_nodup {ρ : Type} {cs : Constraints ρ} (t : Table cs)
    (hself : ∀ r, cs.clash r r = true) : t.rows.Nodup := by
  refine t.unique.imp fun hclash heq => ?_
  rw [heq, hself] at hclash
  cases hclash

/-- Selections that contain the same rows are the same up to the order. -/
theorem filter_perm {α : Type} {l l' : List α} {p q : α → Bool} (hl : l.Nodup) (hl' : l'.Nodup)
    (h : ∀ x, x ∈ l ∧ p x = true ↔ x ∈ l' ∧ q x = true) : (l.filter p).Perm (l'.filter q) := by
  rw [List.perm_ext_iff_of_nodup (hl.filter p) (hl'.filter q)]
  intro x
  rw [List.mem_filter, List.mem_filter]
  exact h x

section

variable {db : Db}

theorem friends_nodup (db : Db) : db.friends.rows.Nodup :=
  rows_nodup db.friends fun r => by simp [friendsConstraints]

theorem conversations_nodup (db : Db) : db.conversations.rows.Nodup :=
  rows_nodup db.conversations.toTable fun r => by simp [conversationsConstraints]

theorem mem_accepted {r : FriendRow} :
    r ∈ db.friends.rows ∧ r.status = 1 ↔
      r.status = 1 ∧ db.tie (r.userUsername, r.friendUsername) = some (.friend r.friendType) := by
  constructor
  · intro ⟨hr, hone⟩
    exact ⟨hone, tie_eq_some.mpr ⟨r, hr, isPair_iff.mpr ⟨rfl, rfl⟩,
      FriendRow.tie_eq_friend.mpr ⟨hone, rfl⟩⟩⟩
  · intro ⟨hone, htie⟩
    obtain ⟨⟨u, v, k, st⟩, hr, hpair, ht⟩ := tie_eq_some.mp htie
    obtain ⟨hst, hk⟩ := FriendRow.tie_eq_friend.mp ht
    obtain ⟨hu, hv⟩ := isPair_iff.mp hpair
    obtain ⟨u', v', k', st'⟩ := r
    cases hu
    cases hv
    cases hk
    cases hst
    cases hone
    exact ⟨hr, rfl⟩

theorem mem_pending (hst : Statuses db) (hwait : ∀ r ∈ db.friends.rows, r.status = 0 →
    r.friendType = 0) {r : FriendRow} :
    r ∈ db.friends.rows ∧ r.status = 0 ↔
      (r.status = 0 ∧ r.friendType = 0) ∧
        db.tie (r.userUsername, r.friendUsername) = some .asked := by
  constructor
  · intro ⟨hr, hzero⟩
    refine ⟨⟨hzero, hwait r hr hzero⟩, tie_eq_some.mpr ⟨r, hr, isPair_iff.mpr ⟨rfl, rfl⟩, ?_⟩⟩
    rw [FriendRow.tie_eq_asked, hzero]
    decide
  · intro ⟨⟨hzero, hplain⟩, htie⟩
    obtain ⟨r', hr, hpair, ht⟩ := tie_eq_some.mp htie
    have hzero' : r'.status = 0 := (hst r' hr).resolve_right (FriendRow.tie_eq_asked.mp ht)
    have hplain' := hwait r' hr hzero'
    obtain ⟨hu, hv⟩ := isPair_iff.mp hpair
    obtain ⟨u, v, k, st⟩ := r
    obtain ⟨u', v', k', st'⟩ := r'
    cases hu
    cases hv
    cases hzero
    cases hzero'
    cases hplain
    cases hplain'
    exact ⟨hr, rfl⟩

theorem since_eq_some {c : Int} {t : Text} :
    db.since c = some t ↔ (⟨c, t⟩ : ConversationRow) ∈ db.conversations.rows := by
  unfold Db.since
  rw [Option.map_eq_some_iff]
  constructor
  · intro ⟨row, hfind, ht⟩
    obtain ⟨d, t'⟩ := row
    have hid := List.find?_some hfind
    have hid : d = c := beq_iff_eq.mp hid
    cases hid
    cases ht
    exact List.mem_of_find?_eq_some hfind
  · intro hrow
    refine ⟨⟨c, t⟩, find?_eq_some_of_unique hrow (beq_self_eq_true c) fun r hr hid => ?_, rfl⟩
    refine db.conversations.eq_of_clash hr hrow ?_
    rwa [show conversationsConstraints.clash r ⟨c, t⟩ = (r.conversationId == c) from rfl]

end

/-! ## Posts -/

/-- `v` may see the post. -/
def Network.Shows (n : Network) (v : Text) (p : Post) : Prop :=
  p.visibility = 0 ∨ p.author = v ∨
    (p.visibility = 1 ∧ ∃ k, n.tie (p.author, v) = some (.friend k)) ∨
    (p.visibility = 2 ∧ n.tie (p.author, v) = some (.friend 1))

section

variable {a : App}

theorem visibility_read (hrep : Represented a) {p : PostRow} (hp : p ∈ a.db.posts.rows) :
    (Database.readPost p).visibility = p.visibility := by
  have hrange := hrep.visibilities p hp
  exact narrow_of_fits ⟨by unfold intMin; omega, by unfold intMax; omega⟩

theorem sees_iff_shows (hrep : Represented a) {v : Text} {p : PostRow}
    (hp : p ∈ a.db.posts.rows) :
    Sees a.db v p ↔ a.network.Shows v (Database.readPost p) := by
  unfold Sees Network.Shows
  rw [visibility_read hrep hp]
  refine or_congr_right (or_congr_right (or_congr (and_congr_right fun _ => ?_)
    (and_congr_right fun _ => ?_)))
  · constructor
    · intro ⟨f, hf, hu, hv, hone⟩
      exact tie_friend.mpr ⟨f, hf, isPair_iff.mpr ⟨hu, hv⟩, hone⟩
    · intro htie
      obtain ⟨f, hf, hpair, hone⟩ := tie_friend.mp htie
      exact ⟨f, hf, (isPair_iff.mp hpair).1, (isPair_iff.mp hpair).2, hone⟩
  · constructor
    · intro ⟨f, hf, hu, hv, hone, htype⟩
      exact tie_eq_some.mpr ⟨f, hf, isPair_iff.mpr ⟨hu, hv⟩,
        FriendRow.tie_eq_friend.mpr ⟨hone, htype⟩⟩
    · intro htie
      obtain ⟨f, hf, hpair, ht⟩ := tie_eq_some.mp htie
      obtain ⟨hone, htype⟩ := FriendRow.tie_eq_friend.mp ht
      exact ⟨f, hf, (isPair_iff.mp hpair).1, (isPair_iff.mp hpair).2, hone, htype⟩

open Classical in
/-- The posts a user may see, read off the network. -/
theorem seen_posts (hrep : Represented a) (v : Text) :
    (a.db.posts.rows.filter fun p => decide (Sees a.db v p)).map Database.readPost =
      a.network.posts.filter fun p => decide (a.network.Shows v p) := by
  show _ = (a.db.posts.rows.map Database.readPost).filter _
  rw [List.filter_map]
  congr 1
  refine List.filter_congr fun p hp => ?_
  exact decide_eq_decide.mpr (sees_iff_shows hrep hp)

theorem public_posts (hrep : Represented a) :
    (a.db.posts.rows.filter (·.visibility == 0)).map Database.readPost =
      a.network.posts.filter (·.visibility == 0) := by
  show _ = (a.db.posts.rows.map Database.readPost).filter _
  rw [List.filter_map]
  congr 1
  refine List.filter_congr fun p hp => ?_
  rw [Function.comp_apply, visibility_read hrep hp]

/-- What was said in a conversation, read off the network. -/
theorem said_eq (a : App) (c : Int) :
    said a.db c = (a.network.talk c).map fun r => ⟨0, c, r.sender, r.content, r.time⟩ := by
  show _ = ((messagesOf a.db c).map MessageRow.remark).map _
  rw [List.map_map]
  rfl

end

/-! ## Networks that agree -/

section

variable {a a' : App} {v : Text}

theorem accepted_perm (h : ∀ w, a.db.tie (v, w) = a'.db.tie (v, w)) :
    (a.db.friends.rows.filter fun r => r.userUsername == v && r.status == 1).Perm
      (a'.db.friends.rows.filter fun r => r.userUsername == v && r.status == 1) := by
  refine filter_perm (friends_nodup _) (friends_nodup _) fun r => ?_
  have hrow : r.userUsername = v → (r ∈ a.db.friends.rows ∧ r.status = 1 ↔
      r ∈ a'.db.friends.rows ∧ r.status = 1) := by
    intro hu
    rw [mem_accepted, mem_accepted, hu, h]
  rw [Bool.and_eq_true, beq_iff_eq, beq_iff_eq]
  tauto

theorem pending_perm (hrep : Represented a) (hrep' : Represented a')
    (h : ∀ w, a.db.tie (w, v) = a'.db.tie (w, v)) :
    (a.db.friends.rows.filter fun r => r.friendUsername == v && r.status == 0).Perm
      (a'.db.friends.rows.filter fun r => r.friendUsername == v && r.status == 0) := by
  refine filter_perm (friends_nodup _) (friends_nodup _) fun r => ?_
  have hrow : r.friendUsername = v → (r ∈ a.db.friends.rows ∧ r.status = 0 ↔
      r ∈ a'.db.friends.rows ∧ r.status = 0) := by
    intro hv
    rw [mem_pending hrep.statuses hrep.pending, mem_pending hrep'.statuses hrep'.pending, hv, h]
  rw [Bool.and_eq_true, beq_iff_eq, beq_iff_eq]
  tauto

theorem seen_congr (hrep : Represented a) (hrep' : Represented a')
    (hposts : a.network.posts = a'.network.posts)
    (h : ∀ w, a.network.tie (w, v) = a'.network.tie (w, v)) :
    (a.db.posts.rows.filter fun p => decide (Sees a.db v p)).map Database.readPost =
      (a'.db.posts.rows.filter fun p => decide (Sees a'.db v p)).map Database.readPost := by
  rw [seen_posts hrep, seen_posts hrep', hposts]
  refine List.filter_congr fun p _ => decide_eq_decide.mpr ?_
  unfold Network.Shows
  rw [h]

theorem member_congr (hrep : Represented a) (hrep' : Represented a') {c : Int}
    (h : a.network.rooms c = a'.network.rooms c) (w : Text) :
    Member a.db c w ↔ Member a'.db c w := by
  rw [← inside_iff hrep.resolved, ← inside_iff hrep'.resolved]
  unfold Rooms.Inside
  rw [h]

theorem participants_perm (hrep : Represented a) (hrep' : Represented a') {c : Int}
    (h : a.network.rooms c = a'.network.rooms c) :
    (a.db.participants.rows.filter (·.conversationId == c)).Perm
      (a'.db.participants.rows.filter (·.conversationId == c)) := by
  refine filter_perm (participants_nodup _) (participants_nodup _) fun r => ?_
  rw [beq_iff_eq]
  refine and_congr_left fun hc => ?_
  obtain ⟨d, w⟩ := r
  cases hc
  exact member_congr hrep hrep' h w

theorem conversations_perm {c : Int} (h : a.db.since c = a'.db.since c) :
    (a.db.conversations.rows.filter (·.conversationId == c)).Perm
      (a'.db.conversations.rows.filter (·.conversationId == c)) := by
  refine filter_perm (conversations_nodup _) (conversations_nodup _) fun r => ?_
  rw [beq_iff_eq]
  refine and_congr_left fun hc => ?_
  obtain ⟨d, t⟩ := r
  cases hc
  rw [← since_eq_some, ← since_eq_some, h]

end

/-! ## One query -/

section

variable {a a' : App} {sd : Int} {v : Text}

theorem listFriends_answers (hs : a.sessions.sessions sd = some v)
    (hs' : a'.sessions.sessions sd = some v)
    (h : (a.db.friends.rows.filter fun r => r.userUsername == v && r.status == 1).Perm
      (a'.db.friends.rows.filter fun r => r.userUsername == v && r.status == 1)) (env : Env) :
    ∃ order, ListFriendsCommand.execute { env with order := order } sd a' =
      ListFriendsCommand.execute env sd a := by
  obtain ⟨σ, hσ⟩ := exists_select env .getFriends 0 h
  have hread := hσ (fun _ _ => σ) rfl
  refine ⟨fun _ _ => σ, ?_⟩
  unfold ListFriendsCommand.execute Database.getFriends
  simp only [SessionManager.sessions_eq_some hs, SessionManager.sessions_eq_some hs', hread]

theorem listFriendRequests_answers (hs : a.sessions.sessions sd = some v)
    (hs' : a'.sessions.sessions sd = some v)
    (h : (a.db.friends.rows.filter fun r => r.friendUsername == v && r.status == 0).Perm
      (a'.db.friends.rows.filter fun r => r.friendUsername == v && r.status == 0)) (env : Env) :
    ∃ order, ListFriendRequestsCommand.execute { env with order := order } sd a' =
      ListFriendRequestsCommand.execute env sd a := by
  obtain ⟨σ, hσ⟩ := exists_select env .getFriendRequests 0 h
  have hread := hσ (fun _ _ => σ) rfl
  refine ⟨fun _ _ => σ, ?_⟩
  unfold ListFriendRequestsCommand.execute Database.getFriendRequests
  simp only [SessionManager.sessions_eq_some hs, SessionManager.sessions_eq_some hs', hread]

theorem listPosts_answers (hs : a.sessions.sessions sd = some v)
    (hs' : a'.sessions.sessions sd = some v)
    (h : (a.db.posts.rows.filter fun p => decide (Sees a.db v p)).map Database.readPost =
      (a'.db.posts.rows.filter fun p => decide (Sees a'.db v p)).map Database.readPost)
    (env : Env) : ListPostsCommand.execute env sd a' = ListPostsCommand.execute env sd a := by
  unfold ListPostsCommand.execute ListPostsCommand.posts
  simp only [SessionManager.sessions_eq_some hs, SessionManager.sessions_eq_some hs', if_true,
    getVisiblePosts_eq, h]

theorem show_answers (hs : a.sessions.sessions sd = some v)
    (hs' : a'.sessions.sessions sd = some v)
    (hcurrent : a.sessions.currentConversation sd = a'.sessions.currentConversation sd)
    (h : ∀ c, a.sessions.currentConversation sd = some c → said a.db c = said a'.db c)
    (env : Env) : ShowCommand.execute env sd a' = ShowCommand.execute env sd a := by
  have hget : a'.sessions.getCurrentConversation sd = a.sessions.getCurrentConversation sd := by
    unfold SessionManager.getCurrentConversation
    rw [hcurrent]
  obtain ⟨hauth, _⟩ := SessionManager.sessions_eq_some hs
  obtain ⟨hauth', _⟩ := SessionManager.sessions_eq_some hs'
  by_cases hnone : a.sessions.getCurrentConversation sd = -1
  · unfold ShowCommand.execute
    simp only [hauth, hauth', hget, hnone]
    rfl
  · have hsaid := h _ (SessionManager.currentConversation_of_ne rfl hnone)
    rw [show_eq_said hauth' hget hnone, show_eq_said hauth rfl hnone, getMessages_said,
      getMessages_said, hsaid]

/-- `chats` reads the conversations of the user and their participants, so the other tables may
be taken from either state. -/
theorem chats_answers (hs : a.sessions.sessions sd = some v)
    (hs' : a'.sessions.sessions sd = some v)
    (hcurrent : a.sessions.currentConversation sd = a'.sessions.currentConversation sd)
    (hfiled : Filed a.db) (hmember : ∀ c, Member a.db c v ↔ Member a'.db c v)
    (hconversations : ∀ c, Member a.db c v →
      (a.db.conversations.rows.filter (·.conversationId == c)).Perm
        (a'.db.conversations.rows.filter (·.conversationId == c)))
    (hparticipants : ∀ c, Member a.db c v →
      (a.db.participants.rows.filter (·.conversationId == c)).Perm
        (a'.db.participants.rows.filter (·.conversationId == c))) (env : Env) :
    ∃ order, ChatsCommand.execute { env with order := order } sd a' =
      ChatsCommand.execute env sd a := by
  let mixed : App :=
    { db := { a.db with
        conversations := a'.db.conversations
        participants := a'.db.participants }
      sessions := a'.sessions }
  have hview : SameView sd v a mixed :=
    { session := hs
      session' := hs'
      current := hcurrent
      friends := .refl _
      requests := .refl _
      posts := .refl _
      member := hmember
      conversations := hconversations
      participants := hparticipants
      messages := fun _ _ => .refl _ }
  obtain ⟨order, horder⟩ := hview.chats hfiled env
  refine ⟨order, Eq.trans ?_ horder⟩
  unfold ChatsCommand.execute
  dsimp only
  rw [lines_congr mixed a' _ 0 fun _ _ _ => rfl]
  rfl

/-- A client that is not logged in is told so, by whatever query but the public feed. -/
theorem guest_answers (hs : a.sessions.sessions sd = none) (hs' : a'.sessions.sessions sd = none)
    {cmd : Command} (hread : cmd.isRead = true) (hne : cmd ≠ .listPosts) (hasher : Text → Nat)
    (env : Env) : (execute hasher env sd a' cmd).1 = (execute hasher env sd a cmd).1 := by
  have hauth := SessionManager.isAuthenticated_eq_false hs
  have hauth' := SessionManager.isAuthenticated_eq_false hs'
  cases cmd with
  | listFriends =>
    simp only [execute, ListFriendsCommand.execute, hauth, hauth']
    rfl
  | listFriendRequests =>
    simp only [execute, ListFriendRequestsCommand.execute, hauth, hauth']
    rfl
  | listPosts => exact absurd rfl hne
  | chats =>
    simp only [execute, ChatsCommand.execute, hauth, hauth']
    rfl
  | «show» =>
    simp only [execute, ShowCommand.execute, hauth, hauth']
    rfl
  | _ => cases hread

end

/-- **A query answers from its footprint.** -/
theorem query_of_agree {a a' : App} {sd : Int} {now : Text} {cmd : Command}
    (hrep : Represented a) (hrep' : Represented a') (hread : cmd.isRead = true)
    (hag : ∀ k, a.network.Reads (.request sd now cmd) k → Network.Same k a.network a'.network)
    (hasher : Text → Nat) (env : Env) :
    ∃ order, (execute hasher { env with order := order } sd a' cmd).1 =
      (execute hasher env sd a cmd).1 := by
  have hseat : a.network.seat sd = a'.network.seat sd := hag (.seat sd) .seat
  cases hs : a.sessions.sessions sd with
  | none =>
    have hs' : a'.sessions.sessions sd = none := by
      rw [← seat_eq_none, ← hseat, seat_eq_none]
      exact hs
    by_cases hcmd : cmd = .listPosts
    · subst hcmd
      have hposts : a.network.posts = a'.network.posts := hag .posts .listPosts
      have hpublic : SamePublic sd a a' :=
        ⟨hs, hs', by rw [public_posts hrep, public_posts hrep', hposts]⟩
      exact hpublic.listPosts env
    · exact ⟨env.order, guest_answers hs hs' hread hcmd hasher env⟩
  | some v =>
    have hsit := seat_of_session hs
    obtain ⟨hs', hcurrent⟩ := seat_eq_some (hseat ▸ hsit)
    dsimp only at hs' hcurrent
    cases cmd with
    | listFriends =>
      exact listFriends_answers hs hs' (accepted_perm fun w => hag _ (.listFriends hsit)) env
    | listFriendRequests =>
      exact listFriendRequests_answers hs hs'
        (pending_perm hrep hrep' fun w => hag _ (.listFriendRequests hsit)) env
    | listPosts =>
      exact ⟨env.order, listPosts_answers hs hs' (seen_congr hrep hrep' (hag .posts .listPosts)
        fun w => hag (.tie _) (.listPostsTie hsit)) env⟩
    | chats =>
      have hrooms : ∀ c, a.network.rooms c = a'.network.rooms c := fun c =>
        hag (.room c) (.chatsRoom hsit)
      exact chats_answers hs hs' hcurrent.symm hrep.filed
        (fun c => member_congr hrep hrep' (hrooms c) v)
        (fun c _ => conversations_perm (hag (.since c) (.chatsSince hsit)))
        (fun c _ => participants_perm hrep hrep' (hrooms c)) env
    | «show» =>
      refine ⟨env.order, show_answers hs hs' hcurrent.symm (fun c hc => ?_) env⟩
      have htalk : a.network.talk c = a'.network.talk c := hag (.talk c) (.showTalk hsit hc)
      rw [said_eq, said_eq, htalk]
    | _ => cases hread

end SocialNetwork.Server
