import SocialNetwork.Client.ConversationList
import SocialNetwork.Client.FriendLists
import SocialNetwork.Client.Language
import SocialNetwork.Friends.Repair
import SocialNetwork.Network.Requests
import SocialNetwork.Privacy.Reads

/-!
# What an old list still does

The windows show lists that the server sent some time ago: `MainWindow` asks for the friends
every five seconds, `FriendRequests` for the requests when it is opened, `MessagesWindow` for
the conversations when it is opened. A click on an item sends a command made of that item,
whatever has happened on the server since.

No such click comes too late. Rows of `friends` go from pending to accepted and stay
(`Write.status_mono`), participants stay, and so an item of an old list does in any later state
what it would have done at first (`old_lists_work`): a friend's type can be set, a conversation
opened, and the sender of a request ends up with the user among the friends, whether or not the
request has been accepted elsewhere in the meantime.
-/

namespace SocialNetwork.Client

open SocialNetwork.Lib SocialNetwork.Server

variable {hasher : Text → Nat} {serverSocket : Int}

/-! ## Rows stay -/

/-- A row of `friends` keeps its pair, and its status unless it is accepted. -/
theorem Write.status_mono {env : Env} {db db' : Db} {issuer : Option Text} {current : Option Int}
    {cmd : Command} {reply : Text} (h : Write hasher env db issuer current cmd reply db')
    {a b : Text} {r : FriendRow} (hr : r ∈ db.friends.rows) (hpair : Database.isPair a b r = true) :
    ∃ r' ∈ db'.friends.rows, Database.isPair a b r' = true ∧
      (r'.status = r.status ∨ r'.status = 1) := by
  have hsame : r ∈ db'.friends.rows → ∃ r' ∈ db'.friends.rows, Database.isPair a b r' = true ∧
      (r'.status = r.status ∨ r'.status = 1) := fun hr' => ⟨r, hr', hpair, Or.inl rfl⟩
  cases h with
  | friendRequest _ _ _ _ ht =>
    refine hsame ?_
    show r ∈ Table.rows _
    rw [ht]
    exact List.mem_append_left _ hr
  | @acceptFriend u v updated inserted t _ _ _ _ ht =>
    cases updated with
    | true =>
      refine ⟨acceptRow v u r, ?_, by simpa using hpair, ?_⟩
      · show _ ∈ t.rows
        rw [ht, acceptedRows, if_pos rfl]
        exact List.mem_append_left _ (List.mem_map_of_mem hr)
      · rw [acceptRow_status]
        split
        · exact Or.inr rfl
        · exact Or.inl rfl
    | false =>
      refine hsame ?_
      show r ∈ t.rows
      rw [ht, acceptedRows, if_neg Bool.false_ne_true]
      exact List.mem_append_left _ hr
  | @setFriendType u v type t _ _ _ ht =>
    refine ⟨typeRow u v type r, ?_, by simpa using hpair, Or.inl (typeRow_status ..)⟩
    show _ ∈ t.rows
    rw [ht]
    exact List.mem_map_of_mem hr
  | chat _ _ _ _ hcreated =>
    refine hsame ?_
    rw [hcreated.friends]
    exact hr
  | group _ _ hcreated =>
    refine hsame ?_
    rw [hcreated.friends]
    exact hr
  | _ => exact hsame hr

section

variable {newer older : History LoopState Event} {s s₀ : LoopState}

/-- What every write keeps holds from any moment of a run on. -/
theorem db_later {I : Db → Prop}
    (hwrite : ∀ {env db issuer current cmd reply db'},
      Write hasher env db issuer current cmd reply db' → I db → I db')
    (hr : (machine hasher serverSocket).Run (newer ++ older) s)
    (hr₀ : (machine hasher serverSocket).Run older s₀) (h : I s₀.app.db) : I s.app.db := by
  refine Machine.Run.later (P := fun _ => True)
    (R := fun a b : LoopState => I a.app.db → I b.app.db)
    (fun _ h => h) (fun h₁ h₂ h => h₂ (h₁ h)) ?_ hr hr₀ (fun _ _ => trivial) h
  intro x e _ _ h
  exact step_db (x := ⟨x, e⟩) h fun hw => hwrite hw h

variable (hr : (machine hasher serverSocket).Run (newer ++ older) s)
  (hr₀ : (machine hasher serverSocket).Run older s₀)

include hr hr₀

theorem status_later {a b : Text} {r : FriendRow} (hrow : r ∈ s₀.app.db.friends.rows)
    (hpair : Database.isPair a b r = true) :
    ∃ r' ∈ s.app.db.friends.rows, Database.isPair a b r' = true ∧
      (r'.status = r.status ∨ r'.status = 1) := by
  refine db_later (I := fun db => ∃ r' ∈ db.friends.rows, Database.isPair a b r' = true ∧
    (r'.status = r.status ∨ r'.status = 1)) ?_ hr hr₀ ⟨r, hrow, hpair, Or.inl rfl⟩
  rintro env db issuer current cmd reply db' hw ⟨r', hr', hpair', hst'⟩
  obtain ⟨r'', hr'', hpair'', hst''⟩ := Write.status_mono hw hr' hpair'
  exact ⟨r'', hr'', hpair'', by omega⟩

/-- Friends stay friends. -/
theorem accepted_later {a b : Text} (h : Accepted s₀.app.db a b) : Accepted s.app.db a b := by
  obtain ⟨r, hrow, hpair, hone⟩ := h
  obtain ⟨r', hrow', hpair', hst⟩ := status_later hr hr₀ hrow hpair
  exact ⟨r', hrow', hpair', by omega⟩

/-- A request waits, or has been accepted. -/
theorem asked_later {a b : Text} (h : Pending s₀.app.db a b) :
    Accepted s.app.db a b ∨ Pending s.app.db a b := by
  obtain ⟨r, hrow, hpair, hzero⟩ := h
  obtain ⟨r', hrow', hpair', hst⟩ := status_later hr hr₀ hrow hpair
  rcases hst with hsame | hone
  · exact Or.inr ⟨r', hrow', hpair', hsame.trans hzero⟩
  · exact Or.inl ⟨r', hrow', hpair', hone⟩

theorem member_stays {c : Int} {u : Text} (h : Member s₀.app.db c u) : Member s.app.db c u :=
  db_later (I := fun db => Member db c u) (fun hw hm => hw.member_mono hm) hr hr₀ h

end

/-! ## Clicks -/

section

variable {env : Env} {sd : Int} {a : App} {u w : Text}

/-- The server's reply to a command of the client that arrives in one read, and its state
afterwards. -/
def answer (hasher : Text → Nat) (env : Env) (sd : Int) (cmd : Text) (a : App) : Text × App :=
  handle hasher env sd (fullCmd cmd) a

/-- A command that ends in a word reaches the parser as it is. -/
theorem answer_eq {pre v : Text} {cmd : Command} (hpre : 0 ∉ pre) (hne : v ≠ []) (hv : IsWord v)
    (hcreate : CommandFactory.create env.junk (pre ++ v) = some cmd) :
    answer hasher env sd (pre ++ v) a = execute hasher env sd a cmd := by
  refine handle_of_some hasher env sd a ?_
  rw [inputOf_fullCmd hpre (submitted_of_isWord hne hv)]
  exact hcreate

/-- The type of a friend can be set, and is then listed. -/
theorem answer_setType (qt : Utf8Decoder) (he : env.Sound) (hs : a.sessions.sessions sd = some u)
    (hf : Accepted a.db u w) (hne : w ≠ []) (hw : IsWord w) (hkept : IsUtf8 w ∧ ¬ mark <+: w)
    {t : Int} (ht : 0 ≤ t ∧ t ≤ 2) {env' : Env} (he' : env'.Sound) :
    isOk (answer hasher env sd (FriendType.command (QString.fromStdString qt w) t) a).1 = true ∧
      (w, t) ∈ Database.getFriends env'
        (answer hasher env sd (FriendType.command (QString.fromStdString qt w) t) a).2.db u := by
  have hint : intMin ≤ t ∧ t ≤ intMax := ⟨by unfold intMin; omega, by unfold intMax; omega⟩
  have hcreate : CommandFactory.create env.junk
      (FriendType.command (QString.fromStdString qt w) t) = some (.setFriendType w t) :=
    create_command_kept qt hne hw (qt.bytes_read_iff.mpr hkept) hint
  have hbytes : 0 ∉ bytes "set_friend_type " ++ QString.toStdString (QString.fromStdString qt w) ++
      bytes " " := by
    rw [show QString.toStdString (QString.fromStdString qt w) = w from qt.bytes_read_iff.mpr hkept,
      List.mem_append, List.mem_append, not_or, not_or]
    exact ⟨⟨by decide, nul_not_mem_word hw⟩, by decide⟩
  obtain ⟨d, ds, hdigits, _⟩ := intText_cons t
  have hanswer : answer hasher env sd (FriendType.command (QString.fromStdString qt w) t) a =
      SetFriendTypeCommand.execute env sd a w t :=
    answer_eq hbytes (by rw [hdigits]; exact List.cons_ne_nil _ _) (isWord_intText t) hcreate
  obtain ⟨hauth, hname⟩ := SessionManager.sessions_eq_some hs
  have hok := setFriendType_ok he hs ht hf
  have hrows := setFriendType_rows env a.db u w t
  rw [if_pos ⟨ht.1, ht.2, (areFriends_iff he).mpr hf, he .setFriendType 0⟩] at hrows
  have hdb : (SetFriendTypeCommand.execute env sd a w t).2.db.friends.rows =
      a.db.friends.rows.map (typeRow u w t) := by
    rw [← hrows]
    unfold SetFriendTypeCommand.execute
    rw [hauth, hname, if_neg (by simp)]
    split
    next heq => rw [heq]
    next heq => rw [heq]
  rw [hanswer]
  refine ⟨hok, ?_⟩
  obtain ⟨r, hr, hpair, hone⟩ := hf
  unfold Database.getFriends
  rw [List.mem_map]
  refine ⟨typeRow u w t r, ?_, ?_⟩
  · rw [mem_select he', List.mem_filter, hdb]
    refine ⟨List.mem_map_of_mem hr, ?_⟩
    simp [hone, (isPair_iff.mp hpair).1]
  · have hnarrow : columnInt t = t := narrow_of_fits hint
    have htype : (typeRow u w t r).friendType = t := by
      rw [typeRow_friendType, hpair, hone]
      rfl
    rw [typeRow_friendUsername, (isPair_iff.mp hpair).2, htype, hnarrow]

/-- A request that waits is accepted; one that has been accepted is refused and stays
accepted. -/
theorem answer_accept (he : env.Sound) (hs : a.sessions.sessions sd = some u)
    (hrow : Accepted a.db w u ∨ Pending a.db w u) (hne : w ≠ []) (hw : IsWord w) :
    Accepted (answer hasher env sd (FriendRequests.acceptCommand w) a).2.db w u ∧
      (isOk (answer hasher env sd (FriendRequests.acceptCommand w) a).1 = true ↔
        Pending a.db w u) := by
  have hanswer : answer hasher env sd (FriendRequests.acceptCommand w) a =
      execute hasher env sd a (.acceptFriend w) :=
    answer_eq (by decide) hne hw (create_acceptCommand hne hw)
  rw [hanswer]
  refine ⟨(accept_furthers hasher he hs hrow).2, ?_, acceptFriend_ok he hs⟩
  intro hok
  obtain ⟨hauth, hname⟩ := SessionManager.sessions_eq_some hs
  have hok : isOk (AcceptFriendCommand.execute env sd a w).1 = true := hok
  unfold AcceptFriendCommand.execute at hok
  rw [hauth, hname, if_neg (by simp)] at hok
  rcases hacc : Database.acceptFriendRequest env a.db u w with ⟨_ | _, db⟩
  · rw [hacc] at hok
    cases hok
  · exact (acceptFriendRequest_true hacc).1

/-- Opening a conversation. -/
theorem answer_open (he : env.Sound) (hs : a.sessions.sessions sd = some u) {c : Int}
    (hc : intMin ≤ c ∧ c ≤ intMax) (hm : Member a.db c u) :
    answer hasher env sd (Call.open c).command a =
      (bytes "OK Opened conversation " ++ intText c,
        { a with sessions := a.sessions.openConversation sd c }) := by
  obtain ⟨hauth, hname⟩ := SessionManager.sessions_eq_some hs
  unfold answer
  rw [handle_of_some hasher env sd a (create_open env.junk hc)]
  show OpenCommand.execute env sd a c = _
  unfold OpenCommand.execute
  rw [hauth, hname, (isParticipant_iff he).mpr hm]
  rfl

end

/-- **No click comes too late.** Let `u` have been shown the lists of one moment, and be logged in
at any later one, on whatever connection. Then for every item of the old lists: a friend's type
can be set to any of the three, unless the friend's name is lost in its `QString`; the sender of
a request ends up with `u` among the friends, and the answer is OK exactly if nobody has accepted
the request in between; a conversation opens. -/
theorem old_lists_work {newer older : History LoopState Event} {s s₀ : LoopState}
    (hr : (machine hasher serverSocket).Run (newer ++ older) s)
    (hr₀ : (machine hasher serverSocket).Run older s₀) (hj : ∀ x ∈ older, JoinStep x)
    {sd sd₀ : Int} {u : Text} (hs₀ : s₀.app.sessions.sessions sd₀ = some u)
    (hs : s.app.sessions.sessions sd = some u) (env₀ : Env) {env : Env} (he : env.Sound)
    (qt : Utf8Decoder) (types : Nat → Int) :
    (∀ fs, MainWindow.friends types (ListFriendsCommand.execute env₀ sd₀ s₀.app) = some fs →
      ∀ f ∈ fs, IsUtf8 f.1 ∧ ¬ mark <+: f.1 → ∀ t, 0 ≤ t ∧ t ≤ 2 →
        let out := answer hasher env sd (FriendType.command (QString.fromStdString qt f.1) t) s.app
        isOk out.1 = true ∧
          ∀ env' : Env, env'.Sound → (f.1, t) ∈ Database.getFriends env' out.2.db u) ∧
    (∀ rows, FriendRequests.loadRequests (ListFriendRequestsCommand.execute env₀ sd₀ s₀.app) =
        some rows →
      ∀ w ∈ rows,
        let out := answer hasher env sd (FriendRequests.acceptCommand w) s.app
        Accepted out.2.db w u ∧ (isOk out.1 = true ↔ Pending s.app.db w u)) ∧
    ∀ items, loadConversations (ChatsCommand.execute env₀ sd₀ s₀.app) = some items →
      ∀ i ∈ items,
        answer hasher env sd (Call.open i.conversationId).command s.app =
          (bytes "OK Opened conversation " ++ intText i.conversationId,
            { s.app with
              sessions := s.app.sessions.openConversation sd i.conversationId }) := by
  refine ⟨?_, ?_, ?_⟩
  · intro fs hfs f hf hkept t ht
    rw [friends_list hr₀ hs₀ types] at hfs
    split at hfs
    next => cases hfs
    next =>
      cases hfs
      obtain ⟨hne, hw, _⟩ := getFriends_word hr₀ hf
      obtain ⟨r, hrow, hpair⟩ := List.mem_map.mp hf
      have hrow := mem_of_mem_select hrow
      rw [List.mem_filter, Bool.and_eq_true, beq_iff_eq, beq_iff_eq] at hrow
      have hfriends : Accepted s₀.app.db u f.1 :=
        ⟨r, hrow.1, isPair_iff.mpr ⟨hrow.2.1, congrArg Prod.fst hpair⟩, hrow.2.2⟩
      have hfriends := accepted_later hr hr₀ hfriends
      exact ⟨(answer_setType qt he hs hfriends hne hw hkept ht Env.plain_sound).1,
        fun env' he' => (answer_setType qt he hs hfriends hne hw hkept ht he').2⟩
  · intro rows hrows w hw
    rw [requests_list hr₀ hs₀] at hrows
    cases hrows
    obtain ⟨hne, hword⟩ := getFriendRequests_word hr₀ hw
    obtain ⟨r, hrow, rfl⟩ := List.mem_map.mp hw
    have hrow := mem_of_mem_select hrow
    rw [List.mem_filter, Bool.and_eq_true, beq_iff_eq, beq_iff_eq] at hrow
    have hasked : Pending s₀.app.db r.userUsername u :=
      ⟨r, hrow.1, isPair_iff.mpr ⟨rfl, hrow.2.1⟩, hrow.2.2⟩
    exact answer_accept he hs (asked_later hr hr₀ hasked) hne hword
  · intro items hitems i hi
    rw [loadConversations_chats hr₀ hs₀] at hitems
    cases hitems
    have hid : i.conversationId ∈ Database.getUserConversations env₀ s₀.app.db u := by
      rw [← shownItems_ids]
      exact List.mem_map_of_mem hi
    exact answer_open he hs (getUserConversations_fits hid)
      (member_stays hr hr₀ (mem_getUserConversations (filed_run hr₀ hj) hid))

/-- `b` sees one friend, one request and one chat, and then accepts the request in another
window. -/
def secondWindowEvents : List Event :=
  accentEvents ++ [.line 0 "chat zoë\n", .line 0 "accept_friend c\n"]

set_option synthInstance.maxSize 512 in
theorem old_lists_work_second :
    ∃ x older s, (machine List.length 3).Run (x :: older) s ∧
      isOk (answer List.length Env.plain 4 (FriendType.command
        (QString.fromStdString .replacing (bytes "zoë")) 2) s.app).1 = true ∧
      Accepted
        (answer List.length Env.plain 4 (FriendRequests.acceptCommand (bytes "c")) s.app).2.db
        (bytes "c") (bytes "b") ∧
      isOk (answer List.length Env.plain 4 (Call.open 1).command s.app).1 = true := by
  obtain ⟨h, s, _, hrun, hsound, hs, hs₀, hfriends, hrequests, hconvs⟩ :=
    runEvents_exists List.length 3 secondWindowEvents
      (p := fun h s => s.app.sessions.sessions 4 = some (bytes "b") ∧
        h.head?.map (·.pre.app.sessions.sessions 4) = some (some (bytes "b")) ∧
        h.head?.map (fun x => MainWindow.friends (fun _ => 7)
          (ListFriendsCommand.execute Env.plain 4 x.pre.app)) = some (some [(bytes "zoë", 1)]) ∧
        h.head?.map (fun x => FriendRequests.loadRequests
          (ListFriendRequestsCommand.execute Env.plain 4 x.pre.app)) = some (some [bytes "c"]) ∧
        h.head?.map (fun x => loadConversations (ChatsCommand.execute Env.plain 4 x.pre.app)) =
          some (some [⟨bytes "💬 b, zoë", 1⟩]))
      (by simp [secondWindowEvents, accentEvents]) (by decide)
  cases h with
  | nil => cases hs₀
  | cons x older =>
    have hrun' : (machine List.length 3).Run ([x] ++ older) s := hrun
    obtain ⟨htype, haccept, hopen⟩ := old_lists_work hrun' hrun.of_cons.1
      (fun y hy => (hsound y (List.mem_cons_of_mem _ hy)).join) (Option.some.inj hs₀) hs Env.plain
      Env.plain_sound .replacing fun _ => 7
    refine ⟨x, older, s, hrun, ?_, ?_, ?_⟩
    · exact (htype _ (Option.some.inj hfriends) _ (List.mem_singleton_self _)
        ⟨isUtf8_bytes _, by decide⟩ 2 (by decide)).1
    · exact (haccept _ (Option.some.inj hrequests) _ (List.mem_singleton_self _)).1
    · have hreply := hopen _ (Option.some.inj hconvs) _ (List.mem_singleton_self _)
      rw [show (Item.mk (bytes "💬 b, zoë") 1).conversationId = 1 from rfl] at hreply
      rw [hreply]
      show isOk (bytes "OK Opened conversation " ++ intText 1) = true
      decide

end SocialNetwork.Client
