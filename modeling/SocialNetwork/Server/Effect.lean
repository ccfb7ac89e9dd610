import SocialNetwork.Server.Execute

/-!
# What one command can do

`Effect hasher env sd a cmd r` lists, once and with every guard, the outcomes `r`
(reply and state) an execution of `cmd` for the socket `sd` may have: twelve ways
to change the state, and `idle`. `execute_effect` proves the list complete for
every environment, failing statements included. The invariants are all proved by
cases on `Effect`; none unfolds a handler.
-/

namespace SocialNetwork.Server

open SocialNetwork.Lib

/-- The commands whose handlers only read. -/
def Command.isRead : Command → Bool
  | .listFriends | .listFriendRequests | .listPosts | .chats | .show => true
  | _ => false

section

variable (hasher : Text → Nat) (env : Env) (sd : Int) (a : App)

/-- The outcomes of one command, by what they change. -/
inductive Effect : Command → Text × App → Prop
  /-- Nothing changes; an OK reply is then a read's. -/
  | idle {cmd : Command} {reply : Text} (hread : isOk reply = true → cmd.isRead = true) :
      Effect cmd (reply, a)
  | login {u p : Text} (hfree : a.sessions.sessions sd = none)
      (hauth : Database.authenticateUser hasher env a.db u p ≠ none) :
      Effect (.login u p)
        (bytes "OK Login successful\n", { a with sessions := a.sessions.login sd u })
  | logout {u : Text} (hs : a.sessions.sessions sd = some u) :
      Effect .logout (bytes "OK Logout successful\n", { a with sessions := a.sessions.logout sd })
  | register {u p e r v : Text} {db : Db}
      (hu : u ≠ []) (hp : p ≠ []) (he : e ≠ [])
      (hr : r = bytes "normal" ∨ r = bytes "admin")
      (hv : v = bytes "public" ∨ v = bytes "private")
      (hreg : Database.registerUser hasher env a.db u p e r = (true, db)) :
      Effect (.register u p e r v) (bytes "OK User registered\n",
        { a with db := RegisterCommand.setVisibility hasher env db u p v })
  | setProfileVisibility {u v : Text} {user : User} (hs : a.sessions.sessions sd = some u)
      (hv : v = bytes "public" ∨ v = bytes "private")
      (huser : Database.getUserByUsername env 0 a.db u = some user) :
      Effect (.setProfileVisibility v) (bytes "OK Profile visibility updated\n",
        { a with db := (Database.updateProfileVisibility env a.db user.userId v).2 })
  | friendRequest {u v : Text} {db : Db} (hs : a.sessions.sessions sd = some u) (hne : u ≠ v)
      (hv : Database.getUserByUsername env 0 a.db v ≠ none)
      (hnf : Database.areFriends env a.db u v = false)
      (hsend : Database.sendFriendRequest env a.db u v = (true, db)) :
      Effect (.friendRequest v) (bytes "OK Friend request sent\n", { a with db := db })
  | acceptFriend {u v : Text} {db : Db} (hs : a.sessions.sessions sd = some u)
      (hacc : Database.acceptFriendRequest env a.db u v = (true, db)) :
      Effect (.acceptFriend v) (bytes "OK Friend request accepted\n", { a with db := db })
  | setFriendType {u v : Text} {t : Int} {db : Db} (hs : a.sessions.sessions sd = some u)
      (hset : Database.setFriendType env a.db u v t = (true, db)) :
      Effect (.setFriendType v t) (bytes "OK Friend type updated\n", { a with db := db })
  | createPost {u content : Text} {vis : Int} {db : Db} (hs : a.sessions.sessions sd = some u)
      (hc : content ≠ []) (hpost : Database.createPost env a.db u content vis = (true, db)) :
      Effect (.createPost vis content) (bytes "OK Post created\n", { a with db := db })
  | chatExists {u v : Text} {id : Int} (hs : a.sessions.sessions sd = some u) (hne : u ≠ v)
      (hv : Database.getUserByUsername env 0 a.db v ≠ none)
      (hprivate : Database.getPrivateConversation env a.db u v = some id) :
      Effect (.chat v) (bytes "OK Chat already exists. conversation_id = " ++ intText id, a)
  | chat {u v : Text} {id : Int} {db : Db} (hs : a.sessions.sessions sd = some u) (hne : u ≠ v)
      (hv : Database.getUserByUsername env 0 a.db v ≠ none)
      (hprivate : Database.getPrivateConversation env a.db u v = none)
      (hcreate : Database.createConversation env a.db u v = (id, db)) :
      Effect (.chat v) (ChatCommand.created id, { a with db := db })
  | openConversation {u : Text} {c : Int} (hs : a.sessions.sessions sd = some u)
      (hmem : Database.isParticipant env 0 a.db c u = true) :
      Effect (.open c) (bytes "OK Opened conversation " ++ intText c,
        { a with sessions := a.sessions.openConversation sd c })
  | send {u content : Text} {c : Int} {db : Db} (hs : a.sessions.sessions sd = some u)
      (hc : a.sessions.currentConversation sd = some c)
      (hsend : Database.sendMessage env a.db c u content = (true, db)) :
      Effect (.send content) (bytes "OK Message sent", { a with db := db })
  | group {u : Text} {users : List Text} {id : Int} {db : Db}
      (hs : a.sessions.sessions sd = some u)
      (hknown : GroupCommand.unknown env a 0 (users ++ [u]) = none)
      (hcreate : Database.createGroupConversation env a.db (users ++ [u]) = (id, db)) :
      Effect (.group users) (GroupCommand.created sd a id db)
  | add {u w : Text} {c : Int} {db : Db} (hs : a.sessions.sessions sd = some u)
      (hc : a.sessions.currentConversation sd = some c)
      (hw : Database.getUserByUsername env 0 a.db w ≠ none)
      (hadd : Database.addParticipant env 0 a.db c w = (true, db)) :
      Effect (.add w) (bytes "OK User added to group", { a with db := db })

end

/-! ## Methods that report failure change nothing -/

section

variable {hasher : Text → Nat} {env : Env} {db db' : Db}

theorem registerUser_false {u p e r : Text}
    (h : Database.registerUser hasher env db u p e r = (false, db')) : db' = db :=
  exec_eq_false h

theorem sendFriendRequest_false {u v : Text}
    (h : Database.sendFriendRequest env db u v = (false, db')) : db' = db :=
  exec_eq_false h

theorem acceptFriendRequest_false {u v : Text}
    (h : Database.acceptFriendRequest env db u v = (false, db')) : db' = db := by
  unfold Database.acceptFriendRequest at h
  split at h
  next => exact (Prod.mk.inj h).2.symm
  next => cases h

theorem setFriendType_false {u v : Text} {t : Int}
    (h : Database.setFriendType env db u v t = (false, db')) : db' = db := by
  unfold Database.setFriendType at h
  split at h
  · exact (Prod.mk.inj h).2.symm
  · split at h
    · exact (Prod.mk.inj h).2.symm
    · exact exec_eq_false h

theorem createPost_false {u content : Text} {vis : Int}
    (h : Database.createPost env db u content vis = (false, db')) : db' = db := by
  unfold Database.createPost at h
  split at h
  · exact (Prod.mk.inj h).2.symm
  · exact exec_eq_false h

theorem addParticipant_false {i : Nat} {c : Int} {w : Text}
    (h : Database.addParticipant env i db c w = (false, db')) : db' = db := by
  unfold Database.addParticipant at h
  split at h
  · cases h
  · exact exec_eq_false h

theorem sendMessage_false {c : Int} {u content : Text}
    (h : Database.sendMessage env db c u content = (false, db')) : db' = db := by
  unfold Database.sendMessage at h
  split at h
  · exact (Prod.mk.inj h).2.symm
  · exact exec_eq_false h

end

/-! ## The list is complete -/

section

variable {hasher : Text → Nat} {env : Env} {sd : Int} {a : App}

/-- A refusal is an idle outcome of any command. -/
theorem Effect.refuse {cmd : Command} {reply : Text} (h : isOk reply = false) :
    Effect hasher env sd a cmd (reply, a) :=
  .idle fun hok => by rw [h] at hok; cases hok

theorem isSome_of_not_isNone {α : Type} {o : Option α} (h : ¬ o.isNone = true) : o ≠ none :=
  fun hn => h (by rw [hn]; rfl)

theorem login_effect (u p : Text) :
    Effect hasher env sd a (.login u p) (LoginCommand.execute hasher env sd a u p) := by
  unfold LoginCommand.execute
  split
  · exact .refuse rfl
  · split
    · exact .refuse rfl
    next hna =>
      cases hauth : Database.authenticateUser hasher env a.db u p with
      | none => exact .refuse rfl
      | some user =>
        refine .login ?_ (by rw [hauth]; simp)
        cases hs : a.sessions.sessions sd with
        | none => rfl
        | some w => exact absurd (SessionManager.sessions_eq_some hs).1 hna

theorem register_effect (u p e r v : Text) :
    Effect hasher env sd a (.register u p e r v)
      (RegisterCommand.execute hasher env a u p e r v) := by
  unfold RegisterCommand.execute
  split
  · exact .refuse rfl
  next hargs =>
    split
    · exact .refuse rfl
    next hrole =>
      split
      · exact .refuse rfl
      next hvis =>
        simp only [Bool.or_eq_true, List.isEmpty_iff, not_or] at hargs
        rcases hreg : Database.registerUser hasher env a.db u p e r with ⟨_ | _, db⟩
        · rw [registerUser_false hreg]
          exact .refuse rfl
        · refine .register hargs.1.1.1.1 hargs.1.1.1.2 hargs.1.1.2 ?_ ?_ hreg
          · exact not_and_or.mp hrole |>.imp not_not.mp not_not.mp
          · exact not_and_or.mp hvis |>.imp not_not.mp not_not.mp

theorem logout_effect : Effect hasher env sd a .logout (LogoutCommand.execute sd a) := by
  unfold LogoutCommand.execute
  split
  · exact .refuse rfl
  next hauth =>
    exact .logout (SessionManager.sessions_of_guard hauth)

theorem setProfileVisibility_effect (v : Text) :
    Effect hasher env sd a (.setProfileVisibility v)
      (SetProfileVisibilityCommand.execute env sd a v) := by
  unfold SetProfileVisibilityCommand.execute
  split
  · exact .refuse rfl
  next hauth =>
    split
    · exact .refuse rfl
    next hvis =>
      cases huser : Database.getUserByUsername env 0 a.db (a.sessions.getUsername sd) with
      | none => exact .refuse rfl
      | some user =>
        refine .setProfileVisibility
          (SessionManager.sessions_of_guard hauth) ?_ huser
        exact not_and_or.mp hvis |>.imp not_not.mp not_not.mp

theorem friendRequest_effect (v : Text) :
    Effect hasher env sd a (.friendRequest v) (FriendRequestCommand.execute env sd a v) := by
  unfold FriendRequestCommand.execute
  split
  · exact .refuse rfl
  next hauth =>
    have hs := SessionManager.sessions_of_guard hauth
    dsimp only
    split
    · exact .refuse rfl
    next hne =>
      split
      · exact .refuse rfl
      next hv =>
        split
        · exact .refuse rfl
        next hnf =>
          rcases hsend : Database.sendFriendRequest env a.db (a.sessions.getUsername sd) v
            with ⟨_ | _, db⟩
          · rw [sendFriendRequest_false hsend]
            exact .refuse rfl
          · exact .friendRequest hs hne (isSome_of_not_isNone hv) (by simpa using hnf) hsend

theorem acceptFriend_effect (v : Text) :
    Effect hasher env sd a (.acceptFriend v) (AcceptFriendCommand.execute env sd a v) := by
  unfold AcceptFriendCommand.execute
  split
  · exact .refuse rfl
  next hauth =>
    have hs := SessionManager.sessions_of_guard hauth
    rcases hacc : Database.acceptFriendRequest env a.db (a.sessions.getUsername sd) v
      with ⟨_ | _, db⟩
    · rw [acceptFriendRequest_false hacc]
      exact .refuse rfl
    · exact .acceptFriend hs hacc

theorem setFriendType_effect (v : Text) (t : Int) :
    Effect hasher env sd a (.setFriendType v t) (SetFriendTypeCommand.execute env sd a v t) := by
  unfold SetFriendTypeCommand.execute
  split
  · exact .refuse rfl
  next hauth =>
    have hs := SessionManager.sessions_of_guard hauth
    rcases hset : Database.setFriendType env a.db (a.sessions.getUsername sd) v t
      with ⟨_ | _, db⟩
    · rw [setFriendType_false hset]
      exact .refuse rfl
    · exact .setFriendType hs hset

theorem createPost_effect (vis : Int) (content : Text) :
    Effect hasher env sd a (.createPost vis content)
      (CreatePostCommand.execute env sd a vis content) := by
  unfold CreatePostCommand.execute
  split
  · exact .refuse rfl
  next hauth =>
    have hs := SessionManager.sessions_of_guard hauth
    split
    · exact .refuse rfl
    next hc =>
      rcases hpost : Database.createPost env a.db (a.sessions.getUsername sd) content vis
        with ⟨_ | _, db⟩
      · rw [createPost_false hpost]
        exact .refuse rfl
      · exact .createPost hs (by simpa using hc) hpost

theorem chat_effect (v : Text) :
    Effect hasher env sd a (.chat v) (ChatCommand.execute env sd a v) := by
  unfold ChatCommand.execute
  split
  · exact .refuse rfl
  next hauth =>
    have hs := SessionManager.sessions_of_guard hauth
    dsimp only
    split
    · exact .refuse rfl
    next hne =>
      split
      · exact .refuse rfl
      next hv =>
        cases hprivate : Database.getPrivateConversation env a.db (a.sessions.getUsername sd) v with
        | none => exact .chat hs hne (isSome_of_not_isNone hv) hprivate rfl
        | some id => exact .chatExists hs hne (isSome_of_not_isNone hv) hprivate

theorem open_effect (c : Int) :
    Effect hasher env sd a (.open c) (OpenCommand.execute env sd a c) := by
  unfold OpenCommand.execute
  split
  · exact .refuse rfl
  next hauth =>
    split
    · exact .refuse rfl
    next hmem =>
      exact .openConversation (SessionManager.sessions_of_guard hauth)
        (by simpa using hmem)

theorem send_effect (content : Text) :
    Effect hasher env sd a (.send content) (SendCommand.execute env sd a content) := by
  unfold SendCommand.execute
  split
  · exact .refuse rfl
  next hauth =>
    have hs := SessionManager.sessions_of_guard hauth
    dsimp only
    split
    · exact .refuse rfl
    next hne =>
      have hc := SessionManager.currentConversation_of_ne rfl hne
      rcases hsend : Database.sendMessage env a.db (a.sessions.getCurrentConversation sd)
        (a.sessions.getUsername sd) content with ⟨_ | _, db⟩
      · rw [sendMessage_false hsend]
        exact .refuse rfl
      · exact .send hs hc hsend

theorem group_effect (users : List Text) :
    Effect hasher env sd a (.group users) (GroupCommand.execute env sd a users) := by
  unfold GroupCommand.execute
  split
  · exact .refuse rfl
  next hauth =>
    have hs := SessionManager.sessions_of_guard hauth
    dsimp only
    cases hk : GroupCommand.unknown env a 0 (users ++ [a.sessions.getUsername sd]) with
    | some u => exact .refuse rfl
    | none => exact .group hs hk rfl

theorem add_effect (w : Text) :
    Effect hasher env sd a (.add w) (AddCommand.execute env sd a w) := by
  unfold AddCommand.execute
  split
  · exact .refuse rfl
  next hauth =>
    have hs := SessionManager.sessions_of_guard hauth
    dsimp only
    split
    · exact .refuse rfl
    next hne =>
      have hc := SessionManager.currentConversation_of_ne rfl hne
      split
      · exact .refuse rfl
      next hw =>
        rcases hadd : Database.addParticipant env 0 a.db (a.sessions.getCurrentConversation sd) w
          with ⟨_ | _, db⟩
        · rw [addParticipant_false hadd]
          exact .refuse rfl
        · exact .add hs hc (isSome_of_not_isNone hw) hadd

/-- **Every execution has one of the listed outcomes.** -/
theorem execute_effect (hasher : Text → Nat) (env : Env) (sd : Int) (a : App) (cmd : Command) :
    Effect hasher env sd a cmd (execute hasher env sd a cmd) := by
  cases cmd with
  | login u p => exact login_effect u p
  | register u p e r v => exact register_effect u p e r v
  | logout => exact logout_effect
  | setProfileVisibility v => exact setProfileVisibility_effect v
  | friendRequest v => exact friendRequest_effect v
  | acceptFriend v => exact acceptFriend_effect v
  | listFriends => exact .idle fun _ => rfl
  | setFriendType v t => exact setFriendType_effect v t
  | listFriendRequests => exact .idle fun _ => rfl
  | createPost vis content => exact createPost_effect vis content
  | listPosts => exact .idle fun _ => rfl
  | chats => exact .idle fun _ => rfl
  | chat v => exact chat_effect v
  | «open» c => exact open_effect c
  | send content => exact send_effect content
  | «show» => exact .idle fun _ => rfl
  | group users => exact group_effect users
  | add w => exact add_effect w

end

end SocialNetwork.Server
