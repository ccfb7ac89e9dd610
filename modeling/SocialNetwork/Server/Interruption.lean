import SocialNetwork.Server.Writes

/-!
# A command that is interrupted

No command runs in a transaction: each of its data-changing statements is committed by
itself. A process that dies in the middle of a command, by `error_exit`, by the SIGPIPE of a
`send` or from outside, therefore leaves the file as the last completed statement left it.
`Command.commits` lists what the file holds after each of them.

`commits_last` says that the list ends with the database of `execute`, and `interrupted` that
nothing new can come of an interruption: every file it can leave is the database of a
complete execution of the same command whose later writes failed (`Env.cut`), with the same
rows read. So every invariant that was proved without `Env.Sound` survives it.
-/

namespace SocialNetwork.Server

open SocialNetwork.Lib

/-! ## What the file holds after each statement -/

namespace Database

/-- The update, and the insert of the reverse row. -/
def acceptFriendRequestCommits (env : Env) (db : Db) (target source : Text) : List Db :=
  match select env .acceptCheck 0
      (db.friends.rows.filter fun r => isPair source target r && r.status == 0) with
  | [] => []
  | _ :: _ =>
    let updated := exec env .acceptUpdate 0 (fun db => some (setAccepted source target db)) db
    let inserted :=
      exec env .acceptInsertReverse 0 (insertFriend ⟨target, source, 0, 1⟩) updated.2
    [updated.2, inserted.2]

/-- One insert for each of the users. -/
def addParticipantsCommits (env : Env) (conversationId : Int) : Nat → List Text → Db → List Db
  | _, [], _ => []
  | i, user :: users, db =>
    let db := (addParticipant env i db conversationId user).2
    db :: addParticipantsCommits env conversationId (i + 1) users db

/-- The insert of the conversation, then those of its participants. -/
def insertedCommits (env : Env) (db : Db) (users : List Text) : List Db :=
  match exec env .insertConversation 0 (insertConversation env.now) db with
  | (false, _) => []
  | (true, db) => db :: addParticipantsCommits env (narrow db.conversations.seq) 0 users db

def createConversationCommits (env : Env) (db : Db) (user1 user2 : Text) : List Db :=
  insertedCommits env db [user1, user2]

def createGroupConversationCommits (env : Env) (db : Db) (users : List Text) : List Db :=
  if users.length < 2 then [] else insertedCommits env db users

end Database

section

variable (hasher : Text → Nat) (env : Env) (sd : Int) (a : App)

/-- The insert of the user, then the update of the visibility. -/
def RegisterCommand.commits (username password email role visibility : Text) : List Db :=
  if username.isEmpty || password.isEmpty || email.isEmpty || role.isEmpty
      || visibility.isEmpty then []
  else if role ≠ bytes "normal" ∧ role ≠ bytes "admin" then []
  else if visibility ≠ bytes "public" ∧ visibility ≠ bytes "private" then []
  else
    match Database.registerUser hasher env a.db username password email role with
    | (false, _) => []
    | (true, db) => [db, RegisterCommand.setVisibility hasher env db username password visibility]

def AcceptFriendCommand.commits (source : Text) : List Db :=
  if !a.sessions.isAuthenticated sd then []
  else Database.acceptFriendRequestCommits env a.db (a.sessions.getUsername sd) source

def ChatCommand.commits (otherUser : Text) : List Db :=
  if !a.sessions.isAuthenticated sd then []
  else
    let username := a.sessions.getUsername sd
    if username = otherUser then []
    else if (Database.getUserByUsername env 0 a.db otherUser).isNone then []
    else
      match Database.getPrivateConversation env a.db username otherUser with
      | some _ => []
      | none => Database.createConversationCommits env a.db username otherUser

def GroupCommand.commits (users : List Text) : List Db :=
  if !a.sessions.isAuthenticated sd then []
  else
    let allUsers := users ++ [a.sessions.getUsername sd]
    match GroupCommand.unknown env a 0 allUsers with
    | some _ => []
    | none => Database.createGroupConversationCommits env a.db allUsers

/-- What the database file holds after each data-changing statement of a command. The other
handlers run at most one such statement. -/
def Command.commits : Command → List Db
  | .register username password email role visibility =>
    RegisterCommand.commits hasher env a username password email role visibility
  | .acceptFriend source => AcceptFriendCommand.commits env sd a source
  | .chat otherUser => ChatCommand.commits env sd a otherUser
  | .group users => GroupCommand.commits env sd a users
  | cmd => [(execute hasher env sd a cmd).2.db]

/-- What a command leaves in the file if the process dies after `k` of its statements. -/
def Command.interrupted (k : Nat) (cmd : Command) : Db :=
  ((cmd.commits hasher env sd a).take k).getLastD a.db

end

/-! ## The last statement -/

section

variable {hasher : Text → Nat} {env : Env} {sd : Int} {a : App}

theorem acceptFriendRequestCommits_last (db : Db) (target source : Text) :
    (Database.acceptFriendRequestCommits env db target source).getLastD db =
      (Database.acceptFriendRequest env db target source).2 := by
  unfold Database.acceptFriendRequestCommits Database.acceptFriendRequest
  cases select env .acceptCheck 0
    (db.friends.rows.filter fun r => Database.isPair source target r && r.status == 0) with
  | nil => rfl
  | cons row rest => rfl

theorem addParticipantsCommits_last (c : Int) :
    ∀ (users : List Text) (i : Nat) (db : Db),
      (Database.addParticipantsCommits env c i users db).getLastD db =
        Database.addParticipants env c i users db
  | [], _, _ => rfl
  | user :: users, i, db => by
    rw [Database.addParticipantsCommits, Database.addParticipants, List.getLastD_cons]
    exact addParticipantsCommits_last c users (i + 1) _

theorem createConversationCommits_last (db : Db) (user1 user2 : Text) :
    (Database.createConversationCommits env db user1 user2).getLastD db =
      (Database.createConversation env db user1 user2).2 := by
  unfold Database.createConversationCommits Database.insertedCommits Database.createConversation
  rcases hex : exec env .insertConversation 0 (Database.insertConversation env.now) db
    with ⟨_ | _, db₁⟩
  · exact (exec_eq_false hex).symm
  · exact addParticipantsCommits_last (narrow db₁.conversations.seq) [user1, user2] 0 db₁

theorem createGroupConversationCommits_last (db : Db) (users : List Text) :
    (Database.createGroupConversationCommits env db users).getLastD db =
      (Database.createGroupConversation env db users).2 := by
  unfold Database.createGroupConversationCommits Database.createGroupConversation
  split
  · rfl
  · unfold Database.insertedCommits
    rcases hex : exec env .insertConversation 0 (Database.insertConversation env.now) db
      with ⟨_ | _, db₁⟩
    · exact (exec_eq_false hex).symm
    · exact List.getLastD_cons.trans (addParticipantsCommits_last _ users 0 db₁)

theorem registerCommits_last (u p e r v : Text) :
    (RegisterCommand.commits hasher env a u p e r v).getLastD a.db =
      (RegisterCommand.execute hasher env a u p e r v).2.db := by
  unfold RegisterCommand.commits RegisterCommand.execute
  split
  · rfl
  · split
    · rfl
    · split
      · rfl
      · rcases hreg : Database.registerUser hasher env a.db u p e r with ⟨_ | _, db⟩
        · exact (registerUser_false hreg).symm
        · rfl

theorem acceptFriendCommits_last (v : Text) :
    (AcceptFriendCommand.commits env sd a v).getLastD a.db =
      (AcceptFriendCommand.execute env sd a v).2.db := by
  unfold AcceptFriendCommand.commits AcceptFriendCommand.execute
  split
  · rfl
  · rw [acceptFriendRequestCommits_last]
    rcases Database.acceptFriendRequest env a.db (a.sessions.getUsername sd) v with ⟨_ | _, db⟩
    · rfl
    · rfl

theorem chatCommits_last (v : Text) :
    (ChatCommand.commits env sd a v).getLastD a.db = (ChatCommand.execute env sd a v).2.db := by
  unfold ChatCommand.commits ChatCommand.execute
  split
  · rfl
  · dsimp only
    split
    · rfl
    · split
      · rfl
      · cases Database.getPrivateConversation env a.db (a.sessions.getUsername sd) v with
        | some id => rfl
        | none => exact createConversationCommits_last _ _ _

theorem groupCommits_last (users : List Text) :
    (GroupCommand.commits env sd a users).getLastD a.db =
      (GroupCommand.execute env sd a users).2.db := by
  unfold GroupCommand.commits GroupCommand.execute
  split
  · rfl
  · dsimp only
    cases GroupCommand.unknown env a 0 (users ++ [a.sessions.getUsername sd]) with
    | some u => rfl
    | none =>
      rw [GroupCommand.created_db]
      exact createGroupConversationCommits_last _ _

/-- **After its last statement a command has left the database of `execute`.** -/
theorem commits_last (hasher : Text → Nat) (env : Env) (sd : Int) (a : App) (cmd : Command) :
    (cmd.commits hasher env sd a).getLastD a.db = (execute hasher env sd a cmd).2.db := by
  cases cmd with
  | register u p e r v => exact registerCommits_last u p e r v
  | acceptFriend v => exact acceptFriendCommits_last v
  | chat v => exact chatCommits_last v
  | group users => exact groupCommits_last users
  | _ => rfl

end

/-! ## Writes that are lost -/

/-- The statements that change data. -/
def Stmt.writes : Stmt → Bool
  | .registerUser | .updateProfileVisibility | .sendFriendRequest | .acceptUpdate
  | .acceptInsertReverse | .setFriendType | .createPost | .addParticipant | .sendMessage
  | .insertConversation => true
  | _ => false

/-- The environment in which the writes `lost` fail as well. -/
def Env.cut (env : Env) (lost : Stmt → Nat → Bool) : Env :=
  { env with fails := fun st i => (st.writes && lost st i) || env.fails st i }

section

variable {env : Env} {lost : Stmt → Nat → Bool} {st : Stmt} {i : Nat}

theorem Env.cut_fails (env : Env) (lost : Stmt → Nat → Bool) (st : Stmt) (i : Nat) :
    (env.cut lost).fails st i = ((st.writes && lost st i) || env.fails st i) := rfl

theorem exec_cut_lost (hst : st.writes = true) (h : lost st i = true) (effect : Db → Option Db)
    (db : Db) : exec (env.cut lost) st i effect db = (false, db) := by
  unfold exec
  rw [Env.cut_fails, hst, h]
  rfl

theorem exec_cut_kept (h : lost st i = false) (effect : Db → Option Db) (db : Db) :
    exec (env.cut lost) st i effect db = exec env st i effect db := by
  unfold exec
  rw [Env.cut_fails, h, Bool.and_false, Bool.false_or]

theorem Env.cut_none (env : Env) : env.cut (fun _ _ => false) = env := by
  unfold Env.cut
  simp only [Bool.and_false, Bool.false_or]

-- the queries fail as before, and return the same rows
@[simp] theorem authenticateUser_cut (hasher : Text → Nat) (db : Db) (u p : Text) :
    Database.authenticateUser hasher (env.cut lost) db u p =
      Database.authenticateUser hasher env db u p := rfl

@[simp] theorem getUserByUsername_cut (db : Db) (u : Text) :
    Database.getUserByUsername (env.cut lost) i db u = Database.getUserByUsername env i db u := rfl

@[simp] theorem areFriends_cut (db : Db) (u v : Text) :
    Database.areFriends (env.cut lost) db u v = Database.areFriends env db u v := rfl

@[simp] theorem isParticipant_cut (db : Db) (c : Int) (u : Text) :
    Database.isParticipant (env.cut lost) i db c u = Database.isParticipant env i db c u := rfl

@[simp] theorem getPrivateConversation_cut (db : Db) (u v : Text) :
    Database.getPrivateConversation (env.cut lost) db u v =
      Database.getPrivateConversation env db u v := rfl

@[simp] theorem unknown_cut (a : App) :
    ∀ (users : List Text) (i : Nat),
      GroupCommand.unknown (env.cut lost) a i users = GroupCommand.unknown env a i users
  | [], _ => rfl
  | u :: users, i => by
    rw [GroupCommand.unknown, GroupCommand.unknown, getUserByUsername_cut, unknown_cut a users]

end

/-! ## Every write lost -/

section

variable {hasher : Text → Nat} {env : Env}

theorem addParticipant_lost {lost : Stmt → Nat → Bool} {i : Nat}
    (h : lost .addParticipant i = true) (db : Db) (c : Int) (u : Text) :
    (Database.addParticipant (env.cut lost) i db c u).2 = db := by
  unfold Database.addParticipant
  split
  · rfl
  · rw [exec_cut_lost rfl h]

theorem addParticipants_lost {lost : Stmt → Nat → Bool} (c : Int) :
    ∀ (users : List Text) {i : Nat}, (∀ j, i ≤ j → lost .addParticipant j = true) → ∀ db : Db,
      Database.addParticipants (env.cut lost) c i users db = db
  | [], _, _, _ => rfl
  | u :: users, i, h, db => by
    rw [Database.addParticipants, addParticipant_lost (h i (Nat.le_refl i))]
    exact addParticipants_lost c users (fun j hj => h j (Nat.le_of_succ_le hj)) db

/-- An execution all of whose writes fail leaves the database alone. -/
theorem execute_lost (hasher : Text → Nat) (env : Env) (sd : Int) (a : App) (cmd : Command) :
    (execute hasher (env.cut fun _ _ => true) sd a cmd).2.db = a.db := by
  have hlost : ∀ {st : Stmt}, st.writes = true → ∀ i effect db,
      exec (env.cut fun _ _ => true) st i effect db = (false, db) :=
    fun hst i => exec_cut_lost hst rfl
  have heffect := execute_effect hasher (env.cut fun _ _ => true) sd a cmd
  generalize execute hasher (env.cut fun _ _ => true) sd a cmd = r at heffect ⊢
  cases heffect with
  | register _ _ _ _ _ hreg => cases (hlost rfl _ _ _).symm.trans hreg
  | setProfileVisibility =>
    show (Database.updateProfileVisibility _ _ _ _).2 = a.db
    unfold Database.updateProfileVisibility
    rw [hlost rfl]
  | friendRequest _ _ _ _ hsend => cases (hlost rfl _ _ _).symm.trans hsend
  | acceptFriend _ hacc =>
    unfold Database.acceptFriendRequest at hacc
    split at hacc
    next => cases hacc
    next =>
      rw [hlost rfl] at hacc
      dsimp only at hacc
      rw [hlost rfl] at hacc
      exact (Prod.mk.inj hacc).2.symm
  | setFriendType _ hset =>
    unfold Database.setFriendType at hset
    rw [hlost rfl] at hset
    split at hset
    · cases hset
    · split at hset
      · cases hset
      · cases hset
  | createPost _ _ hpost =>
    unfold Database.createPost at hpost
    rw [hlost rfl] at hpost
    split at hpost
    · cases hpost
    · cases hpost
  | chat _ _ _ _ hcreate =>
    unfold Database.createConversation at hcreate
    rw [hlost rfl] at hcreate
    exact (Prod.mk.inj hcreate).2.symm
  | send _ _ hsend =>
    unfold Database.sendMessage at hsend
    rw [hlost rfl] at hsend
    split at hsend
    · cases hsend
    · cases hsend
  | group _ _ hcreate =>
    rw [GroupCommand.created_db]
    unfold Database.createGroupConversation at hcreate
    rw [hlost rfl] at hcreate
    split at hcreate
    · exact (Prod.mk.inj hcreate).2.symm
    · exact (Prod.mk.inj hcreate).2.symm
  | add _ _ _ hadd =>
    have hlost : (fun _ _ => true : Stmt → Nat → Bool) .addParticipant 0 = true := rfl
    exact (congrArg Prod.snd hadd).symm.trans (addParticipant_lost hlost _ _ _)
  | _ => rfl

end

/-! ## Some writes lost -/

section

variable {hasher : Text → Nat} {env : Env} {sd : Int} {a : App} {d : Db}

theorem registerCommits_cut {u p e r v : Text}
    (hd : d ∈ RegisterCommand.commits hasher env a u p e r v) :
    ∃ lost, (RegisterCommand.execute hasher (env.cut lost) a u p e r v).2.db = d := by
  unfold RegisterCommand.commits at hd
  split at hd
  · cases hd
  next hargs =>
    split at hd
    · cases hd
    next hrole =>
      split at hd
      · cases hd
      next hvis =>
        rcases hreg : Database.registerUser hasher env a.db u p e r with ⟨_ | _, db⟩
        · rw [hreg] at hd
          cases hd
        · rw [hreg] at hd
          have hexecute : ∀ lost : Stmt → Nat → Bool, lost .registerUser 0 = false →
              (RegisterCommand.execute hasher (env.cut lost) a u p e r v).2.db =
                RegisterCommand.setVisibility hasher (env.cut lost) db u p v := by
            intro lost hlost
            have hcut : Database.registerUser hasher (env.cut lost) a.db u p e r = (true, db) :=
              (exec_cut_kept hlost _ _).trans hreg
            unfold RegisterCommand.execute
            rw [if_neg hargs, if_neg hrole, if_neg hvis, hcut]
          rcases List.mem_cons.mp hd with rfl | hd
          · refine ⟨fun st _ => st == .updateProfileVisibility, (hexecute _ rfl).trans ?_⟩
            unfold RegisterCommand.setVisibility Database.updateProfileVisibility
            rw [authenticateUser_cut]
            split
            · rfl
            · rw [exec_cut_lost rfl rfl]
          · refine ⟨fun _ _ => false, (hexecute _ rfl).trans ?_⟩
            rw [Env.cut_none]
            exact (List.mem_singleton.mp hd).symm

theorem acceptFriendRequestCommits_cut {db : Db} {target source : Text}
    (hd : d ∈ Database.acceptFriendRequestCommits env db target source) :
    ∃ lost, (Database.acceptFriendRequest (env.cut lost) db target source).2 = d := by
  unfold Database.acceptFriendRequestCommits at hd
  cases hsel : select env .acceptCheck 0
    (db.friends.rows.filter fun r => Database.isPair source target r && r.status == 0) with
  | nil =>
    rw [hsel] at hd
    cases hd
  | cons row rest =>
    rw [hsel] at hd
    have hcut : ∀ lost, select (env.cut lost) .acceptCheck 0
        (db.friends.rows.filter fun r => Database.isPair source target r && r.status == 0) =
          row :: rest := fun _ => hsel
    rcases List.mem_cons.mp hd with rfl | hd
    · -- killed between the two: the reverse row is missing
      refine ⟨fun st _ => st == .acceptInsertReverse, ?_⟩
      unfold Database.acceptFriendRequest
      rw [hcut]
      dsimp only
      rw [exec_cut_lost rfl rfl, exec_cut_kept rfl]
    · refine ⟨fun _ _ => false, ?_⟩
      rw [Env.cut_none]
      unfold Database.acceptFriendRequest
      rw [hsel]
      exact (List.mem_singleton.mp hd).symm

/-- The attachments from the `k`-th on. -/
def joinsFrom (k : Nat) (st : Stmt) (i : Nat) : Bool := st == .addParticipant && decide (k ≤ i)

theorem addParticipantsCommits_cut (c : Int) :
    ∀ (users : List Text) (i : Nat) (db : Db),
      d ∈ db :: Database.addParticipantsCommits env c i users db →
      ∃ k, i ≤ k ∧ Database.addParticipants (env.cut (joinsFrom k)) c i users db = d
  | [], i, db, hd => by
    rw [List.mem_singleton.mp hd]
    exact ⟨i, Nat.le_refl i, rfl⟩
  | u :: users, i, db, hd => by
    rcases List.mem_cons.mp hd with rfl | hd
    · refine ⟨i, Nat.le_refl i, addParticipants_lost c _ (fun j hj => ?_) d⟩
      simpa [joinsFrom] using hj
    · obtain ⟨k, hk, hrest⟩ := addParticipantsCommits_cut c users (i + 1) _ hd
      refine ⟨k, Nat.le_of_succ_le hk, ?_⟩
      have hkept : Database.addParticipant (env.cut (joinsFrom k)) i db c u =
          Database.addParticipant env i db c u := by
        unfold Database.addParticipant
        rw [isParticipant_cut, exec_cut_kept]
        simp [joinsFrom]
        omega
      rw [Database.addParticipants, hkept]
      exact hrest

/-- An interrupted creation is one whose later attachments failed. -/
theorem insertedCommits_cut {db : Db} {users : List Text}
    (hd : d ∈ Database.insertedCommits env db users) :
    ∃ db₁ lost, exec (env.cut lost) .insertConversation 0 (Database.insertConversation env.now) db =
        (true, db₁) ∧
      Database.addParticipants (env.cut lost) (narrow db₁.conversations.seq) 0 users db₁ = d := by
  unfold Database.insertedCommits at hd
  rcases hex : exec env .insertConversation 0 (Database.insertConversation env.now) db
    with ⟨_ | _, db₁⟩
  · rw [hex] at hd
    cases hd
  · rw [hex] at hd
    obtain ⟨k, _, hk⟩ := addParticipantsCommits_cut _ users 0 db₁ hd
    exact ⟨db₁, joinsFrom k, (exec_cut_kept rfl _ _).trans hex, hk⟩

theorem createConversationCommits_cut {db : Db} {user1 user2 : Text}
    (hd : d ∈ Database.createConversationCommits env db user1 user2) :
    ∃ lost, (Database.createConversation (env.cut lost) db user1 user2).2 = d := by
  obtain ⟨db₁, lost, hex, hdb⟩ := insertedCommits_cut hd
  refine ⟨lost, ?_⟩
  unfold Database.createConversation
  rw [show (env.cut lost).now = env.now from rfl, hex]
  exact hdb

theorem createGroupConversationCommits_cut {db : Db} {users : List Text}
    (hd : d ∈ Database.createGroupConversationCommits env db users) :
    ∃ lost, (Database.createGroupConversation (env.cut lost) db users).2 = d := by
  unfold Database.createGroupConversationCommits at hd
  split at hd
  · cases hd
  next hlen =>
    obtain ⟨db₁, lost, hex, hdb⟩ := insertedCommits_cut hd
    refine ⟨lost, ?_⟩
    unfold Database.createGroupConversation
    rw [if_neg hlen, show (env.cut lost).now = env.now from rfl, hex]
    exact hdb

theorem acceptFriendCommits_cut {v : Text} (hd : d ∈ AcceptFriendCommand.commits env sd a v) :
    ∃ lost, (AcceptFriendCommand.execute (env.cut lost) sd a v).2.db = d := by
  unfold AcceptFriendCommand.commits at hd
  split at hd
  · cases hd
  next hauth =>
    obtain ⟨lost, hdb⟩ := acceptFriendRequestCommits_cut hd
    refine ⟨lost, ?_⟩
    unfold AcceptFriendCommand.execute
    rw [if_neg hauth, ← hdb]
    rcases Database.acceptFriendRequest (env.cut lost) a.db (a.sessions.getUsername sd) v
      with ⟨_ | _, db⟩
    · rfl
    · rfl

theorem chatCommits_cut {v : Text} (hd : d ∈ ChatCommand.commits env sd a v) :
    ∃ lost, (ChatCommand.execute (env.cut lost) sd a v).2.db = d := by
  unfold ChatCommand.commits at hd
  split at hd
  · cases hd
  next hauth =>
    dsimp only at hd
    split at hd
    · cases hd
    next hne =>
      split at hd
      · cases hd
      next hv =>
        cases hprivate :
          Database.getPrivateConversation env a.db (a.sessions.getUsername sd) v with
        | some id =>
          rw [hprivate] at hd
          cases hd
        | none =>
          rw [hprivate] at hd
          obtain ⟨lost, hdb⟩ := createConversationCommits_cut hd
          refine ⟨lost, ?_⟩
          unfold ChatCommand.execute
          dsimp only
          rw [if_neg hauth, if_neg hne, getUserByUsername_cut, if_neg hv,
            getPrivateConversation_cut, hprivate]
          exact hdb

theorem groupCommits_cut {users : List Text} (hd : d ∈ GroupCommand.commits env sd a users) :
    ∃ lost, (GroupCommand.execute (env.cut lost) sd a users).2.db = d := by
  unfold GroupCommand.commits at hd
  split at hd
  · cases hd
  next hauth =>
    dsimp only at hd
    cases hknown : GroupCommand.unknown env a 0 (users ++ [a.sessions.getUsername sd]) with
    | some u =>
      rw [hknown] at hd
      cases hd
    | none =>
      rw [hknown] at hd
      obtain ⟨lost, hdb⟩ := createGroupConversationCommits_cut hd
      refine ⟨lost, ?_⟩
      unfold GroupCommand.execute
      dsimp only
      rw [if_neg hauth, unknown_cut, hknown]
      dsimp only
      rw [GroupCommand.created_db]
      exact hdb

/-- What a command has committed is what it commits when later writes of it fail. -/
theorem commits_cut {cmd : Command} (hd : d ∈ cmd.commits hasher env sd a) :
    ∃ lost, (execute hasher (env.cut lost) sd a cmd).2.db = d := by
  cases cmd with
  | register u p e r v => exact registerCommits_cut hd
  | acceptFriend v => exact acceptFriendCommits_cut hd
  | chat v => exact chatCommits_cut hd
  | group users => exact groupCommits_cut hd
  | _ =>
    refine ⟨fun _ _ => false, ?_⟩
    rw [Env.cut_none]
    exact (List.mem_singleton.mp hd).symm

end

/-- **An interrupted command leaves what a complete one leaves whose later writes failed.** -/
theorem interrupted (hasher : Text → Nat) (env : Env) (sd : Int) (a : App) (cmd : Command)
    (k : Nat) :
    ∃ lost, (execute hasher (env.cut lost) sd a cmd).2.db = cmd.interrupted hasher env sd a k := by
  unfold Command.interrupted
  cases hlast : (cmd.commits hasher env sd a).take k |>.getLast? with
  | none =>
    rw [List.getLast?_eq_none_iff] at hlast
    rw [hlast]
    exact ⟨fun _ _ => true, execute_lost hasher env sd a cmd⟩
  | some d =>
    rw [List.getLastD_eq_getLast?, hlast]
    exact commits_cut (List.mem_of_mem_take (List.mem_of_getLast? hlast))

end SocialNetwork.Server
