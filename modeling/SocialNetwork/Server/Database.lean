import SocialNetwork.Server.Schema

/-!
# `Database`: one definition per method

Each method takes the environment of the running command and the database, and a
method that may change the database returns its result with the database
afterwards. Where a command runs the same statement several times (the loops of
`group` and `chats`), the method takes the index of the occurrence.

Mirroring notes:
- The mutex is left out: the server is single-threaded. So is the log, which nothing reads;
  what the methods write to it is in `Logger`.
- A statement whose `sqlite3_prepare_v2` result is not checked behaves like one
  whose step fails: binding and stepping a null statement is a misuse error.
- `sqlite3_last_insert_rowid` right after an insert into an AUTOINCREMENT table is
  that table's `seq`.
-/

namespace SocialNetwork.Server

open SocialNetwork.Lib

structure User where
  userId : Int
  username : Text
  password : Text
  userType : Text
  profileVisibility : Text
  deriving DecidableEq, Repr

structure Post where
  author : Text
  content : Text
  visibility : Int
  createdAt : Text
  deriving DecidableEq, Repr

structure Message where
  messageId : Int
  conversationId : Int
  sender : Text
  content : Text
  sentAt : Text
  deriving DecidableEq, Repr

namespace Database

/-- `std::hash<std::string>` is the platform's; the digest is its decimal text. -/
def Hashpassword (hasher : Text → Nat) (password : Text) : Text := natText (hasher password)

/-- The `User` the `SELECT user_id, username, …` statements read from a row. -/
def readUser (row : UserRow) : User where
  userId := columnInt row.userId
  username := row.username
  password := row.password
  userType := row.userType
  profileVisibility := row.profileVisibility

/-! ## Users -/

/-- `INSERT INTO users (username, password, email, user_type)`. -/
def insertUser (username password email userType : Text) (db : Db) : Option Db :=
  (db.users.insert
    (fun id => ⟨id, username, password, email, userType, bytes "public"⟩) fun _ => rfl).map
    fun users => { db with users := users }

def registerUser (hasher : Text → Nat) (env : Env) (db : Db)
    (username password email userType : Text) : Bool × Db :=
  exec env .registerUser 0
    (insertUser username (Hashpassword hasher password) email userType) db

def authenticateUser (hasher : Text → Nat) (env : Env) (db : Db)
    (username password : Text) : Option User :=
  match select env .authenticateUser 0 (db.users.rows.filter (·.username == username)) with
  | [] => none
  | row :: _ =>
    if row.password ≠ Hashpassword hasher password then none else some (readUser row)

theorem profileVisibility_keeps (visibility : Text) :
    usersConstraints.Keeps fun r => { r with profileVisibility := visibility } :=
  fun _ _ => rfl

/-- `UPDATE users SET profile_visibility = ? WHERE user_id = ?`. -/
def setProfileVisibility (userId : Int) (visibility : Text) (db : Db) : Db :=
  { db with
    users := db.users.update (·.userId == userId)
      (fun r => { r with profileVisibility := visibility })
      (profileVisibility_keeps visibility) fun _ => rfl }

def updateProfileVisibility (env : Env) (db : Db) (userId : Int) (visibility : Text) :
    Bool × Db :=
  exec env .updateProfileVisibility 0
    (fun db => some (setProfileVisibility userId visibility db)) db

def getUserByUsername (env : Env) (i : Nat) (db : Db) (username : Text) : Option User :=
  match select env .getUserByUsername i (db.users.rows.filter (·.username == username)) with
  | [] => none
  | row :: _ => some (readUser row)

/-! ## Friends -/

/-- `INSERT INTO friends`. -/
def insertFriend (row : FriendRow) (db : Db) : Option Db :=
  (db.friends.insert row).map fun friends => { db with friends := friends }

/-- The row of the ordered pair `(a, b)`. -/
def isPair (a b : Text) (r : FriendRow) : Bool :=
  r.userUsername == a && r.friendUsername == b

/-- `friend_type` and `status` default to 0. -/
def sendFriendRequest (env : Env) (db : Db) (source target : Text) : Bool × Db :=
  exec env .sendFriendRequest 0 (insertFriend ⟨source, target, 0, 0⟩) db

theorem status_keeps (status : Int) :
    friendsConstraints.Keeps fun r => { r with status := status } :=
  fun _ _ => rfl

theorem friendType_keeps (type : Int) :
    friendsConstraints.Keeps fun r => { r with friendType := type } :=
  fun _ _ => rfl

/-- `UPDATE friends SET status = 1 WHERE user_username = ? AND friend_username = ?`. -/
def setAccepted (a b : Text) (db : Db) : Db :=
  { db with friends := db.friends.update (isPair a b) _ (status_keeps 1) }

/-- Results of the update and of the reverse insert are ignored. -/
def acceptFriendRequest (env : Env) (db : Db) (target source : Text) : Bool × Db :=
  match select env .acceptCheck 0
      (db.friends.rows.filter fun r => isPair source target r && r.status == 0) with
  | [] => (false, db)
  | _ :: _ =>
    -- neither result is looked at, so the reply is OK even if both fail
    let updated := exec env .acceptUpdate 0 (fun db => some (setAccepted source target db)) db
    let inserted :=
      exec env .acceptInsertReverse 0 (insertFriend ⟨target, source, 0, 1⟩) updated.2
    (true, inserted.2)

def areFriends (env : Env) (db : Db) (a b : Text) : Bool :=
  !(select env .areFriends 0
    (db.friends.rows.filter fun r => isPair a b r && r.status == 1)).isEmpty

/-- `UPDATE friends SET friend_type = ? WHERE … AND status = 1`. -/
def changeFriendType (a b : Text) (type : Int) (db : Db) : Db :=
  { db with
    friends := db.friends.update (fun r => isPair a b r && r.status == 1) _
      (friendType_keeps type) }

def setFriendType (env : Env) (db : Db) (user friendUser : Text) (type : Int) : Bool × Db :=
  -- out of range is refused before anything is read
  if type < 0 ∨ type > 2 then (false, db)
  else if !areFriends env db user friendUser then (false, db)
  else exec env .setFriendType 0 (fun db => some (changeFriendType user friendUser type db)) db

def getFriends (env : Env) (db : Db) (username : Text) : List (Text × Int) :=
  (select env .getFriends 0
    (db.friends.rows.filter fun r => r.userUsername == username && r.status == 1)).map
    fun r => (r.friendUsername, columnInt r.friendType)

def getFriendRequests (env : Env) (db : Db) (username : Text) : List Text :=
  (select env .getFriendRequests 0
    (db.friends.rows.filter fun r => r.friendUsername == username && r.status == 0)).map
    (·.userUsername)

/-! ## Posts -/

/-- `INSERT INTO posts`; `created_at` is `CURRENT_TIMESTAMP`. -/
def insertPost (author content : Text) (visibility : Int) (now : Text) (db : Db) : Option Db :=
  (db.posts.insert (fun id => ⟨id, author, content, visibility, now⟩) fun _ => rfl).map
    fun posts => { db with posts := posts }

def createPost (env : Env) (db : Db) (author content : Text) (visibility : Int) : Bool × Db :=
  if visibility < 0 ∨ visibility > 2 then (false, db)
  else exec env .createPost 0 (insertPost author content visibility env.now) db

def readPost (r : PostRow) : Post where
  author := r.authorUsername
  content := r.content
  visibility := columnInt r.visibility
  createdAt := r.createdAt

/-- `ORDER BY created_at DESC`. -/
def newestFirst (posts : List PostRow) : List PostRow :=
  orderBy (fun a b => textLe b.createdAt a.createdAt) posts

/-- The `WHERE` clause of `getVisiblePosts`. -/
def visibleTo (db : Db) (username : Text) (p : PostRow) : Bool :=
  p.authorUsername == username
    || p.visibility == 0
    || (p.visibility == 1 &&
      db.friends.rows.any fun f => isPair p.authorUsername username f && f.status == 1)
    || (p.visibility == 2 &&
      db.friends.rows.any fun f =>
        isPair p.authorUsername username f && f.status == 1 && f.friendType == 1)

def getVisiblePosts (env : Env) (db : Db) (username : Text) : List Post :=
  (newestFirst (select env .getVisiblePosts 0
    (db.posts.rows.filter (visibleTo db username)))).map readPost

def getPublicPosts (env : Env) (db : Db) : List Post :=
  (newestFirst (select env .getPublicPosts 0
    (db.posts.rows.filter (·.visibility == 0)))).map readPost

/-! ## Conversations and messages -/

/-- The participant row of `username` in the conversation `c`. -/
def isMember (c : Int) (username : Text) (r : ParticipantRow) : Bool :=
  r.conversationId == c && r.username == username

def isParticipant (env : Env) (i : Nat) (db : Db) (conversationId : Int) (username : Text) :
    Bool :=
  !(select env .isParticipant i
    (db.participants.rows.filter (isMember conversationId username))).isEmpty

/-- `INSERT INTO conversation_participants`. -/
def insertParticipant (conversationId : Int) (username : Text) (db : Db) : Option Db :=
  (db.participants.insert ⟨conversationId, username⟩).map
    fun participants => { db with participants := participants }

def addParticipant (env : Env) (i : Nat) (db : Db) (conversationId : Int) (username : Text) :
    Bool × Db :=
  if isParticipant env i db conversationId username then (true, db)
  else exec env .addParticipant i (insertParticipant conversationId username) db

/-- `INSERT INTO conversation_messages`; `sent_at` is `CURRENT_TIMESTAMP`. -/
def insertMessage (conversationId : Int) (sender content now : Text) (db : Db) : Option Db :=
  (db.messages.insert (fun id => ⟨id, conversationId, sender, content, now⟩) fun _ => rfl).map
    fun messages => { db with messages := messages }

def sendMessage (env : Env) (db : Db) (conversationId : Int) (sender content : Text) :
    Bool × Db :=
  if !isParticipant env 0 db conversationId sender then (false, db)
  else exec env .sendMessage 0 (insertMessage conversationId sender content env.now) db

def readMessage (conversationId : Int) (r : MessageRow) : Message where
  messageId := columnInt r.messageId
  conversationId := conversationId
  sender := r.senderUsername
  content := r.content
  sentAt := r.sentAt

/-- `ORDER BY sent_at`. -/
def oldestFirst (messages : List MessageRow) : List MessageRow :=
  orderBy (fun a b => textLe a.sentAt b.sentAt) messages

def getMessages (env : Env) (db : Db) (conversationId : Int) : List Message :=
  (oldestFirst (select env .getMessages 0
    (db.messages.rows.filter (·.conversationId == conversationId)))).map
    (readMessage conversationId)

def getConversationParticipants (env : Env) (i : Nat) (db : Db) (conversationId : Int) :
    List Text :=
  (select env .getConversationParticipants i
    (db.participants.rows.filter (·.conversationId == conversationId))).map (·.username)

/-- The rows of the self-join of `conversation_participants` on the conversation,
with `cp1.username = user1` and `cp2.username = user2`, as their `cp1.conversation_id`. -/
def joinedConversations (db : Db) (user1 user2 : Text) : List Int :=
  db.participants.rows.flatMap fun cp1 =>
    (db.participants.rows.filter fun cp2 =>
      cp1.conversationId == cp2.conversationId
        && cp1.username == user1 && cp2.username == user2).map fun _ => cp1.conversationId

/-- `GROUP BY cp1.conversation_id HAVING COUNT(*) = 2`. -/
def groupsOfTwo (ids : List Int) : List Int := ids.dedup.filter fun c => ids.count c == 2

def getPrivateConversation (env : Env) (db : Db) (user1 user2 : Text) : Option Int :=
  match select env .getPrivateConversation 0 (groupsOfTwo (joinedConversations db user1 user2)) with
  | [] => none
  | c :: _ => some (columnInt c)

/-- `INSERT INTO conversations DEFAULT VALUES`. -/
def insertConversation (now : Text) (db : Db) : Option Db :=
  (db.conversations.insert (fun id => ⟨id, now⟩) fun _ => rfl).map
    fun conversations => { db with conversations := conversations }

/-- `for (user : users) addParticipant(conversation_id, user)`, from occurrence `i`. -/
def addParticipants (env : Env) (conversationId : Int) : Nat → List Text → Db → Db
  | _, [], db => db
  | i, user :: users, db =>
    addParticipants env conversationId (i + 1) users
      (addParticipant env i db conversationId user).2

def createConversation (env : Env) (db : Db) (user1 user2 : Text) : Int × Db :=
  match exec env .insertConversation 0 (insertConversation env.now) db with
  | (false, db) => (-1, db)
  | (true, db) =>
    -- `sqlite3_last_insert_rowid` is assigned to an `int`; nothing checks the attachments
    let conversationId := narrow db.conversations.seq
    let db := (addParticipant env 0 db conversationId user1).2
    let db := (addParticipant env 1 db conversationId user2).2
    (conversationId, db)

def createGroupConversation (env : Env) (db : Db) (users : List Text) : Int × Db :=
  -- a list that names only the caller has two entries and passes
  if users.length < 2 then (-1, db)
  else
    match exec env .insertConversation 0 (insertConversation env.now) db with
    | (false, db) => (-1, db)
    | (true, db) =>
      let conversationId := narrow db.conversations.seq
      (conversationId, addParticipants env conversationId 0 users db)

/-- The rows of `conversation_participants JOIN conversations` for one user, as
`(conversation_id, created_at)`. -/
def joinedOwn (db : Db) (username : Text) : List (Int × Text) :=
  (db.participants.rows.filter (·.username == username)).flatMap fun cp =>
    (db.conversations.rows.filter (·.conversationId == cp.conversationId)).map
      fun c => (cp.conversationId, c.createdAt)

def getUserConversations (env : Env) (db : Db) (username : Text) : List Int :=
  (orderBy (fun a b => textLe b.2 a.2)
    (select env .getUserConversations 0 (joinedOwn db username))).map fun r => columnInt r.1

end Database

end SocialNetwork.Server
