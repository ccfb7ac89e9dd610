import SocialNetwork.Server.Database
import SocialNetwork.Server.SessionManager
import SocialNetwork.Server.CommandFactory

/-!
# The command handlers

`App` is what the handlers share: the database and the session manager. Each
`…Command.execute` mirrors the method of that class: the reply and the state
afterwards. A handler that only reads returns the reply alone. `execute`
dispatches on the command.
-/

namespace SocialNetwork.Server

open SocialNetwork.Lib

/-- The singletons the handlers work on. -/
structure App where
  db : Db
  sessions : SessionManager

/-- A fresh process on an empty database file. -/
def App.init : App := ⟨Db.empty, SessionManager.empty⟩

/-- A reply that reports success starts with `OK`. -/
def isOk (reply : Text) : Bool := (bytes "OK").isPrefixOf reply

section Handlers

variable (hasher : Text → Nat) (env : Env) (sd : Int) (a : App)

def LoginCommand.execute (username password : Text) : Text × App :=
  if username.isEmpty || password.isEmpty then (bytes "ERROR Invalid arguments\n", a)
  else if a.sessions.isAuthenticated sd then (bytes "ERROR Already logged in\n", a)
  else
    match Database.authenticateUser hasher env a.db username password with
    | none => (bytes "ERROR Invalid credentials\n", a)
    | some _ => (bytes "OK Login successful\n", { a with sessions := a.sessions.login sd username })

/-- Set the visibility of the row just inserted, found again by its credentials.
The result of the update is ignored. -/
def RegisterCommand.setVisibility (db : Db) (username password visibility : Text) : Db :=
  match Database.authenticateUser hasher env db username password with
  | none => db
  | some user => (Database.updateProfileVisibility env db user.userId visibility).2

/-- The socket plays no part in a registration. -/
def RegisterCommand.execute (username password email role visibility : Text) : Text × App :=
  if username.isEmpty || password.isEmpty || email.isEmpty || role.isEmpty
      || visibility.isEmpty then
    (bytes "ERROR Invalid arguments\n", a)
  else if role ≠ bytes "normal" ∧ role ≠ bytes "admin" then (bytes "ERROR Invalid role\n", a)
  else if visibility ≠ bytes "public" ∧ visibility ≠ bytes "private" then
    (bytes "ERROR Invalid visibility\n", a)
  else
    match Database.registerUser hasher env a.db username password email role with
    | (false, db) => (bytes "ERROR User already exists\n", { a with db := db })
    | (true, db) =>
      (bytes "OK User registered\n",
        { a with
          db := RegisterCommand.setVisibility hasher env db username password visibility })

def LogoutCommand.execute : Text × App :=
  if !a.sessions.isAuthenticated sd then (bytes "ERROR Not logged in\n", a)
  else (bytes "OK Logout successful\n", { a with sessions := a.sessions.logout sd })

/-- The result of the update is ignored. -/
def SetProfileVisibilityCommand.execute (visibility : Text) : Text × App :=
  if !a.sessions.isAuthenticated sd then (bytes "ERROR Not logged in\n", a)
  else if visibility ≠ bytes "public" ∧ visibility ≠ bytes "private" then
    (bytes "ERROR Invalid visibility\n", a)
  else
    match Database.getUserByUsername env 0 a.db (a.sessions.getUsername sd) with
    | none => (bytes "ERROR Internal error\n", a)
    | some user =>
      (bytes "OK Profile visibility updated\n",
        { a with db := (Database.updateProfileVisibility env a.db user.userId visibility).2 })

def FriendRequestCommand.execute (target : Text) : Text × App :=
  if !a.sessions.isAuthenticated sd then (bytes "ERROR Not logged in\n", a)
  else
    let user := a.sessions.getUsername sd
    if user = target then (bytes "ERROR Cannot add yourself\n", a)
    else if (Database.getUserByUsername env 0 a.db target).isNone then
      (bytes "ERROR User does not exist\n", a)
    else if Database.areFriends env a.db user target then (bytes "ERROR Already friends\n", a)
    else
      match Database.sendFriendRequest env a.db user target with
      | (false, db) => (bytes "ERROR Cannot send request\n", { a with db := db })
      | (true, db) => (bytes "OK Friend request sent\n", { a with db := db })

def AcceptFriendCommand.execute (source : Text) : Text × App :=
  if !a.sessions.isAuthenticated sd then (bytes "ERROR Not logged in\n", a)
  else
    match Database.acceptFriendRequest env a.db (a.sessions.getUsername sd) source with
    | (false, db) => (bytes "ERROR Cannot accept request\n", { a with db := db })
    | (true, db) => (bytes "OK Friend request accepted\n", { a with db := db })

def ListFriendsCommand.execute : Text :=
  if !a.sessions.isAuthenticated sd then bytes "ERROR Not logged in\n"
  else
    let friends := Database.getFriends env a.db (a.sessions.getUsername sd)
    if friends.isEmpty then bytes "OK No friends\n"
    else bytes "OK Friends list:\n"
      ++ friends.flatMap fun f => f.1 ++ bytes " " ++ intText f.2 ++ bytes "\n"

def SetFriendTypeCommand.execute (target : Text) (type : Int) : Text × App :=
  if !a.sessions.isAuthenticated sd then (bytes "ERROR Not logged in\n", a)
  else
    match Database.setFriendType env a.db (a.sessions.getUsername sd) target type with
    | (false, db) => (bytes "ERROR Cannot set friend type\n", { a with db := db })
    | (true, db) => (bytes "OK Friend type updated\n", { a with db := db })

def ListFriendRequestsCommand.execute : Text :=
  if !a.sessions.isAuthenticated sd then bytes "ERROR Not logged in\n"
  else
    let requests := Database.getFriendRequests env a.db (a.sessions.getUsername sd)
    if requests.isEmpty then bytes "OK No friend requests\n"
    else bytes "OK Friend requests:\n" ++ requests.flatMap fun r => r ++ bytes "\n"

def CreatePostCommand.execute (visibility : Int) (content : Text) : Text × App :=
  if !a.sessions.isAuthenticated sd then (bytes "ERROR Not logged in\n", a)
  else if content.isEmpty then (bytes "ERROR Empty post\n", a)
  else
    match Database.createPost env a.db (a.sessions.getUsername sd) content visibility with
    | (false, db) => (bytes "ERROR Cannot create post\n", { a with db := db })
    | (true, db) => (bytes "OK Post created\n", { a with db := db })

/-- The local `posts` of `ListPostsCommand::execute`. -/
def ListPostsCommand.posts : List Post :=
  if a.sessions.isAuthenticated sd then
    Database.getVisiblePosts env a.db (a.sessions.getUsername sd)
  else Database.getPublicPosts env a.db

/-- One line of the feed. -/
def ListPostsCommand.line (p : Post) : Text :=
  bytes "[" ++ p.createdAt ++ bytes "] " ++ p.author ++ bytes " (" ++ intText p.visibility
    ++ bytes "): " ++ p.content ++ bytes "\n"

def ListPostsCommand.execute : Text :=
  let posts := ListPostsCommand.posts env sd a
  if posts.isEmpty then bytes "OK No posts\n"
  else bytes "OK Posts:\n" ++ posts.flatMap ListPostsCommand.line

/-- `first` of the participant loop: the names, separated by `", "`. -/
def ChatsCommand.names (users : List Text) : Text := (bytes ", ").intercalate users

/-- The loop over the conversations; `i` counts its passes. -/
def ChatsCommand.lines : Nat → List Int → Text
  | _, [] => []
  | i, convId :: conversations =>
    bytes "[" ++ intText convId ++ bytes "] "
      ++ ChatsCommand.names (Database.getConversationParticipants env i a.db convId) ++ bytes "\n"
      ++ ChatsCommand.lines (i + 1) conversations

def ChatsCommand.execute : Text :=
  if !a.sessions.isAuthenticated sd then bytes "ERROR Not authenticated"
  else
    let conversations := Database.getUserConversations env a.db (a.sessions.getUsername sd)
    if conversations.isEmpty then bytes "No conversations"
    else ChatsCommand.lines env a 0 conversations

/-- The reply to a `chat` that called `createConversation`. -/
def ChatCommand.created (id : Int) : Text :=
  -- an id past `INT_MAX` reads as a failure although the conversation was created
  if id < 0 then bytes "ERROR Failed to create chat"
  else bytes "OK Private chat created. conversation_id = " ++ intText id

def ChatCommand.execute (otherUser : Text) : Text × App :=
  if !a.sessions.isAuthenticated sd then (bytes "ERROR Not authenticated", a)
  else
    let username := a.sessions.getUsername sd
    if username = otherUser then (bytes "ERROR Cannot chat with yourself", a)
    else if (Database.getUserByUsername env 0 a.db otherUser).isNone then
      (bytes "ERROR User does not exist", a)
    else
      match Database.getPrivateConversation env a.db username otherUser with
      | some id => (bytes "OK Chat already exists. conversation_id = " ++ intText id, a)
      | none =>
        let (id, db) := Database.createConversation env a.db username otherUser
        (ChatCommand.created id, { a with db := db })

def OpenCommand.execute (conversationId : Int) : Text × App :=
  if !a.sessions.isAuthenticated sd then (bytes "ERROR Not authenticated", a)
  else if !Database.isParticipant env 0 a.db conversationId (a.sessions.getUsername sd) then
    (bytes "ERROR You are not a participant in this conversation", a)
  else
    (bytes "OK Opened conversation " ++ intText conversationId,
      { a with sessions := a.sessions.openConversation sd conversationId })

def SendCommand.execute (content : Text) : Text × App :=
  if !a.sessions.isAuthenticated sd then (bytes "ERROR Not authenticated", a)
  else
    let conversationId := a.sessions.getCurrentConversation sd
    if conversationId = -1 then (bytes "ERROR No open conversation", a)
    else
      match Database.sendMessage env a.db conversationId (a.sessions.getUsername sd) content with
      | (false, db) => (bytes "ERROR Failed to send message", { a with db := db })
      | (true, db) => (bytes "OK Message sent", { a with db := db })

/-- One line of a history. -/
def ShowCommand.line (m : Message) : Text :=
  bytes "[" ++ m.sender ++ bytes "] " ++ m.content ++ bytes "\n"

def ShowCommand.execute : Text :=
  if !a.sessions.isAuthenticated sd then bytes "ERROR Not authenticated"
  else
    let conversationId := a.sessions.getCurrentConversation sd
    if conversationId = -1 then bytes "ERROR No open conversation"
    else
      let messages := Database.getMessages env a.db conversationId
      if messages.isEmpty then bytes "No messages"
      else messages.flatMap ShowCommand.line

/-- The validation loop of `group`: the first name, from occurrence `i`, that no
user has. -/
def GroupCommand.unknown : Nat → List Text → Option Text
  | _, [] => none
  | i, u :: users =>
    if (Database.getUserByUsername env i a.db u).isNone then some u
    else GroupCommand.unknown (i + 1) users

/-- What `group` does with the result of `createGroupConversation`. -/
def GroupCommand.created (id : Int) (db : Db) : Text × App :=
  -- only -1 is a failure here; other negative ids are opened
  if id = -1 then (bytes "ERROR Failed to create group", { a with db := db })
  else
    (bytes "OK Group created. conversation_id = " ++ intText id,
      { db := db, sessions := a.sessions.openConversation sd id })

def GroupCommand.execute (users : List Text) : Text × App :=
  if !a.sessions.isAuthenticated sd then (bytes "ERROR Not authenticated", a)
  else
    let allUsers := users ++ [a.sessions.getUsername sd]
    match GroupCommand.unknown env a 0 allUsers with
    | some u => (bytes "ERROR User does not exist: " ++ u, a)
    | none =>
      let (conv, db) := Database.createGroupConversation env a.db allUsers
      GroupCommand.created sd a conv db

def AddCommand.execute (username : Text) : Text × App :=
  if !a.sessions.isAuthenticated sd then (bytes "ERROR Not authenticated", a)
  else
    let conv := a.sessions.getCurrentConversation sd
    if conv = -1 then (bytes "ERROR No open conversation", a)
    else if (Database.getUserByUsername env 0 a.db username).isNone then
      (bytes "ERROR User does not exist", a)
    else
      match Database.addParticipant env 0 a.db conv username with
      | (false, db) => (bytes "ERROR Failed to add user", { a with db := db })
      | (true, db) => (bytes "OK User added to group", { a with db := db })

/-- `command->execute(client_sd)`. -/
def execute : Command → Text × App
  | .login username password => LoginCommand.execute hasher env sd a username password
  | .register username password email role visibility =>
    RegisterCommand.execute hasher env a username password email role visibility
  | .logout => LogoutCommand.execute sd a
  | .setProfileVisibility visibility => SetProfileVisibilityCommand.execute env sd a visibility
  | .friendRequest target => FriendRequestCommand.execute env sd a target
  | .acceptFriend source => AcceptFriendCommand.execute env sd a source
  | .listFriends => (ListFriendsCommand.execute env sd a, a)
  | .setFriendType target type => SetFriendTypeCommand.execute env sd a target type
  | .listFriendRequests => (ListFriendRequestsCommand.execute env sd a, a)
  | .createPost visibility content => CreatePostCommand.execute env sd a visibility content
  | .listPosts => (ListPostsCommand.execute env sd a, a)
  | .chats => (ChatsCommand.execute env sd a, a)
  | .chat otherUser => ChatCommand.execute env sd a otherUser
  | .open conversationId => OpenCommand.execute env sd a conversationId
  | .send content => SendCommand.execute env sd a content
  | .show => (ShowCommand.execute env sd a, a)
  | .group users => GroupCommand.execute env sd a users
  | .add username => AddCommand.execute env sd a username

end Handlers

end SocialNetwork.Server
