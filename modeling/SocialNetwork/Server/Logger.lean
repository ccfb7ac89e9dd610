import SocialNetwork.Server.Loop

/-!
# `Logger`, and what the server tells it

`Logger::log` appends one line to `server.log`: the time, the level and the message. The other
modules leave the calls of `log` out, since nothing reads the log; here they stand on their own.
`…Log` is what the function of that name logs, in order, `eventLog` what one event of the loop
logs, and `entriesOf` the log of a run.

`Database::getInstance()` opens the database the first time it is called, and that is logged
too, whether it succeeds or not. So a trace consists of calls of `log` and of calls of
`getInstance` (`LogCall`), and only `Logger.entries` knows which of the latter is the first. A
database that could not be opened is not opened again; its statements fail, as any may.
-/

namespace SocialNetwork.Server

open SocialNetwork.Lib

/-- `enum class LogLevel`. -/
inductive LogLevel
  | INFO
  | WARNING
  | ERROR
  deriving DecidableEq, Repr

def Logger.levelToString : LogLevel → Text
  | .INFO => bytes "INFO"
  | .WARNING => bytes "WARNING"
  | .ERROR => bytes "ERROR"

/-- `entry`, with its newline. -/
def Logger.line (currentTimestamp : Text) (level : LogLevel) (message : Text) : Text :=
  bytes "[" ++ currentTimestamp ++ bytes "] [" ++ Logger.levelToString level ++ bytes "] "
    ++ message ++ bytes "\n"

/-- How SQLite answers when the database is opened: `sqlite3_open` may fail, and so may the
`sqlite3_exec` that creates the tables, each with its message. -/
inductive Opening
  | ready
  | cannotOpen (errmsg : Text)
  | schemaFailed (errMsg : Text)
  deriving DecidableEq, Repr

def Database.initDatabaseLog : Opening → List (LogLevel × Text)
  | .ready => [(.INFO, bytes "Database is ready")]
  | .cannotOpen errmsg => [(.ERROR, bytes "Cannot open database: " ++ errmsg)]
  | .schemaFailed errMsg => [(.ERROR, bytes "Database schema creation failed: " ++ errMsg)]

/-- What the constructor logs. -/
def Database.DatabaseLog (opening : Opening) : List (LogLevel × Text) :=
  Database.initDatabaseLog opening ++
    if opening = .ready then [] else [(.ERROR, bytes "Database initialization failed")]

/-- What the log shows of some code: its calls of `log` and of `Database::getInstance()`, with how
the opening ends if it is the first. -/
inductive LogCall
  | log (level : LogLevel) (message : Text)
  | database (opening : Opening)
  deriving DecidableEq, Repr

/-- The entries written; `isOpen` if `getInstance` has been called before. -/
def Logger.entries : Bool → List LogCall → List (LogLevel × Text)
  | _, [] => []
  | isOpen, .log level message :: calls => (level, message) :: Logger.entries isOpen calls
  | true, .database _ :: calls => Logger.entries true calls
  | false, .database opening :: calls =>
    Database.DatabaseLog opening ++ Logger.entries true calls

/-- The file, if the entry number `k` is written at `clock k`. -/
def Logger.file (clock : Nat → Text) (entries : List (LogLevel × Text)) : Text :=
  (entries.mapIdx fun k entry => Logger.line (clock k) entry.1 entry.2).flatten

/-- What the log shows and no other part of the program depends on. -/
structure LogEnv where
  /-- A statement that fails does so in `sqlite3_prepare_v2`. -/
  prepare : Stmt → Nat → Bool
  /-- `sqlite3_errmsg(db)`. -/
  errmsg : Text
  /-- `inet_ntoa(address.sin_addr)`. -/
  ip : Text
  /-- What becomes of the database if this is when it is opened. -/
  opening : Opening

/-- Failures are found when a statement is stepped. -/
def LogEnv.plain : LogEnv where
  prepare _ _ := false
  errmsg := []
  ip := bytes "127.0.0.1"
  opening := .ready

/-- `sqlite3_prepare_v2(…) != SQLITE_OK`. -/
def LogEnv.prepareFails (lenv : LogEnv) (env : Env) (st : Stmt) (i : Nat) : Bool :=
  env.fails st i && lenv.prepare st i

section

variable (hasher : Text → Nat) (lenv : LogEnv) (env : Env)

/-! ## `Database` -/

def Database.registerUserLog (db : Db) (username password email userType : Text) : List LogCall :=
  if lenv.prepareFails env .registerUser 0 then
    [.log .ERROR (bytes "Prepare failed (registerUser): " ++ lenv.errmsg)]
  else if !(Database.registerUser hasher env db username password email userType).1 then
    [.log .WARNING (bytes "Register failed for user: " ++ username)]
  else [.log .INFO (bytes "User registered successfully: " ++ username)]

def Database.authenticateUserLog (db : Db) (username password : Text) : List LogCall :=
  .log .INFO (bytes "Login attempt for user: " ++ username) ::
    if lenv.prepareFails env .authenticateUser 0 then
      [.log .ERROR (bytes "Prepare failed (authenticateUser): " ++ lenv.errmsg)]
    else
      match select env .authenticateUser 0 (db.users.rows.filter (·.username == username)) with
      | [] => [.log .WARNING (bytes "Login failed: user not found (" ++ username ++ bytes ")")]
      | row :: _ =>
        if row.password ≠ Database.Hashpassword hasher password then
          [.log .WARNING (bytes "Login failed: wrong password for user " ++ username)]
        else []

def Database.updateProfileVisibilityLog (db : Db) (userId : Int) (visibility : Text) :
    List LogCall :=
  .log .INFO (bytes "Updating profile visibility for user_id: " ++ intText userId) ::
    if lenv.prepareFails env .updateProfileVisibility 0 then
      [.log .ERROR (bytes "Prepare failed (updateProfileVisibility)")]
    else if !(Database.updateProfileVisibility env db userId visibility).1 then
      [.log .WARNING (bytes "Failed to update profile visibility for user_id: " ++ intText userId)]
    else []

def Database.getVisiblePostsLog : List LogCall :=
  if lenv.prepareFails env .getVisiblePosts 0 then
    [.log .ERROR (bytes "Failed to prepare getVisiblePosts: " ++ lenv.errmsg)]
  else []

/-! ## The commands -/

variable (sd : Int) (a : App)

def LoginCommand.executeLog (username password : Text) : List LogCall :=
  .log .INFO (bytes "LOGIN command received for user: " ++ username) ::
    if username.isEmpty || password.isEmpty then
      [.log .WARNING (bytes "LOGIN failed: missing credentials")]
    else if a.sessions.isAuthenticated sd then
      [.log .WARNING
        (bytes "LOGIN failed: client already authenticated (SD=" ++ intText sd ++ bytes ")")]
    else
      .database lenv.opening ::
        Database.authenticateUserLog hasher lenv env a.db username password ++
        match Database.authenticateUser hasher env a.db username password with
        | none =>
          [.log .WARNING (bytes "LOGIN failed: invalid credentials for user " ++ username)]
        | some user =>
          [.log .INFO (bytes "User logged in successfully: " ++ username ++ bytes " (type="
            ++ user.userType ++ bytes ")")]

def RegisterCommand.setVisibilityLog (db : Db) (username password visibility : Text) :
    List LogCall :=
  Database.authenticateUserLog hasher lenv env db username password ++
    match Database.authenticateUser hasher env db username password with
    | none => []
    | some user => Database.updateProfileVisibilityLog lenv env db user.userId visibility

def RegisterCommand.executeLog (username password email role visibility : Text) : List LogCall :=
  .log .INFO (bytes "REGISTER attempt: " ++ username) ::
    if username.isEmpty || password.isEmpty || email.isEmpty || role.isEmpty
        || visibility.isEmpty then
      [.log .WARNING (bytes "REGISTER failed: missing arguments")]
    else if role ≠ bytes "normal" ∧ role ≠ bytes "admin" then
      [.log .WARNING (bytes "REGISTER failed: invalid role (" ++ role ++ bytes ")")]
    else if visibility ≠ bytes "public" ∧ visibility ≠ bytes "private" then
      [.log .WARNING (bytes "REGISTER failed: invalid visibility (" ++ visibility ++ bytes ")")]
    else
      .database lenv.opening ::
        Database.registerUserLog hasher lenv env a.db username password email role ++
        match Database.registerUser hasher env a.db username password email role with
        | (false, _) =>
          [.log .WARNING
            (bytes "REGISTER failed: user already exists (" ++ username ++ bytes ")")]
        | (true, db) =>
          RegisterCommand.setVisibilityLog hasher lenv env db username password visibility ++
            [.log .INFO (bytes "User registered successfully: " ++ username ++ bytes " role="
              ++ role ++ bytes " visibility=" ++ visibility)]

def LogoutCommand.executeLog : List LogCall :=
  .log .INFO (bytes "LOGOUT command received (SD=" ++ intText sd ++ bytes ")") ::
    if !a.sessions.isAuthenticated sd then
      [.log .WARNING
        (bytes "LOGOUT failed: client not authenticated (SD=" ++ intText sd ++ bytes ")")]
    else
      [.log .INFO (bytes "User logged out: " ++ a.sessions.getUsername sd ++ bytes " (SD="
        ++ intText sd ++ bytes ")")]

def SetProfileVisibilityCommand.executeLog (visibility : Text) : List LogCall :=
  .log .INFO (bytes "SET_PROFILE_VISIBILITY command received: " ++ visibility) ::
    if !a.sessions.isAuthenticated sd then
      [.log .WARNING (bytes "SET_PROFILE_VISIBILITY failed: client not authenticated")]
    else if visibility ≠ bytes "public" ∧ visibility ≠ bytes "private" then
      [.log .WARNING
        (bytes "SET_PROFILE_VISIBILITY failed: invalid value (" ++ visibility ++ bytes ")")]
    else
      .database lenv.opening ::
        match Database.getUserByUsername env 0 a.db (a.sessions.getUsername sd) with
        | none =>
          [.log .ERROR (bytes "SET_PROFILE_VISIBILITY failed: user not found in DB ("
            ++ a.sessions.getUsername sd ++ bytes ")")]
        | some user =>
          Database.updateProfileVisibilityLog lenv env a.db user.userId visibility ++
            [.log .INFO (bytes "Profile visibility updated for user " ++ a.sessions.getUsername sd
              ++ bytes " to " ++ visibility)]

/-- `ListPostsCommand` logs through the query alone. -/
def ListPostsCommand.executeLog : List LogCall :=
  .database lenv.opening ::
    if a.sessions.isAuthenticated sd then Database.getVisiblePostsLog lenv env else []

/-- The commands that open the database once the client is known, and log nothing. -/
def whenAuthenticated : List LogCall :=
  if a.sessions.isAuthenticated sd then [.database lenv.opening] else []

/-- The log of `command->execute(client_sd)`. -/
def executeLog : Command → List LogCall
  | .login username password => LoginCommand.executeLog hasher lenv env sd a username password
  | .register username password email role visibility =>
    RegisterCommand.executeLog hasher lenv env a username password email role visibility
  | .logout => LogoutCommand.executeLog sd a
  | .setProfileVisibility visibility =>
    SetProfileVisibilityCommand.executeLog lenv env sd a visibility
  | .friendRequest target =>
    -- a request to oneself is refused before the database is needed
    if a.sessions.getUsername sd = target then [] else whenAuthenticated lenv sd a
  | .acceptFriend _ => whenAuthenticated lenv sd a
  | .listFriends => whenAuthenticated lenv sd a
  | .setFriendType _ _ => whenAuthenticated lenv sd a
  | .listFriendRequests => whenAuthenticated lenv sd a
  | .createPost _ content => if content.isEmpty then [] else whenAuthenticated lenv sd a
  | .listPosts => ListPostsCommand.executeLog lenv env sd a
  -- the rest call `getInstance` before anything else
  | .chats | .chat _ | .open _ | .send _ | .show | .group _ | .add _ =>
    [.database lenv.opening]

/-! ## The loop -/

/-- The inputs of the clients' timers, which are not logged. -/
def isPoll (input : Text) : Bool :=
  input == bytes "list_posts" || input == bytes "list_friends" || input == bytes "show"

/-- What one read logs. -/
def inputLog (junk : Int) (input : Text) : List LogCall :=
  (if !isPoll input then [.log .INFO input] else []) ++
    match CommandFactory.create junk input with
    | none => [.log .WARNING (bytes "Unknown command: " ++ input)]
    | some cmd => executeLog hasher lenv env sd a cmd

end

/-- What one event logs. -/
def eventLog (hasher : Text → Nat) (lenv : LogEnv) (s : LoopState) : Event → List LogCall
  | .accept fd =>
    [.log .INFO (bytes "New client connected. SD=" ++ intText fd ++ bytes ", IP=" ++ lenv.ip)]
  | .hangup i => [.log .INFO (bytes "Client disconnected. SD=" ++ intText (s.clientSocket i))]
  | .recv i env data =>
    inputLog hasher lenv env (s.clientSocket i) s.app env.junk (inputOf data)

/-- The calls of a process that has taken the steps of `h`, the step number `k` under `lenv k`. -/
def callsOf (hasher : Text → Nat) (lenv : Nat → LogEnv) : History LoopState Event → List LogCall
  | [] => [.log .INFO (bytes "Server started. Listening on port " ++ natText 8080)]
  | x :: h => callsOf hasher lenv h ++ eventLog hasher (lenv h.length) x.pre x.event

/-- The log of a run. -/
def entriesOf (hasher : Text → Nat) (lenv : Nat → LogEnv) (h : History LoopState Event) :
    List (LogLevel × Text) :=
  Logger.entries false (callsOf hasher lenv h)

end SocialNetwork.Server
