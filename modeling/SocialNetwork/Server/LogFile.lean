import SocialNetwork.Client.Language
import SocialNetwork.Network.Requests
import SocialNetwork.Server.Logger
import SocialNetwork.Session.Accounts

/-!
# What the log is worth

The log holds every input but three as it came, so three things follow. The passwords are in it:
whoever reads the file of a run can log in as every user there is (`passwords_logged`). Anyone may
write in it: an input may have line breaks inside, and a client that has not even logged in can
make the file go on with any lines whatever, while nothing else changes (`log_forged`). And it
does not say whose an input was: a command sent by another client is logged the same
(`log_unattributed`).

What the levels are good for is `alarm_iff`: when a read is logged above `INFO`. An account
command that is refused is, and so is one whose visibility a failing statement keeps from being
written, but no other refusal. And so is the first read that needs the database, if it cannot be
opened.
-/

namespace SocialNetwork.Server

open SocialNetwork.Lib
open SocialNetwork.Client (slotOf IsInput inputOf_of_isInput)

variable {hasher : Text → Nat} {serverSocket : Int}

/-! ## Entries and lines -/

/-- A call of `Database::getInstance()`. -/
def LogCall.isDatabase : LogCall → Bool
  | .log _ _ => false
  | .database _ => true

/-- Some call opens the database, if no earlier one has. -/
def opensDatabase (calls : List LogCall) : Bool := calls.any LogCall.isDatabase

section

variable {level : LogLevel} {message : Text}

theorem entries_append (isOpen : Bool) (calls later : List LogCall) :
    Logger.entries isOpen (calls ++ later) =
      Logger.entries isOpen calls ++ Logger.entries (isOpen || opensDatabase calls) later := by
  induction calls generalizing isOpen with
  | nil => rw [List.nil_append, show opensDatabase [] = false from rfl, Bool.or_false]; rfl
  | cons call calls ih =>
    cases call with
    | log level message => exact congrArg (List.cons (level, message)) (ih isOpen)
    | database opening =>
      cases isOpen with
      | true => exact ih true
      | false =>
        have hopened := congrArg (Database.DatabaseLog opening ++ ·) (ih true)
        rwa [Bool.true_or, ← List.append_assoc] at hopened

/-- What is logged is written. -/
theorem mem_entries {calls : List LogCall} (h : .log level message ∈ calls) (isOpen : Bool) :
    (level, message) ∈ Logger.entries isOpen calls := by
  obtain ⟨before, after, rfl⟩ := List.append_of_mem h
  rw [entries_append]
  exact List.mem_append_right _ (List.mem_cons_self ..)

theorem file_append (clock : Nat → Text) (entries later : List (LogLevel × Text)) :
    Logger.file clock (entries ++ later) = Logger.file clock entries ++
      Logger.file (fun k => clock (k + entries.length)) later := by
  unfold Logger.file
  rw [List.mapIdx_append, List.flatten_append]

theorem file_cons (clock : Nat → Text) (entry : LogLevel × Text)
    (later : List (LogLevel × Text)) :
    Logger.file clock (entry :: later) = Logger.line (clock 0) entry.1 entry.2 ++
      Logger.file (fun k => clock (k + 1)) later := by
  unfold Logger.file
  rw [List.mapIdx_cons, List.flatten_cons]

/-- Every entry has its line. -/
theorem line_infix_file (clock : Nat → Text) {entries : List (LogLevel × Text)}
    (h : (level, message) ∈ entries) :
    ∃ k, Logger.line (clock k) level message <:+: Logger.file clock entries := by
  obtain ⟨before, after, rfl⟩ := List.append_of_mem h
  rw [file_append, file_cons, ← List.append_assoc]
  exact ⟨0 + before.length, List.infix_append ..⟩

end

section

variable {lenv : Nat → LogEnv} {h : History LoopState Event}

theorem callsOf_append (hasher : Text → Nat) (lenv : Nat → LogEnv)
    (newer older : History LoopState Event) :
    ∃ later, callsOf hasher lenv (newer ++ older) = callsOf hasher lenv older ++ later := by
  induction newer with
  | nil => exact ⟨[], (List.append_nil _).symm⟩
  | cons x newer ih =>
    obtain ⟨later, hlater⟩ := ih
    refine ⟨later ++ eventLog hasher (lenv (newer ++ older).length) x.pre x.event, ?_⟩
    rw [← List.append_assoc, ← hlater]
    rfl

/-- What a step of the run logs is in the log of the run. -/
theorem mem_callsOf (newer : History LoopState Event) {older : History LoopState Event}
    {x : Step LoopState Event} {call : LogCall}
    (h : call ∈ eventLog hasher (lenv older.length) x.pre x.event) :
    call ∈ callsOf hasher lenv (newer ++ x :: older) := by
  obtain ⟨later, hlater⟩ := callsOf_append hasher lenv newer (x :: older)
  rw [hlater]
  exact List.mem_append_left _ (List.mem_append_right _ h)

/-- The log grows by what the step logs. -/
theorem entriesOf_cons (x : Step LoopState Event) :
    entriesOf hasher lenv (x :: h) = entriesOf hasher lenv h ++
      Logger.entries (opensDatabase (callsOf hasher lenv h))
        (eventLog hasher (lenv h.length) x.pre x.event) :=
  entries_append ..

end

/-! ## Passwords -/

/-- The inputs that are not logged are three commands. -/
theorem create_of_isPoll (junk : Int) {input : Text} (h : isPoll input = true) :
    CommandFactory.create junk input ∈ [some .listPosts, some .listFriends, some .show] := by
  unfold isPoll at h
  simp only [Bool.or_eq_true, beq_iff_eq] at h
  rcases h with (rfl | rfl) | rfl
  · exact List.mem_cons_self ..
  · exact List.mem_cons_of_mem _ (List.mem_cons_self ..)
  · exact List.mem_cons_of_mem _ (List.mem_cons_of_mem _ (List.mem_cons_self ..))

/-- A registration without a password is refused. -/
theorem register_password {env : Env} {a : App} {u p e role v : Text}
    (hok : isOk (RegisterCommand.execute hasher env a u p e role v).1 = true) : p ≠ [] := by
  rintro rfl
  unfold RegisterCommand.execute at hok
  rw [if_pos (by simp)] at hok
  cases hok

/-- **The log is the list of everybody's passwords.** For each account there is a line in the
file of the run that holds the command which registered it, and the password read off that line
logs in. -/
theorem passwords_logged {h : History LoopState Event} {s : LoopState}
    (hr : (machine hasher serverSocket).Run h s) (lenv : Nat → LogEnv) (clock : Nat → Text)
    {row : UserRow} (hrow : row ∈ s.app.db.users.rows) :
    ∃ (k : Nat) (junk : Int) (input p e role v : Text),
      Logger.line (clock k) .INFO input <:+: Logger.file clock (entriesOf hasher lenv h) ∧
      CommandFactory.create junk input = some (.register row.username p e role v) ∧
      ∀ (env : Env) (sd : Int), env.fails .authenticateUser 0 = false →
        s.app.sessions.sessions sd = none →
          isOk (execute hasher env sd s.app (.login row.username p)).1 = true := by
  obtain ⟨newer, x, older, p, e, role, v, rfl, hcmd, hok⟩ := registered_run hr row hrow
  obtain ⟨i, env, data, reply, hevent, hreply, hw⟩ := write_of_command hasher hcmd
  have hcreate : CommandFactory.create env.junk (inputOf data) =
      some (.register row.username p e role v) := by
    rw [← hcmd]
    unfold commandOf
    rw [hevent]
  -- a registration is no poll
  have hlogged : LogCall.log .INFO (inputOf data) ∈
      eventLog hasher (lenv older.length) x.pre x.event := by
    rw [hevent]
    refine List.mem_append_left _ ?_
    split
    next => exact List.mem_singleton_self _
    next hpoll =>
      have hthree := create_of_isPoll env.junk (by simpa using hpoll)
      rw [hcreate] at hthree
      simp at hthree
  obtain ⟨k, hline⟩ := line_infix_file clock
    (mem_entries (mem_callsOf newer hlogged) false)
  obtain ⟨shown, hin⟩ := account_run hr hcmd hok
  refine ⟨k, env.junk, inputOf data, p, e, role, v, hline, hcreate, fun env' sd he hs => ?_⟩
  have hreg : isOk (RegisterCommand.execute hasher env x.pre.app row.username p e role v).1 =
      true := by
    unfold repliedOk replyOf at hok
    rw [hevent] at hok
    dsimp only at hok
    rwa [handle_of_some _ _ _ _ hcreate] at hok
  have hp := register_password hreg
  rw [hreply] at hok
  generalize (next hasher x.pre x.event).app.db = db' at hw
  cases hw with
  | unchanged hno => cases hno hok
  | register hu => exact (login_iff hin hu he hs hp).mpr rfl

theorem passwords_logged_one :
    ∃ (h : History LoopState Event) (s : LoopState) (junk : Int) (input p e role v : Text),
      (machine List.length 3).Run h s ∧
      Logger.line (bytes "now") .INFO input <:+:
        Logger.file (fun _ => bytes "now") (entriesOf List.length (fun _ => .plain) h) ∧
      CommandFactory.create junk input = some (.register (bytes "a") p e role v) ∧
      isOk (execute List.length .plain 5 s.app (.login (bytes "a") p)).1 = true := by
  obtain ⟨h, s, _, hrun, _, hnobody, row, hrow, hname⟩ := runEvents_exists List.length 3
    [.accept 4, .line 0 "register a p a@x normal public\n"]
    (p := fun _ s => s.app.sessions.sessions 5 = none ∧
      ∃ row ∈ s.app.db.users.rows, row.username = bytes "a") (by simp) (by decide)
  obtain ⟨_, junk, input, p, e, role, v, hline, hcreate, hlogin⟩ :=
    passwords_logged hrun (fun _ => LogEnv.plain) (fun _ => bytes "now") hrow
  rw [hname] at hcreate hlogin
  exact ⟨h, s, junk, input, p, e, role, v, hrun, hline, hcreate, hlogin .plain 5 rfl hnobody⟩

/-! ## Alarms -/

/-- Logged above `INFO`. -/
def LogCall.isAlarm : LogCall → Bool
  | .log level _ => level != .INFO
  | .database _ => false

@[simp] theorem LogCall.isAlarm_info (message : Text) :
    (LogCall.log .INFO message).isAlarm = false := rfl

@[simp] theorem LogCall.isAlarm_database (opening : Opening) :
    (LogCall.database opening).isAlarm = false := rfl

/-- The commands that report on themselves. -/
def Command.isAudited : Command → Bool
  | .login _ _ | .register _ _ _ _ _ | .logout | .setProfileVisibility _ => true
  | _ => false

/-- A failing statement keeps the visibility that comes with an OK command from being written. -/
def visibilityLost (env : Env) : Command → Bool
  | .register _ _ _ _ _ => env.fails .authenticateUser 0 || env.fails .updateProfileVisibility 0
  | .setProfileVisibility _ => env.fails .updateProfileVisibility 0
  | _ => false

section

variable (lenv : LogEnv) {env : Env} {sd : Int} {a : App}

theorem prepareFails_imp {st : Stmt} {i : Nat} (h : lenv.prepareFails env st i = true) :
    env.fails st i = true := by
  unfold LogEnv.prepareFails at h
  rw [Bool.and_eq_true] at h
  exact h.1

/-- `registerUser` raises an alarm exactly if it fails. -/
theorem registerUser_alarm (db : Db) (u p e role : Text) :
    (Database.registerUserLog hasher lenv env db u p e role).any LogCall.isAlarm =
      !(Database.registerUser hasher env db u p e role).1 := by
  unfold Database.registerUserLog
  split
  next hprepare =>
    have hfails := prepareFails_imp lenv hprepare
    unfold Database.registerUser
    rw [exec_of_fails hfails]
    rfl
  next =>
    split
    next hno => rw [hno]; rfl
    next hyes => rw [Bool.eq_false_iff.mpr hyes]; rfl

/-- So does `authenticateUser`. -/
theorem authenticateUser_alarm (db : Db) (u p : Text) :
    (Database.authenticateUserLog hasher lenv env db u p).any LogCall.isAlarm =
      (Database.authenticateUser hasher env db u p).isNone := by
  unfold Database.authenticateUserLog
  rw [List.any_cons, LogCall.isAlarm_info, Bool.false_or]
  split
  next hprepare =>
    have hfails := prepareFails_imp lenv hprepare
    unfold Database.authenticateUser select
    rw [if_pos hfails]
    rfl
  next =>
    unfold Database.authenticateUser
    cases select env .authenticateUser 0 (db.users.rows.filter (·.username == u)) with
    | nil => rfl
    | cons row rows =>
      dsimp only
      split
      · rfl
      · rfl

/-- So does `updateProfileVisibility`, and it fails only if the statement does. -/
theorem updateProfileVisibility_alarm (db : Db) (userId : Int) (v : Text) :
    (Database.updateProfileVisibilityLog lenv env db userId v).any LogCall.isAlarm =
      env.fails .updateProfileVisibility 0 := by
  have hresult : (Database.updateProfileVisibility env db userId v).1 =
      !env.fails .updateProfileVisibility 0 := by
    unfold Database.updateProfileVisibility exec
    split
    next hfails => rw [hfails]; rfl
    next hfails => rw [Bool.eq_false_iff.mpr hfails]; rfl
  unfold Database.updateProfileVisibilityLog
  rw [List.any_cons, LogCall.isAlarm_info, Bool.false_or, hresult]
  split
  next hprepare => rw [prepareFails_imp lenv hprepare]; rfl
  next =>
    cases env.fails .updateProfileVisibility 0 with
    | true => rfl
    | false => rfl

theorem login_alarm (u p : Text) :
    (LoginCommand.executeLog hasher lenv env sd a u p).any LogCall.isAlarm =
      !isOk (LoginCommand.execute hasher env sd a u p).1 := by
  unfold LoginCommand.executeLog LoginCommand.execute
  split
  · rfl
  · split
    · rfl
    · rw [List.any_cons, List.cons_append, List.any_cons, List.any_append, authenticateUser_alarm,
        LogCall.isAlarm_info, LogCall.isAlarm_database]
      cases Database.authenticateUser hasher env a.db u p with
      | none => rfl
      | some user => rfl

theorem logout_alarm :
    (LogoutCommand.executeLog sd a).any LogCall.isAlarm =
      !isOk (LogoutCommand.execute sd a).1 := by
  unfold LogoutCommand.executeLog LogoutCommand.execute
  split
  · rfl
  · rfl

theorem setProfileVisibility_alarm (v : Text) :
    (SetProfileVisibilityCommand.executeLog lenv env sd a v).any LogCall.isAlarm =
      (!isOk (SetProfileVisibilityCommand.execute env sd a v).1 ||
        env.fails .updateProfileVisibility 0) := by
  unfold SetProfileVisibilityCommand.executeLog SetProfileVisibilityCommand.execute
  split
  · rfl
  · split
    · rfl
    · cases Database.getUserByUsername env 0 a.db (a.sessions.getUsername sd) with
      | none => rfl
      | some user =>
        dsimp only
        rw [List.any_cons, List.any_cons, List.any_append, updateProfileVisibility_alarm,
          LogCall.isAlarm_info, LogCall.isAlarm_database]
        exact Bool.or_false _

/-- The new account can be found unless the query fails. -/
theorem authenticateUser_registered {db db' : Db} {u p e role : Text}
    (h : Database.registerUser hasher env db u p e role = (true, db')) :
    (Database.authenticateUser hasher env db' u p).isNone = env.fails .authenticateUser 0 := by
  cases hfails : env.fails .authenticateUser 0 with
  | true =>
    unfold Database.authenticateUser select
    rw [if_pos hfails]
    rfl
  | false =>
    obtain ⟨_, t, hrows, _, rfl⟩ := registerUser_true h
    have hin : newUser hasher db.users.seq u p e role ∈ t.rows := by
      rw [hrows]
      exact List.mem_append_right _ (List.mem_singleton_self _)
    rw [show u = (newUser hasher db.users.seq u p e role).username from rfl,
      authenticateUser_of_row hfails hin rfl]
    rfl

theorem register_alarm (u p e role v : Text) :
    (RegisterCommand.executeLog hasher lenv env a u p e role v).any LogCall.isAlarm =
      (!isOk (RegisterCommand.execute hasher env a u p e role v).1 ||
        (env.fails .authenticateUser 0 || env.fails .updateProfileVisibility 0)) := by
  unfold RegisterCommand.executeLog RegisterCommand.execute
  split
  · rfl
  · split
    · rfl
    · split
      · rfl
      · rw [List.any_cons, List.cons_append, List.any_cons, List.any_append, registerUser_alarm,
          LogCall.isAlarm_info, LogCall.isAlarm_database]
        rcases hreg : Database.registerUser hasher env a.db u p e role with ⟨ok, db⟩
        cases ok with
        | false => rfl
        | true =>
          have hfound := authenticateUser_registered hreg
          dsimp only
          unfold RegisterCommand.setVisibilityLog
          rw [List.any_append, List.any_append, authenticateUser_alarm, hfound]
          cases hauth : Database.authenticateUser hasher env db u p with
          | none =>
            rw [hauth] at hfound
            rw [← hfound]
            rfl
          | some user =>
            dsimp only
            rw [updateProfileVisibility_alarm, List.any_cons, LogCall.isAlarm_info]
            exact Bool.or_false _

/-- The alarms of a command. -/
theorem executeLog_alarm (cmd : Command) :
    (executeLog hasher lenv env sd a cmd).any LogCall.isAlarm =
      if cmd.isAudited then !isOk (execute hasher env sd a cmd).1 || visibilityLost env cmd
      else cmd == .listPosts && (a.sessions.isAuthenticated sd &&
        lenv.prepareFails env .getVisiblePosts 0) := by
  have hquiet : (whenAuthenticated lenv sd a).any LogCall.isAlarm = false := by
    unfold whenAuthenticated
    split
    · rfl
    · rfl
  cases cmd with
  | login u p => exact (login_alarm lenv u p).trans (Bool.or_false _).symm
  | register u p e role v => exact register_alarm lenv u p e role v
  | logout => exact logout_alarm.trans (Bool.or_false _).symm
  | setProfileVisibility v => exact setProfileVisibility_alarm lenv v
  | listPosts =>
    show (ListPostsCommand.executeLog lenv env sd a).any LogCall.isAlarm = (true && _)
    unfold ListPostsCommand.executeLog Database.getVisiblePostsLog
    cases a.sessions.isAuthenticated sd with
    | false => rfl
    | true =>
      cases lenv.prepareFails env .getVisiblePosts 0 with
      | false => rfl
      | true => rfl
  | friendRequest target =>
    show (if a.sessions.getUsername sd = target then []
      else whenAuthenticated lenv sd a).any _ = false
    split
    · rfl
    · exact hquiet
  | createPost visibility content =>
    show (if content.isEmpty then [] else whenAuthenticated lenv sd a).any _ = false
    split
    · rfl
    · exact hquiet
  | acceptFriend | listFriends | setFriendType | listFriendRequests => exact hquiet
  | chats | chat | «open» | send | «show» | group | add => rfl

/-- The commands that get as far as `Database::getInstance()`. -/
def Command.needsDatabase (sd : Int) (a : App) : Command → Bool
  | .login username password =>
    !(username.isEmpty || password.isEmpty) && !a.sessions.isAuthenticated sd
  | .register username password email role visibility =>
    !(username.isEmpty || password.isEmpty || email.isEmpty || role.isEmpty || visibility.isEmpty)
      && (role == bytes "normal" || role == bytes "admin")
      && (visibility == bytes "public" || visibility == bytes "private")
  | .logout => false
  | .setProfileVisibility visibility =>
    a.sessions.isAuthenticated sd && (visibility == bytes "public" || visibility == bytes "private")
  | .friendRequest target => a.sessions.getUsername sd != target && a.sessions.isAuthenticated sd
  | .createPost _ content => !content.isEmpty && a.sessions.isAuthenticated sd
  | .acceptFriend _ | .listFriends | .setFriendType _ _ | .listFriendRequests =>
    a.sessions.isAuthenticated sd
  | .listPosts | .chats | .chat _ | .open _ | .send _ | .show | .group _ | .add _ => true

/-- The step is a read whose command needs the database. -/
def needsDatabase (x : Step LoopState Event) : Bool :=
  match x.event with
  | .recv i env data =>
    (CommandFactory.create env.junk (inputOf data)).any fun cmd =>
      cmd.needsDatabase (x.pre.clientSocket i) x.pre.app
  | _ => false

/-- A list of calls of `log` alone. -/
def LogCall.Quiet (calls : List LogCall) : Prop := calls.filter LogCall.isDatabase = []

@[simp] theorem LogCall.isDatabase_log (level : LogLevel) (message : Text) :
    (LogCall.log level message).isDatabase = false := rfl

theorem LogCall.Quiet.append {calls later : List LogCall} (h : LogCall.Quiet calls)
    (hlater : LogCall.Quiet later) : LogCall.Quiet (calls ++ later) := by
  unfold LogCall.Quiet at *
  rw [List.filter_append, h, hlater, List.append_nil]

theorem registerUser_quiet (db : Db) (u p e role : Text) :
    LogCall.Quiet (Database.registerUserLog hasher lenv env db u p e role) := by
  unfold Database.registerUserLog
  split
  · rfl
  · split
    · rfl
    · rfl

theorem authenticateUser_quiet (db : Db) (u p : Text) :
    LogCall.Quiet (Database.authenticateUserLog hasher lenv env db u p) := by
  unfold Database.authenticateUserLog
  split
  · rfl
  · split
    · rfl
    · split
      · rfl
      · rfl

theorem updateProfileVisibility_quiet (db : Db) (userId : Int) (v : Text) :
    LogCall.Quiet (Database.updateProfileVisibilityLog lenv env db userId v) := by
  unfold Database.updateProfileVisibilityLog
  split
  · rfl
  · split
    · rfl
    · rfl

/-- The call of `getInstance`, if one is needed. -/
def LogCall.databaseIf (opening : Opening) : Bool → List LogCall
  | true => [.database opening]
  | false => []

/-- What comes after `getInstance` calls it no more. -/
theorem filter_database {calls : List LogCall} (h : LogCall.Quiet calls) (opening : Opening) :
    (LogCall.database opening :: calls).filter LogCall.isDatabase = [.database opening] := by
  rw [List.filter_cons_of_pos rfl, h]

theorem login_database (u p : Text) :
    (LoginCommand.executeLog hasher lenv env sd a u p).filter LogCall.isDatabase =
      LogCall.databaseIf lenv.opening ((Command.login u p).needsDatabase sd a) := by
  unfold LoginCommand.executeLog
  simp only [Command.needsDatabase]
  rw [List.filter_cons_of_neg (by simp)]
  cases u.isEmpty || p.isEmpty with
  | true => rfl
  | false =>
    cases a.sessions.isAuthenticated sd with
    | true => rfl
    | false =>
      refine filter_database ((authenticateUser_quiet lenv a.db u p).append ?_) lenv.opening
      split
      · rfl
      · rfl

/-- The argument checks of the handlers, as a condition. -/
theorem beq_or_beq_eq_false {x y z : Text} : (x == y || x == z) = false ↔ x ≠ y ∧ x ≠ z := by
  rw [Bool.or_eq_false_iff, beq_eq_false_iff_ne, beq_eq_false_iff_ne]

theorem register_database (u p e role v : Text) :
    (RegisterCommand.executeLog hasher lenv env a u p e role v).filter LogCall.isDatabase =
      LogCall.databaseIf lenv.opening ((Command.register u p e role v).needsDatabase sd a) := by
  unfold RegisterCommand.executeLog
  simp only [Command.needsDatabase]
  rw [List.filter_cons_of_neg (by simp)]
  split
  next hempty => rw [hempty]; rfl
  next hempty =>
    rw [Bool.eq_false_iff.mpr hempty]
    split
    next hrole => rw [beq_or_beq_eq_false.mpr hrole]; rfl
    next hrole =>
      split
      next hv => rw [beq_or_beq_eq_false.mpr hv, Bool.and_false]; rfl
      next hv =>
        rw [← beq_or_beq_eq_false, Bool.not_eq_false] at hrole hv
        rw [hrole, hv]
        refine filter_database ((registerUser_quiet lenv a.db u p e role).append ?_) lenv.opening
        split
        · rfl
        · refine LogCall.Quiet.append (LogCall.Quiet.append (authenticateUser_quiet ..) ?_) rfl
          split
          · rfl
          · exact updateProfileVisibility_quiet ..

theorem setProfileVisibility_database (v : Text) :
    (SetProfileVisibilityCommand.executeLog lenv env sd a v).filter LogCall.isDatabase =
      LogCall.databaseIf lenv.opening ((Command.setProfileVisibility v).needsDatabase sd a) := by
  unfold SetProfileVisibilityCommand.executeLog
  simp only [Command.needsDatabase]
  rw [List.filter_cons_of_neg (by simp)]
  cases a.sessions.isAuthenticated sd with
  | false => rfl
  | true =>
    rw [if_neg (by simp)]
    split
    next hv => rw [beq_or_beq_eq_false.mpr hv]; rfl
    next hv =>
      rw [← beq_or_beq_eq_false, Bool.not_eq_false] at hv
      rw [hv]
      refine filter_database ?_ lenv.opening
      split
      · rfl
      · exact (updateProfileVisibility_quiet ..).append rfl

/-- **A command opens the database once at most**, and exactly if it gets that far. -/
theorem executeLog_database (cmd : Command) :
    (executeLog hasher lenv env sd a cmd).filter LogCall.isDatabase =
      LogCall.databaseIf lenv.opening (cmd.needsDatabase sd a) := by
  have hauth : (whenAuthenticated lenv sd a).filter LogCall.isDatabase =
      LogCall.databaseIf lenv.opening (a.sessions.isAuthenticated sd) := by
    unfold whenAuthenticated
    cases a.sessions.isAuthenticated sd with
    | true => rfl
    | false => rfl
  cases cmd with
  | login u p => exact login_database lenv u p
  | register u p e role v => exact register_database lenv u p e role v
  | logout =>
    show (LogoutCommand.executeLog sd a).filter LogCall.isDatabase = []
    unfold LogoutCommand.executeLog
    split
    · rfl
    · rfl
  | setProfileVisibility v => exact setProfileVisibility_database lenv v
  | listPosts =>
    refine filter_database ?_ lenv.opening
    unfold Database.getVisiblePostsLog
    split
    · split
      · rfl
      · rfl
    · rfl
  | friendRequest target =>
    show (if a.sessions.getUsername sd = target then [] else whenAuthenticated lenv sd a).filter _ =
      _
    simp only [Command.needsDatabase]
    split
    next heq => rw [heq, bne_self_eq_false]; rfl
    next hne =>
      rw [hauth, bne_iff_ne.mpr hne]
      rfl
  | createPost visibility content =>
    show (if content.isEmpty then [] else whenAuthenticated lenv sd a).filter _ = _
    simp only [Command.needsDatabase]
    cases content.isEmpty with
    | true => rfl
    | false => exact hauth
  | acceptFriend | listFriends | setFriendType | listFriendRequests => exact hauth
  | chats | chat | «open» | send | «show» | group | add => rfl

end

theorem eventLog_database (hasher : Text → Nat) (lenv : LogEnv) (x : Step LoopState Event) :
    (eventLog hasher lenv x.pre x.event).filter LogCall.isDatabase =
      LogCall.databaseIf lenv.opening (needsDatabase x) := by
  unfold needsDatabase
  cases x.event with
  | accept fd => rfl
  | hangup i => rfl
  | recv i env data =>
    show (inputLog hasher lenv env _ _ env.junk (inputOf data)).filter LogCall.isDatabase = _
    unfold inputLog
    have hinput : (if !isPoll (inputOf data) then [LogCall.log .INFO (inputOf data)]
        else []).filter LogCall.isDatabase = [] := by
      split
      · rfl
      · rfl
    rw [List.filter_append, hinput, List.nil_append]
    dsimp only
    cases CommandFactory.create env.junk (inputOf data) with
    | none => rfl
    | some cmd => exact executeLog_database lenv cmd

/-- The database of a run has been opened once a step of it needed it. -/
theorem opensDatabase_callsOf (hasher : Text → Nat) (lenv : Nat → LogEnv)
    (h : History LoopState Event) :
    opensDatabase (callsOf hasher lenv h) = h.any needsDatabase := by
  induction h with
  | nil => rfl
  | cons x h ih =>
    show opensDatabase (callsOf hasher lenv h ++ eventLog hasher (lenv h.length) x.pre x.event) = _
    have hstep : opensDatabase (eventLog hasher (lenv h.length) x.pre x.event) =
        needsDatabase x := by
      have hcalls := eventLog_database hasher (lenv h.length) x
      cases hneeds : needsDatabase x with
      | true =>
        rw [hneeds] at hcalls
        have hin : .database (lenv h.length).opening ∈
            (eventLog hasher (lenv h.length) x.pre x.event).filter LogCall.isDatabase := by
          rw [hcalls]
          exact List.mem_singleton_self _
        exact List.any_eq_true.mpr ⟨_, (List.mem_filter.mp hin).1, rfl⟩
      | false =>
        rw [hneeds] at hcalls
        exact List.any_eq_false.mpr (List.filter_eq_nil_iff.mp hcalls)
    rw [List.any_cons, Bool.or_comm, ← hstep, ← ih]
    exact List.any_append

/-- The constructor raises an alarm exactly if it fails. -/
theorem databaseLog_alarm (opening : Opening) :
    (∃ entry ∈ Database.DatabaseLog opening, entry.1 ≠ .INFO) ↔ opening ≠ .ready := by
  cases opening with
  | ready => simp [Database.DatabaseLog, Database.initDatabaseLog]
  | cannotOpen errmsg => simp [Database.DatabaseLog, Database.initDatabaseLog]
  | schemaFailed errMsg => simp [Database.DatabaseLog, Database.initDatabaseLog]

/-- The alarms among the entries: those of the calls, and that of the opening. -/
theorem alarm_mem_entries {calls : List LogCall} {needed : Bool} {opening : Opening}
    (h : calls.filter LogCall.isDatabase = LogCall.databaseIf opening needed) (isOpen : Bool) :
    (∃ entry ∈ Logger.entries isOpen calls, entry.1 ≠ .INFO) ↔
      needed = true ∧ isOpen = false ∧ opening ≠ .ready ∨ calls.any LogCall.isAlarm = true := by
  induction calls generalizing isOpen needed with
  | nil =>
    cases needed with
    | true => cases h
    | false => simp [Logger.entries]
  | cons call calls ih =>
    rw [List.any_cons, Bool.or_eq_true]
    cases call with
    | log level message =>
      show (∃ entry ∈ (level, message) :: Logger.entries isOpen calls, _) ↔ _
      simp only [List.mem_cons, exists_eq_or_imp, ih h isOpen, LogCall.isAlarm, bne_iff_ne]
      exact or_left_comm
    | database opened =>
      rw [LogCall.isAlarm_database, or_iff_right Bool.false_ne_true]
      rw [List.filter_cons_of_pos rfl] at h
      cases needed with
      | false => cases h
      | true =>
        obtain ⟨hopened, hquiet⟩ := List.cons.inj h
        obtain rfl := LogCall.database.inj hopened
        have hquiet : calls.filter LogCall.isDatabase = LogCall.databaseIf opened false := hquiet
        have hrest := ih hquiet true
        simp only [Bool.false_eq_true, false_and, false_or] at hrest
        cases isOpen with
        | true =>
          show (∃ entry ∈ Logger.entries true calls, _) ↔ _
          rw [hrest]
          simp
        | false =>
          show (∃ entry ∈ Database.DatabaseLog opened ++ Logger.entries true calls, _) ↔ _
          simp only [List.mem_append, or_and_right, exists_or, databaseLog_alarm, hrest, true_and]

/-- **What a read must do to be logged above `INFO`**: make no command; or be the first that needs
the database, when it cannot be opened; or make one of the four account commands and be refused, or
have a failing statement leave the visibility unwritten; or ask for the posts when the query cannot
be prepared. Whatever else is refused is not told from what succeeds. -/
theorem alarm_iff (lenv : Nat → LogEnv) (h : History LoopState Event) (s : LoopState) (i : Slot)
    (env : Env) (data : Text) :
    ∃ written, entriesOf hasher lenv (⟨s, .recv i env data⟩ :: h) =
        entriesOf hasher lenv h ++ written ∧
      ((∃ entry ∈ written, entry.1 ≠ .INFO) ↔
        match CommandFactory.create env.junk (inputOf data) with
        | none => True
        | some cmd =>
          (cmd.needsDatabase (s.clientSocket i) s.app = true ∧ h.any needsDatabase = false ∧
            (lenv h.length).opening ≠ .ready) ∨
          if cmd.isAudited then
            isOk (handle hasher env (s.clientSocket i) data s.app).1 = false ∨
              visibilityLost env cmd = true
          else cmd = .listPosts ∧ s.app.sessions.isAuthenticated (s.clientSocket i) = true ∧
            (lenv h.length).prepareFails env .getVisiblePosts 0 = true) := by
  refine ⟨_, entriesOf_cons _, ?_⟩
  rw [alarm_mem_entries (eventLog_database hasher (lenv h.length) ⟨s, .recv i env data⟩),
    opensDatabase_callsOf]
  have hinput : (if !isPoll (inputOf data) then [LogCall.log .INFO (inputOf data)] else []).any
      LogCall.isAlarm = false := by
    split
    · rfl
    · rfl
  show _ ∨ (inputLog hasher (lenv h.length) env (s.clientSocket i) s.app env.junk
    (inputOf data)).any LogCall.isAlarm = true ↔ _
  have hneeds : needsDatabase ⟨s, .recv i env data⟩ =
      (CommandFactory.create env.junk (inputOf data)).any fun cmd =>
        cmd.needsDatabase (s.clientSocket i) s.app := rfl
  unfold inputLog
  rw [List.any_append, hinput, Bool.false_or, hneeds]
  cases hcmd : CommandFactory.create env.junk (inputOf data) with
  | none => exact iff_true_intro (.inr rfl)
  | some cmd =>
    dsimp only [Option.any_some]
    rw [executeLog_alarm, handle_of_some hasher env _ _ hcmd]
    refine or_congr Iff.rfl ?_
    split
    · rw [Bool.or_eq_true, Bool.not_eq_true']
    · rw [Bool.and_eq_true, Bool.and_eq_true, beq_iff_eq]

/-! ## Forgery -/

/-- What the forged lines come after. -/
def decoy : Text := bytes "create_post 0 "

/-- A text that one read can carry behind the decoy: not empty, and the server's input as it
is. Line breaks inside do no harm. -/
structure Forgeable (text : Text) : Prop where
  ne_nil : text ≠ []
  input : IsInput text
  fits : (decoy ++ 10 :: text).length ≤ bufferSize - 1

/-- The file after the forged lines. -/
def forgedLines (clock : Nat → Text) (forged : List Text) : Text :=
  (forged.mapIdx fun k text => Logger.line (clock k) .INFO decoy ++ text ++ bytes "\n").flatten

section

variable {text : Text}

/-- The decoy is a post without content, whatever comes after its line. -/
theorem create_forged (junk : Int) (text : Text) :
    CommandFactory.create junk (decoy ++ 10 :: text) = some (.createPost 0 []) := by
  have hdecoy : decoy ++ 10 :: text = Client.CreatePost.command 0 (10 :: text) := by
    unfold Client.CreatePost.command
    rw [show bytes "create_post " ++ intText 0 ++ bytes " " = decoy from by decide]
  rw [hdecoy, Client.create_createPost (by decide), List.takeWhile_cons_of_neg (by decide)]

/-- The read that carries a forged text. -/
def forge (i : Slot) (text : Text) : Event := .recv i Env.plain (decoy ++ 10 :: text)

theorem inputOf_forged (h : Forgeable text) :
    inputOf (decoy ++ 10 :: text) = decoy ++ 10 :: text := by
  refine inputOf_of_isInput ⟨?_, fun b hb => h.input.2 b ?_⟩
  · rw [List.mem_append, List.mem_cons, not_or, not_or]
    exact ⟨by decide, by decide, h.input.1⟩
  · rwa [List.getLast?_append_of_ne_nil _ (List.cons_ne_nil _ _),
      List.getLast?_cons_of_ne_nil h.ne_nil] at hb

/-- A post without content changes nothing. -/
theorem next_forge (s : LoopState) (i : Slot) (h : Forgeable text) :
    next hasher s (forge i text) = s := by
  have hcreate : CommandFactory.create Env.plain.junk (inputOf (decoy ++ 10 :: text)) =
      some (.createPost 0 []) := by
    rw [inputOf_forged h]
    exact create_forged _ _
  have happ : (handle hasher Env.plain (s.clientSocket i) (decoy ++ 10 :: text) s.app).2 =
      s.app := by
    rw [handle_of_some _ _ _ _ hcreate]
    show (CreatePostCommand.execute Env.plain (s.clientSocket i) s.app 0 []).2 = s.app
    unfold CreatePostCommand.execute
    split
    · rfl
    · rfl
  show s.recvSlot hasher i Env.plain (decoy ++ 10 :: text) = s
  unfold LoopState.recvSlot
  rw [happ]

/-- It logs its input and nothing else. -/
theorem eventLog_forge (lenv : LogEnv) (s : LoopState) (i : Slot) (h : Forgeable text) :
    eventLog hasher lenv s (forge i text) = [.log .INFO (decoy ++ 10 :: text)] := by
  show inputLog hasher lenv Env.plain (s.clientSocket i) s.app Env.plain.junk
    (inputOf (decoy ++ 10 :: text)) = _
  rw [inputOf_forged h]
  unfold inputLog
  rw [create_forged]
  rfl

/-- One forged text more. -/
theorem entriesOf_forge (hasher : Text → Nat) (lenv : Nat → LogEnv) (h : History LoopState Event)
    (s : LoopState) (i : Slot) (hf : Forgeable text) :
    entriesOf hasher lenv (⟨s, forge i text⟩ :: h) =
      entriesOf hasher lenv h ++ [(.INFO, decoy ++ 10 :: text)] := by
  rw [entriesOf_cons, eventLog_forge _ _ _ hf]
  cases opensDatabase (callsOf hasher lenv h) with
  | true => rfl
  | false => rfl

theorem line_forged (stamp text : Text) :
    Logger.line stamp .INFO (decoy ++ 10 :: text) =
      Logger.line stamp .INFO decoy ++ text ++ bytes "\n" := by
  unfold Logger.line
  rw [show bytes "\n" = [10] from by decide]
  simp only [List.append_assoc, List.cons_append, List.nil_append]

end

/-- **Anyone can write the log.** A client in a slot, logged in or not, can make the file go on
with any texts it likes, each behind the line of a decoy, and afterwards the server is in the
state it was in before. -/
theorem log_forged {h : History LoopState Event} {s : LoopState}
    (hr : (machine hasher serverSocket).Run h s) {i : Slot} (hi : 0 < s.clientSocket i)
    (lenv : Nat → LogEnv) (clock : Nat → Text) {forged : List Text}
    (hforged : ∀ text ∈ forged, Forgeable text) :
    ∃ new, (machine hasher serverSocket).Run (new ++ h) s ∧
      (∀ x ∈ new, slotOf x.event = some i) ∧
      Logger.file clock (entriesOf hasher lenv (new ++ h)) =
        Logger.file clock (entriesOf hasher lenv h) ++
          forgedLines (fun k => clock (k + (entriesOf hasher lenv h).length)) forged := by
  induction forged generalizing h with
  | nil =>
    refine ⟨[], hr, List.forall_mem_nil _, ?_⟩
    exact (List.append_nil _).symm
  | cons text forged ih =>
    obtain ⟨htext, hforged⟩ := List.forall_mem_cons.mp hforged
    have ht := tracked_run hr
    have hadmits : admits s (forge i text) :=
      ⟨⟨hi, ht.watched ▸ (ht.slots i (by omega)).2⟩, htext.fits⟩
    have hstep := hr.step (forge i text) hadmits
    rw [show (machine hasher serverSocket).next s (forge i text) = s from
      next_forge s i htext] at hstep
    obtain ⟨new, hnew, hslots, hfile⟩ := ih hstep hforged
    refine ⟨new ++ [⟨s, forge i text⟩], by rw [List.append_assoc]; exact hnew, ?_, ?_⟩
    · intro x hx
      rcases List.mem_append.mp hx with hx | hx
      · exact hslots x hx
      · rw [List.mem_singleton.mp hx]
        rfl
    · have hlength : ∀ k, k + ((entriesOf hasher lenv h).length + 1) =
          k + 1 + (entriesOf hasher lenv h).length := by
        intro k
        omega
      rw [List.append_assoc, List.singleton_append, hfile, entriesOf_forge _ _ _ _ _ htext,
        file_append, file_cons, line_forged, List.length_append, List.length_singleton]
      unfold forgedLines
      rw [List.mapIdx_cons, List.flatten_cons]
      simp only [hlength, List.append_assoc]
      rfl

/-- The line of a login that never was. -/
def nobodyLine : Text :=
  bytes "[2024-01-01 00:00:00] [INFO] User logged in successfully: root (type=admin)"

theorem log_forged_nobody :
    ∃ (h new : History LoopState Event) (s : LoopState),
      (machine List.length 3).Run (new ++ h) s ∧ s.app.db.users.rows = [] ∧
      nobodyLine ++ bytes "\n" <:+
        Logger.file (fun _ => bytes "now")
          (entriesOf List.length (fun _ => .plain) (new ++ h)) := by
  obtain ⟨h, s, _, hrun, _, hslot, hnobody⟩ := runEvents_exists List.length 3 [.accept 4]
    (p := fun _ s => 0 < s.clientSocket 0 ∧ s.app.db.users.rows = []) (by simp) (by decide)
  have hinput : IsInput nobodyLine := by
    refine ⟨by decide, fun b hb => ?_⟩
    rw [show nobodyLine.getLast? = some 41 from by decide, Option.mem_some_iff] at hb
    rw [← hb]
    rfl
  have hforged : ∀ text ∈ [nobodyLine], Forgeable text :=
    List.forall_mem_singleton.mpr ⟨by decide, hinput, by decide⟩
  obtain ⟨new, hnew, _, hfile⟩ := log_forged hrun hslot (fun _ => LogEnv.plain)
    (fun _ => bytes "now") hforged
  refine ⟨h, new, s, hnew, hnobody, ?_⟩
  rw [hfile]
  unfold forgedLines
  rw [List.mapIdx_cons, List.mapIdx_nil, List.flatten_cons, List.flatten_nil, List.append_nil,
    List.append_assoc, ← List.append_assoc]
  exact List.suffix_append ..

/-! ## Attribution -/

/-- A login that succeeds needed the database. -/
theorem login_needs {env : Env} {sd : Int} {a : App} {u p : Text}
    (hok : isOk (LoginCommand.execute hasher env sd a u p).1 = true) :
    (Command.login u p).needsDatabase sd a = true := by
  unfold LoginCommand.execute at hok
  simp only [Command.needsDatabase]
  split at hok
  · cases hok
  next hargs =>
    split at hok
    · cases hok
    next hsession =>
      rw [Bool.eq_false_iff.mpr hargs, Bool.eq_false_iff.mpr hsession]
      rfl

/-- While anybody is logged in the database is open. -/
theorem opened_of_session {h : History LoopState Event} {s : LoopState}
    (hr : (machine hasher serverSocket).Run h s) {sd : Int}
    (hs : s.app.sessions.sessions sd ≠ none) : h.any needsDatabase = true := by
  induction hr with
  | init => exact absurd rfl hs
  | @step h s event _ _ ih =>
    have hold : s.app.sessions.sessions sd ≠ none →
        (List.any (⟨s, event⟩ :: h) needsDatabase) = true := by
      intro hs
      rw [List.any_cons, ih hs, Bool.or_true]
    cases event with
    | accept fd => exact hold hs
    | hangup i =>
      by_cases hsd : sd = s.clientSocket i
      · subst hsd
        exact absurd (SessionManager.logout_sessions_self ..) hs
      · refine hold fun hnone => hs ?_
        exact (SessionManager.logout_sessions_ne hsd).trans hnone
    | recv i env data =>
      have hs : (handle hasher env (s.clientSocket i) data s.app).2.sessions.sessions sd ≠
        none := hs
      by_cases hsd : sd = s.clientSocket i
      · subst hsd
        rcases handle_cases hasher env (s.clientSocket i) data s.app with
          ⟨_, hh⟩ | ⟨cmd, hcmd, he⟩
        · rw [hh] at hs
          exact hold hs
        · rcases he.session with ⟨u, p, rfl, hok, _, _⟩ | ⟨_, _, hnone⟩ | ⟨_, hsame⟩
          · -- the login has opened it
            rw [handle_of_some _ _ _ _ hcmd] at hok
            have hneeds : needsDatabase ⟨s, .recv i env data⟩ = true := by
              unfold needsDatabase
              dsimp only
              rw [hcmd]
              exact login_needs hok
            rw [List.any_cons, hneeds, Bool.true_or]
          · exact absurd hnone hs
          · rw [hsame] at hs
            exact hold hs
      · rw [(handle_frame hasher env (s.clientSocket i) data s.app hsd).1] at hs
        exact hold hs

/-- Once the database is open, commands that do not report on themselves are logged alike for
all clients that are logged in. -/
theorem entries_executeLog {lenv : LogEnv} {env : Env} {sd sd' : Int} {a : App} {cmd : Command}
    (haudited : cmd.isAudited = false) (hsd : a.sessions.isAuthenticated sd = true)
    (hsd' : a.sessions.isAuthenticated sd' = true) :
    Logger.entries true (executeLog hasher lenv env sd a cmd) =
      Logger.entries true (executeLog hasher lenv env sd' a cmd) := by
  have hquiet : ∀ sd, Logger.entries true (whenAuthenticated lenv sd a) = [] := by
    intro sd
    unfold whenAuthenticated
    split
    · rfl
    · rfl
  cases cmd with
  | login u p => cases haudited
  | register u p e role v => cases haudited
  | logout => cases haudited
  | setProfileVisibility v => cases haudited
  | listPosts =>
    show Logger.entries true (ListPostsCommand.executeLog lenv env sd a) =
      Logger.entries true (ListPostsCommand.executeLog lenv env sd' a)
    unfold ListPostsCommand.executeLog
    rw [hsd, hsd']
  | friendRequest target =>
    have hnone : ∀ sd, Logger.entries true
        (if a.sessions.getUsername sd = target then [] else whenAuthenticated lenv sd a) = [] := by
      intro sd
      split
      · rfl
      · exact hquiet sd
    exact (hnone sd).trans (hnone sd').symm
  | createPost visibility content =>
    have hnone : ∀ sd, Logger.entries true
        (if content.isEmpty then [] else whenAuthenticated lenv sd a) = [] := by
      intro sd
      split
      · rfl
      · exact hquiet sd
    exact (hnone sd).trans (hnone sd').symm
  | acceptFriend | listFriends | setFriendType | listFriendRequests =>
    exact (hquiet sd).trans (hquiet sd').symm
  | chats | chat | «open» | send | «show» | group | add => rfl

/-- Whether a post can be stored does not depend on its author. -/
theorem createPost_author {env : Env} {db db' : Db} {u content : Text} {visibility : Int}
    (h : Database.createPost env db u content visibility = (true, db')) (v : Text) :
    ∃ db'', Database.createPost env db v content visibility = (true, db'') := by
  unfold Database.createPost exec at h ⊢
  split at h
  · cases h
  next hrange =>
    split at h
    · cases h
    next hfails =>
      split at h
      next => cases h
      next db₁ hins =>
        obtain ⟨t, ht, _⟩ := Option.map_eq_some_iff.mp hins
        obtain ⟨db₂, hins₂⟩ := insertPost_of_lt v content env.now visibility
          (AutoTable.insert_eq_some ht).1
        rw [if_neg hrange, if_neg hfails, hins₂]
        exact ⟨db₂, rfl⟩

/-- A stored post is filed under the user of the slot. -/
theorem next_createPost {s : LoopState} {i : Slot} {u : Text} {env : Env} {data content : Text}
    {visibility : Int} {db' : Db} (hi : s.app.sessions.sessions (s.clientSocket i) = some u)
    (hcmd : CommandFactory.create env.junk (inputOf data) =
      some (.createPost visibility content)) (hne : content ≠ [])
    (hpost : Database.createPost env s.app.db u content visibility = (true, db')) :
    (next hasher s (.recv i env data)).app.db.posts.rows = s.app.db.posts.rows ++
      [⟨s.app.db.posts.seq + 1, u, content, visibility, env.now⟩] := by
  obtain ⟨hauth, hname⟩ := SessionManager.sessions_eq_some hi
  have hexecute : handle hasher env (s.clientSocket i) data s.app =
      (bytes "OK Post created\n", { s.app with db := db' }) := by
    rw [handle_of_some _ _ _ _ hcmd]
    show CreatePostCommand.execute env (s.clientSocket i) s.app visibility content = _
    unfold CreatePostCommand.execute
    rw [hauth, hname, if_neg (by simp), if_neg (by simpa using hne), hpost]
  show (handle hasher env (s.clientSocket i) data s.app).2.db.posts.rows = _
  rw [hexecute]
  obtain ⟨_, t, hrows, _, rfl⟩ := createPost_true hpost
  exact hrows

/-- **The log does not say who.** Of two users who are logged in, either may send a command that
does not report on itself, and the file is the same; but a post is the one's or the other's. -/
theorem log_unattributed {h : History LoopState Event} {s : LoopState}
    (hr : (machine hasher serverSocket).Run h s) {i j : Slot} {u v : Text}
    (hi : s.app.sessions.sessions (s.clientSocket i) = some u)
    (hj : s.app.sessions.sessions (s.clientSocket j) = some v) {env : Env} {data : Text}
    {cmd : Command} (hcmd : CommandFactory.create env.junk (inputOf data) = some cmd)
    (haudited : cmd.isAudited = false) (lenv : Nat → LogEnv) (clock : Nat → Text) :
    Logger.file clock (entriesOf hasher lenv (⟨s, .recv i env data⟩ :: h)) =
        Logger.file clock (entriesOf hasher lenv (⟨s, .recv j env data⟩ :: h)) ∧
      ∀ visibility content, cmd = .createPost visibility content →
        repliedOk hasher ⟨s, .recv i env data⟩ = true →
          (next hasher s (.recv i env data)).app.db.posts.rows = s.app.db.posts.rows ++
            [⟨s.app.db.posts.seq + 1, u, content, visibility, env.now⟩] ∧
          (next hasher s (.recv j env data)).app.db.posts.rows = s.app.db.posts.rows ++
            [⟨s.app.db.posts.seq + 1, v, content, visibility, env.now⟩] := by
  constructor
  · have hsession : s.app.sessions.sessions (s.clientSocket i) ≠ none := by
      rw [hi]
      exact Option.some_ne_none u
    have hopen : opensDatabase (callsOf hasher lenv h) = true :=
      (opensDatabase_callsOf hasher lenv h).trans (opened_of_session hr hsession)
    have hentries : Logger.entries true
          (executeLog hasher (lenv h.length) env (s.clientSocket i) s.app cmd) =
        Logger.entries true
          (executeLog hasher (lenv h.length) env (s.clientSocket j) s.app cmd) :=
      entries_executeLog haudited (SessionManager.sessions_eq_some hi).1
        (SessionManager.sessions_eq_some hj).1
    rw [entriesOf_cons, entriesOf_cons, hopen]
    refine congrArg (fun later => Logger.file clock (entriesOf hasher lenv h ++ later)) ?_
    show Logger.entries true (inputLog hasher _ env _ s.app env.junk (inputOf data)) =
      Logger.entries true (inputLog hasher _ env _ s.app env.junk (inputOf data))
    unfold inputLog
    rw [hcmd, entries_append, entries_append]
    exact congrArg _ hentries
  · rintro visibility content rfl hok
    obtain ⟨hauth, hname⟩ := SessionManager.sessions_eq_some hi
    unfold repliedOk replyOf at hok
    dsimp only at hok
    rw [handle_of_some _ _ _ _ hcmd] at hok
    have hok : isOk (CreatePostCommand.execute env (s.clientSocket i) s.app visibility content).1 =
        true := hok
    unfold CreatePostCommand.execute at hok
    rw [hauth, hname, if_neg (by simp)] at hok
    split at hok
    · cases hok
    next hne =>
      split at hok
      next => cases hok
      next db' hpost =>
        obtain ⟨db'', hpost'⟩ := createPost_author hpost v
        have hne : content ≠ [] := by simpa using hne
        exact ⟨next_createPost hi hcmd hne hpost, next_createPost hj hcmd hne hpost'⟩

/-- Two users, each logged in on a connection of their own. -/
def twoUsersEvents : List Event :=
  [.accept 4, .accept 5, .line 0 "register a p a@x normal public\n",
    .line 0 "register b p b@x normal public\n", .line 0 "login a p\n", .line 1 "login b p\n"]

theorem log_unattributed_two :
    ∃ (h : History LoopState Event) (s : LoopState), (machine List.length 3).Run h s ∧
      Logger.file (fun _ => bytes "now") (entriesOf List.length (fun _ => .plain)
          (⟨s, .line 0 "create_post 0 hi\n"⟩ :: h)) =
        Logger.file (fun _ => bytes "now") (entriesOf List.length (fun _ => .plain)
          (⟨s, .line 1 "create_post 0 hi\n"⟩ :: h)) ∧
      (next List.length s (.line 0 "create_post 0 hi\n")).app.db.posts.rows ≠
        (next List.length s (.line 1 "create_post 0 hi\n")).app.db.posts.rows := by
  obtain ⟨h, s, _, hrun, _, hi, hj, hok⟩ := runEvents_exists List.length 3 twoUsersEvents
    (p := fun _ s => s.app.sessions.sessions (s.clientSocket 0) = some (bytes "a") ∧
      s.app.sessions.sessions (s.clientSocket 1) = some (bytes "b") ∧
      repliedOk List.length ⟨s, .line 0 "create_post 0 hi\n"⟩ = true)
    (by simp [twoUsersEvents]) (by decide)
  have hcmd : CommandFactory.create Env.plain.junk (inputOf (bytes "create_post 0 hi\n")) =
      some (.createPost 0 (bytes "hi")) := by decide
  obtain ⟨hfile, hposts⟩ := log_unattributed hrun hi hj hcmd rfl (fun _ => LogEnv.plain)
    (fun _ => bytes "now")
  obtain ⟨hfirst, hsecond⟩ := hposts _ _ rfl hok
  refine ⟨h, s, hrun, hfile, ?_⟩
  intro heq
  have hrows := (hfirst.symm.trans heq).trans hsecond
  simp at hrows
  exact absurd hrows (by decide)

end SocialNetwork.Server
