import SocialNetwork.Lib.Table
import SocialNetwork.Lib.RowOrder
import SocialNetwork.Lib.Stream

/-!
# The SQLite schema and what the environment decides

The six tables of `Database::initDatabase` with the columns some statement
reads, and the constraints SQLite enforces on them: PRIMARY KEY and UNIQUE. The
declared FOREIGN KEYs are *not* enforced (`PRAGMA foreign_keys` is never set), so
nothing here resolves references.

`Env` is everything outside the program that one command execution depends on:

* which of its SQL statements fail (`fails st i`: the `i`-th execution of the
  statement `st` in this command; every statement of a command has its own
  index), with no effect on the database;
* the order in which an unordered query returns its rows;
* the value of `CURRENT_TIMESTAMP`;
* the content of an `int` the program never initialised.
-/

namespace SocialNetwork.Server

open SocialNetwork.Lib

/-! ## Rows -/

structure UserRow where
  userId : Int
  username : Text
  password : Text
  email : Text
  userType : Text
  profileVisibility : Text
  deriving DecidableEq, Repr

/-- `friendType`: 0 normal, 1 close, 2 acquaintance; `status`: 0 pending, 1 accepted. -/
structure FriendRow where
  userUsername : Text
  friendUsername : Text
  friendType : Int
  status : Int
  deriving DecidableEq, Repr

/-- `visibility`: 0 public, 1 friends, 2 close friends. -/
structure PostRow where
  postId : Int
  authorUsername : Text
  content : Text
  visibility : Int
  createdAt : Text
  deriving DecidableEq, Repr

structure ConversationRow where
  conversationId : Int
  createdAt : Text
  deriving DecidableEq, Repr

structure ParticipantRow where
  conversationId : Int
  username : Text
  deriving DecidableEq, Repr

structure MessageRow where
  messageId : Int
  conversationId : Int
  senderUsername : Text
  content : Text
  sentAt : Text
  deriving DecidableEq, Repr

/-! ## Constraints -/

/-- `user_id` PRIMARY KEY, `username` UNIQUE, `email` UNIQUE. -/
def usersConstraints : Constraints UserRow where
  clash a b := a.userId == b.userId || a.username == b.username || a.email == b.email
  symm a b := by simp only [Bool.beq_comm]

/-- PRIMARY KEY `(user_username, friend_username)`. -/
def friendsConstraints : Constraints FriendRow where
  clash a b := a.userUsername == b.userUsername && a.friendUsername == b.friendUsername
  symm a b := by simp only [Bool.beq_comm]

/-- `post_id` PRIMARY KEY. -/
def postsConstraints : Constraints PostRow where
  clash a b := a.postId == b.postId
  symm a b := by simp only [Bool.beq_comm]

/-- `conversation_id` PRIMARY KEY. -/
def conversationsConstraints : Constraints ConversationRow where
  clash a b := a.conversationId == b.conversationId
  symm a b := by simp only [Bool.beq_comm]

/-- PRIMARY KEY `(conversation_id, username)`. -/
def participantsConstraints : Constraints ParticipantRow where
  clash a b := a.conversationId == b.conversationId && a.username == b.username
  symm a b := by simp only [Bool.beq_comm]

/-- `message_id` PRIMARY KEY. -/
def messagesConstraints : Constraints MessageRow where
  clash a b := a.messageId == b.messageId
  symm a b := by simp only [Bool.beq_comm]

/-- The database file. -/
structure Db where
  users : AutoTable usersConstraints (·.userId)
  friends : Table friendsConstraints
  posts : AutoTable postsConstraints (·.postId)
  conversations : AutoTable conversationsConstraints (·.conversationId)
  participants : Table participantsConstraints
  messages : AutoTable messagesConstraints (·.messageId)

/-- The tables right after `initDatabase` created them. -/
def Db.empty : Db where
  users := .empty
  friends := .empty
  posts := .empty
  conversations := .empty
  participants := .empty
  messages := .empty

/-! ## The environment of one command -/

/-- The SQL statements of `Database`, by the method that runs them. -/
inductive Stmt
  | registerUser | authenticateUser | updateProfileVisibility | getUserByUsername
  | sendFriendRequest | acceptCheck | acceptUpdate | acceptInsertReverse
  | areFriends | setFriendType | getFriends | getFriendRequests
  | createPost | getVisiblePosts | getPublicPosts
  | isParticipant | addParticipant | sendMessage | getMessages
  | getConversationParticipants | getPrivateConversation | insertConversation
  | getUserConversations
  deriving DecidableEq, Repr

/-- What one command execution does not control. -/
structure Env where
  fails : Stmt → Nat → Bool
  order : Stmt → Nat → Shuffle
  now : Text
  junk : Int

/-- No statement fails for a reason other than a constraint. -/
def Env.Sound (env : Env) : Prop := ∀ st i, env.fails st i = false

/-- The rows a `SELECT` steps through: none if it fails. -/
def select {ρ : Type} (env : Env) (st : Stmt) (i : Nat) (rows : List ρ) : List ρ :=
  if env.fails st i then [] else arrange (env.order st i) rows

/-- Run a data-changing statement: whether `sqlite3_step` answered `SQLITE_DONE`,
and the database afterwards. `effect` is `none` on a constraint violation. -/
def exec (env : Env) (st : Stmt) (i : Nat) (effect : Db → Option Db) (db : Db) : Bool × Db :=
  if env.fails st i then (false, db)
  else
    match effect db with
    | none => (false, db)
    | some db' => (true, db')

/-- `sqlite3_column_int`: a stored 64-bit integer read into an `int`. -/
def columnInt (n : Int) : Int := narrow n

/-! ## What statements can do -/

theorem mem_of_mem_select {ρ : Type} {env : Env} {st : Stmt} {i : Nat} {rows : List ρ} {r : ρ}
    (h : r ∈ select env st i rows) : r ∈ rows := by
  unfold select at h
  split at h
  next => cases h
  next => exact mem_arrange.mp h

/-- A query that does not fail returns its rows in some order. -/
theorem select_done {ρ : Type} {env : Env} {st : Stmt} {i : Nat} (h : env.fails st i = false)
    (rows : List ρ) : select env st i rows = arrange (env.order st i) rows := by
  unfold select
  rw [h]
  rfl

theorem select_sound {ρ : Type} {env : Env} (he : env.Sound) (st : Stmt) (i : Nat)
    (rows : List ρ) : select env st i rows = arrange (env.order st i) rows :=
  select_done (he st i) rows

theorem select_perm {ρ : Type} {env : Env} (he : env.Sound) (st : Stmt) (i : Nat)
    (rows : List ρ) : (select env st i rows).Perm rows := by
  rw [select_sound he]
  exact arrange_perm _ rows

theorem mem_select {ρ : Type} {env : Env} (he : env.Sound) {st : Stmt} {i : Nat}
    {rows : List ρ} {r : ρ} : r ∈ select env st i rows ↔ r ∈ rows :=
  (select_perm he st i rows).mem_iff

theorem select_eq_nil {ρ : Type} {env : Env} (he : env.Sound) {st : Stmt} {i : Nat}
    {rows : List ρ} : select env st i rows = [] ↔ rows = [] := by
  rw [select_sound he, arrange_eq_nil]

/-- The first row a query returns is one its condition admits. -/
theorem mem_of_select_cons {ρ : Type} {env : Env} {st : Stmt} {i : Nat} {rows rest : List ρ}
    {p : ρ → Bool} {r : ρ} (h : select env st i (rows.filter p) = r :: rest) :
    r ∈ rows ∧ p r = true :=
  List.mem_filter.mp (mem_of_mem_select (h ▸ List.mem_cons_self ..))

/-- A query that returns a row has one its condition admits. -/
theorem exists_of_select {ρ : Type} {env : Env} {st : Stmt} {i : Nat} {rows : List ρ}
    {p : ρ → Bool} (h : (!(select env st i (rows.filter p)).isEmpty) = true) :
    ∃ r ∈ rows, p r = true := by
  cases hsel : select env st i (rows.filter p) with
  | nil =>
    rw [hsel] at h
    cases h
  | cons r rest => exact ⟨r, mem_of_select_cons hsel⟩

/-- Without failures a query that returns nothing admits no row. -/
theorem select_filter_eq_nil {ρ : Type} {env : Env} (he : env.Sound) {st : Stmt} {i : Nat}
    {rows : List ρ} {p : ρ → Bool} :
    select env st i (rows.filter p) = [] ↔ ∀ r ∈ rows, ¬ p r = true := by
  rw [select_eq_nil he, List.filter_eq_nil_iff]

/-- Without failures a query returns a row exactly if there is one. -/
theorem select_nonempty_iff {ρ : Type} {env : Env} (he : env.Sound) {st : Stmt} {i : Nat}
    {rows : List ρ} {p : ρ → Bool} :
    (!(select env st i (rows.filter p)).isEmpty) = true ↔ ∃ r ∈ rows, p r = true := by
  constructor
  · exact exists_of_select
  · intro ⟨r, hr, hp⟩
    rw [Bool.not_eq_true', List.isEmpty_eq_false_iff, Ne, select_filter_eq_nil he]
    exact fun hnone => hnone r hr hp

/-- A statement either has its effect and succeeds or changes nothing. -/
theorem exec_cases (env : Env) (st : Stmt) (i : Nat) (effect : Db → Option Db) (db : Db) :
    (∃ db', effect db = some db' ∧ exec env st i effect db = (true, db')) ∨
      exec env st i effect db = (false, db) := by
  unfold exec
  split
  · exact Or.inr rfl
  · split
    next => exact Or.inr rfl
    next db' h => exact Or.inl ⟨db', h, rfl⟩

theorem exec_eq_true {env : Env} {st : Stmt} {i : Nat} {effect : Db → Option Db} {db db' : Db}
    (h : exec env st i effect db = (true, db')) : effect db = some db' := by
  rcases exec_cases env st i effect db with ⟨db₁, he, h₁⟩ | h₁
  · rw [h₁, Prod.mk.injEq] at h
    rw [he, h.2]
  · rw [h₁] at h
    cases h

theorem exec_eq_false {env : Env} {st : Stmt} {i : Nat} {effect : Db → Option Db} {db db' : Db}
    (h : exec env st i effect db = (false, db')) : db' = db := by
  rcases exec_cases env st i effect db with ⟨db₁, he, h₁⟩ | h₁
  · rw [h₁] at h
    cases h
  · rw [h₁, Prod.mk.injEq] at h
    exact h.2.symm

theorem exec_of_fails {env : Env} {st : Stmt} {i : Nat} {effect : Db → Option Db} {db : Db}
    (h : env.fails st i = true) : exec env st i effect db = (false, db) := by
  unfold exec
  rw [if_pos h]

/-- A statement that was executed did not fail. -/
theorem fails_of_exec_true {env : Env} {st : Stmt} {i : Nat} {effect : Db → Option Db}
    {db db' : Db} (h : exec env st i effect db = (true, db')) : env.fails st i = false := by
  cases hfails : env.fails st i with
  | false => rfl
  | true =>
    rw [exec_of_fails hfails] at h
    cases h

theorem exec_some {env : Env} (he : env.Sound) {st : Stmt} {i : Nat}
    {effect : Db → Option Db} {db db' : Db} (h : effect db = some db') :
    exec env st i effect db = (true, db') := by
  unfold exec
  rw [he st i, h]
  rfl

/-- An update violates no constraint, so only an engine failure can stop it. -/
theorem exec_update (env : Env) (st : Stmt) (i : Nat) (f : Db → Db) (db : Db) :
    exec env st i (fun db => some (f db)) db =
      if env.fails st i then (false, db) else (true, f db) := rfl

end SocialNetwork.Server
