import SocialNetwork.Messaging.OpenConversation

/-!
# What a command may write

`GuestOwns` and `UserOwns` are the ownership rules of the six tables for a client that
is not logged in and for one logged in as `u`; `Authorized` puts them together with
the rule for the sessions. `writes_authorized` shows that every step keeps them as
long as the row ids it reads back fit in an `int` (`IdsFit`).

That condition is not idle. The program stores 64-bit row ids in `int`s: past 2^31
rows a new conversation or user is looked up again under another id, and the rows
written then are somebody else's.
-/

namespace SocialNetwork.Server

open SocialNetwork.Lib

variable {hasher : Text → Nat} {serverSocket : Int}

/-- A users row may change its profile visibility if it is that of `u`. -/
def UserKept (u : Text) (r r' : UserRow) : Prop :=
  r' = r ∨ (r.username = u ∧ r' = { r with profileVisibility := r'.profileVisibility })

/-- A friends row keeps its pair; its status changes for one of the pair only, its type
for the first of the pair only. -/
def FriendKept (u : Text) (r r' : FriendRow) : Prop :=
  r'.userUsername = r.userUsername ∧ r'.friendUsername = r.friendUsername ∧
    (r'.status ≠ r.status → r.userUsername = u ∨ r.friendUsername = u) ∧
    (r'.friendType ≠ r.friendType → r.userUsername = u)

/-- At most one row was added, and that by a registration. -/
def RegistersOne (cmd : Command) (db db' : Db) : Prop :=
  db'.users.rows.length = db.users.rows.length ∨
    (db'.users.rows.length = db.users.rows.length + 1 ∧
      ∃ u p e r v, cmd = .register u p e r v)

/-- What a client that is not logged in may write: one users row. -/
structure GuestOwns (cmd : Command) (db db' : Db) : Prop where
  users : ∃ new, db'.users.rows = db.users.rows ++ new
  registers : RegistersOne cmd db db'
  friends : db'.friends.rows = db.friends.rows
  posts : db'.posts.rows = db.posts.rows
  conversations : db'.conversations.rows = db.conversations.rows
  participants : db'.participants.rows = db.participants.rows
  messages : db'.messages.rows = db.messages.rows

/-- What a client logged in as `u` may write, table by table. Rows are never removed,
and edited in `users` and `friends` only. -/
structure UserOwns (u : Text) (cmd : Command) (db db' : Db) : Prop where
  users : Evolves (UserKept u) (fun _ => True) db.users.rows db'.users.rows
  registers : RegistersOne cmd db db'
  friends : Evolves (FriendKept u) (fun r => r.userUsername = u ∨ r.friendUsername = u)
    db.friends.rows db'.friends.rows
  posts : Evolves Eq (fun p => p.authorUsername = u) db.posts.rows db'.posts.rows
  conversations : Evolves Eq (fun _ => True) db.conversations.rows db'.conversations.rows
  participants : Evolves Eq
    (fun r => Member db r.conversationId u ∨
      (¬ (∃ row ∈ db.conversations.rows, row.conversationId = r.conversationId) ∧
        ∃ row ∈ db'.conversations.rows, row.conversationId = r.conversationId))
    db.participants.rows db'.participants.rows
  messages : Evolves Eq (fun m => m.senderUsername = u ∧ Member db m.conversationId u)
    db.messages.rows db'.messages.rows

/-- The step writes what its issuer owns and leaves the entries of other sockets in the
session manager alone; without a login only a `login` changes its own entry. -/
structure Authorized (hasher : Text → Nat) (x : Step LoopState Event) (cmd : Command) : Prop where
  guest : issuerOf x = none → GuestOwns cmd x.pre.app.db (next hasher x.pre x.event).app.db ∧
    (next hasher x.pre x.event).app.sessions.currentConversation (sdOf x) = currentOf x ∧
    ((next hasher x.pre x.event).app.sessions.sessions (sdOf x) = none ∨
      ∃ u p, cmd = .login u p)
  user : ∀ u, issuerOf x = some u →
    UserOwns u cmd x.pre.app.db (next hasher x.pre x.event).app.db
  others : ∀ sd, sd ≠ sdOf x →
    (next hasher x.pre x.event).app.sessions.sessions sd = x.pre.app.sessions.sessions sd ∧
      (next hasher x.pre x.event).app.sessions.currentConversation sd =
        x.pre.app.sessions.currentConversation sd

/-- A line that is a command writes what its issuer owns; any other changes nothing. -/
def LineAuthorized (hasher : Text → Nat) (x : Step LoopState Event) : Prop :=
  match commandOf x with
  | none => (next hasher x.pre x.event).app = x.pre.app
  | some cmd => Authorized hasher x cmd

/-! ## What a request inserts -/

/-- The insert into `conversations` goes through. -/
def Inserts (env : Env) (db : Db) : Prop :=
  env.fails .insertConversation 0 = false ∧ db.conversations.seq < maxRowid

/-- The request inserts a conversation for a client logged in as `u`. -/
def InsertsConversation (env : Env) (a : App) (u : Text) : Command → Prop
  | .chat v => u ≠ v ∧ Database.getUserByUsername env 0 a.db v ≠ none ∧
      Database.getPrivateConversation env a.db u v = none ∧ Inserts env a.db
  | .group users => GroupCommand.unknown env a 0 (users ++ [u]) = none ∧ users ≠ [] ∧
      Inserts env a.db
  | _ => False

/-- The request inserts a user. -/
def InsertsUser (env : Env) (db : Db) : Command → Prop
  | .register u p e r v => u ≠ [] ∧ p ≠ [] ∧ e ≠ [] ∧ (r = bytes "normal" ∨ r = bytes "admin") ∧
      (v = bytes "public" ∨ v = bytes "private") ∧ env.fails .registerUser 0 = false ∧
      db.users.seq < maxRowid ∧ ∀ row ∈ db.users.rows, row.username ≠ u ∧ row.email ≠ e
  | _ => False

/-- The row ids the command reads back fit in an `int`: the id of the conversation or the user it
inserts, if it inserts one, and the id of its user's own row. -/
structure IdsFit (env : Env) (a : App) (issuer : Option Text) (cmd : Command) : Prop where
  conversation : ∀ u, issuer = some u → InsertsConversation env a u cmd →
    a.db.conversations.seq + 1 ≤ intMax
  user : InsertsUser env a.db cmd → a.db.users.seq + 1 ≤ intMax
  visibility : ∀ v, cmd = .setProfileVisibility v → (v = bytes "public" ∨ v = bytes "private") →
    ∀ row ∈ a.db.users.rows, issuer = some row.username → row.userId ≤ intMax

section

variable {env : Env} {db db' : Db}

theorem exec_insertConversation_refused (hno : ¬ Inserts env db) :
    exec env .insertConversation 0 (Database.insertConversation env.now) db = (false, db) := by
  unfold exec
  cases hfail : env.fails .insertConversation 0 with
  | true => rfl
  | false =>
    cases hins : Database.insertConversation env.now db with
    | none => rfl
    | some db₁ =>
      obtain ⟨t, ht, _⟩ := Option.map_eq_some_iff.mp hins
      exact absurd ⟨hfail, (AutoTable.insert_eq_some ht).1⟩ hno

theorem createConversation_refused (hno : ¬ Inserts env db) (u v : Text) :
    Database.createConversation env db u v = (-1, db) := by
  unfold Database.createConversation
  rw [exec_insertConversation_refused hno]

theorem createGroupConversation_refused (hno : ¬ Inserts env db) (users : List Text) :
    Database.createGroupConversation env db users = (-1, db) := by
  unfold Database.createGroupConversation
  rw [exec_insertConversation_refused hno, ite_self]

end

/-! ## The users table -/

/-- A registration whose id fits leaves the old rows alone. -/
theorem register_rows {db : Db} {shown : Bool} {v : Text} {row : UserRow}
    (hfit : db.users.seq + 1 ≤ intMax) :
    (db.users.rows ++ [row]).map (shownRow shown (columnInt (db.users.seq + 1)) v) =
      db.users.rows ++ [shownRow shown (db.users.seq + 1) v row] := by
  have hnonneg := db.users.nonneg
  have hid : columnInt (db.users.seq + 1) = db.users.seq + 1 := by
    apply narrow_of_fits
    unfold intMin
    omega
  rw [hid, List.map_append, List.map_singleton]
  congr 1
  conv_rhs => rw [← List.map_id db.users.rows]
  apply List.map_congr_left
  intro r hr
  exact shownRow_of_ne (db.users.id_ne_next hr)

/-- A `set_visibility` of a user whose id fits edits that user's row. -/
theorem setVisibility_kept {db : Db} {shown : Bool} {v : Text} {row r : UserRow}
    (hrow : row ∈ db.users.rows) (hfit : row.userId ≤ intMax) (hr : r ∈ db.users.rows) :
    UserKept row.username r (shownRow shown (columnInt row.userId) v r) := by
  have hid : columnInt row.userId = row.userId := by
    have := (db.users.bounded row hrow).1
    apply narrow_of_fits
    unfold intMin
    omega
  rw [hid]
  by_cases hsame : r.userId = row.userId
  · right
    -- ids are unique, so only the issuer's row is edited
    have heq : r = row := db.users.eq_of_clash hr hrow (by simp [usersConstraints, hsame])
    exact ⟨by rw [heq], shownRow_kept shown row.userId v r⟩
  · left
    exact shownRow_of_ne hsame

/-! ## One command -/

theorem UserKept.refl (u : Text) (r : UserRow) : UserKept u r r := Or.inl rfl

theorem FriendKept.refl (u : Text) (r : FriendRow) : FriendKept u r r :=
  ⟨rfl, rfl, fun h => absurd rfl h, fun h => absurd rfl h⟩

theorem GuestOwns.refl (cmd : Command) (db : Db) : GuestOwns cmd db db :=
  ⟨⟨[], by simp⟩, Or.inl rfl, rfl, rfl, rfl, rfl, rfl⟩

theorem UserOwns.refl (u : Text) (cmd : Command) (db : Db) : UserOwns u cmd db db where
  users := .refl (UserKept.refl u) _
  registers := Or.inl rfl
  friends := .refl (FriendKept.refl u) _
  posts := .refl (fun _ => rfl) _
  conversations := .refl (fun _ => rfl) _
  participants := .refl (fun _ => rfl) _
  messages := .refl (fun _ => rfl) _

/-- An acceptance by `u` edits the status of the row `(v, u)` and adds `(u, v)`. -/
theorem acceptedRows_evolves (updated inserted : Bool) (u v : Text) (rows : List FriendRow) :
    Evolves (FriendKept u) (fun r => r.userUsername = u ∨ r.friendUsername = u) rows
      (acceptedRows updated inserted u v rows) := by
  have hnew : ∀ r ∈ (if inserted then [(⟨u, v, 0, 1⟩ : FriendRow)] else []),
      r.userUsername = u ∨ r.friendUsername = u := by
    intro r hr
    split at hr
    · rw [List.mem_singleton.mp hr]
      exact Or.inl rfl
    · cases hr
  unfold acceptedRows
  cases updated with
  | false => exact .append (FriendKept.refl u) rows hnew
  | true =>
    refine .map_append ?_ hnew
    intro r _
    refine ⟨by simp, by simp, fun hstatus => ?_, fun htype => absurd (by simp) htype⟩
    right
    by_contra hne
    apply hstatus
    rw [acceptRow_status, if_neg]
    rw [isPair_iff]
    exact fun h => hne h.2

/-- A `set_friend_type` by `u` edits the type of a row of `u`. -/
theorem typeRow_kept (u v : Text) (type : Int) (r : FriendRow) :
    FriendKept u r (typeRow u v type r) := by
  refine ⟨by simp, by simp, fun h => absurd (by simp) h, fun htype => ?_⟩
  by_contra hne
  apply htype
  rw [typeRow_friendType, if_neg]
  rw [Bool.and_eq_true, isPair_iff]
  exact fun h => hne h.1.1

/-- A registration adds one row and edits none. -/
theorem registersOne_of_rows {db db' : Db} {u p e r v : Text} {row : UserRow}
    (h : db'.users.rows = db.users.rows ++ [row]) :
    RegistersOne (.register u p e r v) db db' := by
  right
  rw [h, List.length_append, List.length_singleton]
  exact ⟨rfl, u, p, e, r, v, rfl⟩

/-- `w` is the name of a user. -/
def Registered (db : Db) (w : Text) : Prop := ∃ row ∈ db.users.rows, row.username = w

instance (db : Db) (w : Text) : Decidable (Registered db w) :=
  inferInstanceAs (Decidable (∃ row ∈ db.users.rows, row.username = w))

/-- A user the lookup finds is registered. -/
theorem registered_of_ne_none {env : Env} {i : Nat} {db : Db} {w : Text}
    (h : Database.getUserByUsername env i db w ≠ none) : Registered db w := by
  obtain ⟨user, huser⟩ := Option.ne_none_iff_exists'.mp h
  obtain ⟨row, hrow, hname, _⟩ := getUserByUsername_eq_some huser
  exact ⟨row, hrow, hname⟩

/-- A created conversation whose id fits gets participants of its own. -/
theorem Created.userOwns {env : Env} {db db' : Db} {names : List Text} {id : Int} {u : Text}
    (cmd : Command) (h : Created env db names id db')
    (hfit : db.conversations.seq + 1 ≤ intMax) : UserOwns u cmd db db' := by
  -- the id fits, so the participants are filed under the new conversation
  have hid : id = db.conversations.seq + 1 := by
    have := db.conversations.nonneg
    rw [h.id_eq]
    apply narrow_of_fits
    unfold intMin
    omega
  obtain ⟨new, hrows, hnew⟩ := h.attached.rows
  refine ⟨?_, ?_, ?_, ?_, ?_, ?_, ?_⟩
  · rw [h.users]
    exact .refl (UserKept.refl u) _
  · exact Or.inl (by rw [h.users])
  · rw [h.friends]
    exact .refl (FriendKept.refl u) _
  · rw [h.posts]
    exact .refl (fun _ => rfl) _
  · rw [h.conversations]
    exact .append (fun _ => rfl) _ fun _ _ => trivial
  · rw [hrows]
    refine .append (fun _ => rfl) _ fun r hr => Or.inr ?_
    rw [(hnew r hr).1, hid]
    refine ⟨fun ⟨row, hrow, heq⟩ => db.conversations.id_ne_next hrow heq, ?_⟩
    rw [h.conversations]
    exact ⟨_, List.mem_append_right _ (List.mem_singleton_self _), rfl⟩
  · rw [h.messages]
    exact .refl (fun _ => rfl) _

section

variable {env : Env} {db db' : Db} {issuer : Option Text} {current : Option Int} {cmd : Command}
  {reply : Text}

/-- A command that has the outcome `db'` has read back only ids that fit. -/
structure ReadBack (issuer : Option Text) (cmd : Command) (db db' : Db) : Prop where
  conversation : db'.conversations.rows ≠ db.conversations.rows →
    db.conversations.seq + 1 ≤ intMax
  user : db'.users.rows.length ≠ db.users.rows.length → db.users.seq + 1 ≤ intMax
  visibility : ∀ v, cmd = .setProfileVisibility v → (v = bytes "public" ∨ v = bytes "private") →
    ∀ row ∈ db.users.rows, issuer = some row.username → row.userId ≤ intMax

/-- The id of a registration that went through fits. -/
theorem ReadBack.registered {t : AutoTable usersConstraints (·.userId)} {row : UserRow}
    {f : UserRow → UserRow} (h : ReadBack issuer cmd db { db with users := t })
    (ht : t.rows = (db.users.rows ++ [row]).map f) : db.users.seq + 1 ≤ intMax := by
  refine h.user ?_
  show t.rows.length ≠ _
  rw [ht, List.length_map, List.length_append, List.length_singleton]
  omega

/-- So does that of a conversation. -/
theorem ReadBack.created {names : List Text} {id : Int} (h : ReadBack issuer cmd db db')
    (hcreated : Created env db names id db') : db.conversations.seq + 1 ≤ intMax := by
  refine h.conversation fun hsame => ?_
  rw [hcreated.conversations] at hsame
  exact List.cons_ne_nil _ _ (List.append_right_eq_self.mp hsame)

/-- **What a client logged in as `u` writes is what `u` owns.** -/
theorem Write.userOwns {u : Text} (h : Write hasher env db (some u) current cmd reply db')
    (hcur : ∀ c, current = some c → Member db c u) (hfit : ReadBack (some u) cmd db db') :
    UserOwns u cmd db db' := by
  cases h with
  | unchanged => exact UserOwns.refl u _ db
  | @register u' p e r v shown t _ hrole hvis hnew _ ht =>
    rw [register_rows (hfit.registered ht)] at ht
    exact { UserOwns.refl u (.register u' p e r v) db with
      users := by
        show Evolves _ _ db.users.rows t.rows
        rw [ht]
        exact .append (UserKept.refl u) _ fun _ _ => trivial
      registers := registersOne_of_rows ht }
  | @setVisibility u' v row shown t hs hv hrow hname _ ht =>
    rw [Option.some.injEq] at hs
    subst hs hname
    exact { UserOwns.refl row.username (.setProfileVisibility v) db with
      users := by
        show Evolves _ _ db.users.rows t.rows
        rw [ht]
        exact .map fun r hr =>
          setVisibility_kept hrow (hfit.visibility v rfl hv row hrow rfl) hr
      registers := Or.inl (by
        show t.rows.length = _
        rw [ht, List.length_map]) }
  | @friendRequest u' v t hs _ _ _ ht =>
    cases hs
    exact { UserOwns.refl u _ db with
      friends := by
        show Evolves _ _ db.friends.rows t.rows
        rw [ht]
        exact .append (FriendKept.refl u) _ fun r hr =>
          Or.inl (by rw [List.mem_singleton.mp hr]) }
  | @acceptFriend u' v updated inserted t hs _ _ _ ht =>
    cases hs
    exact { UserOwns.refl u _ db with
      friends := by
        show Evolves _ _ db.friends.rows t.rows
        rw [ht]
        exact acceptedRows_evolves updated inserted u v _ }
  | @setFriendType u' v type t hs _ _ ht =>
    cases hs
    exact { UserOwns.refl u _ db with
      friends := by
        show Evolves _ _ db.friends.rows t.rows
        rw [ht]
        exact .map fun r _ => typeRow_kept u v type r }
  | @createPost u' content vis t hs _ _ ht =>
    cases hs
    exact { UserOwns.refl u _ db with
      posts := by
        show Evolves _ _ db.posts.rows t.rows
        rw [ht]
        exact .append (fun _ => rfl) _ fun p hp => by rw [List.mem_singleton.mp hp] }
  | chat hs hne hv _ hcreated => exact hcreated.userOwns _ (hfit.created hcreated)
  | group hs hknown hcreated => exact hcreated.userOwns _ (hfit.created hcreated)
  | @send u' content c t hs hc hmem ht =>
    cases hs
    exact { UserOwns.refl u _ db with
      messages := by
        show Evolves _ _ db.messages.rows t.rows
        rw [ht]
        refine .append (fun _ => rfl) _ fun m hm => ?_
        rw [List.mem_singleton.mp hm]
        exact ⟨rfl, hmem⟩ }
  | @add u' w c t hs hc _ hattached =>
    obtain ⟨new, hrows, hnew⟩ := hattached.rows
    exact { UserOwns.refl u _ db with
      participants := by
        show Evolves _ _ db.participants.rows t.rows
        rw [hrows]
        refine .append (fun _ => rfl) _ fun r hr => Or.inl ?_
        rw [(hnew r hr).1]
        exact hcur c hc }

/-- **A client that is not logged in writes at most a registration.** -/
theorem Write.guestOwns (h : Write hasher env db none current cmd reply db')
    (hfit : ReadBack none cmd db db') : GuestOwns cmd db db' := by
  cases h with
  | unchanged => exact GuestOwns.refl _ db
  | @register u p e r v shown t _ hrole hvis hnew _ ht =>
    rw [register_rows (hfit.registered ht)] at ht
    exact { GuestOwns.refl (.register u p e r v) db with
      users := ⟨_, ht⟩
      registers := registersOne_of_rows ht }
  | setVisibility hs => cases hs
  | friendRequest hs => cases hs
  | acceptFriend hs => cases hs
  | setFriendType hs => cases hs
  | createPost hs => cases hs
  | chat hs => cases hs
  | group hs => cases hs
  | send hs => cases hs
  | add hs => cases hs

/-- Only `chat` and `group` touch the conversations. -/
theorem Write.conversations_kept (h : Write hasher env db issuer current cmd reply db') :
    db'.conversations = db.conversations ∨ (∃ v, cmd = .chat v) ∨ ∃ users, cmd = .group users := by
  cases h with
  | chat => exact Or.inr (Or.inl ⟨_, rfl⟩)
  | group => exact Or.inr (Or.inr ⟨_, rfl⟩)
  | _ => exact Or.inl rfl

/-- Only a registration makes the users more. -/
theorem Write.users_kept (h : Write hasher env db issuer current cmd reply db') :
    db'.users.rows.length = db.users.rows.length ∨ ∃ u p e r v, cmd = .register u p e r v := by
  cases h with
  | register => exact Or.inr ⟨_, _, _, _, _, rfl⟩
  | setVisibility hs hv hrow hname hsound ht =>
    left
    show List.length _ = _
    rw [ht, List.length_map]
  | chat hs hne hv hprivate hcreated => exact Or.inl (by rw [hcreated.users])
  | group hs hknown hcreated => exact Or.inl (by rw [hcreated.users])
  | _ => exact Or.inl rfl

end

section

variable {env : Env} {sd : Int} {a : App} {cmd : Command} {r : Text × App}

/-- A command that adds a conversation was a request that inserts one. -/
theorem Effect.insertsConversation (h : Effect hasher env sd a cmd r)
    (hnew : r.2.db.conversations.rows ≠ a.db.conversations.rows) :
    ∃ u, a.sessions.sessions sd = some u ∧ InsertsConversation env a u cmd := by
  rcases h.write.conversations_kept with hsame | ⟨v, rfl⟩ | ⟨users, rfl⟩
  · exact absurd (congrArg (·.rows) hsame) hnew
  · cases h with
    | idle => exact absurd rfl hnew
    | chatExists => exact absurd rfl hnew
    | chat hs hne hv hprivate hcreate =>
      refine ⟨_, hs, hne, hv, hprivate, ?_⟩
      by_contra hno
      rw [createConversation_refused hno, Prod.mk.injEq] at hcreate
      exact hnew (by rw [hcreate.2])
  · cases h with
    | idle => exact absurd rfl hnew
    | @group u _ id db hs hknown hcreate =>
      rw [GroupCommand.created_db] at hnew
      refine ⟨u, hs, hknown, ?_, ?_⟩
      · rintro rfl
        cases hcreate
        exact hnew rfl
      · by_contra hno
        rw [createGroupConversation_refused hno, Prod.mk.injEq] at hcreate
        exact hnew (by rw [hcreate.2])

/-- A command that adds a user was a request that inserts one. -/
theorem Effect.insertsUser (h : Effect hasher env sd a cmd r)
    (hnew : r.2.db.users.rows.length ≠ a.db.users.rows.length) : InsertsUser env a.db cmd := by
  rcases h.write.users_kept with hsame | ⟨u, p, e, role, v, rfl⟩
  · exact absurd hsame hnew
  · cases h with
    | idle => exact absurd rfl hnew
    | register hu hp he hr hv hreg =>
      obtain ⟨t, ht, _⟩ := Option.map_eq_some_iff.mp (exec_eq_true hreg)
      exact ⟨hu, hp, he, hr, hv, fails_of_exec_true hreg, (AutoTable.insert_eq_some ht).1,
        (registerUser_true hreg).1⟩

/-- **If the ids of what a request inserts fit, so do those it reads back.** -/
theorem Effect.readBack (h : Effect hasher env sd a cmd r)
    (hfit : IdsFit env a (a.sessions.sessions sd) cmd) :
    ReadBack (a.sessions.sessions sd) cmd a.db r.2.db where
  conversation hnew := by
    obtain ⟨u, hs, hinserts⟩ := h.insertsConversation hnew
    exact hfit.conversation u hs hinserts
  user hnew := hfit.user (h.insertsUser hnew)
  visibility := hfit.visibility

/-- Without a login a command leaves the open conversation of its socket alone. -/
theorem Effect.guest_conversation (h : Effect hasher env sd a cmd r)
    (hs : a.sessions.sessions sd = none) :
    r.2.sessions.currentConversation sd = a.sessions.currentConversation sd := by
  cases h with
  | logout hs' => rw [hs] at hs'; cases hs'
  | openConversation hs' => rw [hs] at hs'; cases hs'
  | group hs' => rw [hs] at hs'; cases hs'
  | _ => rfl

end

/-- A command whose row ids fit in an `int` changes only what its issuer owns. -/
theorem command_authorized {h : History LoopState Event} {x : Step LoopState Event}
    (hr : (machine hasher serverSocket).Run h x.pre) (hj : ∀ y ∈ h, JoinStep y) {i : Slot}
    {env : Env} {data : Text} (he : x.event = .recv i env data) {cmd : Command}
    (hcmd : commandOf x = some cmd) (hfit : IdsFit env x.pre.app (issuerOf x) cmd) :
    Authorized hasher x cmd := by
  obtain ⟨i', env', data', he', _, happ⟩ := step_execute hasher hcmd
  obtain ⟨rfl, rfl, rfl⟩ := Event.recv.inj (he.symm.trans he')
  have heffect := execute_effect hasher env (sdOf x) x.pre.app cmd
  have hw := heffect.write
  have hback := heffect.readBack hfit
  rw [← happ] at hw hback
  constructor
  · intro hs
    have hguest : x.pre.app.sessions.sessions (sdOf x) = none := hs
    rw [hguest] at hw hback
    refine ⟨hw.guestOwns hback, ?_, ?_⟩
    · rw [happ]
      exact heffect.guest_conversation hguest
    · rw [happ]
      rcases heffect.session with ⟨u, p, hlogin, _⟩ | ⟨_, _, hnone⟩ | ⟨_, hsame⟩
      · exact Or.inr ⟨u, p, hlogin⟩
      · exact Or.inl hnone
      · exact Or.inl (hsame.trans hguest)
  · intro u hs
    have huser : x.pre.app.sessions.sessions (sdOf x) = some u := hs
    rw [huser] at hw hback
    refine hw.userOwns (fun c hc => ?_) hback
    obtain ⟨u', hu', hm⟩ := joined_run hr hj (sdOf x) c hc
    rw [huser, Option.some.injEq] at hu'
    exact hu' ▸ hm
  · intro sd hne
    rw [happ]
    exact heffect.frame hne

/-- **Integrity of writes.** In every reachable state, an input line whose row ids fit in
an `int` changes only what its issuer owns, if the inserts of participants so far failed on
constraints only: without a login at most one registration and
the own session by `login`; as `u` the own profile visibility, friends rows of `u`, posts
and messages by `u`, the latter and new participants in conversations `u` participates
in or has just created; nothing is removed or otherwise edited, and the sessions and
open conversations of the other sockets stay as they are. -/
theorem writes_authorized {h : History LoopState Event} {x : Step LoopState Event}
    (hr : (machine hasher serverSocket).Run h x.pre) (hj : ∀ y ∈ h, JoinStep y)
    {i : Slot} {env : Env} {data : Text} (he : x.event = .recv i env data)
    (hfit : ∀ cmd, commandOf x = some cmd → IdsFit env x.pre.app (issuerOf x) cmd) :
    LineAuthorized hasher x := by
  unfold LineAuthorized
  split
  next hnone =>
    rw [commandOf, he] at hnone
    rw [he]
    show (handle hasher env (x.pre.clientSocket i) data x.pre.app).2 = _
    rw [handle_of_none hasher env _ _ hnone]
  next cmd hcmd => exact command_authorized hr hj he hcmd (hfit cmd hcmd)

/-- A first chat. -/
def firstChatEvents : List Event :=
  [.accept 4, .line 0 "register a p a@x normal public\n",
    .line 0 "register b p b@x normal public\n", .line 0 "login a p\n", .line 0 "chat b\n"]

theorem writes_authorized_chat :
    ∃ r x h, runEvents List.length 3 firstChatEvents = some r ∧ r.1 = x :: h ∧
      LineAuthorized List.length x := by
  obtain ⟨h, s, hr, hrun, hsound, x, hx, hchat, hseq⟩ :=
    runEvents_exists List.length 3 firstChatEvents
      (p := fun h _ => ∃ x ∈ h.head?, commandOf x = some (.chat (bytes "b")) ∧
        x.pre.app.db.conversations.seq + 1 ≤ intMax)
      (by simp [firstChatEvents]) (by decide)
  cases h with
  | nil => cases hx
  | cons y h =>
    rw [List.head?_cons, Option.mem_some_iff] at hx
    subst hx
    obtain ⟨hrx, _, _⟩ := hrun.of_cons
    obtain ⟨i, env, data, he, _, _⟩ := step_execute List.length hchat
    refine ⟨_, y, h, hr, rfl, writes_authorized hrx
      (fun z hz => (hsound z (List.mem_cons_of_mem _ hz)).join) he fun cmd hcmd => ?_⟩
    rw [hchat, Option.some.injEq] at hcmd
    subst hcmd
    exact ⟨fun _ _ _ => hseq, False.elim, fun v hv => by cases hv⟩

end SocialNetwork.Server
