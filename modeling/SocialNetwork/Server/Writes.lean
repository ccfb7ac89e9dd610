import SocialNetwork.Server.Descriptors

/-!
# What one command writes

`Effect` says under which guards a command calls which `Database` method. Here
the methods are read once more, for the rows they write: `Write` lists the ways
one command can change the database, row by row, and `Effect.write` derives it.
An invariant about a table is a case analysis over this list; in the cases that
write another table the database is a record update, so the frame condition
holds by `rfl`.

Two failures go unnoticed in the source and therefore appear as Booleans: the
update of a profile visibility, and the two statements of `accept_friend`.
-/

namespace SocialNetwork.Server

open SocialNetwork.Lib

/-- `INSERT INTO conversation_participants` fails on constraint violations only. -/
def Env.Joins (env : Env) : Prop := ∀ i, env.fails .addParticipant i = false

theorem Env.Sound.joins {env : Env} (h : env.Sound) : env.Joins := fun i => h _ i

/-! ## The row functions of the updates -/

/-- Set the status of the pair `(a, b)` to accepted. -/
def acceptRow (a b : Text) : FriendRow → FriendRow :=
  Table.rewrite (Database.isPair a b) fun r => { r with status := 1 }

/-- Set the type of the accepted pair `(a, b)`. -/
def typeRow (a b : Text) (type : Int) : FriendRow → FriendRow :=
  Table.rewrite (fun r => Database.isPair a b r && r.status == 1) fun r =>
    { r with friendType := type }

/-- Set the profile visibility of the user with the given id. -/
def visibilityRow (userId : Int) (visibility : Text) : UserRow → UserRow :=
  Table.rewrite (·.userId == userId) fun r => { r with profileVisibility := visibility }

section

variable (a b : Text) (r : FriendRow)

theorem isPair_iff {a b : Text} {r : FriendRow} :
    Database.isPair a b r = true ↔ r.userUsername = a ∧ r.friendUsername = b := by
  simp [Database.isPair]

@[simp] theorem acceptRow_userUsername : (acceptRow a b r).userUsername = r.userUsername := by
  unfold acceptRow Table.rewrite
  split <;> rfl

@[simp] theorem acceptRow_friendUsername :
    (acceptRow a b r).friendUsername = r.friendUsername := by
  unfold acceptRow Table.rewrite
  split <;> rfl

@[simp] theorem acceptRow_friendType : (acceptRow a b r).friendType = r.friendType := by
  unfold acceptRow Table.rewrite
  split <;> rfl

theorem acceptRow_status :
    (acceptRow a b r).status = if Database.isPair a b r then 1 else r.status := by
  unfold acceptRow Table.rewrite
  split <;> rfl

variable (type : Int)

@[simp] theorem typeRow_userUsername : (typeRow a b type r).userUsername = r.userUsername := by
  unfold typeRow Table.rewrite
  split <;> rfl

@[simp] theorem typeRow_friendUsername :
    (typeRow a b type r).friendUsername = r.friendUsername := by
  unfold typeRow Table.rewrite
  split <;> rfl

@[simp] theorem typeRow_status : (typeRow a b type r).status = r.status := by
  unfold typeRow Table.rewrite
  split <;> rfl

theorem typeRow_friendType :
    (typeRow a b type r).friendType =
      if Database.isPair a b r && r.status == 1 then type else r.friendType := by
  unfold typeRow Table.rewrite
  split <;> rfl

@[simp] theorem isPair_acceptRow (c d : Text) :
    Database.isPair c d (acceptRow a b r) = Database.isPair c d r := by
  simp [Database.isPair]

@[simp] theorem isPair_typeRow (c d : Text) :
    Database.isPair c d (typeRow a b type r) = Database.isPair c d r := by
  simp [Database.isPair]

end

/-- Pairs are unique in the table. -/
theorem eq_of_isPair {db : Db} {r r' : FriendRow} (hr : r ∈ db.friends.rows)
    (hr' : r' ∈ db.friends.rows) {a b : Text} (h : Database.isPair a b r = true)
    (h' : Database.isPair a b r' = true) : r = r' := by
  apply db.friends.eq_of_clash hr hr'
  have hpair := isPair_iff.mp h
  have hpair' := isPair_iff.mp h'
  simp [friendsConstraints, hpair.1, hpair.2, hpair'.1, hpair'.2]

/-! ## Friends -/

/-- The friends rows after `accept_friend`: its update and its insert may each have
been skipped, and neither failure is noticed. -/
def acceptedRows (updated inserted : Bool) (target source : Text) (before : List FriendRow) :
    List FriendRow :=
  (if updated then before.map (acceptRow source target) else before)
    ++ if inserted then [⟨target, source, 0, 1⟩] else []

/-- They are the old ones and perhaps the reverse pair. -/
theorem mem_acceptedRows {updated inserted : Bool} {u v : Text} {rows rows' : List FriendRow}
    {r : FriendRow} (h : rows' = acceptedRows updated inserted u v rows) (hr : r ∈ rows') :
    (∃ r₀ ∈ rows, r.userUsername = r₀.userUsername ∧ r.friendUsername = r₀.friendUsername ∧
      r.friendType = r₀.friendType) ∨ r = ⟨u, v, 0, 1⟩ := by
  rw [h, acceptedRows] at hr
  rcases List.mem_append.mp hr with hr | hr
  · left
    split at hr
    · obtain ⟨r₀, hr₀, rfl⟩ := List.mem_map.mp hr
      exact ⟨r₀, hr₀, by simp⟩
    · exact ⟨r, hr, rfl, rfl, rfl⟩
  · right
    split at hr
    · exact List.mem_singleton.mp hr
    · cases hr

section

variable {env : Env} {db db' : Db}

theorem insertFriend_eq_some {row : FriendRow} (h : Database.insertFriend row db = some db') :
    (∀ r ∈ db.friends.rows,
        Database.isPair row.userUsername row.friendUsername r = false) ∧
      ∃ t, t.rows = db.friends.rows ++ [row] ∧ db' = { db with friends := t } := by
  obtain ⟨t, ht, rfl⟩ := Option.map_eq_some_iff.mp h
  obtain ⟨hfit, hrows⟩ := Table.insert_eq_some ht
  exact ⟨hfit, t, hrows, rfl⟩

theorem insertFriend_eq_none {row : FriendRow} (h : Database.insertFriend row db = none) :
    ∃ r ∈ db.friends.rows, Database.isPair row.userUsername row.friendUsername r = true := by
  have hnofit := Table.insert_eq_none.mp (Option.map_eq_none_iff.mp h)
  by_contra hno
  apply hnofit
  intro r hr
  cases hpair : Database.isPair row.userUsername row.friendUsername r with
  | false => exact hpair
  | true => exact absurd ⟨r, hr, hpair⟩ hno

theorem sendFriendRequest_true {u v : Text}
    (h : Database.sendFriendRequest env db u v = (true, db')) :
    (∀ r ∈ db.friends.rows, Database.isPair u v r = false) ∧
      ∃ t, t.rows = db.friends.rows ++ [⟨u, v, 0, 0⟩] ∧ db' = { db with friends := t } :=
  insertFriend_eq_some (exec_eq_true h)

/-- The insert of a friends row is the append of it unless the pair is there. -/
theorem exec_insertFriend (env : Env) (st : Stmt) (i : Nat) (row : FriendRow) (db : Db) :
    ∃ t, t.rows = db.friends.rows ++
        (if !env.fails st i &&
          !db.friends.rows.any (Database.isPair row.userUsername row.friendUsername)
        then [row] else []) ∧
      (exec env st i (Database.insertFriend row) db).2 = { db with friends := t } := by
  have hskip : ∃ t, t.rows = db.friends.rows ++ [] ∧ db = { db with friends := t } :=
    ⟨db.friends, (List.append_nil _).symm, rfl⟩
  cases hfail : env.fails st i with
  | true =>
    unfold exec
    rw [hfail]
    exact hskip
  | false =>
    cases hins : Database.insertFriend row db with
    | none =>
      have hany := List.any_eq_true.mpr (insertFriend_eq_none hins)
      unfold exec
      rw [hfail, hins, hany]
      exact hskip
    | some db' =>
      obtain ⟨hfit, t, ht, rfl⟩ := insertFriend_eq_some hins
      have hany : db.friends.rows.any (Database.isPair row.userUsername row.friendUsername) =
          false := List.any_eq_false.mpr fun r hr => Bool.not_eq_true _ ▸ hfit r hr
      unfold exec
      rw [hfail, hins, hany]
      exact ⟨t, ht, rfl⟩

/-- **What an accept writes**: its update of the pending row and its insert of the reverse
row, each unless it fails, and neither failure is noticed. -/
theorem acceptFriendRequest_true {u v : Text}
    (h : Database.acceptFriendRequest env db u v = (true, db')) :
    (∃ r ∈ db.friends.rows, Database.isPair v u r = true ∧ r.status = 0) ∧
      ∃ t, t.rows = acceptedRows (!env.fails .acceptUpdate 0)
          (!env.fails .acceptInsertReverse 0 && !db.friends.rows.any (Database.isPair u v))
          u v db.friends.rows ∧
        db' = { db with friends := t } := by
  unfold Database.acceptFriendRequest at h
  split at h
  next => cases h
  next row rest hsel =>
    have hrow := mem_of_select_cons hsel
    rw [Bool.and_eq_true, beq_iff_eq] at hrow
    refine ⟨⟨row, hrow.1, hrow.2⟩, ?_⟩
    rw [Prod.mk.injEq] at h
    -- the update: done, or failed without effect
    obtain ⟨t₁, ht₁, hdb₁⟩ : ∃ t₁, t₁.rows =
          (if !env.fails .acceptUpdate 0 then db.friends.rows.map (acceptRow v u)
            else db.friends.rows) ∧
        (exec env .acceptUpdate 0 (fun db => some (Database.setAccepted v u db)) db).2 =
          { db with friends := t₁ } := by
      rw [exec_update]
      cases env.fails .acceptUpdate 0 with
      | true => exact ⟨db.friends, rfl, rfl⟩
      | false => exact ⟨_, rfl, rfl⟩
    -- updating does not change which pairs exist
    have hpairs : t₁.rows.any (Database.isPair u v) =
        db.friends.rows.any (Database.isPair u v) := by
      rw [ht₁]
      split
      next => simp [List.any_map, Function.comp_def]
      next => rfl
    rw [hdb₁] at h
    obtain ⟨t₂, ht₂, hdb₂⟩ := exec_insertFriend env .acceptInsertReverse 0 ⟨u, v, 0, 1⟩
      { db with friends := t₁ }
    refine ⟨t₂, ?_, h.2.symm.trans hdb₂⟩
    rw [ht₂, hpairs, ht₁]
    rfl

theorem areFriends_true {u v : Text} (h : Database.areFriends env db u v = true) :
    ∃ r ∈ db.friends.rows, Database.isPair u v r = true ∧ r.status = 1 := by
  obtain ⟨row, hrow, hboth⟩ := exists_of_select h
  rw [Bool.and_eq_true, beq_iff_eq] at hboth
  exact ⟨row, hrow, hboth⟩

theorem setFriendType_true {u v : Text} {t : Int}
    (h : Database.setFriendType env db u v t = (true, db')) :
    (0 ≤ t ∧ t ≤ 2) ∧
      (∃ r ∈ db.friends.rows, Database.isPair u v r = true ∧ r.status = 1) ∧
      ∃ table, table.rows = db.friends.rows.map (typeRow u v t) ∧
        db' = { db with friends := table } := by
  unfold Database.setFriendType at h
  split at h
  next => cases h
  next hrange =>
    split at h
    next => cases h
    next hfriends =>
      refine ⟨by omega, ?_, ?_⟩
      · rw [Bool.not_eq_true', Bool.not_eq_false] at hfriends
        exact areFriends_true hfriends
      · cases exec_eq_true h
        exact ⟨_, rfl, rfl⟩

end

/-! ## Users -/

/-- The row a registration inserts when the largest id so far is `seq`. -/
def newUser (hasher : Text → Nat) (seq : Int) (u p e r : Text) : UserRow :=
  ⟨seq + 1, u, Database.Hashpassword hasher p, e, r, bytes "public"⟩

/-- A profile visibility update that may have been skipped. -/
def shownRow (shown : Bool) (userId : Int) (visibility : Text) : UserRow → UserRow :=
  if shown then visibilityRow userId visibility else id

/-- A row with another id is left alone. -/
theorem shownRow_of_ne {shown : Bool} {userId : Int} {v : Text} {r : UserRow}
    (h : r.userId ≠ userId) : shownRow shown userId v r = r := by
  unfold shownRow visibilityRow Table.rewrite
  cases shown with
  | false => rfl
  | true => simp [h]

/-- The update edits the profile visibility only. -/
theorem shownRow_kept (shown : Bool) (userId : Int) (v : Text) (r : UserRow) :
    shownRow shown userId v r =
      { r with profileVisibility := (shownRow shown userId v r).profileVisibility } := by
  unfold shownRow visibilityRow Table.rewrite
  cases shown with
  | false => rfl
  | true =>
    simp only [if_true]
    split <;> rfl

section

variable (shown : Bool) (userId : Int) (v : Text) (r : UserRow)

@[simp] theorem shownRow_userId : (shownRow shown userId v r).userId = r.userId := by
  rw [shownRow_kept]

@[simp] theorem shownRow_username : (shownRow shown userId v r).username = r.username := by
  rw [shownRow_kept]

@[simp] theorem shownRow_password : (shownRow shown userId v r).password = r.password := by
  rw [shownRow_kept]

@[simp] theorem shownRow_email : (shownRow shown userId v r).email = r.email := by
  rw [shownRow_kept]

@[simp] theorem shownRow_userType : (shownRow shown userId v r).userType = r.userType := by
  rw [shownRow_kept]

theorem shownRow_profileVisibility :
    (shownRow shown userId v r).profileVisibility =
      if shown && r.userId == userId then v else r.profileVisibility := by
  unfold shownRow visibilityRow Table.rewrite
  cases shown with
  | false => rfl
  | true =>
    simp only [if_true, Bool.true_and]
    split <;> rfl

end

section

variable {hasher : Text → Nat} {env : Env} {db db' : Db}

/-- A username is some row's if the lookup finds a user. -/
theorem getUserByUsername_eq_some {i : Nat} {u : Text} {user : User}
    (h : Database.getUserByUsername env i db u = some user) :
    ∃ row ∈ db.users.rows, row.username = u ∧ user = Database.readUser row := by
  unfold Database.getUserByUsername at h
  split at h
  next => cases h
  next row rest hsel =>
    have hrow := mem_of_select_cons hsel
    rw [beq_iff_eq] at hrow
    rw [Option.some.injEq] at h
    exact ⟨row, hrow.1, hrow.2, h.symm⟩

/-- Without failures the lookup fails on unknown names only. -/
theorem getUserByUsername_eq_none (he : env.Sound) {i : Nat} {u : Text} :
    Database.getUserByUsername env i db u = none ↔ ∀ row ∈ db.users.rows, row.username ≠ u := by
  unfold Database.getUserByUsername
  split
  next hsel =>
    rw [select_filter_eq_nil he] at hsel
    simpa using hsel
  next row rest hsel =>
    have hrow := mem_of_select_cons hsel
    rw [beq_iff_eq] at hrow
    constructor
    · intro h
      cases h
    · intro h
      exact absurd hrow.2 (h row hrow.1)

theorem authenticateUser_eq_some {u p : Text} {user : User}
    (h : Database.authenticateUser hasher env db u p = some user) :
    ∃ row ∈ db.users.rows, row.username = u ∧
      row.password = Database.Hashpassword hasher p ∧ user = Database.readUser row := by
  unfold Database.authenticateUser at h
  split at h
  next => cases h
  next row rest hsel =>
    have hrow := mem_of_select_cons hsel
    rw [beq_iff_eq] at hrow
    split at h
    next => cases h
    next hpw =>
      rw [Option.some.injEq] at h
      exact ⟨row, hrow.1, hrow.2, not_not.mp hpw, h.symm⟩

/-- Usernames are unique. -/
theorem eq_of_username {row row' : UserRow} (h : row ∈ db.users.rows) (h' : row' ∈ db.users.rows)
    (hname : row.username = row'.username) : row = row' := by
  apply db.users.eq_of_clash h h'
  simp [usersConstraints, hname]

/-- The credentials of a row authenticate as that row unless the query fails. -/
theorem authenticateUser_of_row (he : env.fails .authenticateUser 0 = false) {p : Text}
    {row : UserRow} (hrow : row ∈ db.users.rows)
    (hpw : row.password = Database.Hashpassword hasher p) :
    Database.authenticateUser hasher env db row.username p = some (Database.readUser row) := by
  unfold Database.authenticateUser
  split
  next hsel =>
    rw [select_done he, arrange_eq_nil, List.filter_eq_nil_iff] at hsel
    exact absurd (beq_self_eq_true row.username) (hsel row hrow)
  next row' rest hsel =>
    have hrow' := mem_of_select_cons hsel
    rw [beq_iff_eq] at hrow'
    rw [eq_of_username hrow'.1 hrow hrow'.2]
    simp [hpw]

theorem authenticateUser_of_fails (he : env.fails .authenticateUser 0 = true) (u p : Text) :
    Database.authenticateUser hasher env db u p = none := by
  unfold Database.authenticateUser select
  rw [he]
  rfl

theorem registerUser_true {u p e r : Text}
    (h : Database.registerUser hasher env db u p e r = (true, db')) :
    (∀ row ∈ db.users.rows, row.username ≠ u ∧ row.email ≠ e) ∧
      ∃ t, t.rows = db.users.rows ++ [newUser hasher db.users.seq u p e r] ∧
        t.seq = db.users.seq + 1 ∧ db' = { db with users := t } := by
  obtain ⟨t, ht, rfl⟩ := Option.map_eq_some_iff.mp (exec_eq_true h)
  obtain ⟨_, hfit, hrows, hseq⟩ := AutoTable.insert_eq_some ht
  refine ⟨fun row hrow => ?_, t, hrows, hseq, rfl⟩
  have hclash := hfit row hrow
  simp only [usersConstraints, Bool.or_eq_false_iff, beq_eq_false_iff_ne] at hclash
  exact ⟨hclash.1.2, hclash.2⟩

/-- **What a visibility update writes**; that it failed is not noticed. -/
theorem updateProfileVisibility_spec (env : Env) (db : Db) (userId : Int) (v : Text) :
    ∃ t : AutoTable usersConstraints (·.userId),
      t.rows = db.users.rows.map
        (shownRow (!env.fails .updateProfileVisibility 0) userId v) ∧
      t.seq = db.users.seq ∧
      (Database.updateProfileVisibility env db userId v).2 = { db with users := t } := by
  unfold Database.updateProfileVisibility
  rw [exec_update]
  cases env.fails .updateProfileVisibility 0 with
  | true => exact ⟨db.users, by simp [shownRow], rfl, rfl⟩
  | false => exact ⟨(Database.setProfileVisibility userId v db).users, rfl, rfl, rfl⟩

/-- The second half of a registration edits at most the row with the narrowed id of
the row just inserted. -/
theorem setVisibility_spec (env : Env) (db : Db) (u p v : Text) {row : UserRow}
    (hrow : row ∈ db.users.rows) (hname : row.username = u)
    (hpw : row.password = Database.Hashpassword hasher p) :
    ∃ t : AutoTable usersConstraints (·.userId),
      t.rows = db.users.rows.map
        (shownRow (!env.fails .authenticateUser 0 && !env.fails .updateProfileVisibility 0)
          (columnInt row.userId) v) ∧
      t.seq = db.users.seq ∧
      RegisterCommand.setVisibility hasher env db u p v = { db with users := t } := by
  unfold RegisterCommand.setVisibility
  cases he : env.fails .authenticateUser 0 with
  | true =>
    rw [authenticateUser_of_fails he]
    exact ⟨db.users, by simp [shownRow], rfl, rfl⟩
  | false =>
    rw [← hname, authenticateUser_of_row he hrow hpw]
    exact updateProfileVisibility_spec env db (columnInt row.userId) v

end

/-! ## Posts and messages -/

section

variable {env : Env} {db db' : Db}

theorem createPost_true {u content : Text} {vis : Int}
    (h : Database.createPost env db u content vis = (true, db')) :
    (0 ≤ vis ∧ vis ≤ 2) ∧
      ∃ t, t.rows = db.posts.rows ++ [⟨db.posts.seq + 1, u, content, vis, env.now⟩] ∧
        t.seq = db.posts.seq + 1 ∧ db' = { db with posts := t } := by
  unfold Database.createPost at h
  split at h
  next => cases h
  next hrange =>
    obtain ⟨t, ht, rfl⟩ := Option.map_eq_some_iff.mp (exec_eq_true h)
    have hins := AutoTable.insert_eq_some ht
    exact ⟨by omega, t, hins.2.2.1, hins.2.2.2, rfl⟩

theorem isMember_iff {c : Int} {u : Text} {r : ParticipantRow} :
    Database.isMember c u r = true ↔ r = ⟨c, u⟩ := by
  obtain ⟨c', u'⟩ := r
  simp [Database.isMember]

theorem isParticipant_true {i : Nat} {c : Int} {u : Text}
    (h : Database.isParticipant env i db c u = true) :
    (⟨c, u⟩ : ParticipantRow) ∈ db.participants.rows := by
  obtain ⟨row, hrow, hmember⟩ := exists_of_select h
  rw [isMember_iff] at hmember
  exact hmember ▸ hrow

/-- Without failures the check finds exactly the participants. -/
theorem isParticipant_iff (he : env.Sound) {i : Nat} {c : Int} {u : Text} :
    Database.isParticipant env i db c u = true ↔
      (⟨c, u⟩ : ParticipantRow) ∈ db.participants.rows := by
  constructor
  · exact isParticipant_true
  · intro hmem
    exact (select_nonempty_iff he).mpr ⟨_, hmem, isMember_iff.mpr rfl⟩

theorem sendMessage_true {c : Int} {u content : Text}
    (h : Database.sendMessage env db c u content = (true, db')) :
    (⟨c, u⟩ : ParticipantRow) ∈ db.participants.rows ∧
      ∃ t, t.rows = db.messages.rows ++ [⟨db.messages.seq + 1, c, u, content, env.now⟩] ∧
        t.seq = db.messages.seq + 1 ∧ db' = { db with messages := t } := by
  unfold Database.sendMessage at h
  split at h
  next => cases h
  next hmem =>
    rw [Bool.not_eq_true', Bool.not_eq_false] at hmem
    obtain ⟨t, ht, rfl⟩ := Option.map_eq_some_iff.mp (exec_eq_true h)
    have hins := AutoTable.insert_eq_some ht
    exact ⟨isParticipant_true hmem, t, hins.2.2.1, hins.2.2.2, rfl⟩

end

/-! ## Conversations and participants -/

/-- The outcome of an attempt to attach `names` to the conversation `c`: further
participant rows of `c` for some of the names, and all of them unless an insert failed. -/
structure Attached (env : Env) (before : List ParticipantRow) (c : Int) (names : List Text)
    (after : List ParticipantRow) : Prop where
  rows : ∃ new, after = before ++ new ∧ ∀ r ∈ new, r.conversationId = c ∧ r.username ∈ names
  all : env.Joins → ∀ w ∈ names, (⟨c, w⟩ : ParticipantRow) ∈ after

theorem Attached.mono {env : Env} {before after : List ParticipantRow} {c : Int}
    {names : List Text} (h : Attached env before c names after) {r : ParticipantRow}
    (hr : r ∈ before) : r ∈ after := by
  obtain ⟨new, rfl, _⟩ := h.rows
  exact List.mem_append_left _ hr

/-- A row after an attachment was there before or is one of the attached names'. -/
theorem Attached.mem_cases {env : Env} {before after : List ParticipantRow} {c : Int}
    {names : List Text} (h : Attached env before c names after) {r : ParticipantRow}
    (hr : r ∈ after) : r ∈ before ∨ (r.conversationId = c ∧ r.username ∈ names) := by
  obtain ⟨new, rfl, hnew⟩ := h.rows
  exact (List.mem_append.mp hr).imp_right (hnew r)

/-- A conversation `id` was created with the participants `names`. -/
structure Created (env : Env) (db : Db) (names : List Text) (id : Int) (db' : Db) : Prop where
  id_eq : id = narrow (db.conversations.seq + 1)
  seq_lt : db.conversations.seq < maxRowid
  seq_eq : db'.conversations.seq = db.conversations.seq + 1
  conversations : db'.conversations.rows =
    db.conversations.rows ++ [⟨db.conversations.seq + 1, env.now⟩]
  attached : Attached env db.participants.rows id names db'.participants.rows
  users : db'.users = db.users
  friends : db'.friends = db.friends
  posts : db'.posts = db.posts
  messages : db'.messages = db.messages

section

variable {env : Env} {db db' : Db}

theorem insertParticipant_eq_some {c : Int} {w : Text}
    (h : Database.insertParticipant c w db = some db') :
    ∃ t, t.rows = db.participants.rows ++ [⟨c, w⟩] ∧ db' = { db with participants := t } := by
  obtain ⟨t, ht, rfl⟩ := Option.map_eq_some_iff.mp h
  exact ⟨t, (Table.insert_eq_some ht).2, rfl⟩

/-- An insert of a participant is refused only when the row is there. -/
theorem insertParticipant_eq_none {c : Int} {w : Text}
    (h : Database.insertParticipant c w db = none) :
    (⟨c, w⟩ : ParticipantRow) ∈ db.participants.rows := by
  have hnofit := Table.insert_eq_none.mp (Option.map_eq_none_iff.mp h)
  by_contra hno
  apply hnofit
  intro r hr
  obtain ⟨c', w'⟩ := r
  cases hclash : participantsConstraints.clash ⟨c', w'⟩ ⟨c, w⟩ with
  | false => rfl
  | true =>
    simp only [participantsConstraints, Bool.and_eq_true, beq_iff_eq] at hclash
    exact absurd (hclash.1 ▸ hclash.2 ▸ hr) hno

theorem addParticipant_spec (env : Env) (i : Nat) (db : Db) (c : Int) (w : Text) :
    ∃ t, (Database.addParticipant env i db c w).2 = { db with participants := t } ∧
      Attached env db.participants.rows c [w] t.rows ∧
      ((Database.addParticipant env i db c w).1 = true →
        (⟨c, w⟩ : ParticipantRow) ∈ t.rows) := by
  unfold Database.addParticipant
  split
  next hmem =>
    -- already a participant: nothing is inserted
    have hin := isParticipant_true hmem
    refine ⟨db.participants, rfl, ⟨⟨[], (List.append_nil _).symm, by simp⟩, fun _ x hx => ?_⟩,
      fun _ => hin⟩
    rw [List.mem_singleton.mp hx]
    exact hin
  next =>
    rcases exec_cases env .addParticipant i (Database.insertParticipant c w) db with
      ⟨db₁, he, hex⟩ | hex
    · obtain ⟨t, ht, rfl⟩ := insertParticipant_eq_some he
      have hin : (⟨c, w⟩ : ParticipantRow) ∈ t.rows := by
        rw [ht]
        simp
      rw [hex]
      refine ⟨t, rfl, ⟨⟨[⟨c, w⟩], ht, by simp⟩, fun _ x hx => ?_⟩, fun _ => hin⟩
      rw [List.mem_singleton.mp hx]
      exact hin
    · rw [hex]
      -- refused: if inserts only fail on constraints, the row was there
      refine ⟨db.participants, rfl, ⟨⟨[], (List.append_nil _).symm, by simp⟩, fun hj x hx => ?_⟩,
        fun h => by cases h⟩
      rw [List.mem_singleton.mp hx]
      unfold exec at hex
      rw [hj i] at hex
      cases hins : Database.insertParticipant c w db with
      | none => exact insertParticipant_eq_none hins
      | some db₁ =>
        rw [hins] at hex
        cases hex

/-- The loop of `addParticipants`, by induction on the names. -/
theorem addParticipants_spec (env : Env) (c : Int) :
    ∀ (names : List Text) (i : Nat) (db : Db),
      ∃ t, Database.addParticipants env c i names db = { db with participants := t } ∧
        Attached env db.participants.rows c names t.rows
  | [], _, db => ⟨db.participants, rfl, ⟨[], (List.append_nil _).symm, by simp⟩, by simp⟩
  | w :: names, i, db => by
    obtain ⟨t₁, h₁, ⟨⟨new₁, ht₁, hnew₁⟩, hall₁⟩, _⟩ := addParticipant_spec env i db c w
    obtain ⟨t₂, h₂, ⟨⟨new₂, ht₂, hnew₂⟩, hall₂⟩⟩ :=
      addParticipants_spec env c names (i + 1) { db with participants := t₁ }
    refine ⟨t₂, ?_, ⟨new₁ ++ new₂, ?_, ?_⟩, ?_⟩
    · rw [Database.addParticipants, h₁, h₂]
    · rw [ht₂, ht₁, List.append_assoc]
    · intro r hr
      rcases List.mem_append.mp hr with hr | hr
      · have := hnew₁ r hr
        exact ⟨this.1, List.mem_cons.mpr (Or.inl (List.mem_singleton.mp this.2))⟩
      · have := hnew₂ r hr
        exact ⟨this.1, List.mem_cons_of_mem _ this.2⟩
    · intro hj x hx
      rcases List.mem_cons.mp hx with rfl | hx
      · rw [ht₂]
        exact List.mem_append_left _ (hall₁ hj x (List.mem_singleton_self x))
      · exact hall₂ hj x hx

/-- The insert of a conversation followed by the attachment of its participants. -/
theorem created_of_insert (names : List Text) {db₁ : Db}
    (h : Database.insertConversation env.now db = some db₁) :
    Created env db names (narrow db₁.conversations.seq)
      (Database.addParticipants env (narrow db₁.conversations.seq) 0 names db₁) := by
  obtain ⟨t, ht, rfl⟩ := Option.map_eq_some_iff.mp h
  obtain ⟨hlt, _, hrows, hseq⟩ := AutoTable.insert_eq_some ht
  obtain ⟨p, hp, hattached⟩ :=
    addParticipants_spec env (narrow t.seq) names 0 { db with conversations := t }
  rw [hp]
  exact ⟨congrArg narrow hseq, hlt, hseq, hrows, hattached, rfl, rfl, rfl, rfl⟩

theorem createConversation_cases {u v : Text} {id : Int}
    (h : Database.createConversation env db u v = (id, db')) :
    (id = -1 ∧ db' = db) ∨ Created env db [u, v] id db' := by
  unfold Database.createConversation at h
  split at h
  next hex =>
    rw [Prod.mk.injEq] at h
    exact Or.inl ⟨h.1.symm, h.2.symm.trans (exec_eq_false hex)⟩
  next db₁ hex =>
    right
    have hcr := created_of_insert [u, v] (exec_eq_true hex)
    rw [Prod.mk.injEq] at h
    rw [← h.1, ← h.2]
    exact hcr

theorem createGroupConversation_cases {users : List Text} {id : Int}
    (h : Database.createGroupConversation env db users = (id, db')) :
    (id = -1 ∧ db' = db) ∨ Created env db users id db' := by
  unfold Database.createGroupConversation at h
  split at h
  · rw [Prod.mk.injEq] at h
    exact Or.inl ⟨h.1.symm, h.2.symm⟩
  · split at h
    next hex =>
      rw [Prod.mk.injEq] at h
      exact Or.inl ⟨h.1.symm, h.2.symm.trans (exec_eq_false hex)⟩
    next db₁ hex =>
      right
      have hcr := created_of_insert users (exec_eq_true hex)
      rw [Prod.mk.injEq] at h
      rw [← h.1, ← h.2]
      exact hcr

end

/-! ## The list -/

/-- The commands whose OK reply reports a write. An OK `chat` may have found a
conversation instead. -/
def Command.isWrite : Command → Bool
  | .register .. | .setProfileVisibility _ | .friendRequest _ | .acceptFriend _
  | .setFriendType .. | .createPost .. | .send _ | .group _ | .add _ => true
  | _ => false

/-- The changes one command of `issuer`, whose open conversation is `current`, can
make to the database `db`, with its reply and the database afterwards. -/
inductive Write (hasher : Text → Nat) (env : Env) (db : Db) (issuer : Option Text)
    (current : Option Int) : Command → Text → Db → Prop
  | unchanged {cmd : Command} {reply : Text} (h : isOk reply = true → cmd.isWrite = false) :
      Write hasher env db issuer current cmd reply db
  | register {u p e r v : Text} {shown : Bool} {t : AutoTable usersConstraints (·.userId)}
      (hu : u ≠ []) (hr : r = bytes "normal" ∨ r = bytes "admin")
      (hv : v = bytes "public" ∨ v = bytes "private")
      (hfit : ∀ row ∈ db.users.rows, row.username ≠ u ∧ row.email ≠ e)
      (hsound : env.Sound → shown = true)
      (ht : t.rows = (db.users.rows ++ [newUser hasher db.users.seq u p e r]).map
        (shownRow shown (columnInt (db.users.seq + 1)) v))
      (hseq : t.seq = db.users.seq + 1) :
      Write hasher env db issuer current (.register u p e r v) (bytes "OK User registered\n")
        { db with users := t }
  | setVisibility {u v : Text} {row : UserRow} {shown : Bool}
      {t : AutoTable usersConstraints (·.userId)} (hs : issuer = some u)
      (hv : v = bytes "public" ∨ v = bytes "private")
      (hrow : row ∈ db.users.rows) (hname : row.username = u)
      (hsound : env.Sound → shown = true)
      (ht : t.rows = db.users.rows.map (shownRow shown (columnInt row.userId) v))
      (hseq : t.seq = db.users.seq) :
      Write hasher env db issuer current (.setProfileVisibility v)
        (bytes "OK Profile visibility updated\n") { db with users := t }
  | friendRequest {u v : Text} {t : Table friendsConstraints} (hs : issuer = some u)
      (hne : u ≠ v) (hv : Database.getUserByUsername env 0 db v ≠ none)
      (hfit : ∀ r ∈ db.friends.rows, Database.isPair u v r = false)
      (ht : t.rows = db.friends.rows ++ [⟨u, v, 0, 0⟩]) :
      Write hasher env db issuer current (.friendRequest v) (bytes "OK Friend request sent\n")
        { db with friends := t }
  | acceptFriend {u v : Text} {updated inserted : Bool} {t : Table friendsConstraints}
      (hs : issuer = some u)
      (hpending : ∃ r ∈ db.friends.rows, Database.isPair v u r = true ∧ r.status = 0)
      (hfit : inserted = true → ∀ r ∈ db.friends.rows, Database.isPair u v r = false)
      (hsound : env.Sound → updated = true ∧
        (inserted = false → ∃ r ∈ db.friends.rows, Database.isPair u v r = true))
      (ht : t.rows = acceptedRows updated inserted u v db.friends.rows) :
      Write hasher env db issuer current (.acceptFriend v)
        (bytes "OK Friend request accepted\n") { db with friends := t }
  | setFriendType {u v : Text} {type : Int} {t : Table friendsConstraints} (hs : issuer = some u)
      (hrange : 0 ≤ type ∧ type ≤ 2)
      (haccepted : ∃ r ∈ db.friends.rows, Database.isPair u v r = true ∧ r.status = 1)
      (ht : t.rows = db.friends.rows.map (typeRow u v type)) :
      Write hasher env db issuer current (.setFriendType v type)
        (bytes "OK Friend type updated\n") { db with friends := t }
  | createPost {u content : Text} {vis : Int} {t : AutoTable postsConstraints (·.postId)}
      (hs : issuer = some u) (hc : content ≠ []) (hrange : 0 ≤ vis ∧ vis ≤ 2)
      (ht : t.rows = db.posts.rows ++ [⟨db.posts.seq + 1, u, content, vis, env.now⟩])
      (hseq : t.seq = db.posts.seq + 1) :
      Write hasher env db issuer current (.createPost vis content) (bytes "OK Post created\n")
        { db with posts := t }
  | chat {u v : Text} {id : Int} {db' : Db} (hs : issuer = some u) (hne : u ≠ v)
      (hv : Database.getUserByUsername env 0 db v ≠ none)
      (hprivate : Database.getPrivateConversation env db u v = none)
      (hcreated : Created env db [u, v] id db') :
      Write hasher env db issuer current (.chat v) (ChatCommand.created id) db'
  | group {u : Text} {users : List Text} {id : Int} {reply : Text} {db' : Db}
      (hs : issuer = some u)
      (hknown : ∀ w ∈ users ++ [u], ∃ row ∈ db.users.rows, row.username = w)
      (hcreated : Created env db (users ++ [u]) id db')
      (hreply : reply = if id = -1 then bytes "ERROR Failed to create group"
        else bytes "OK Group created. conversation_id = " ++ intText id) :
      Write hasher env db issuer current (.group users) reply db'
  | send {u content : Text} {c : Int} {t : AutoTable messagesConstraints (·.messageId)}
      (hs : issuer = some u) (hc : current = some c)
      (hmem : (⟨c, u⟩ : ParticipantRow) ∈ db.participants.rows)
      (ht : t.rows = db.messages.rows ++ [⟨db.messages.seq + 1, c, u, content, env.now⟩])
      (hseq : t.seq = db.messages.seq + 1) :
      Write hasher env db issuer current (.send content) (bytes "OK Message sent")
        { db with messages := t }
  | add {u w : Text} {c : Int} {t : Table participantsConstraints} (hs : issuer = some u)
      (hc : current = some c) (hw : Database.getUserByUsername env 0 db w ≠ none)
      (hattached : Attached env db.participants.rows c [w] t.rows)
      (hmem : (⟨c, w⟩ : ParticipantRow) ∈ t.rows) :
      Write hasher env db issuer current (.add w) (bytes "OK User added to group")
        { db with participants := t }

/-- The validation loop of `group` finds every name registered. -/
theorem unknown_eq_none {env : Env} {a : App} :
    ∀ (users : List Text) (i : Nat), GroupCommand.unknown env a i users = none →
      ∀ w ∈ users, ∃ row ∈ a.db.users.rows, row.username = w
  | [], _, _ => by simp
  | u :: users, i, h => by
    rw [GroupCommand.unknown] at h
    split at h
    next => cases h
    next hu =>
      intro w hw
      rcases List.mem_cons.mp hw with rfl | hw
      · cases huser : Database.getUserByUsername env i a.db w with
        | none => exact absurd (by rw [huser]; rfl) hu
        | some user =>
          obtain ⟨row, hrow, hname, _⟩ := getUserByUsername_eq_some huser
          exact ⟨row, hrow, hname⟩
      · exact unknown_eq_none users (i + 1) h w hw

/-- **Every outcome of a command writes one of the listed changes.** -/
theorem Effect.write {hasher : Text → Nat} {env : Env} {sd : Int} {a : App} {cmd : Command}
    {r : Text × App} (h : Effect hasher env sd a cmd r) :
    Write hasher env a.db (a.sessions.sessions sd) (a.sessions.currentConversation sd) cmd r.1
      r.2.db := by
  cases h with
  | @idle cmd reply hread =>
    refine .unchanged fun hok => ?_
    have := hread hok
    cases cmd <;> first | rfl | cases this
  | login => exact .unchanged fun _ => rfl
  | logout => exact .unchanged fun _ => rfl
  | chatExists => exact .unchanged fun _ => rfl
  | openConversation => exact .unchanged fun _ => rfl
  | @register u p e r v db hu _ _ hr hv hreg =>
    obtain ⟨hfit, t₁, hrows, hseq, hdb₁⟩ := registerUser_true hreg
    -- the visibility is set on the row just inserted, found by its credentials
    have hin : newUser hasher a.db.users.seq u p e r ∈ db.users.rows := by
      rw [hdb₁, hrows]
      simp
    obtain ⟨t, ht, hseq', hdb⟩ := setVisibility_spec env db u p v hin rfl rfl
    show Write _ _ _ _ _ _ _ (RegisterCommand.setVisibility hasher env db u p v)
    rw [hdb]
    subst hdb₁
    rw [hrows] at ht
    refine .register hu hr hv hfit (fun he => ?_) ht (hseq'.trans hseq)
    rw [he, he]
    rfl
  | @setProfileVisibility u v user hs hv huser =>
    obtain ⟨row, hrow, hname, rfl⟩ := getUserByUsername_eq_some huser
    obtain ⟨t, ht, hseq, hdb⟩ := updateProfileVisibility_spec env a.db (columnInt row.userId) v
    show Write _ _ _ _ _ _ _ (Database.updateProfileVisibility env a.db (columnInt row.userId) v).2
    rw [hdb]
    exact .setVisibility hs hv hrow hname (fun he => by rw [he]; rfl) ht hseq
  | friendRequest hs hne hv _ hsend =>
    obtain ⟨hfit, t, ht, rfl⟩ := sendFriendRequest_true hsend
    exact .friendRequest hs hne hv hfit ht
  | acceptFriend hs hacc =>
    obtain ⟨hpending, t, ht, rfl⟩ := acceptFriendRequest_true hacc
    refine .acceptFriend hs hpending (fun hins r hr => ?_) (fun he => ?_) ht
    · rw [Bool.and_eq_true, Bool.not_eq_true', Bool.not_eq_true'] at hins
      rw [← Bool.not_eq_true]
      exact List.any_eq_false.mp hins.2 r hr
    · rw [he, he]
      refine ⟨rfl, fun hins => List.any_eq_true.mp ?_⟩
      rw [Bool.not_false, Bool.true_and, Bool.not_eq_false'] at hins
      exact hins
  | setFriendType hs hset =>
    obtain ⟨hrange, haccepted, t, ht, rfl⟩ := setFriendType_true hset
    exact .setFriendType hs hrange haccepted ht
  | createPost hs hc hpost =>
    obtain ⟨hrange, t, ht, hseq, rfl⟩ := createPost_true hpost
    exact .createPost hs hc hrange ht hseq
  | chat hs hne hv hprivate hcreate =>
    rcases createConversation_cases hcreate with ⟨_, rfl⟩ | hcreated
    · exact .unchanged fun _ => rfl
    · exact .chat hs hne hv hprivate hcreated
  | send hs hc hsend =>
    obtain ⟨hmem, t, ht, hseq, rfl⟩ := sendMessage_true hsend
    exact .send hs hc hmem ht hseq
  | group hs hknown hcreate =>
    unfold GroupCommand.created
    rcases createGroupConversation_cases hcreate with ⟨rfl, rfl⟩ | hcreated
    · refine .unchanged fun hok => ?_
      cases hok
    · split
      next hid => exact .group hs (unknown_eq_none _ 0 hknown) hcreated (if_pos hid).symm
      next hid => exact .group hs (unknown_eq_none _ 0 hknown) hcreated (if_neg hid).symm
  | @add u w c db hs hc hw hadd =>
    obtain ⟨t, ht, hattached, hmem⟩ := addParticipant_spec env 0 a.db c w
    rw [hadd] at ht hmem
    cases ht
    exact .add hs hc hw hattached (hmem rfl)

/-! ## One step of the server -/

/-- No insert of a participant fails at this event for a reason other than a constraint. -/
def Event.Joins : Event → Prop
  | .recv _ env _ => env.Joins
  | _ => True

/-- No insert of a participant failed in this step for a reason other than a constraint. -/
def JoinStep (x : Step LoopState Event) : Prop := x.event.Joins

theorem JoinStep.env {x : Step LoopState Event} {i : Slot} {env : Env} {data : Text}
    (h : JoinStep x) (he : x.event = .recv i env data) : env.Joins := by
  unfold JoinStep at h
  rw [he] at h
  exact h

theorem SoundStep.join {x : Step LoopState Event} (h : SoundStep x) : JoinStep x := by
  unfold SoundStep at h
  unfold JoinStep
  cases he : x.event with
  | recv i env data =>
    rw [he] at h
    exact Env.Sound.joins h
  | _ => exact trivial

/-- The conversation open on the step's descriptor when it was taken. -/
def currentOf (x : Step LoopState Event) : Option Int :=
  x.pre.app.sessions.currentConversation (sdOf x)

/-- **What one step of the server does to the database**: nothing if it executes no
command, and otherwise one of the listed writes of its command. -/
theorem step_write (hasher : Text → Nat) (x : Step LoopState Event) :
    (commandOf x = none ∧ repliedOk hasher x = false ∧
        (next hasher x.pre x.event).app.db = x.pre.app.db) ∨
      ∃ i env data cmd reply, x.event = .recv i env data ∧ commandOf x = some cmd ∧
        replyOf hasher x = some reply ∧
        Write hasher env x.pre.app.db (issuerOf x) (currentOf x) cmd reply
          (next hasher x.pre x.event).app.db := by
  obtain ⟨s, e⟩ := x
  cases e with
  | accept fd => exact Or.inl ⟨rfl, rfl, rfl⟩
  | hangup i => exact Or.inl ⟨rfl, rfl, rfl⟩
  | recv i env data =>
    rcases handle_cases hasher env (s.clientSocket i) data s.app with ⟨hcmd, h⟩ | ⟨cmd, hcmd, h⟩
    · refine Or.inl ⟨hcmd, ?_, ?_⟩
      · show isOk (handle hasher env (s.clientSocket i) data s.app).1 = false
        rw [h]
        rfl
      · show (handle hasher env (s.clientSocket i) data s.app).2.db = s.app.db
        rw [h]
    · exact Or.inr ⟨i, env, data, cmd, _, rfl, hcmd, rfl, h.write⟩

/-- **The rule for the database**: a property that holds before a step, and that every
listed write of its command establishes, holds after the step. -/
theorem step_db {hasher : Text → Nat} {x : Step LoopState Event} {I : Db → Prop}
    (hI : I x.pre.app.db)
    (hwrite : ∀ {env cmd reply db'},
      Write hasher env x.pre.app.db (issuerOf x) (currentOf x) cmd reply db' → I db') :
    I (next hasher x.pre x.event).app.db := by
  rcases step_write hasher x with ⟨_, _, hdb⟩ | ⟨_, _, _, _, _, _, _, _, hw⟩
  · rw [hdb]
    exact hI
  · exact hwrite hw

/-- **The same over runs**: a property of the empty database that every listed write keeps
holds after every run. -/
theorem db_invariant {hasher : Text → Nat} {serverSocket : Int} {I : Db → Prop} (h0 : I Db.empty)
    (hwrite : ∀ {env db issuer current cmd reply db'},
      Write hasher env db issuer current cmd reply db' → I db → I db')
    {h : History LoopState Event} {s : LoopState} (hr : (machine hasher serverSocket).Run h s) :
    I s.app.db :=
  app_invariant (Q := fun _ => True) (I := fun a => I a.db) h0 (fun _ _ hI => hI)
    (fun h _ _ hI => hwrite h.write hI) hr fun _ _ _ _ _ _ => trivial

/-- The reply and the state of a step that executes a command. -/
theorem step_execute (hasher : Text → Nat) {x : Step LoopState Event} {cmd : Command}
    (hcmd : commandOf x = some cmd) :
    ∃ i env data, x.event = .recv i env data ∧
      replyOf hasher x = some (execute hasher env (sdOf x) x.pre.app cmd).1 ∧
      (next hasher x.pre x.event).app = (execute hasher env (sdOf x) x.pre.app cmd).2 := by
  obtain ⟨s, e⟩ := x
  cases e with
  | accept fd => cases hcmd
  | hangup i => cases hcmd
  | recv i env data =>
    have hhandle := handle_of_some hasher env (s.clientSocket i) s.app hcmd
    exact ⟨i, env, data, rfl, congrArg some (congrArg Prod.fst hhandle), congrArg Prod.snd hhandle⟩

/-- A command that writes but left the database alone did not report a write. -/
theorem not_isOk_of_unchanged {cmd : Command} {reply : Text}
    (h : isOk reply = true → cmd.isWrite = false) (hwrite : cmd.isWrite = true) :
    isOk reply = false := by
  rw [← Bool.not_eq_true]
  intro hok
  rw [h hok] at hwrite
  cases hwrite

theorem repliedOk_of_reply {hasher : Text → Nat} {x : Step LoopState Event} {reply : Text}
    (h : replyOf hasher x = some reply) : repliedOk hasher x = isOk reply := by
  unfold repliedOk
  rw [h]

/-- The write of a step whose command is known. -/
theorem write_of_command (hasher : Text → Nat) {x : Step LoopState Event} {cmd : Command}
    (hcmd : commandOf x = some cmd) :
    ∃ i env data reply, x.event = .recv i env data ∧ repliedOk hasher x = isOk reply ∧
      Write hasher env x.pre.app.db (issuerOf x) (currentOf x) cmd reply
        (next hasher x.pre x.event).app.db := by
  rcases step_write hasher x with ⟨hnone, _, _⟩ | ⟨i, env, data, cmd', reply, he, hcmd', hr, hw⟩
  · rw [hnone] at hcmd
    cases hcmd
  · rw [hcmd, Option.some.injEq] at hcmd'
    subst hcmd'
    exact ⟨i, env, data, reply, he, repliedOk_of_reply hr, hw⟩

end SocialNetwork.Server
