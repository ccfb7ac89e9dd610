import SocialNetwork.Friends.Symmetry
import SocialNetwork.Messaging.Numbering

/-!
# What a reply says about the database

An ERROR reply leaves everything as it was (`error_unchanged`), since every error exit
of a handler comes before its first effective write. The converse direction is weaker: an
OK reply promises its whole effect (`Done`) only if no statement whose result is ignored
failed. `Unhindered` is that condition, one line per command, and `ok_done_iff` shows that
it is exact.

The lemmas about attachments are the exact form of what `Attached` bounds: which of the
participant rows are there afterwards, name by name.
-/

namespace SocialNetwork.Server

open SocialNetwork.Lib

variable {hasher : Text → Nat} {serverSocket : Int}

/-- A reply that reports a failure starts with `ERROR`. -/
def isError (reply : Text) : Bool := (bytes "ERROR").isPrefixOf reply

theorem not_isOk_of_isError {reply : Text} (h : isError reply = true) : isOk reply = false := by
  cases reply with
  | nil => cases h
  | cons b rest =>
    -- the first byte decides
    have hb : ((69 : UInt8) == b && [82, 82, 79, 82].isPrefixOf rest) = true := h
    rw [Bool.and_eq_true, beq_iff_eq] at hb
    rw [← hb.1]
    rfl

/-! ## Errors leave the state alone -/

/-- The reply to a new chat is OK while ids fit. -/
theorem isOk_chat_created {id : Int} (h : 0 ≤ id) : isOk (ChatCommand.created id) = true := by
  unfold ChatCommand.created
  rw [if_neg (by omega)]
  rfl

/-- **Every outcome is reported as OK or changes nothing.** -/
theorem Effect.ok_or_unchanged {env : Env} {sd : Int} {a : App} {cmd : Command} {r : Text × App}
    (h : Effect hasher env sd a cmd r) (hc : Counted a.db) (hf : FewConversations r.2.db) :
    isOk r.1 = true ∨ r.2 = a := by
  have hpos := a.db.conversations.nonneg
  cases h with
  | idle => exact Or.inr rfl
  | chatExists => exact Or.inr rfl
  | chat _ _ _ _ hcreate =>
    rcases createConversation_cases hcreate with ⟨_, rfl⟩ | hcreated
    · exact Or.inr rfl
    · left
      have hid := hcreated.id_eq_next hc hf
      exact isOk_chat_created (by omega)
  | @group u users id db _ _ hcreate =>
    rcases createGroupConversation_cases hcreate with ⟨rfl, rfl⟩ | hcreated
    · exact Or.inr rfl
    · left
      rw [GroupCommand.created_db] at hf
      have hid := hcreated.id_eq_next hc hf
      unfold GroupCommand.created
      rw [if_neg (by omega)]
      rfl
  | _ => exact Or.inl rfl

/-- **Errors leave the state intact**: whatever a socket sends and whichever statements
fail, an ERROR reply means that nothing changed, and the reading commands change nothing
whatever they reply. -/
theorem error_unchanged {h : History LoopState Event} {s : LoopState}
    (hr : (machine hasher serverSocket).Run h s) (env : Env) (sd : Int) (data : Text)
    (hf : FewConversations (handle hasher env sd data s.app).2.db) :
    (isError (handle hasher env sd data s.app).1 = true →
        (handle hasher env sd data s.app).2 = s.app) ∧
      ∀ cmd, CommandFactory.create env.junk (inputOf data) = some cmd → cmd.isRead = true →
        (handle hasher env sd data s.app).2 = s.app := by
  refine ⟨fun herr => ?_, fun cmd hcmd hread => ?_⟩
  · rcases handle_cases hasher env sd data s.app with ⟨_, h⟩ | ⟨cmd, _, h⟩
    · rw [h]
    · rcases h.ok_or_unchanged (counted_run hr) hf with hok | hsame
      · rw [not_isOk_of_isError herr] at hok
        cases hok
      · exact hsame
  · rw [handle_of_some hasher env sd s.app hcmd]
    cases cmd <;> first | rfl | cases hread

/-- The environment in which the statement `st` fails. -/
def Env.failing (st : Stmt) : Env := { Env.plain with fails := fun st' _ => st' == st }

/-- Two registered users, the first of them logged in on descriptor 4. -/
def loggedInEvents : List Event :=
  [.accept 4, .line 0 "register a p a@x normal public\n",
    .line 0 "register b p b@x normal public\n", .line 0 "login a p\n"]

theorem error_unchanged_group :
    ∃ h s, (machine List.length 3).Run h s ∧
      isError (handle List.length (.failing .insertConversation) 4 (bytes "group b\n") s.app).1 =
        true ∧
      (handle List.length (.failing .insertConversation) 4 (bytes "group b\n") s.app).2 =
        s.app := by
  obtain ⟨h, s, _, hrun, _, herr, hf⟩ := runEvents_exists List.length 3 loggedInEvents
    (p := fun _ s =>
      isError (handle List.length (.failing .insertConversation) 4 (bytes "group b\n") s.app).1 =
        true ∧
      (handle List.length (.failing .insertConversation) 4 (bytes "group b\n")
        s.app).2.db.conversations.rows.length < 2147483648)
    (by simp [loggedInEvents]) (by decide)
  exact ⟨h, s, hrun, herr, (error_unchanged hrun _ 4 _ hf).1 herr⟩

/-! ## The complete effect of a command -/

/-- A conversation that was not there before has all the given members. -/
def NewRoom (before after : Db) (names : List Text) : Prop :=
  ∃ c, ¬ Exists before c ∧ Exists after c ∧ ∀ w ∈ names, Member after c w

/-- The complete effect of a state-changing command is in the database. The sessions are
not part of it. -/
def Done (hasher : Text → Nat) (env : Env) (sd : Int) (before : App) (after : Db) :
    Command → Prop
  | .register u p e r v =>
    ∃ row ∈ after.users.rows, row.username = u ∧
      row.password = Database.Hashpassword hasher p ∧ row.email = e ∧ row.userType = r ∧
      row.profileVisibility = v
  | .setProfileVisibility v =>
    ∃ row ∈ after.users.rows, row.username = before.sessions.getUsername sd ∧
      row.profileVisibility = v
  | .friendRequest v =>
    after.friends.rows = before.db.friends.rows ++ [⟨before.sessions.getUsername sd, v, 0, 0⟩]
  | .acceptFriend v =>
    let u := before.sessions.getUsername sd
    (∃ r ∈ after.friends.rows, Database.isPair v u r = true ∧ r.status = 1) ∧
      ∃ r ∈ after.friends.rows, Database.isPair u v r = true ∧ r.status = 1
  | .setFriendType v type =>
    ∃ r ∈ after.friends.rows, Database.isPair (before.sessions.getUsername sd) v r = true ∧
      r.status = 1 ∧ r.friendType = type
  | .createPost vis content =>
    ∃ id, after.posts.rows =
      before.db.posts.rows ++ [⟨id, before.sessions.getUsername sd, content, vis, env.now⟩]
  | .chat v =>
    let u := before.sessions.getUsername sd
    Database.getPrivateConversation env before.db u v = none → NewRoom before.db after [u, v]
  | .send content =>
    ∃ id, after.messages.rows = before.db.messages.rows ++
      [⟨id, before.sessions.getCurrentConversation sd, before.sessions.getUsername sd, content,
        env.now⟩]
  | .group users => NewRoom before.db after (users ++ [before.sessions.getUsername sd])
  | .add w => Member after (before.sessions.getCurrentConversation sd) w
  | _ => True

/-- Every name gets attached to the next conversation: its id fits in an `int`, and for
each name one of the inserts of its participant row does not fail. -/
def Attachable (env : Env) (db : Db) (names : List Text) : Prop :=
  db.conversations.seq < intMax ∧
    ∀ w ∈ names, ∃ i : Nat, names[i]? = some w ∧ env.fails .addParticipant i = false

/-- No ignored result hides a failure: the condition for an OK reply to be true. -/
def Unhindered (env : Env) (sd : Int) (a : App) : Command → Prop
  | .register _ _ _ _ v =>
    v = bytes "public" ∨
      (env.fails .authenticateUser 0 = false ∧ env.fails .updateProfileVisibility 0 = false ∧
        a.db.users.seq < intMax)
  | .setProfileVisibility v =>
    ∃ row ∈ a.db.users.rows, row.username = a.sessions.getUsername sd ∧
      (row.profileVisibility = v ∨
        (env.fails .updateProfileVisibility 0 = false ∧ row.userId ≤ intMax))
  | .acceptFriend v =>
    let u := a.sessions.getUsername sd
    env.fails .acceptUpdate 0 = false ∧
      ((∃ r ∈ a.db.friends.rows, Database.isPair u v r = true ∧ r.status = 1) ∨
        (env.fails .acceptInsertReverse 0 = false ∧
          ∀ r ∈ a.db.friends.rows, Database.isPair u v r = false))
  | .chat v =>
    let u := a.sessions.getUsername sd
    Database.getPrivateConversation env a.db u v = none → Attachable env a.db [u, v]
  | .group users => Attachable env a.db (users ++ [a.sessions.getUsername sd])
  | _ => True

/-! ## Attachments, name by name -/

section

variable {env : Env} {db db' : Db}

theorem addParticipant_member (env : Env) (i : Nat) (db : Db) (c : Int) (w : Text) (d : Int)
    (x : Text) :
    Member (Database.addParticipant env i db c w).2 d x ↔
      Member db d x ∨ (d = c ∧ x = w ∧ env.fails .addParticipant i = false) := by
  -- a row that is there already is the same row
  have hthere : Member db c w → (Member db d x ↔
      Member db d x ∨ (d = c ∧ x = w ∧ env.fails .addParticipant i = false)) := by
    intro hin
    refine ⟨Or.inl, fun h => ?_⟩
    rcases h with hold | ⟨rfl, rfl, _⟩
    · exact hold
    · exact hin
  unfold Database.addParticipant
  split
  next hmem => exact hthere (isParticipant_true hmem)
  next =>
    unfold exec
    cases hfail : env.fails .addParticipant i with
    | true => simp
    | false =>
      rw [hfail] at hthere
      cases hins : Database.insertParticipant c w db with
      | none => exact hthere (insertParticipant_eq_none hins)
      | some db₁ =>
        obtain ⟨t, ht, rfl⟩ := insertParticipant_eq_some hins
        show (⟨d, x⟩ : ParticipantRow) ∈ t.rows ↔ _
        rw [ht, List.mem_append, List.mem_singleton, ParticipantRow.mk.injEq]
        simp [Member]

/-- The loop, by induction on the names: occurrence `i + j` attaches the `j`-th of them. -/
theorem addParticipants_member (env : Env) (c d : Int) (x : Text) (names : List Text) (i : Nat)
    (db : Db) :
    Member (Database.addParticipants env c i names db) d x ↔
      Member db d x ∨
        (d = c ∧ ∃ j, names[j]? = some x ∧ env.fails .addParticipant (i + j) = false) := by
  induction names generalizing i db with
  | nil => simp [Database.addParticipants]
  | cons w names ih =>
    rw [Database.addParticipants, ih, addParticipant_member, or_assoc]
    refine or_congr Iff.rfl ⟨?_, ?_⟩
    · rintro (⟨hd, rfl, hok⟩ | ⟨hd, j, hj, hok⟩)
      · exact ⟨hd, 0, rfl, hok⟩
      · exact ⟨hd, j + 1, hj, by rw [← hok]; congr 1; omega⟩
    · rintro ⟨hd, j, hj, hok⟩
      cases j with
      | zero =>
        rw [List.getElem?_cons_zero, Option.some.injEq] at hj
        exact Or.inl ⟨hd, hj.symm, hok⟩
      | succ j =>
        rw [List.getElem?_cons_succ] at hj
        exact Or.inr ⟨hd, j, hj, by rw [← hok]; congr 1; omega⟩

/-- The members after an attachment of `names` to `id`, exactly. -/
def Attaches (env : Env) (db : Db) (names : List Text) (id : Int) (db' : Db) : Prop :=
  ∀ d w, Member db' d w ↔ Member db d w ∨
    (d = id ∧ ∃ i : Nat, names[i]? = some w ∧ env.fails .addParticipant i = false)

theorem attaches_of_insert (names : List Text) (id : Int) {db₁ : Db}
    (h : Database.insertConversation env.now db = some db₁) :
    Attaches env db names id (Database.addParticipants env id 0 names db₁) := by
  obtain ⟨t, _, rfl⟩ := Option.map_eq_some_iff.mp h
  intro d w
  rw [addParticipants_member]
  simp [Member]

/-- A method that created a conversation did not stop at the insert. -/
theorem Created.db_ne {names : List Text} {id : Int} (h : Created env db names id db') :
    db' ≠ db := by
  rintro rfl
  have := h.seq_eq
  omega

theorem createConversation_attaches {u v : Text} {id : Int}
    (h : Database.createConversation env db u v = (id, db'))
    (hc : Created env db [u, v] id db') : Attaches env db [u, v] id db' := by
  unfold Database.createConversation at h
  split at h
  next hex =>
    rw [Prod.mk.injEq] at h
    exact absurd (h.2.symm.trans (exec_eq_false hex)) hc.db_ne
  next db₁ hex =>
    have hat := attaches_of_insert [u, v] (narrow db₁.conversations.seq) (exec_eq_true hex)
    rw [Prod.mk.injEq] at h
    rw [← h.1, ← h.2]
    exact hat

theorem createGroupConversation_attaches {users : List Text} {id : Int}
    (h : Database.createGroupConversation env db users = (id, db'))
    (hc : Created env db users id db') : Attaches env db users id db' := by
  unfold Database.createGroupConversation at h
  split at h
  next =>
    rw [Prod.mk.injEq] at h
    exact absurd h.2.symm hc.db_ne
  next =>
    split at h
    next hex =>
      rw [Prod.mk.injEq] at h
      exact absurd (h.2.symm.trans (exec_eq_false hex)) hc.db_ne
    next db₁ hex =>
      have hat := attaches_of_insert users (narrow db₁.conversations.seq) (exec_eq_true hex)
      rw [Prod.mk.injEq] at h
      rw [← h.1, ← h.2]
      exact hat

/-- **A new conversation has all its members exactly if they were attachable.** -/
theorem newRoom_iff {names : List Text} {id : Int} (hc : Created env db names id db')
    (hat : Attaches env db names id db')
    (hissued : ∀ r ∈ db.participants.rows, Issued db r.conversationId) (hne : names ≠ []) :
    NewRoom db db' names ↔ Attachable env db names := by
  have hnonneg := db.conversations.nonneg
  -- nobody was in the next conversation before
  have hmember : ∀ w, Member db' (db.conversations.seq + 1) w ↔
      (db.conversations.seq + 1 = id ∧
        ∃ i : Nat, names[i]? = some w ∧ env.fails .addParticipant i = false) := by
    intro w
    rw [hat, or_iff_right]
    exact fun hold => not_issued_next db (hissued _ hold)
  have hid : db.conversations.seq + 1 = id ↔ db.conversations.seq < intMax := by
    rw [hc.id_eq, eq_comm, narrow_eq_self_iff]
    unfold intMin
    omega
  constructor
  · rintro ⟨c, hold, hnew, hall⟩
    obtain rfl : c = db.conversations.seq + 1 := by
      rcases (hc.exists_iff c).mp hnew with h | h
      · exact absurd h hold
      · exact h
    refine ⟨?_, fun w hw => ((hmember w).mp (hall w hw)).2⟩
    obtain ⟨w, hw⟩ := List.exists_mem_of_ne_nil names hne
    exact hid.mp ((hmember w).mp (hall w hw)).1
  · rintro ⟨hlt, hall⟩
    exact ⟨_, not_exists_next db, (hc.exists_iff _).mpr (Or.inr rfl), fun w hw =>
      (hmember w).mpr ⟨hid.mpr hlt, hall w hw⟩⟩

end

/-! ## The commands that ignore a result -/

section

variable {env : Env} {db db' : Db} {u v : Text}

theorem register_done_iff {p e r : Text}
    (hreg : Database.registerUser hasher env db u p e r = (true, db')) :
    (∃ row ∈ (RegisterCommand.setVisibility hasher env db' u p v).users.rows, row.username = u ∧
      row.password = Database.Hashpassword hasher p ∧ row.email = e ∧ row.userType = r ∧
      row.profileVisibility = v) ↔
      v = bytes "public" ∨
        (env.fails .authenticateUser 0 = false ∧ env.fails .updateProfileVisibility 0 = false ∧
          db.users.seq < intMax) := by
  obtain ⟨hfit, t₁, hrows, _, rfl⟩ := registerUser_true hreg
  have hin : newUser hasher db.users.seq u p e r ∈ t₁.rows := by
    rw [hrows]
    exact List.mem_append_right _ (List.mem_singleton_self _)
  obtain ⟨t, ht, _, hdb⟩ := setVisibility_spec env { db with users := t₁ } u p v hin rfl rfl
  rw [hdb]
  have hid : columnInt (db.users.seq + 1) = db.users.seq + 1 ↔ db.users.seq < intMax := by
    have hnonneg := db.users.nonneg
    unfold columnInt
    rw [narrow_eq_self_iff]
    unfold intMin
    omega
  constructor
  · rintro ⟨row, hmem, hname, _, _, _, hvis⟩
    -- the row of the new name is the new row
    obtain ⟨row₀, hmem₀, rfl⟩ := List.mem_map.mp (ht ▸ hmem)
    rw [shownRow_username] at hname
    obtain rfl : row₀ = newUser hasher db.users.seq u p e r := by
      rcases mem_inserted hrows hmem₀ with hold | hnew
      · exact absurd hname (hfit row₀ hold).1
      · exact hnew
    rw [shownRow_profileVisibility] at hvis
    split at hvis
    next hshown =>
      rw [Bool.and_eq_true, Bool.and_eq_true, Bool.not_eq_true', Bool.not_eq_true',
        beq_iff_eq] at hshown
      exact Or.inr ⟨hshown.1.1, hshown.1.2, hid.mp hshown.2.symm⟩
    next => exact Or.inl hvis.symm
  · intro h
    refine ⟨_, ht ▸ List.mem_map_of_mem hin, shownRow_username .., shownRow_password ..,
      shownRow_email .., shownRow_userType .., ?_⟩
    rw [shownRow_profileVisibility]
    rcases h with rfl | ⟨hauth, hupdate, hlt⟩
    · split <;> rfl
    · rw [if_pos]
      rw [hauth, hupdate]
      exact beq_iff_eq.mpr (hid.mpr hlt).symm

theorem setVisibility_done_iff {row : UserRow} (hrow : row ∈ db.users.rows)
    (hname : row.username = u) :
    (∃ row' ∈ (Database.updateProfileVisibility env db (columnInt row.userId) v).2.users.rows,
      row'.username = u ∧ row'.profileVisibility = v) ↔
      ∃ row ∈ db.users.rows, row.username = u ∧
        (row.profileVisibility = v ∨
          (env.fails .updateProfileVisibility 0 = false ∧ row.userId ≤ intMax)) := by
  obtain ⟨t, ht, _, hdb⟩ := updateProfileVisibility_spec env db (columnInt row.userId) v
  rw [hdb]
  have hid : row.userId = columnInt row.userId ↔ row.userId ≤ intMax := by
    have hpos := (db.users.bounded row hrow).1
    unfold columnInt
    rw [eq_comm, narrow_eq_self_iff]
    unfold intMin
    omega
  constructor
  · rintro ⟨row', hmem, hname', hvis⟩
    obtain ⟨row₀, hmem₀, rfl⟩ := List.mem_map.mp (ht ▸ hmem)
    rw [shownRow_username] at hname'
    obtain rfl := eq_of_username hmem₀ hrow (hname'.trans hname.symm)
    refine ⟨row₀, hrow, hname, ?_⟩
    rw [shownRow_profileVisibility] at hvis
    split at hvis
    next hshown =>
      rw [Bool.and_eq_true, Bool.not_eq_true', beq_iff_eq] at hshown
      exact Or.inr ⟨hshown.1, hid.mp hshown.2⟩
    next => exact Or.inl hvis
  · rintro ⟨row', hrow', hname', h⟩
    obtain rfl := eq_of_username hrow' hrow (hname'.trans hname.symm)
    refine ⟨_, ht ▸ List.mem_map_of_mem hrow, (shownRow_username ..).trans hname, ?_⟩
    rw [shownRow_profileVisibility]
    split
    next => rfl
    next hshown =>
      rcases h with hvis | ⟨hupdate, hle⟩
      · exact hvis
      · refine absurd ?_ hshown
        rw [hupdate]
        exact beq_iff_eq.mpr (hid.mpr hle)

/-- The pending row is accepted unless the update failed. -/
theorem accepted_forward_iff {updated inserted : Bool} {r₀ : FriendRow}
    (hr₀ : r₀ ∈ db.friends.rows) (hpair : Database.isPair v u r₀ = true) (hpending : r₀.status = 0)
    (hne : u ≠ v) :
    (∃ r ∈ acceptedRows updated inserted u v db.friends.rows,
      Database.isPair v u r = true ∧ r.status = 1) ↔ updated = true := by
  unfold acceptedRows
  constructor
  · rintro ⟨r, hr, hpair', hstatus⟩
    cases updated with
    | true => rfl
    | false =>
      rcases List.mem_append.mp hr with hold | hnew
      · -- the pair has one row, and it is pending
        rw [eq_of_isPair hold hr₀ hpair' hpair, hpending] at hstatus
        cases hstatus
      · split at hnew
        next =>
          rw [List.mem_singleton.mp hnew] at hpair'
          exact absurd (isPair_iff.mp hpair').1 hne
        next => cases hnew
  · rintro rfl
    refine ⟨acceptRow v u r₀, List.mem_append_left _ (List.mem_map_of_mem hr₀), ?_, ?_⟩
    · rw [isPair_acceptRow]
      exact hpair
    · rw [acceptRow_status, if_pos hpair]

/-- The reverse row is accepted if it was, or if it was inserted. -/
theorem accepted_reverse_iff {updated inserted : Bool} (hne : u ≠ v) {rows : List FriendRow} :
    (∃ r ∈ acceptedRows updated inserted u v rows,
      Database.isPair u v r = true ∧ r.status = 1) ↔
      (∃ r ∈ rows, Database.isPair u v r = true ∧ r.status = 1) ∨ inserted = true := by
  -- the update is about the other pair
  have hkeep : ∀ {r}, Database.isPair u v r = true → acceptRow v u r = r := by
    intro r hpair
    unfold acceptRow Table.rewrite
    rw [if_neg]
    intro hother
    exact hne ((isPair_iff.mp hpair).1.symm.trans (isPair_iff.mp hother).1)
  unfold acceptedRows
  constructor
  · rintro ⟨r, hr, hpair, hstatus⟩
    rcases List.mem_append.mp hr with hold | hnew
    · left
      split at hold
      next =>
        obtain ⟨r₁, hr₁, rfl⟩ := List.mem_map.mp hold
        rw [isPair_acceptRow] at hpair
        rw [hkeep hpair] at hstatus
        exact ⟨r₁, hr₁, hpair, hstatus⟩
      next => exact ⟨r, hold, hpair, hstatus⟩
    · right
      cases inserted with
      | true => rfl
      | false => cases hnew
  · rintro (⟨r, hr, hpair, hstatus⟩ | rfl)
    · refine ⟨r, List.mem_append_left _ ?_, hpair, hstatus⟩
      split
      next => exact hkeep hpair ▸ List.mem_map_of_mem hr
      next => exact hr
    · exact ⟨⟨u, v, 0, 1⟩, List.mem_append_right _ (List.mem_singleton_self _),
        isPair_iff.mpr ⟨rfl, rfl⟩, rfl⟩

theorem accept_done_iff (hacc : Database.acceptFriendRequest env db u v = (true, db'))
    (hself : NoSelfRows db) :
    ((∃ r ∈ db'.friends.rows, Database.isPair v u r = true ∧ r.status = 1) ∧
      ∃ r ∈ db'.friends.rows, Database.isPair u v r = true ∧ r.status = 1) ↔
      env.fails .acceptUpdate 0 = false ∧
        ((∃ r ∈ db.friends.rows, Database.isPair u v r = true ∧ r.status = 1) ∨
          (env.fails .acceptInsertReverse 0 = false ∧
            ∀ r ∈ db.friends.rows, Database.isPair u v r = false)) := by
  obtain ⟨⟨r₀, hr₀, hpair, hpending⟩, t, ht, rfl⟩ := acceptFriendRequest_true hacc
  have hne : u ≠ v := by
    obtain ⟨hv, hu⟩ := isPair_iff.mp hpair
    exact hv ▸ hu ▸ (hself r₀ hr₀).symm
  show ((∃ r ∈ t.rows, _) ∧ ∃ r ∈ t.rows, _) ↔ _
  rw [ht, accepted_forward_iff hr₀ hpair hpending hne, accepted_reverse_iff hne,
    Bool.not_eq_true', Bool.and_eq_true, Bool.not_eq_true', Bool.not_eq_true',
    List.any_eq_false]
  simp only [Bool.not_eq_true]

end

/-! ## OK means done -/

/-- The effect of a command that replied OK is complete exactly if nothing hindered it. -/
theorem Effect.done_iff {env : Env} {sd : Int} {a : App} {cmd : Command} {r : Text × App}
    (h : Effect hasher env sd a cmd r) (hok : isOk r.1 = true) (hn : Numbered a)
    (hself : NoSelfRows a.db) : Done hasher env sd a r.2.db cmd ↔ Unhindered env sd a cmd := by
  cases h with
  | idle hread => cases cmd <;> first | exact Iff.rfl | cases hread hok
  | login => exact Iff.rfl
  | logout => exact Iff.rfl
  | openConversation => exact Iff.rfl
  | register _ _ _ _ _ hreg => exact register_done_iff hreg
  | setProfileVisibility hs _ huser =>
    obtain ⟨row, hrow, hname, rfl⟩ := getUserByUsername_eq_some huser
    unfold Done Unhindered
    rw [(SessionManager.sessions_eq_some hs).2]
    exact setVisibility_done_iff hrow hname
  | friendRequest hs _ _ _ hsend =>
    obtain ⟨_, t, ht, rfl⟩ := sendFriendRequest_true hsend
    unfold Done
    rw [(SessionManager.sessions_eq_some hs).2]
    exact iff_of_true ht trivial
  | acceptFriend hs hacc =>
    unfold Done Unhindered
    rw [(SessionManager.sessions_eq_some hs).2]
    exact accept_done_iff hacc hself
  | @setFriendType u v type db hs hset =>
    obtain ⟨_, ⟨row, hrow, hpair, hstatus⟩, t, ht, rfl⟩ := setFriendType_true hset
    unfold Done
    rw [(SessionManager.sessions_eq_some hs).2]
    refine iff_of_true ⟨typeRow u v type row, ?_, ?_, ?_, ?_⟩ trivial
    · show _ ∈ t.rows
      exact ht ▸ List.mem_map_of_mem hrow
    · rw [isPair_typeRow]
      exact hpair
    · rw [typeRow_status]
      exact hstatus
    · rw [typeRow_friendType, if_pos]
      rw [hpair, hstatus]
      rfl
  | createPost hs _ hpost =>
    obtain ⟨_, t, ht, _, rfl⟩ := createPost_true hpost
    unfold Done
    rw [(SessionManager.sessions_eq_some hs).2]
    exact iff_of_true ⟨_, ht⟩ trivial
  | @chatExists u v id hs _ _ hprivate =>
    -- the conversation is not new
    have hold : Database.getPrivateConversation env a.db (a.sessions.getUsername sd) v ≠ none := by
      rw [(SessionManager.sessions_eq_some hs).2, hprivate]
      exact Option.some_ne_none _
    exact iff_of_true (fun hnew => absurd hnew hold) fun hnew => absurd hnew hold
  | chat hs _ _ _ hcreate =>
    unfold Done Unhindered
    rw [(SessionManager.sessions_eq_some hs).2]
    rcases createConversation_cases hcreate with ⟨rfl, _⟩ | hcreated
    · cases hok
    · exact imp_congr_right fun _ => newRoom_iff hcreated
        (createConversation_attaches hcreate hcreated) hn.participants (by simp)
  | @group u users id db hs _ hcreate =>
    rw [GroupCommand.created_db]
    unfold Done Unhindered
    rw [(SessionManager.sessions_eq_some hs).2]
    rcases createGroupConversation_cases hcreate with ⟨rfl, _⟩ | hcreated
    · cases hok
    · exact newRoom_iff hcreated (createGroupConversation_attaches hcreate hcreated)
        hn.participants (by simp)
  | send hs hc hsend =>
    obtain ⟨_, t, ht, _, rfl⟩ := sendMessage_true hsend
    unfold Done SessionManager.getCurrentConversation
    rw [(SessionManager.sessions_eq_some hs).2, hc]
    exact iff_of_true ⟨_, ht⟩ trivial
  | @add u w c db hs hc _ hadd =>
    obtain ⟨t, ht, _, hmem⟩ := addParticipant_spec env 0 a.db c w
    rw [hadd] at ht hmem
    cases ht
    unfold Done SessionManager.getCurrentConversation
    rw [hc]
    exact iff_of_true (hmem rfl) trivial

/-- **OK means done exactly if no ignored statement failed**, whatever the socket, the line,
the environment and the reachable state. -/
theorem ok_done_iff {h : History LoopState Event} {s : LoopState}
    (hr : (machine hasher serverSocket).Run h s) (env : Env) (sd : Int) (data : Text)
    {cmd : Command} (hcmd : CommandFactory.create env.junk (inputOf data) = some cmd)
    (hok : isOk (handle hasher env sd data s.app).1 = true) :
    Done hasher env sd s.app (handle hasher env sd data s.app).2.db cmd ↔
      Unhindered env sd s.app cmd := by
  rw [handle_of_some hasher env sd s.app hcmd] at hok ⊢
  exact (execute_effect hasher env sd s.app cmd).done_iff hok (numbered_run hr)
    (noSelfRows_run hr)

/-- A group whose participants could not be inserted. -/
theorem ok_done_iff_group :
    ∃ h s, (machine List.length 3).Run h s ∧
      (Done List.length (.failing .addParticipant) 4 s.app
          (handle List.length (.failing .addParticipant) 4 (bytes "group b\n") s.app).2.db
          (.group [bytes "b"]) ↔
        Unhindered (.failing .addParticipant) 4 s.app (.group [bytes "b"])) := by
  obtain ⟨h, s, _, hrun, _, hok⟩ := runEvents_exists List.length 3 loggedInEvents
    (p := fun _ s =>
      isOk (handle List.length (.failing .addParticipant) 4 (bytes "group b\n") s.app).1 = true)
    (by simp [loggedInEvents]) (by decide)
  exact ⟨h, s, hrun, ok_done_iff hrun _ 4 _ (by decide) hok⟩

/-- OK does not mean done: a registration whose second statement fails leaves the profile
public although it was to be private, and replies OK. -/
theorem ok_not_done :
    ¬ ∀ (hasher : Text → Nat) (serverSocket : Int) (h : History LoopState Event) (s : LoopState),
      (machine hasher serverSocket).Run h s →
        ∀ (env : Env) (sd : Int) (data : Text) (cmd : Command),
          CommandFactory.create env.junk (inputOf data) = some cmd →
            isOk (handle hasher env sd data s.app).1 = true →
              Done hasher env sd s.app (handle hasher env sd data s.app).2.db cmd := by
  intro hall
  have hdone := hall List.length 3 _ _ .init (.failing .updateProfileVisibility) 4
    (bytes "register a p a@x normal private\n")
    (.register (bytes "a") (bytes "p") (bytes "a@x") (bytes "normal") (bytes "private"))
    (by decide) (by decide)
  obtain ⟨row, hrow, _, _, _, _, hvis⟩ := hdone
  have hpublic : ∀ row ∈ (handle List.length (.failing .updateProfileVisibility) 4
      (bytes "register a p a@x normal private\n") (LoopState.init 3).app).2.db.users.rows,
      row.profileVisibility = bytes "public" := by decide
  rw [hpublic row hrow] at hvis
  exact absurd hvis (by decide)

end SocialNetwork.Server
