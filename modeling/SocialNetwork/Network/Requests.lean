import SocialNetwork.Messaging.Company
import SocialNetwork.Messaging.OneToOne
import SocialNetwork.Messaging.PrivateChat
import SocialNetwork.Server.Completion
import SocialNetwork.Network.Refinement

/-!
# A request is answered OK exactly if the network grants it

`execute_grants` reads off the outcome of a handler that the network grants the request and
becomes what the tables and sessions then represent. `grants_ok` is the converse, handler by
handler: what the rule demands gets past every check. Together they say that the handlers, on
a database whose statements succeed, are the rules of `Network.Grants` (`execute_refines`).
-/

namespace SocialNetwork.Server

open SocialNetwork.Lib

/-! ## Seats and rooms -/

section

variable {a : App} {sd : Int} {u : Text} {c : Int}

theorem seat_of_session (hs : a.sessions.sessions sd = some u) :
    a.network.seat sd = some ⟨u, a.sessions.currentConversation sd⟩ := by
  show (a.sessions.sessions sd).map _ = _
  rw [hs]
  rfl

theorem seat_eq_some {s : Seat} (h : a.network.seat sd = some s) :
    a.sessions.sessions sd = some s.user ∧ a.sessions.currentConversation sd = s.room := by
  obtain ⟨u, hu, rfl⟩ := Option.map_eq_some_iff.mp h
  exact ⟨hu, rfl⟩

theorem seat_eq_none : a.network.seat sd = none ↔ a.sessions.sessions sd = none :=
  Option.map_eq_none_iff

theorem inside_iff (hres : Resolved a.db) : a.network.rooms.Inside c u ↔ Member a.db c u := by
  constructor
  · exact member_of_inside
  · intro hm
    exact ⟨_, rooms_of_exists (hres _ hm), hm⟩

end

/-! ## What was answered OK was granted -/

section

variable {hasher : Text → Nat} {env : Env} {sd : Int} {a : App}

theorem columnInt_userId {row : UserRow} (hrow : row ∈ a.db.users.rows) (hsp : Spacious a.db) :
    columnInt row.userId = row.userId := by
  have hbounds := a.db.users.bounded row hrow
  have hmax := hsp.users
  unfold columnInt
  exact narrow_of_fits ⟨by unfold intMin; omega, by omega⟩

theorem login_nonempty {u p : Text} (h : isOk (LoginCommand.execute hasher env sd a u p).1 = true) :
    u ≠ [] ∧ p ≠ [] := by
  unfold LoginCommand.execute at h
  split at h
  next => cases h
  next hargs => simpa [not_or] using hargs

theorem register_network {u p e r v : Text} {db : Db} (he : env.Sound) (hsp : Spacious a.db)
    (hreg : Database.registerUser hasher env a.db u p e r = (true, db)) :
    ({ a with db := RegisterCommand.setVisibility hasher env db u p v } : App).network =
      a.network.enrol u ⟨Database.Hashpassword hasher p, e, r, v⟩ := by
  obtain ⟨hfit, t₁, hrows, _, rfl⟩ := registerUser_true hreg
  have hin : newUser hasher a.db.users.seq u p e r ∈ t₁.rows := by
    rw [hrows]
    exact List.mem_append_right _ (List.mem_singleton_self _)
  obtain ⟨t, ht, _, hdb⟩ := setVisibility_spec env { a.db with users := t₁ } u p v hin rfl rfl
  have hmax := hsp.users
  have hnonneg := a.db.users.nonneg
  have hid : columnInt (newUser hasher a.db.users.seq u p e r).userId = a.db.users.seq + 1 :=
    narrow_of_fits ⟨by show intMin ≤ a.db.users.seq + 1; unfold intMin; omega,
      by show a.db.users.seq + 1 ≤ intMax; omega⟩
  rw [he, he, hid, hrows, Bool.not_false, Bool.and_self] at ht
  rw [hdb]
  -- the rows that were there have other ids, and other names
  have hother : ∀ row ∈ a.db.users.rows, shownRow true (a.db.users.seq + 1) v row = row :=
    fun row hrow => shownRow_of_ne (a.db.users.id_ne_next hrow)
  refine profile_write ⟨shownRow true (a.db.users.seq + 1) v
    (newUser hasher a.db.users.seq u p e r), ?_, shownRow_username .., ?_⟩ fun w q hw => ?_
  · rw [ht]
    exact List.mem_map_of_mem (List.mem_append_right _ (List.mem_singleton_self _))
  · simp [UserRow.profile, shownRow_profileVisibility, newUser]
  · rw [ht]
    constructor
    · intro h
      obtain ⟨row, hrow, hn, hq⟩ := h
      obtain ⟨row₀, hrow₀, rfl⟩ := List.mem_map.mp hrow
      rcases List.mem_append.mp hrow₀ with hold | hnew
      · rw [hother row₀ hold] at hn hq
        exact ⟨row₀, hold, hn, hq⟩
      · rw [List.mem_singleton.mp hnew, shownRow_username] at hn
        exact absurd hn.symm hw
    · intro h
      obtain ⟨row, hrow, hn, hq⟩ := h
      exact ⟨row, List.mem_map.mpr ⟨row, List.mem_append_left _ hrow, hother row hrow⟩, hn, hq⟩

theorem accept_network {u v : Text} {db : Db} (he : env.Sound) (hrep : Represented a)
    (hacc : Database.acceptFriendRequest env a.db u v = (true, db)) :
    ({ a with db := db } : App).network =
      (a.network.bind v u (.friend 0)).reciprocate u v := by
  obtain ⟨⟨r, hr, hpair, hzero⟩, t, ht, rfl⟩ := acceptFriendRequest_true hacc
  rw [he, he, Bool.not_false, Bool.true_and] at ht
  -- the update alone
  have hkeeps : ∀ x y r, Database.isPair x y (acceptRow v u r) = Database.isPair x y r := by
    intro x y r
    unfold Database.isPair
    rw [acceptRow_userUsername, acceptRow_friendUsername]
  have hupdated : ∀ t : Table friendsConstraints, t.rows = a.db.friends.rows.map (acceptRow v u) →
      ({ a with db := { a.db with friends := t } } : App).network =
        a.network.bind v u (.friend 0) := by
    intro t ht
    refine tie_rewrite hkeeps (fun r hno => ?_) ⟨r, hr, hpair, ?_⟩ ht
    · unfold acceptRow Table.rewrite
      rw [hno]
      rfl
    · rw [FriendRow.tie_eq_friend, acceptRow_status, if_pos hpair, acceptRow_friendType]
      exact ⟨rfl, hrep.pending r hr hzero⟩
  unfold Network.reciprocate
  cases hany : a.db.friends.rows.any (Database.isPair u v) with
  | true =>
    rw [hany] at ht
    have hnet := hupdated t (by rw [ht]; exact List.append_nil _)
    rw [hnet]
    -- a reverse row is there already, and stays what it is
    obtain ⟨r', hr', hpair'⟩ := List.any_eq_true.mp hany
    have htie : (a.network.bind v u (.friend 0)).tie (u, v) ≠ none := by
      rw [← hnet]
      show ({ a.db with friends := t } : Db).tie (u, v) ≠ none
      rw [Ne, tie_eq_none]
      intro hno
      have hin : acceptRow v u r' ∈ t.rows := by
        rw [ht]
        exact List.mem_append_left _ (List.mem_map_of_mem hr')
      have := hno _ hin
      rw [hkeeps, hpair'] at this
      cases this
    split
    next hnone => exact absurd hnone htie
    next => rfl
  | false =>
    rw [hany] at ht
    have hnet := hupdated (a.db.friends.update _ _ (Database.status_keeps 1)) rfl
    have htie : (a.network.bind v u (.friend 0)).tie (u, v) = none := by
      rw [← hnet]
      show Db.tie _ (u, v) = none
      rw [tie_eq_none]
      intro r' hr'
      obtain ⟨r₀, hr₀, rfl⟩ := List.mem_map.mp hr'
      exact (hkeeps u v r₀).trans (Bool.not_eq_true _ ▸ List.any_eq_false.mp hany r₀ hr₀)
    rw [htie, ← hnet]
    exact tie_insert (a := { a with db := Database.setAccepted v u a.db }) (r := ⟨u, v, 0, 1⟩)
      (isPair_iff.mpr ⟨rfl, rfl⟩) ht

theorem send_network {u content : Text} {c : Int} {db : Db}
    (hsend : Database.sendMessage env a.db c u content = (true, db)) :
    ({ a with db := db } : App).network = a.network.say c ⟨u, content, env.now⟩ := by
  obtain ⟨_, t, ht, _, rfl⟩ := sendMessage_true hsend
  have htalk : (fun c' => (messagesOf { a.db with messages := t } c').map MessageRow.remark) =
      Function.update a.network.talk c (a.network.talk c ++ [⟨u, content, env.now⟩]) := by
    funext c'
    unfold messagesOf
    rw [ht, List.filter_append, List.map_append, List.filter_cons, List.filter_nil]
    by_cases hc : c' = c
    · subst hc
      rw [Function.update_self, if_pos (beq_self_eq_true c')]
      rfl
    · rw [Function.update_of_ne hc, if_neg fun heq => hc (beq_iff_eq.mp heq).symm]
      exact List.append_nil _
  unfold App.network Network.say
  rw [htalk]
  rfl

theorem visibility_network {u v : Text} {user : User} (he : env.Sound) (hsp : Spacious a.db)
    (huser : Database.getUserByUsername env 0 a.db u = some user) :
    ∃ p, a.network.profile u = some p ∧
      ({ a with db := (Database.updateProfileVisibility env a.db user.userId v).2 } : App).network =
        a.network.enrol u { p with visibility := v } := by
  obtain ⟨row, hrow, hname, rfl⟩ := getUserByUsername_eq_some huser
  obtain ⟨t, ht, _, hdb⟩ := updateProfileVisibility_spec env a.db (Database.readUser row).userId v
  have hid : (Database.readUser row).userId = row.userId := columnInt_userId hrow hsp
  rw [he, Bool.not_false, hid] at ht
  refine ⟨row.profile, profile_eq_some.mpr ⟨row, hrow, hname, rfl⟩, ?_⟩
  rw [hdb]
  exact profile_shown hrow hname ht

theorem friendType_network {u v : Text} {k : Int} {db : Db}
    (hset : Database.setFriendType env a.db u v k = (true, db)) :
    ({ a with db := db } : App).network = a.network.bind u v (.friend k) := by
  obtain ⟨_, ⟨r, hr, hpair, hone⟩, t, ht, rfl⟩ := setFriendType_true hset
  refine tie_rewrite (f := typeRow u v k) (fun x y r => ?_) (fun r hno => ?_) ⟨r, hr, hpair, ?_⟩ ht
  · unfold Database.isPair
    rw [typeRow_userUsername, typeRow_friendUsername]
  · simp [typeRow, Table.rewrite, hno]
  · rw [FriendRow.tie_eq_friend]
    simp [typeRow, Table.rewrite, hpair, hone]

theorem post_network {u content : Text} {visibility : Int} {db : Db}
    (hpost : Database.createPost env a.db u content visibility = (true, db)) :
    ({ a with db := db } : App).network =
      a.network.publish ⟨u, content, visibility, env.now⟩ := by
  obtain ⟨hrange, t, ht, _, rfl⟩ := createPost_true hpost
  have hvisibility : columnInt visibility = visibility :=
    narrow_of_fits ⟨by unfold intMin; omega, by unfold intMax; omega⟩
  have hposts : t.rows.map Database.readPost =
      a.network.posts ++ [⟨u, content, visibility, env.now⟩] := by
    rw [ht, List.map_append, List.map_singleton, Database.readPost, hvisibility]
    rfl
  unfold App.network Network.publish
  rw [hposts]
  rfl

theorem open_network {u : Text} (c : Int) (hs : a.sessions.sessions sd = some u) :
    ({ a with sessions := a.sessions.openConversation sd c } : App).network =
      a.network.sit sd (some ⟨u, some c⟩) :=
  network_sit (by simp [hs]) (fun _ _ => rfl)
    fun _ hsd => SessionManager.openConversation_currentConversation_ne hsd c

theorem add_network {u w : Text} {c : Int} {db : Db}
    (hadd : Database.addParticipant env 0 a.db c w = (true, db)) :
    ({ a with db := db } : App).network = a.network.invite c u w := by
  obtain ⟨t, ht, hattached, hmem⟩ := addParticipant_spec env 0 a.db c w
  rw [hadd] at ht hmem
  cases ht
  have hrooms := hattached.rooms (hmem rfl)
  unfold App.network Network.invite Rooms.apply
  dsimp only
  rw [hrooms]
  rfl

/-- A group that was created was asked for with a name. -/
theorem group_nonempty {users : List Text} {u : Text} {id : Int} {db : Db}
    (hcreate : Database.createGroupConversation env a.db (users ++ [u]) = (id, db))
    (hid : id ≠ -1) : users ≠ [] := by
  intro hnil
  subst hnil
  exact hid (Prod.mk.inj hcreate).1.symm

/-- A login sits down without a room: nothing is open where nobody was logged in. -/
theorem login_network {u : Text} (hrep : Represented a) (hfree : a.sessions.sessions sd = none) :
    ({ a with sessions := a.sessions.login sd u } : App).network =
      a.network.sit sd (some ⟨u, none⟩) := by
  have hclosed : a.sessions.currentConversation sd = none := by
    rw [Option.eq_none_iff_forall_ne_some]
    intro c hc
    obtain ⟨w, hw, _⟩ := hrep.joined sd c hc
    rw [hfree] at hw
    cases hw
  exact network_sit (by simp [hclosed]) (fun sd' hsd => SessionManager.login_sessions_ne hsd u)
    fun _ _ => rfl

theorem logout_network :
    ({ a with sessions := a.sessions.logout sd } : App).network = a.network.sit sd none :=
  network_sit (by simp) (fun _ hsd => SessionManager.logout_sessions_ne hsd)
    fun _ hsd => SessionManager.logout_currentConversation_ne hsd

/-- A user the lookup finds has a profile. -/
theorem profile_of_found {i : Nat} {w : Text}
    (h : Database.getUserByUsername env i a.db w ≠ none) :
    ∃ p, a.network.profile w = some p := by
  obtain ⟨row, hrow, hname⟩ := registered_of_ne_none h
  exact ⟨_, profile_eq_some.mpr ⟨row, hrow, hname, rfl⟩⟩

theorem login_grants {u p : Text} (hrep : Represented a) (hfree : a.sessions.sessions sd = none)
    (hauth : Database.authenticateUser hasher env a.db u p ≠ none) (hu : u ≠ []) (hp : p ≠ []) :
    a.network.Grants (Database.Hashpassword hasher) env.now sd (.login u p)
      ({ a with sessions := a.sessions.login sd u } : App).network := by
  obtain ⟨user, huser⟩ := Option.ne_none_iff_exists'.mp hauth
  obtain ⟨row, hrow, hname, hpw, _⟩ := authenticateUser_eq_some huser
  rw [login_network hrep hfree]
  exact .login hu hp (seat_eq_none.mpr hfree) (profile_eq_some.mpr ⟨row, hrow, hname, rfl⟩) hpw

theorem register_grants {u p e r v : Text} {db : Db} (he : env.Sound) (hsp : Spacious a.db)
    (hu : u ≠ []) (hp : p ≠ []) (hem : e ≠ []) (hr : r = bytes "normal" ∨ r = bytes "admin")
    (hv : v = bytes "public" ∨ v = bytes "private")
    (hreg : Database.registerUser hasher env a.db u p e r = (true, db)) :
    a.network.Grants (Database.Hashpassword hasher) env.now sd (.register u p e r v)
      ({ a with db := RegisterCommand.setVisibility hasher env db u p v } : App).network := by
  rw [register_network he hsp hreg]
  obtain ⟨hfit, _⟩ := registerUser_true hreg
  refine .register hu hp hem hr hv (profile_eq_none.mpr fun row hrow => (hfit row hrow).1) ?_
  intro w q hq
  obtain ⟨row, hrow, _, rfl⟩ := profile_eq_some.mp hq
  exact (hfit row hrow).2

theorem friendRequest_grants {u v : Text} {db : Db} (hs : a.sessions.sessions sd = some u)
    (hne : u ≠ v) (hv : Database.getUserByUsername env 0 a.db v ≠ none)
    (hsend : Database.sendFriendRequest env a.db u v = (true, db)) :
    a.network.Grants (Database.Hashpassword hasher) env.now sd (.friendRequest v)
      ({ a with db := db } : App).network := by
  obtain ⟨hfit, t, ht, rfl⟩ := sendFriendRequest_true hsend
  obtain ⟨p, hp⟩ := profile_of_found hv
  rw [tie_insert (r := ⟨u, v, 0, 0⟩) (isPair_iff.mpr ⟨rfl, rfl⟩) ht]
  exact .friendRequest (s := ⟨u, _⟩) (seat_of_session hs) hne hp (tie_eq_none.mpr hfit)

theorem chat_grants {u v : Text} {id : Int} {db : Db} (he : env.Sound) (hrep : Represented a)
    (hf : FewConversations db) (hs : a.sessions.sessions sd = some u) (hne : u ≠ v)
    (hv : Database.getUserByUsername env 0 a.db v ≠ none)
    (hcreated : Created env a.db [u, v] id db) :
    a.network.Grants (Database.Hashpassword hasher) env.now sd (.chat v)
      ({ a with db := db } : App).network := by
  obtain ⟨p, hp⟩ := profile_of_found hv
  rw [network_created hcreated he.joins hrep hf]
  exact .chat (s := ⟨u, _⟩) (seat_of_session hs) hne hp

theorem group_grants {u : Text} {users : List Text} {id : Int} {db : Db} (he : env.Sound)
    (hrep : Represented a) (hs : a.sessions.sessions sd = some u)
    (hknown : GroupCommand.unknown env a 0 (users ++ [u]) = none)
    (hcreate : Database.createGroupConversation env a.db (users ++ [u]) = (id, db))
    (hf : FewConversations (GroupCommand.created sd a id db).2.db)
    (hok : isOk (GroupCommand.created sd a id db).1 = true) :
    a.network.Grants (Database.Hashpassword hasher) env.now sd (.group users)
      (GroupCommand.created sd a id db).2.network := by
  unfold GroupCommand.created at hok hf ⊢
  split at hok
  next => cases hok
  next hid =>
    rw [if_neg hid] at hf ⊢
    rcases createGroupConversation_cases hcreate with ⟨rfl, _⟩ | hcreated
    · exact absurd rfl hid
    · have hnext := hcreated.id_eq_next hrep.counted hf
      have hnet := network_created hcreated he.joins hrep hf
      rw [open_network (a := { a with db := db }) id hs, hnet, hnext]
      refine .group (s := ⟨u, _⟩) (seat_of_session hs) (group_nonempty hcreate hid) ?_
      intro w hw
      obtain ⟨row, hrow, hname⟩ := unknown_eq_none _ 0 hknown w hw
      exact profile_ne_none.mpr ⟨row, hrow, hname⟩

/-- **An OK reply to a request other than a query means that the network grants it**, and it
becomes what the state then represents. -/
theorem execute_grants {cmd : Command} (he : env.Sound) (hrep : Represented a)
    (hsp : Spacious a.db) (hf : FewConversations (execute hasher env sd a cmd).2.db)
    (hread : cmd.isRead = false) (hok : isOk (execute hasher env sd a cmd).1 = true) :
    a.network.Grants (Database.Hashpassword hasher) env.now sd cmd
      (execute hasher env sd a cmd).2.network := by
  have hargs : ∀ u p, cmd = .login u p → u ≠ [] ∧ p ≠ [] := by
    intro u p hcmd
    subst hcmd
    exact login_nonempty hok
  have heffect := execute_effect hasher env sd a cmd
  generalize execute hasher env sd a cmd = r at heffect hf hok ⊢
  cases heffect with
  | idle hidle =>
    rw [hidle hok] at hread
    cases hread
  | chatExists _ _ _ hprivate =>
    rw [getPrivateConversation_eq_none] at hprivate
    cases hprivate
  | @login u p hfree hauth =>
    obtain ⟨hu, hp⟩ := hargs u p rfl
    exact login_grants hrep hfree hauth hu hp
  | @logout u hs =>
    rw [logout_network]
    exact .logout (seat_of_session hs)
  | register hu hp hem hr hv hreg => exact register_grants he hsp hu hp hem hr hv hreg
  | @setProfileVisibility u v user hs hv huser =>
    obtain ⟨p, hp, hnet⟩ := visibility_network (v := v) he hsp huser
    rw [hnet]
    exact .setProfileVisibility (s := ⟨u, _⟩) (seat_of_session hs) hv hp
  | friendRequest hs hne hv _ hsend => exact friendRequest_grants hs hne hv hsend
  | @acceptFriend u v db hs hacc =>
    rw [accept_network he hrep hacc]
    exact .acceptFriend (s := ⟨u, _⟩) (seat_of_session hs)
      ((tie_asked hrep.statuses).mpr (acceptFriendRequest_true hacc).1)
  | @setFriendType u v k db hs hset =>
    obtain ⟨hrange, haccepted, _⟩ := setFriendType_true hset
    obtain ⟨old, hold⟩ := tie_friend.mpr haccepted
    rw [friendType_network hset]
    exact .setFriendType (s := ⟨u, _⟩) (seat_of_session hs) hrange hold
  | @createPost u content vis db hs hc hpost =>
    rw [post_network hpost]
    exact .createPost (s := ⟨u, _⟩) (seat_of_session hs) hc (createPost_true hpost).1
  | chat hs hne hv _ hcreate =>
    rcases createConversation_cases hcreate with ⟨hid, _⟩ | hcreated
    · rw [hid] at hok
      cases hok
    · exact chat_grants he hrep hf hs hne hv hcreated
  | @openConversation u c hs hmem =>
    have hin : a.network.rooms.Inside c u :=
      (inside_iff hrep.resolved).mpr (isParticipant_true hmem)
    rw [open_network c hs]
    exact .open (s := ⟨u, _⟩) (seat_of_session hs) hin
  | @send u content c db hs hc hsend =>
    rw [send_network hsend]
    exact .send (s := ⟨u, _⟩) (seat_of_session hs) hc
      ((inside_iff hrep.resolved).mpr (sendMessage_true hsend).1)
  | group hs hknown hcreate => exact group_grants he hrep hs hknown hcreate hf hok
  | @add u w c db hs hc hw hadd =>
    obtain ⟨p, hp⟩ := profile_of_found hw
    rw [add_network (u := u) hadd]
    exact .add (s := ⟨u, _⟩) (seat_of_session hs) hc hp

end

/-! ## What is granted is answered OK -/

section

variable {hasher : Text → Nat} {env : Env} {sd : Int} {a : App}

/-- An insert into an AUTOINCREMENT table whose row clashes with none succeeds. -/
theorem insertUser_of_fits {db : Db} {u d e r : Text}
    (hfit : ∀ row ∈ db.users.rows, row.username ≠ u ∧ row.email ≠ e)
    (hseq : db.users.seq < maxRowid) : ∃ db', Database.insertUser u d e r db = some db' := by
  have hfits : db.users.toTable.Fits ⟨db.users.seq + 1, u, d, e, r, bytes "public"⟩ := by
    intro row hrow
    have hid := db.users.id_ne_next hrow
    simp [usersConstraints, hid, hfit row hrow]
  unfold Database.insertUser AutoTable.insert
  rw [dif_pos ⟨hseq, hfits⟩]
  exact ⟨_, rfl⟩

theorem insertPost_of_lt {db : Db} (u content now : Text) (visibility : Int)
    (hseq : db.posts.seq < maxRowid) :
    ∃ db', Database.insertPost u content visibility now db = some db' := by
  have hfits : db.posts.toTable.Fits ⟨db.posts.seq + 1, u, content, visibility, now⟩ := by
    intro row hrow
    have hid := db.posts.id_ne_next hrow
    simpa [postsConstraints] using hid
  unfold Database.insertPost AutoTable.insert
  rw [dif_pos ⟨hseq, hfits⟩]
  exact ⟨_, rfl⟩

theorem insertFriend_of_fits {db : Db} (row : FriendRow)
    (hfit : ∀ r ∈ db.friends.rows,
      Database.isPair row.userUsername row.friendUsername r = false) :
    ∃ db', Database.insertFriend row db = some db' := by
  cases hins : Database.insertFriend row db with
  | some db' => exact ⟨db', rfl⟩
  | none =>
    obtain ⟨r, hr, hpair⟩ := insertFriend_eq_none hins
    rw [hfit r hr] at hpair
    cases hpair

theorem found_user (he : env.Sound) {i : Nat} {u : Text} (hu : Registered a.db u) :
    ∃ user, Database.getUserByUsername env i a.db u = some user := by
  rw [← Option.ne_none_iff_exists', Ne, getUserByUsername_eq_none he]
  obtain ⟨row, hrow, hname⟩ := hu
  exact fun hno => hno row hrow hname

theorem login_ok {u p : Text} (he : env.Sound) (hu : u ≠ []) (hp : p ≠ [])
    (hfree : a.sessions.sessions sd = none) {row : UserRow} (hrow : row ∈ a.db.users.rows)
    (hname : row.username = u) (hpw : row.password = Database.Hashpassword hasher p) :
    isOk (LoginCommand.execute hasher env sd a u p).1 = true := by
  subst hname
  have hauth := authenticateUser_of_row (he .authenticateUser 0) hrow hpw
  unfold LoginCommand.execute
  rw [if_neg (by simp [hu, hp]), if_neg (by simp [SessionManager.isAuthenticated_eq_false hfree]),
    hauth]
  rfl

theorem register_ok {u p e r v : Text} (he : env.Sound) (hu : u ≠ []) (hp : p ≠ []) (hem : e ≠ [])
    (hr : r = bytes "normal" ∨ r = bytes "admin") (hv : v = bytes "public" ∨ v = bytes "private")
    (hfit : ∀ row ∈ a.db.users.rows, row.username ≠ u ∧ row.email ≠ e)
    (hseq : a.db.users.seq < maxRowid) :
    isOk (RegisterCommand.execute hasher env a u p e r v).1 = true := by
  have hrole : r ≠ [] := by rcases hr with rfl | rfl <;> decide
  have hvisibility : v ≠ [] := by rcases hv with rfl | rfl <;> decide
  obtain ⟨db', hins⟩ := insertUser_of_fits (d := Database.Hashpassword hasher p) (r := r) hfit hseq
  have hreg : Database.registerUser hasher env a.db u p e r = (true, db') := exec_some he hins
  unfold RegisterCommand.execute
  rw [if_neg (by simp [hu, hp, hem, hrole, hvisibility]), if_neg (by tauto), if_neg (by tauto),
    hreg]
  rfl

theorem friendRequest_ok {u v : Text} (he : env.Sound) (hs : a.sessions.sessions sd = some u)
    (hne : u ≠ v) (hv : Registered a.db v)
    (hfit : ∀ r ∈ a.db.friends.rows, Database.isPair u v r = false) :
    isOk (FriendRequestCommand.execute env sd a v).1 = true := by
  obtain ⟨hauth, hname⟩ := SessionManager.sessions_eq_some hs
  obtain ⟨user, huser⟩ := found_user he (i := 0) hv
  have hnot : Database.areFriends env a.db u v = false := by
    rw [← Bool.not_eq_true, areFriends_iff he]
    intro ⟨r, hr, hpair, _⟩
    rw [hfit r hr] at hpair
    cases hpair
  obtain ⟨db', hins⟩ := insertFriend_of_fits ⟨u, v, 0, 0⟩ hfit
  have hsend : Database.sendFriendRequest env a.db u v = (true, db') := exec_some he hins
  unfold FriendRequestCommand.execute
  simp only [hauth, hname, huser, hnot, hsend, if_neg hne]
  rfl

theorem acceptFriend_ok {u v : Text} (he : env.Sound) (hs : a.sessions.sessions sd = some u)
    (hp : Pending a.db v u) : isOk (AcceptFriendCommand.execute env sd a v).1 = true := by
  obtain ⟨hauth, hname⟩ := SessionManager.sessions_eq_some hs
  have hacc := acceptFriendRequest_of_pending he hp
  unfold AcceptFriendCommand.execute
  rw [hauth, hname, if_neg (by simp)]
  generalize Database.acceptFriendRequest env a.db u v = r at hacc
  obtain ⟨ok, db⟩ := r
  cases hacc
  rfl

theorem setFriendType_ok {u v : Text} {k : Int} (he : env.Sound)
    (hs : a.sessions.sessions sd = some u) (hrange : 0 ≤ k ∧ k ≤ 2) (hf : Accepted a.db u v) :
    isOk (SetFriendTypeCommand.execute env sd a v k).1 = true := by
  obtain ⟨hauth, hname⟩ := SessionManager.sessions_eq_some hs
  have hfriends := (areFriends_iff he).mpr hf
  have hset : Database.setFriendType env a.db u v k =
      (true, Database.changeFriendType u v k a.db) := by
    unfold Database.setFriendType
    rw [if_neg (by omega), hfriends, if_neg (by simp), exec_update, he]
    rfl
  unfold SetFriendTypeCommand.execute
  rw [hauth, hname, if_neg (by simp), hset]
  rfl

theorem createPost_ok {u content : Text} {visibility : Int} (he : env.Sound)
    (hs : a.sessions.sessions sd = some u) (hc : content ≠ [])
    (hrange : 0 ≤ visibility ∧ visibility ≤ 2) (hseq : a.db.posts.seq < maxRowid) :
    isOk (CreatePostCommand.execute env sd a visibility content).1 = true := by
  obtain ⟨hauth, hname⟩ := SessionManager.sessions_eq_some hs
  obtain ⟨db', hins⟩ := insertPost_of_lt u content env.now visibility hseq
  have hpost : Database.createPost env a.db u content visibility = (true, db') := by
    unfold Database.createPost
    rw [if_neg (by omega)]
    exact exec_some he hins
  unfold CreatePostCommand.execute
  rw [hauth, hname, if_neg (by simp), if_neg (by simpa using hc), hpost]
  rfl

theorem setProfileVisibility_ok {u v : Text} (he : env.Sound) (hs : a.sessions.sessions sd = some u)
    (hv : v = bytes "public" ∨ v = bytes "private") (hu : Registered a.db u) :
    isOk (SetProfileVisibilityCommand.execute env sd a v).1 = true := by
  obtain ⟨hauth, hname⟩ := SessionManager.sessions_eq_some hs
  obtain ⟨user, huser⟩ := found_user he (i := 0) hu
  unfold SetProfileVisibilityCommand.execute
  rw [hauth, hname, if_neg (by simp), if_neg (by tauto), huser]
  rfl

theorem add_ok {u w : Text} {c : Int} (he : env.Sound) (hs : a.sessions.sessions sd = some u)
    (hc : a.sessions.currentConversation sd = some c) (hne : c ≠ -1) (hw : Registered a.db w) :
    isOk (AddCommand.execute env sd a w).1 = true := by
  obtain ⟨hauth, _⟩ := SessionManager.sessions_eq_some hs
  have hcur : a.sessions.getCurrentConversation sd = c := by
    unfold SessionManager.getCurrentConversation
    rw [hc]
    rfl
  obtain ⟨user, huser⟩ := found_user he (i := 0) hw
  have hadd : (Database.addParticipant env 0 a.db c w).1 = true := by
    unfold Database.addParticipant
    split
    next => rfl
    next hout =>
      -- who is not found among the participants has no row
      rcases exec_cases env .addParticipant 0 (Database.insertParticipant c w) a.db with
        ⟨_, _, hex⟩ | hex
      · rw [hex]
      · unfold exec at hex
        rw [he] at hex
        cases hins : Database.insertParticipant c w a.db with
        | none => exact absurd ((isParticipant_iff he).mpr (insertParticipant_eq_none hins)) hout
        | some db =>
          rw [hins] at hex
          cases hex
  unfold AddCommand.execute
  simp only [hauth, hcur, huser, if_neg hne]
  generalize Database.addParticipant env 0 a.db c w = r at hadd
  obtain ⟨ok, db⟩ := r
  cases hadd
  rfl

theorem group_ok {u : Text} {users : List Text} (he : env.Sound)
    (hs : a.sessions.sessions sd = some u) (hne : users ≠ [])
    (hknown : ∀ w ∈ users ++ [u], Registered a.db w) (hseq : a.db.conversations.seq < maxRowid)
    (hc : Counted a.db) (hf : FewConversations (GroupCommand.execute env sd a users).2.db) :
    isOk (GroupCommand.execute env sd a users).1 = true := by
  obtain ⟨hauth, hname⟩ := SessionManager.sessions_eq_some hs
  have hlen : 2 ≤ (users ++ [u]).length := by
    have hpos := List.length_pos_iff.mpr hne
    rw [List.length_append, List.length_singleton]
    omega
  obtain ⟨id, db, hcreate, hcreated⟩ := createGroupConversation_created he hlen hseq
  have hexec : GroupCommand.execute env sd a users = GroupCommand.created sd a id db := by
    unfold GroupCommand.execute
    rw [hauth, hname, if_neg (by simp)]
    dsimp only
    rw [unknown_of_registered he 0 hknown]
    dsimp only
    rw [hcreate]
  rw [hexec, GroupCommand.created_db] at hf
  have hid := hcreated.id_eq_next hc hf
  have hnonneg := a.db.conversations.nonneg
  rw [hexec]
  unfold GroupCommand.created
  rw [if_neg (by omega)]
  rfl

/-- **A request the network grants is answered OK.** -/
theorem grants_ok {cmd : Command} {n : Network} (he : env.Sound) (hrep : Represented a)
    (hsp : Spacious a.db) (hf : FewConversations (execute hasher env sd a cmd).2.db)
    (h : a.network.Grants (Database.Hashpassword hasher) env.now sd cmd n) :
    isOk (execute hasher env sd a cmd).1 = true := by
  have hmax := exists_of_fewer hrep.counted hsp.conversations
  have hseq : a.db.conversations.seq < maxRowid :=
    Int.lt_of_le_of_lt hmax (by decide)
  cases h with
  | login hu hp hfree ha hdigest =>
    obtain ⟨row, hrow, hname, rfl⟩ := profile_eq_some.mp ha
    exact login_ok he hu hp (seat_eq_none.mp hfree) hrow hname hdigest
  | logout hs =>
    obtain ⟨hauth, _⟩ := SessionManager.sessions_eq_some (seat_eq_some hs).1
    show isOk (LogoutCommand.execute sd a).1 = true
    unfold LogoutCommand.execute
    rw [hauth]
    rfl
  | register hu hp hem hr hv hname hemail =>
    refine register_ok he hu hp hem hr hv (fun row hrow => ⟨?_, ?_⟩) ?_
    · exact profile_eq_none.mp hname row hrow
    · exact hemail row.username row.profile (profile_eq_some.mpr ⟨row, hrow, rfl, rfl⟩)
    · exact Int.lt_trans hsp.users (by decide)
  | setProfileVisibility hs hv ha =>
    exact setProfileVisibility_ok he (seat_eq_some hs).1 hv (registered_of_profile ha)
  | friendRequest hs hne ha hfree =>
    exact friendRequest_ok he (seat_eq_some hs).1 hne (registered_of_profile ha)
      (tie_eq_none.mp hfree)
  | acceptFriend hs hasked =>
    exact acceptFriend_ok he (seat_eq_some hs).1 ((tie_asked hrep.statuses).mp hasked)
  | setFriendType hs hrange hfriend =>
    exact setFriendType_ok he (seat_eq_some hs).1 hrange (tie_friend.mp ⟨_, hfriend⟩)
  | createPost hs hc hrange => exact createPost_ok he (seat_eq_some hs).1 hc hrange hsp.posts
  | @chat s v _ hs hne ha =>
    obtain ⟨id, db, hexec, hcreated⟩ :=
      chat_execute he (seat_eq_some hs).1 hne (registered_of_profile ha) hseq
    have hexec : execute hasher env sd a (.chat v) = _ := hexec
    rw [hexec] at hf ⊢
    have hid := hcreated.id_eq_next hrep.counted hf
    have hnonneg := a.db.conversations.nonneg
    exact isOk_chat_created (by omega)
  | @«open» s c hs hc =>
    obtain ⟨hauth, hname⟩ := SessionManager.sessions_eq_some (seat_eq_some hs).1
    have hmem := (isParticipant_iff he (i := 0)).mpr ((inside_iff hrep.resolved).mp hc)
    show isOk (OpenCommand.execute env sd a c).1 = true
    unfold OpenCommand.execute
    rw [hauth, hname, hmem]
    rfl
  | @send s c content hs hc hin =>
    obtain ⟨hu, hcurrent⟩ := seat_eq_some hs
    have hm := (inside_iff hrep.resolved).mp hin
    have hpos : 0 < c := exists_pos (hrep.resolved _ hm)
    obtain ⟨t, hexec⟩ :=
      send_execute he content hu (hcurrent.trans hc) (by omega) hm hsp.messages
    show isOk (SendCommand.execute env sd a content).1 = true
    rw [hexec]
    rfl
  | group hs hne hknown =>
    exact group_ok he (seat_eq_some hs).1 hne
      (fun w hw => profile_ne_none.mp (hknown w hw)) hseq hrep.counted hf
  | @add s c w _ hs hc ha =>
    obtain ⟨hu, hcurrent⟩ := seat_eq_some hs
    obtain ⟨_, _, hm⟩ := hrep.joined sd c (hcurrent.trans hc)
    have hpos : 0 < c := exists_pos (hrep.resolved _ hm)
    exact add_ok he hu (hcurrent.trans hc) (by omega) (registered_of_profile ha)

/-- **The handlers are the rules**: a request other than a query is answered OK exactly if the
network grants it, and in any case the state represents what the request makes of the
network. -/
theorem execute_refines (cmd : Command) (he : env.Sound) (hrep : Represented a)
    (hsp : Spacious a.db) (hf : FewConversations (execute hasher env sd a cmd).2.db) :
    (cmd.isRead = false → (isOk (execute hasher env sd a cmd).1 = true ↔
      ∃ n, a.network.Grants (Database.Hashpassword hasher) env.now sd cmd n)) ∧
    (execute hasher env sd a cmd).2.network =
      a.network.next (Database.Hashpassword hasher) (.request sd env.now cmd) := by
  refine ⟨fun hread => ⟨fun hok => ⟨_, execute_grants he hrep hsp hf hread hok⟩,
    fun ⟨n, hn⟩ => grants_ok he hrep hsp hf hn⟩, ?_⟩
  cases hread : cmd.isRead with
  | true =>
    -- a query changes nothing, and there is no rule for it
    rw [Network.next_refused fun n hn => by cases hn <;> cases hread]
    cases cmd <;> first | rfl | cases hread
  | false =>
    cases hok : isOk (execute hasher env sd a cmd).1 with
    | true => exact (Network.next_granted (execute_grants he hrep hsp hf hread hok)).symm
    | false =>
      rw [Network.next_refused fun n hn => by rw [grants_ok he hrep hsp hf hn] at hok; cases hok]
      rcases (execute_effect hasher env sd a cmd).ok_or_unchanged hrep.counted hf with hok' | hsame
      · rw [hok] at hok'
        cases hok'
      · rw [hsame]

end

end SocialNetwork.Server
