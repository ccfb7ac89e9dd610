import SocialNetwork.Friends.Repair
import SocialNetwork.Network.Model
import SocialNetwork.Privacy.Reads

/-!
# The tables and the sessions represent a network

`App.network` reads the network off the six tables and the two session maps: a profile is the
row of its name, a tie the row of its pair, the seat of a connection its entries in both maps.
-/

namespace SocialNetwork.Server

open SocialNetwork.Lib

/-! ## Reading the network off the tables -/

def UserRow.profile (r : UserRow) : Profile :=
  ⟨r.password, r.email, r.userType, r.profileVisibility⟩

def FriendRow.tie (r : FriendRow) : Tie := if r.status = 1 then .friend r.friendType else .asked

def MessageRow.remark (r : MessageRow) : Remark := ⟨r.senderUsername, r.content, r.sentAt⟩

def Db.profile (db : Db) (u : Text) : Option Profile :=
  (db.users.rows.find? (·.username == u)).map UserRow.profile

def Db.tie (db : Db) (p : Text × Text) : Option Tie :=
  (db.friends.rows.find? (Database.isPair p.1 p.2)).map FriendRow.tie

def Db.since (db : Db) (c : Int) : Option Text :=
  (db.conversations.rows.find? (·.conversationId == c)).map (·.createdAt)

def App.network (a : App) : Network where
  profile := a.db.profile
  tie := a.db.tie
  posts := a.db.posts.rows.map Database.readPost
  rooms := rooms a.db
  since := a.db.since
  newest := a.db.conversations.seq
  talk c := (messagesOf a.db c).map MessageRow.remark
  seat sd := (a.sessions.sessions sd).map fun u => ⟨u, a.sessions.currentConversation sd⟩

/-- What the handlers keep of the state besides, on which the network it represents rests. -/
structure Represented (a : App) : Prop where
  statuses : Statuses a.db
  pending : ∀ r ∈ a.db.friends.rows, r.status = 0 → r.friendType = 0
  counted : Counted a.db
  resolved : Resolved a.db
  joined : Joined a
  registered : ∀ sd u, a.sessions.sessions sd = some u → Registered a.db u
  visibilities : ∀ p ∈ a.db.posts.rows, 0 ≤ p.visibility ∧ p.visibility ≤ 2
  filed : Filed a.db

/-- No counter has come to its end: ids fit an `int` where they are read into one, and there
are rowids left. -/
structure Spacious (db : Db) : Prop where
  users : db.users.seq < intMax
  posts : db.posts.seq < maxRowid
  messages : db.messages.seq < maxRowid
  conversations : FewConversations db

instance (db : Db) : Decidable (Spacious db) :=
  decidable_of_iff (db.users.seq < intMax ∧ db.posts.seq < maxRowid ∧ db.messages.seq < maxRowid ∧
      db.conversations.rows.length < 2147483648)
    ⟨fun ⟨hu, hp, hm, hc⟩ => ⟨hu, hp, hm, hc⟩,
      fun h => ⟨h.users, h.posts, h.messages, h.conversations⟩⟩

/-! ## Rows that are found -/

/-- A search that at most one element answers finds it. -/
theorem find?_eq_some_of_unique {α : Type} {p : α → Bool} {l : List α} {x : α} (hx : x ∈ l)
    (hp : p x = true) (huniq : ∀ y ∈ l, p y = true → y = x) : l.find? p = some x := by
  cases hfind : l.find? p with
  | none => exact absurd hp (List.find?_eq_none.mp hfind x hx)
  | some y => rw [huniq y (List.mem_of_find?_eq_some hfind) (List.find?_some hfind)]

section

variable {db : Db} {u v : Text}

theorem profile_eq_some {p : Profile} :
    db.profile u = some p ↔ ∃ row ∈ db.users.rows, row.username = u ∧ row.profile = p := by
  unfold Db.profile
  rw [Option.map_eq_some_iff]
  constructor
  · intro ⟨row, hfind, hp⟩
    have hname := List.find?_some hfind
    exact ⟨row, List.mem_of_find?_eq_some hfind, beq_iff_eq.mp hname, hp⟩
  · intro ⟨row, hrow, hname, hp⟩
    refine ⟨row, find?_eq_some_of_unique hrow (beq_iff_eq.mpr hname) fun r hr hn => ?_, hp⟩
    exact eq_of_username hr hrow ((beq_iff_eq.mp hn).trans hname.symm)

theorem profile_eq_none : db.profile u = none ↔ ∀ row ∈ db.users.rows, row.username ≠ u := by
  unfold Db.profile
  rw [Option.map_eq_none_iff, List.find?_eq_none]
  simp only [beq_iff_eq, ne_eq]

theorem profile_ne_none : db.profile u ≠ none ↔ Registered db u := by
  rw [Ne, profile_eq_none]
  unfold Registered
  simp only [ne_eq, not_forall, not_not, exists_prop]

theorem registered_of_profile {p : Profile} (h : db.profile u = some p) : Registered db u := by
  obtain ⟨row, hrow, hname, _⟩ := profile_eq_some.mp h
  exact ⟨row, hrow, hname⟩

theorem tie_eq_some {t : Tie} :
    db.tie (u, v) = some t ↔
      ∃ r ∈ db.friends.rows, Database.isPair u v r = true ∧ r.tie = t := by
  unfold Db.tie
  rw [Option.map_eq_some_iff]
  constructor
  · intro ⟨r, hfind, ht⟩
    exact ⟨r, List.mem_of_find?_eq_some hfind, List.find?_some hfind, ht⟩
  · intro ⟨r, hr, hpair, ht⟩
    exact ⟨r, find?_eq_some_of_unique hr hpair fun r' hr' hp => eq_of_isPair hr' hr hp hpair, ht⟩

theorem tie_eq_none :
    db.tie (u, v) = none ↔ ∀ r ∈ db.friends.rows, Database.isPair u v r = false := by
  unfold Db.tie
  rw [Option.map_eq_none_iff, List.find?_eq_none]
  simp only [Bool.not_eq_true]

theorem FriendRow.tie_eq_friend {r : FriendRow} {k : Int} :
    r.tie = .friend k ↔ r.status = 1 ∧ r.friendType = k := by
  unfold FriendRow.tie
  split
  next h => simp [h]
  next h => simp [h]

theorem FriendRow.tie_eq_asked {r : FriendRow} : r.tie = .asked ↔ r.status ≠ 1 := by
  unfold FriendRow.tie
  split
  next h => simp [h]
  next h => simp [h]

theorem tie_friend : (∃ k, db.tie (u, v) = some (.friend k)) ↔ Accepted db u v := by
  constructor
  · intro ⟨k, h⟩
    obtain ⟨r, hr, hpair, ht⟩ := tie_eq_some.mp h
    exact ⟨r, hr, hpair, (FriendRow.tie_eq_friend.mp ht).1⟩
  · intro ⟨r, hr, hpair, hone⟩
    exact ⟨r.friendType, tie_eq_some.mpr ⟨r, hr, hpair, FriendRow.tie_eq_friend.mpr ⟨hone, rfl⟩⟩⟩

theorem tie_asked (hst : Statuses db) : db.tie (u, v) = some .asked ↔ Pending db u v := by
  rw [tie_eq_some]
  unfold Pending
  refine exists_congr fun r => and_congr_right fun hr => and_congr_right fun _ => ?_
  rw [FriendRow.tie_eq_asked]
  rcases hst r hr with h | h
  · simp [h]
  · simp [h]

end

/-! ## What a write makes of the network -/

section

variable {a : App} {u v : Text}

/-- A row appended for a pair that had none. -/
theorem tie_insert {t : Table friendsConstraints} {r : FriendRow}
    (hr : Database.isPair u v r = true) (ht : t.rows = a.db.friends.rows ++ [r]) :
    ({ a with db := { a.db with friends := t } } : App).network = a.network.bind u v r.tie := by
  have htie : ({ a.db with friends := t } : Db).tie =
      Function.update a.db.tie (u, v) (some r.tie) := by
    funext ⟨x, y⟩
    by_cases hxy : (x, y) = (u, v)
    · cases hxy
      rw [Function.update_self, tie_eq_some]
      exact ⟨r, ht ▸ List.mem_append_right _ (List.mem_singleton_self r), hr, rfl⟩
    · rw [Function.update_of_ne hxy]
      unfold Db.tie
      rw [ht, List.find?_append, List.find?_singleton, if_neg, Option.or_none]
      intro hp
      rw [isPair_iff] at hp hr
      exact hxy (Prod.ext (hp.1.symm.trans hr.1) (hp.2.symm.trans hr.2))
  unfold App.network Network.bind
  rw [htie]
  rfl

/-- A row rewritten in place. -/
theorem tie_rewrite {t : Table friendsConstraints} {f : FriendRow → FriendRow} {k : Tie}
    (hpair : ∀ x y r, Database.isPair x y (f r) = Database.isPair x y r)
    (hkeep : ∀ r, Database.isPair u v r = false → f r = r)
    (hset : ∃ r ∈ a.db.friends.rows, Database.isPair u v r = true ∧ (f r).tie = k)
    (ht : t.rows = a.db.friends.rows.map f) :
    ({ a with db := { a.db with friends := t } } : App).network = a.network.bind u v k := by
  have htie : ({ a.db with friends := t } : Db).tie =
      Function.update a.db.tie (u, v) (some k) := by
    funext ⟨x, y⟩
    by_cases hxy : (x, y) = (u, v)
    · cases hxy
      obtain ⟨r, hr, hp, hk⟩ := hset
      rw [Function.update_self, tie_eq_some]
      exact ⟨f r, ht ▸ List.mem_map_of_mem hr, (hpair u v r).trans hp, hk⟩
    · rw [Function.update_of_ne hxy]
      unfold Db.tie
      rw [ht, List.find?_map, show (Database.isPair x y ∘ f) = Database.isPair x y from
        funext fun r => hpair x y r, Option.map_map]
      cases hfind : a.db.friends.rows.find? (Database.isPair x y) with
      | none => rfl
      | some r =>
        have hother : Database.isPair u v r = false := by
          rw [← Bool.not_eq_true]
          intro hp
          have hp' := isPair_iff.mp (List.find?_some hfind)
          rw [isPair_iff] at hp
          exact hxy (Prod.ext (hp'.1.symm.trans hp.1) (hp'.2.symm.trans hp.2))
        show some (f r).tie = some r.tie
        rw [hkeep r hother]
  unfold App.network Network.bind
  rw [htie]
  rfl

/-- A profile that is new, or replaces the one of its name. -/
theorem profile_write {t : AutoTable usersConstraints (·.userId)} {p : Profile}
    (hset : ∃ r ∈ t.rows, r.username = u ∧ r.profile = p)
    (hkeep : ∀ w q, w ≠ u → ((∃ r ∈ t.rows, r.username = w ∧ r.profile = q) ↔
      ∃ r ∈ a.db.users.rows, r.username = w ∧ r.profile = q)) :
    ({ a with db := { a.db with users := t } } : App).network = a.network.enrol u p := by
  have hprofile : ({ a.db with users := t } : Db).profile =
      Function.update a.db.profile u (some p) := by
    funext w
    by_cases hw : w = u
    · subst hw
      rw [Function.update_self, profile_eq_some]
      exact hset
    · rw [Function.update_of_ne hw]
      ext q
      exact profile_eq_some.trans ((hkeep w q hw).trans profile_eq_some.symm)
  unfold App.network Network.enrol
  rw [hprofile]
  rfl

/-- The update of the visibility of one row. -/
theorem profile_shown {t : AutoTable usersConstraints (·.userId)} {row : UserRow} {v : Text}
    (hrow : row ∈ a.db.users.rows) (hname : row.username = u)
    (ht : t.rows = a.db.users.rows.map (shownRow true row.userId v)) :
    ({ a with db := { a.db with users := t } } : App).network =
      a.network.enrol u { row.profile with visibility := v } := by
  have hother : ∀ r ∈ a.db.users.rows, r.username ≠ u → shownRow true row.userId v r = r := by
    intro r hr hne
    refine shownRow_of_ne fun hid => hne ?_
    rw [a.db.users.eq_of_clash hr hrow (by simp [usersConstraints, hid]), hname]
  refine profile_write ⟨shownRow true row.userId v row, ?_, ?_, ?_⟩ fun w q hw => ?_
  · rw [ht]
    exact List.mem_map_of_mem hrow
  · rw [shownRow_username, hname]
  · simp [UserRow.profile, shownRow_profileVisibility]
  · rw [ht]
    constructor
    · intro h
      obtain ⟨r, hr, hn, hq⟩ := h
      obtain ⟨r₀, hr₀, rfl⟩ := List.mem_map.mp hr
      rw [shownRow_username] at hn
      rw [hother r₀ hr₀ (hn ▸ hw)] at hq
      exact ⟨r₀, hr₀, hn, hq⟩
    · intro h
      obtain ⟨r, hr, hn, hq⟩ := h
      exact ⟨r, List.mem_map.mpr ⟨r, hr, hother r hr (hn ▸ hw)⟩, hn, hq⟩

/-- A room that is founded. -/
theorem network_created {env : Env} {names : List Text} {id : Int} {db' : Db}
    (h : Created env a.db names id db') (hj : env.Joins) (hrep : Represented a)
    (hf : FewConversations db') :
    ({ a with db := db' } : App).network = a.network.found { w | w ∈ names } env.now := by
  have hrooms := h.rooms hj hrep.counted hf hrep.resolved
  have hprofile : db'.profile = a.db.profile := by
    funext w
    unfold Db.profile
    rw [h.users]
  have htie : db'.tie = a.db.tie := by
    funext p
    unfold Db.tie
    rw [h.friends]
  have hsince : db'.since = Function.update a.db.since (a.db.conversations.seq + 1)
      (some env.now) := by
    funext c
    unfold Db.since
    rw [h.conversations, List.find?_append, List.find?_singleton]
    by_cases hc : c = a.db.conversations.seq + 1
    · subst hc
      have hnone : a.db.conversations.rows.find?
          (·.conversationId == a.db.conversations.seq + 1) = none :=
        List.find?_eq_none.mpr fun row hrow hid =>
          not_exists_next a.db ⟨row, hrow, beq_iff_eq.mp hid⟩
      rw [Function.update_self, hnone, if_pos (beq_self_eq_true _)]
      rfl
    · rw [Function.update_of_ne hc, if_neg (by simpa using Ne.symm hc), Option.or_none]
  unfold App.network Network.found Rooms.apply messagesOf
  dsimp only
  rw [hrooms, hprofile, htie, hsince, h.posts, h.messages, h.seq_eq]

/-- What one connection does to its seat. -/
theorem network_sit {m : SessionManager} {sd : Int} {s : Option Seat}
    (hself : (m.sessions sd).map (fun u => (⟨u, m.currentConversation sd⟩ : Seat)) = s)
    (hsessions : ∀ sd', sd' ≠ sd → m.sessions sd' = a.sessions.sessions sd')
    (hcurrent : ∀ sd', sd' ≠ sd →
      m.currentConversation sd' = a.sessions.currentConversation sd') :
    ({ a with sessions := m } : App).network = a.network.sit sd s := by
  have hseat : (fun sd' => (m.sessions sd').map fun u =>
      (⟨u, m.currentConversation sd'⟩ : Seat)) = Function.update a.network.seat sd s := by
    funext sd'
    by_cases hsd : sd' = sd
    · subst hsd
      rw [Function.update_self, hself]
    · rw [Function.update_of_ne hsd, hsessions sd' hsd, hcurrent sd' hsd]
      rfl
  unfold App.network Network.sit
  rw [hseat]
  rfl

end

end SocialNetwork.Server
