import SocialNetwork.Authority.Ownership
import SocialNetwork.Friends.Symmetry
import SocialNetwork.Messaging.Numbering

/-!
# References resolve without foreign keys

SQLite enforces none of the declared FOREIGN KEYs, so that every reference resolves rests
on the checks of the handlers. `Grounded` collects what one write needs and keeps: the
users a row names are registered, the sender of a message is a participant, types and
visibilities are in range. Users are never removed (`Write.registered_mono`) and a session
belongs to a registered user, so a row written under the issuer's name is grounded too.

The conversations behind the ids come from `Numbered`. No assumption is made about
failing statements.
-/

namespace SocialNetwork.Server

open SocialNetwork.Lib

variable {hasher : Text → Nat} {serverSocket : Int}

/-- Every declared reference resolves, and the values the schema leaves open are in range. -/
structure ReferentialIntegrity (a : App) : Prop where
  friends : ∀ r ∈ a.db.friends.rows,
    Registered a.db r.userUsername ∧ Registered a.db r.friendUsername
  irreflexive : ∀ r ∈ a.db.friends.rows, r.userUsername ≠ r.friendUsername
  friendTypes : ∀ r ∈ a.db.friends.rows, 0 ≤ r.friendType ∧ r.friendType ≤ 2
  authors : ∀ p ∈ a.db.posts.rows, Registered a.db p.authorUsername
  visibilities : ∀ p ∈ a.db.posts.rows, 0 ≤ p.visibility ∧ p.visibility ≤ 2
  participants : ∀ r ∈ a.db.participants.rows,
    Registered a.db r.username ∧ Exists a.db r.conversationId
  messages : ∀ m ∈ a.db.messages.rows,
    Registered a.db m.senderUsername ∧ Exists a.db m.conversationId ∧
      Member a.db m.conversationId m.senderUsername
  sessions : ∀ sd u, a.sessions.sessions sd = some u → Registered a.db u

/-- The part of it that every write keeps by itself. -/
structure Grounded (db : Db) : Prop where
  friends : ∀ r ∈ db.friends.rows, Registered db r.userUsername ∧ Registered db r.friendUsername
  friendTypes : ∀ r ∈ db.friends.rows, 0 ≤ r.friendType ∧ r.friendType ≤ 2
  authors : ∀ p ∈ db.posts.rows, Registered db p.authorUsername
  visibilities : ∀ p ∈ db.posts.rows, 0 ≤ p.visibility ∧ p.visibility ≤ 2
  participants : ∀ r ∈ db.participants.rows, Registered db r.username
  senders : ∀ m ∈ db.messages.rows,
    Registered db m.senderUsername ∧ Member db m.conversationId m.senderUsername

theorem grounded_empty : Grounded Db.empty where
  friends r hr := by cases hr
  friendTypes r hr := by cases hr
  authors p hp := by cases hp
  visibilities p hp := by cases hp
  participants r hr := by cases hr
  senders m hm := by cases hm

section

variable {env : Env} {db db' : Db} {issuer : Option Text} {current : Option Int} {cmd : Command}
  {reply : Text}

/-- A change of profile visibilities keeps everybody registered. -/
theorem registered_map_shownRow {rows rows' : List UserRow} {shown : Bool} {userId : Int}
    {v w : Text} (h : rows' = rows.map (shownRow shown userId v)) :
    (∃ row ∈ rows', row.username = w) ↔ ∃ row ∈ rows, row.username = w := by
  rw [h]
  simp

/-- **Users are never removed.** -/
theorem Write.registered_mono (h : Write hasher env db issuer current cmd reply db') {w : Text}
    (hw : Registered db w) : Registered db' w := by
  cases h with
  | register _ _ _ _ _ ht _ =>
    refine (registered_map_shownRow ht).mpr ?_
    obtain ⟨row, hrow, hname⟩ := hw
    exact ⟨row, List.mem_append_left _ hrow, hname⟩
  | setVisibility _ _ _ _ _ ht _ => exact (registered_map_shownRow ht).mpr hw
  | chat _ _ _ _ hcreated =>
    unfold Registered
    rw [hcreated.users]
    exact hw
  | group _ _ hcreated =>
    unfold Registered
    rw [hcreated.users]
    exact hw
  | _ => exact hw

/-- More users and participants ground the same rows. -/
theorem Grounded.mono (h : Grounded db) (hf : db'.friends = db.friends)
    (hp : db'.posts = db.posts) (hm : db'.messages = db.messages)
    (hreg : ∀ w, Registered db w → Registered db' w)
    (hmember : ∀ c u, Member db c u → Member db' c u)
    (hpart : ∀ r ∈ db'.participants.rows, Registered db' r.username) : Grounded db' where
  friends r hr := by
    rw [hf] at hr
    exact ⟨hreg _ (h.friends r hr).1, hreg _ (h.friends r hr).2⟩
  friendTypes := by
    rw [hf]
    exact h.friendTypes
  authors p hpost := by
    rw [hp] at hpost
    exact hreg _ (h.authors p hpost)
  visibilities := by
    rw [hp]
    exact h.visibilities
  participants := hpart
  senders m hmsg := by
    rw [hm] at hmsg
    exact ⟨hreg _ (h.senders m hmsg).1, hmember _ _ (h.senders m hmsg).2⟩

/-- A conversation created for registered users is grounded. -/
theorem Created.grounded {names : List Text} {id : Int} (h : Created env db names id db')
    (hg : Grounded db) (hnames : ∀ w ∈ names, Registered db w) : Grounded db' := by
  have hreg : ∀ w, Registered db w → Registered db' w := by
    intro w hw
    unfold Registered
    rw [h.users]
    exact hw
  refine hg.mono h.friends h.posts h.messages hreg (fun _ _ => h.attached.mono) fun r hr => ?_
  rcases h.attached.mem_cases hr with hold | ⟨_, hin⟩
  · exact hreg _ (hg.participants r hold)
  · exact hreg _ (hnames _ hin)

/-- **One write of a registered issuer keeps the rows grounded.** -/
theorem Write.grounded (h : Write hasher env db issuer current cmd reply db') (hg : Grounded db)
    (hs : ∀ u, issuer = some u → Registered db u) : Grounded db' := by
  have hreg := fun w => h.registered_mono (w := w)
  cases h with
  | unchanged => exact hg
  | register =>
    exact hg.mono rfl rfl rfl hreg (fun _ _ h => h) fun r hr => hreg _ (hg.participants r hr)
  | setVisibility =>
    exact hg.mono rfl rfl rfl hreg (fun _ _ h => h) fun r hr => hreg _ (hg.participants r hr)
  | @friendRequest u v t hu _ hv _ ht =>
    refine ⟨fun r hr => ?_, fun r hr => ?_, hg.authors, hg.visibilities, hg.participants,
      hg.senders⟩
    · rcases mem_inserted ht hr with hold | rfl
      · exact hg.friends r hold
      · exact ⟨hs u hu, registered_of_ne_none hv⟩
    · rcases mem_inserted ht hr with hold | rfl
      · exact hg.friendTypes r hold
      · exact (by decide : (0 : Int) ≤ 0 ∧ (0 : Int) ≤ 2)
  | @acceptFriend u v updated inserted t _ hpending _ _ ht =>
    -- the reverse row names the two users of the pending one
    obtain ⟨r₁, hr₁, hpair, _⟩ := hpending
    obtain ⟨hv, hu⟩ := isPair_iff.mp hpair
    have hboth := hg.friends r₁ hr₁
    rw [hv, hu] at hboth
    refine ⟨fun r hr => ?_, fun r hr => ?_, hg.authors, hg.visibilities, hg.participants,
      hg.senders⟩
    · rcases mem_acceptedRows ht hr with ⟨r₀, hr₀, huser, hfriend, _⟩ | rfl
      · rw [huser, hfriend]
        exact hg.friends r₀ hr₀
      · exact ⟨hboth.2, hboth.1⟩
    · rcases mem_acceptedRows ht hr with ⟨r₀, hr₀, _, _, htype⟩ | rfl
      · rw [htype]
        exact hg.friendTypes r₀ hr₀
      · exact (by decide : (0 : Int) ≤ 0 ∧ (0 : Int) ≤ 2)
  | @setFriendType u v type t _ hrange _ ht =>
    refine ⟨fun r hr => ?_, fun r hr => ?_, hg.authors, hg.visibilities, hg.participants,
      hg.senders⟩
    · obtain ⟨r₀, hr₀, rfl⟩ := mem_updated ht hr
      rw [typeRow_userUsername, typeRow_friendUsername]
      exact hg.friends r₀ hr₀
    · obtain ⟨r₀, hr₀, rfl⟩ := mem_updated ht hr
      rw [typeRow_friendType]
      split
      · exact hrange
      · exact hg.friendTypes r₀ hr₀
  | @createPost u content vis t hu _ hrange ht _ =>
    refine ⟨hg.friends, hg.friendTypes, fun p hp => ?_, fun p hp => ?_, hg.participants,
      hg.senders⟩
    · rcases mem_inserted ht hp with hold | rfl
      · exact hg.authors p hold
      · exact hs u hu
    · rcases mem_inserted ht hp with hold | rfl
      · exact hg.visibilities p hold
      · exact hrange
  | @chat u v id _ hu _ hv _ hcreated =>
    refine hcreated.grounded hg fun w hw => ?_
    rcases List.mem_cons.mp hw with rfl | hw
    · exact hs w hu
    · rw [List.mem_singleton.mp hw]
      exact registered_of_ne_none hv
  | group _ hknown hcreated => exact hcreated.grounded hg hknown
  | @send u content c t hu _ hmem ht _ =>
    refine ⟨hg.friends, hg.friendTypes, hg.authors, hg.visibilities, hg.participants,
      fun m hm => ?_⟩
    rcases mem_inserted ht hm with hold | rfl
    · exact hg.senders m hold
    · exact ⟨hs u hu, hmem⟩
  | @add u w c t _ _ hw hattached _ =>
    refine hg.mono rfl rfl rfl (fun _ h => h) (fun _ _ => hattached.mono) fun r hr => ?_
    rcases hattached.mem_cases hr with hold | ⟨_, hin⟩
    · exact hg.participants r hold
    · rw [List.mem_singleton.mp hin]
      exact registered_of_ne_none hw

end

/-- The users logged in stay registered, and a login is by a registered user. -/
theorem Effect.sessions_registered {env : Env} {sd : Int} {a : App} {cmd : Command}
    {r : Text × App} (h : Effect hasher env sd a cmd r)
    (hI : ∀ sd u, a.sessions.sessions sd = some u → Registered a.db u) {sd' : Int} {u : Text}
    (hu : r.2.sessions.sessions sd' = some u) : Registered r.2.db u := by
  have hmono := fun w => h.write.registered_mono (w := w)
  by_cases hsd : sd' = sd
  · subst hsd
    rcases h.session with ⟨w, p, _, _, hauth, hs⟩ | ⟨_, _, hs⟩ | ⟨_, hs⟩
    · rw [hs, Option.some.injEq] at hu
      subst hu
      obtain ⟨user, huser⟩ := Option.ne_none_iff_exists'.mp hauth
      obtain ⟨row, hrow, hname, _⟩ := authenticateUser_eq_some huser
      exact hmono _ ⟨row, hrow, hname⟩
    · rw [hs] at hu
      cases hu
    · exact hmono _ (hI sd' u (hs ▸ hu))
  · rw [(h.frame hsd).1] at hu
    exact hmono _ (hI sd' u hu)

/-- Rows and sessions are grounded in every reachable state. -/
theorem grounded_run {h : History LoopState Event} {s : LoopState}
    (hr : (machine hasher serverSocket).Run h s) :
    Grounded s.app.db ∧ ∀ sd u, s.app.sessions.sessions sd = some u → Registered s.app.db u := by
  refine app_invariant (Q := fun _ => True)
    (I := fun a => Grounded a.db ∧ ∀ sd u, a.sessions.sessions sd = some u → Registered a.db u)
    ?_ (fun a sd hI => ?_) (fun h _ _ hI => ?_) hr fun _ _ _ _ _ _ => trivial
  · exact ⟨grounded_empty, fun sd u hu => by cases hu⟩
  · refine ⟨hI.1, fun sd' u hu => ?_⟩
    exact hI.2 sd' u (SessionManager.sessions_of_logout hu).2
  · exact ⟨h.write.grounded hI.1 (hI.2 _), fun sd' u hu => h.sessions_registered hI.2 hu⟩

/-- Who is listed as a friend is registered. -/
theorem Grounded.friend {env : Env} {db : Db} {u : Text} {f : Text × Int} (hg : Grounded db)
    (hf : f ∈ Database.getFriends env db u) : Registered db f.1 := by
  obtain ⟨r, hr, rfl⟩ := List.mem_map.mp hf
  exact (hg.friends r (List.mem_filter.mp (mem_of_mem_select hr)).1).2

/-- Who is listed with a request is registered. -/
theorem Grounded.requester {env : Env} {db : Db} {u w : Text} (hg : Grounded db)
    (hw : w ∈ Database.getFriendRequests env db u) : Registered db w := by
  obtain ⟨r, hr, rfl⟩ := List.mem_map.mp hw
  exact (hg.friends r (List.mem_filter.mp (mem_of_mem_select hr)).1).1

/-- **Every declared reference resolves in every reachable state** with fewer than 2^31
conversations, although SQLite checks none of them. -/
theorem referential_integrity {h : History LoopState Event} {s : LoopState}
    (hr : (machine hasher serverSocket).Run h s) (hf : FewConversations s.app.db) :
    ReferentialIntegrity s.app := by
  obtain ⟨hg, hsessions⟩ := grounded_run hr
  have hn := numbered_run hr
  have hc := counted_run hr
  exact {
    friends := hg.friends
    irreflexive := noSelfRows_run hr
    friendTypes := hg.friendTypes
    authors := hg.authors
    visibilities := hg.visibilities
    participants := fun r hr => ⟨hg.participants r hr, (hn.participants r hr).exists hn hc hf⟩
    messages := fun m hm =>
      ⟨(hg.senders m hm).1, (hn.messages m hm).exists hn hc hf, (hg.senders m hm).2⟩
    sessions := hsessions }

/-- Two users become friends, one posts, and they talk. -/
def acquaintedEvents : List Event :=
  [.accept 4, .accept 5, .line 0 "register a p a@x normal public\n",
    .line 0 "register b p b@x normal public\n", .line 0 "login a p\n", .line 1 "login b p\n",
    .line 0 "add_friend b\n", .line 1 "accept_friend a\n", .line 0 "create_post 1 hi\n",
    .line 0 "group b\n", .line 0 "send hi\n"]

theorem referential_integrity_acquainted :
    ∃ h s, (machine List.length 3).Run h s ∧ s.app.db.friends.rows.length = 2 ∧
      s.app.db.posts.rows.length = 1 ∧ s.app.db.messages.rows.length = 1 ∧
      ReferentialIntegrity s.app := by
  obtain ⟨h, s, _, hrun, _, hfriends, hposts, hmessages, hone⟩ :=
    runEvents_exists List.length 3 acquaintedEvents
      (p := fun _ s => s.app.db.friends.rows.length = 2 ∧ s.app.db.posts.rows.length = 1 ∧
        s.app.db.messages.rows.length = 1 ∧ s.app.db.conversations.rows.length = 1)
      (by simp [acquaintedEvents]) (by decide)
  have hf : FewConversations s.app.db := by
    unfold FewConversations
    omega
  exact ⟨h, s, hrun, hfriends, hposts, hmessages, referential_integrity hrun hf⟩

end SocialNetwork.Server
