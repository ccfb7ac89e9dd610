import SocialNetwork.Privacy.Reads
import SocialNetwork.Server.Chronology

/-!
# How the queries resolve visibility, and how feeds change

`feedRows` is what the two feed queries read: the posts their `WHERE` clauses admit for a
user, or for the guest. `visibility_consistent` compares them with `areFriends` and
`getFriends`, which are written separately and read the same rows.

Posts are never edited or deleted, and a friend row only ever gains status, so a feed can
lose a post in one way: the type of an accepted friend is set to another one than close
(`Demotes`). `feeds_grow` says what then leaves which feed.
-/

namespace SocialNetwork.Server

open SocialNetwork.Lib

variable {hasher : Text → Nat} {serverSocket : Int}

/-- The feed shows the post to a viewer: a user, or the guest. -/
def shows (db : Db) : Option Text → PostRow → Bool
  | some v, p => Database.visibleTo db v p
  | none, p => p.visibility == 0

/-- The posts the feed of a viewer is read from. -/
def feedRows (db : Db) (viewer : Option Text) : List PostRow :=
  db.posts.rows.filter (shows db viewer)

theorem getVisiblePosts_feedRows (env : Env) (db : Db) (v : Text) :
    Database.getVisiblePosts env db v =
      (Database.newestFirst (select env .getVisiblePosts 0 (feedRows db (some v)))).map
        Database.readPost := rfl

theorem getPublicPosts_feedRows (env : Env) (db : Db) :
    Database.getPublicPosts env db =
      (Database.newestFirst (select env .getPublicPosts 0 (feedRows db none))).map
        Database.readPost := rfl

theorem shows_user {db : Db} {v : Text} {p : PostRow} :
    shows db (some v) p = true ↔ Sees db v p := by
  rw [shows, visibleTo_eq, decide_eq_true_eq]

/-! ## The four queries agree -/

section

variable {env : Env} {db : Db}

/-- Without failures a feed consists of its rows, in some order. -/
theorem getVisiblePosts_perm (he : env.Sound) (v : Text) :
    (Database.getVisiblePosts env db v).Perm ((feedRows db (some v)).map Database.readPost) := by
  rw [getVisiblePosts_feedRows]
  exact ((orderBy_perm _ _).trans (select_perm he ..)).map _

theorem getPublicPosts_perm (he : env.Sound) :
    (Database.getPublicPosts env db).Perm ((feedRows db none).map Database.readPost) := by
  rw [getPublicPosts_feedRows]
  exact ((orderBy_perm _ _).trans (select_perm he ..)).map _

/-- A friend is listed with the type of the row. -/
theorem mem_getFriends_typed (he : env.Sound)
    (htypes : ∀ r ∈ db.friends.rows, 0 ≤ r.friendType ∧ r.friendType ≤ 2) {a b : Text} {t : Int} :
    (b, t) ∈ Database.getFriends env db a ↔
      ∃ f ∈ db.friends.rows, f.userUsername = a ∧ f.friendUsername = b ∧ f.status = 1 ∧
        f.friendType = t := by
  have hread : ∀ f ∈ db.friends.rows, columnInt f.friendType = f.friendType := by
    intro f hf
    have hrange := htypes f hf
    refine narrow_of_fits ?_
    unfold intMin intMax
    omega
  unfold Database.getFriends
  simp only [List.mem_map, mem_select he, List.mem_filter, Bool.and_eq_true, beq_iff_eq,
    Prod.mk.injEq]
  constructor
  · rintro ⟨f, ⟨hf, ha, hone⟩, hb, ht⟩
    exact ⟨f, hf, ha, hb, hone, (hread f hf).symm.trans ht⟩
  · rintro ⟨f, hf, ha, hb, hone, ht⟩
    exact ⟨f, ⟨hf, ha, hone⟩, hb, (hread f hf).trans ht⟩

end

/-- The post is visible to `v` by what `areFriends` and `getFriends` answer. -/
def VisibleBy (env : Env) (db : Db) (v : Text) (p : PostRow) : Prop :=
  p.authorUsername = v ∨ p.visibility = 0 ∨
    (p.visibility = 1 ∧ Database.areFriends env db p.authorUsername v = true) ∨
    (p.visibility = 2 ∧ (v, 1) ∈ Database.getFriends env db p.authorUsername)

instance (env : Env) (db : Db) (v : Text) (p : PostRow) : Decidable (VisibleBy env db v p) :=
  inferInstanceAs (Decidable (_ ∨ _))

/-- **The feed query and the friend queries agree.** -/
theorem visibleBy_iff {env : Env} {db : Db} (he : env.Sound)
    (htypes : ∀ r ∈ db.friends.rows, 0 ≤ r.friendType ∧ r.friendType ≤ 2) {v : Text} {p : PostRow} :
    VisibleBy env db v p ↔ Sees db v p := by
  unfold VisibleBy Sees
  rw [areFriends_iff he, mem_getFriends_typed he htypes]
  unfold Accepted
  simp only [isPair_iff, and_assoc]
  rw [or_left_comm]

/-- **Visibility is resolved consistently.** In every reachable state the feed of `v` holds
each post once that is `v`'s own, public, for friends of an author whom `areFriends` pairs
with `v`, or for close friends of one whose `getFriends` lists `v` as close, and no other;
and the public posts of every feed are those of `getPublicPosts`. -/
theorem visibility_consistent {h : History LoopState Event} {s : LoopState}
    (hr : (machine hasher serverSocket).Run h s) {env env' : Env} (he : env.Sound)
    (he' : env'.Sound) (v : Text) :
    (s.app.db.posts.rows.map (·.postId)).Nodup ∧
    (Database.getVisiblePosts env s.app.db v).Perm
      ((s.app.db.posts.rows.filter fun p => decide (VisibleBy env' s.app.db v p)).map
        Database.readPost) ∧
    ((Database.getVisiblePosts env s.app.db v).filter (·.visibility == 0)).Perm
      (Database.getPublicPosts env' s.app.db) ∧
    ∀ sd, ((ListPostsCommand.posts env sd s.app).filter (·.visibility == 0)).Perm
      (Database.getPublicPosts env' s.app.db) := by
  have htypes := (grounded_run hr).1.friendTypes
  have hvis := (posts_run hr).2
  -- the public part of what a viewer is shown
  have hpublic : ∀ viewer, (((feedRows s.app.db viewer).map Database.readPost).filter
      (·.visibility == 0)).Perm (Database.getPublicPosts env' s.app.db) := by
    intro viewer
    refine List.Perm.trans (List.Perm.of_eq ?_) (getPublicPosts_perm he').symm
    unfold feedRows
    rw [List.filter_map, List.filter_filter]
    refine congrArg _ (List.filter_congr fun p hp => ?_)
    show (columnInt p.visibility == 0 && _) = (p.visibility == 0)
    rw [hvis p hp]
    cases hzero : p.visibility == 0 with
    | false => rfl
    | true =>
      cases viewer with
      | none => exact hzero
      | some w => exact shows_user.mpr (Or.inl (beq_iff_eq.mp hzero))
  have hvisible : ∀ w, ((Database.getVisiblePosts env s.app.db w).filter (·.visibility == 0)).Perm
      (Database.getPublicPosts env' s.app.db) := fun w =>
    ((getVisiblePosts_perm he w).filter _).trans (hpublic (some w))
  refine ⟨?_, ?_, hvisible v, fun sd => ?_⟩
  · rw [List.Nodup, List.pairwise_map]
    refine s.app.db.posts.unique.imp fun hclash => ?_
    simpa [postsConstraints] using hclash
  · refine (getVisiblePosts_perm he v).trans (List.Perm.of_eq ?_)
    refine congrArg _ (List.filter_congr fun p _ => ?_)
    rw [Bool.eq_iff_iff, shows_user, decide_eq_true_eq, visibleBy_iff he' htypes]
  · unfold ListPostsCommand.posts
    split
    · exact hvisible _
    · exact ((getPublicPosts_perm he).filter _).trans (hpublic none)

/-- An author with a close friend, and a post of each visibility. -/
def audienceEvents : List Event :=
  [.accept 4, .line 0 "register a p a@x normal public\n",
    .line 0 "register b p b@x normal public\n", .line 0 "login a p\n",
    .line 0 "add_friend b\n", .accept 5, .line 1 "login b p\n", .line 1 "accept_friend a\n",
    .line 0 "set_friend_type b 1\n", .line 0 "create_post 0 all\n",
    .line 0 "create_post 1 friends\n", .line 0 "create_post 2 close\n"]

theorem visibility_consistent_close :
    ∃ h s, (machine List.length 3).Run h s ∧
      (s.app.db.posts.rows.filter fun p =>
        decide (VisibleBy Env.plain s.app.db (bytes "b") p)).length = 3 ∧
      (Database.getVisiblePosts Env.plain s.app.db (bytes "b")).Perm
        ((s.app.db.posts.rows.filter fun p =>
          decide (VisibleBy Env.plain s.app.db (bytes "b") p)).map Database.readPost) := by
  obtain ⟨h, s, _, hrun, _, hthree⟩ := runEvents_exists List.length 3 audienceEvents
    (p := fun _ s => (s.app.db.posts.rows.filter fun p =>
      decide (VisibleBy Env.plain s.app.db (bytes "b") p)).length = 3)
    (by simp [audienceEvents]) (by decide)
  exact ⟨h, s, hrun, hthree,
    (visibility_consistent hrun Env.plain_sound Env.plain_sound (bytes "b")).2.1⟩

/-! ## Feeds over one step -/

/-- The step demotes `v`: its issuer `u` has set the type of the friend `v` to another one
than close. -/
def Demotes (hasher : Text → Nat) (x : Step LoopState Event) (u v : Text) : Prop :=
  issuerOf x = some u ∧ repliedOk hasher x = true ∧
    ∃ type, commandOf x = some (.setFriendType v type) ∧ type ≠ 1

/-- The feed of `v` depends on the rows that point to `v`, and grows with them. -/
theorem Sees.mono {db db' : Db} {v : Text} {p : PostRow} (h : Sees db v p)
    (hfriends : ∀ f ∈ db.friends.rows, f.friendUsername = v → f.status = 1 →
      ∃ f' ∈ db'.friends.rows, f'.userUsername = f.userUsername ∧
        f'.friendUsername = f.friendUsername ∧ f'.status = 1 ∧
        (f.friendType = 1 → f'.friendType = 1)) : Sees db' v p := by
  rcases h with hpublic | hown | ⟨hvis, f, hf, hu, hv, hone⟩ | ⟨hvis, f, hf, hu, hv, hone, hclose⟩
  · exact Or.inl hpublic
  · exact Or.inr (Or.inl hown)
  · obtain ⟨f', hf', hu', hv', hone', _⟩ := hfriends f hf hv hone
    exact Or.inr (Or.inr (Or.inl ⟨hvis, f', hf', hu'.trans hu, hv'.trans hv, hone'⟩))
  · obtain ⟨f', hf', hu', hv', hone', hclose'⟩ := hfriends f hf hv hone
    exact Or.inr (Or.inr (Or.inr
      ⟨hvis, f', hf', hu'.trans hu, hv'.trans hv, hone', hclose' hclose⟩))

/-- Where no friend row is lost or weakened and posts are only added, feeds grow. -/
theorem feedRows_sublist {db db' : Db} {viewer : Option Text}
    (hposts : db.posts.rows.Sublist db'.posts.rows)
    (hfriends : ∀ v, viewer = some v → ∀ f ∈ db.friends.rows, f.friendUsername = v →
      f.status = 1 → ∃ f' ∈ db'.friends.rows, f'.userUsername = f.userUsername ∧
        f'.friendUsername = f.friendUsername ∧ f'.status = 1 ∧
        (f.friendType = 1 → f'.friendType = 1)) :
    (feedRows db viewer).Sublist (feedRows db' viewer) := by
  refine List.Sublist.trans ?_ (hposts.filter _)
  refine List.monotone_filter_right _ fun p hp => ?_
  cases viewer with
  | none => exact hp
  | some v => exact shows_user.mpr ((shows_user.mp hp).mono (hfriends v rfl))

/-- The rows of other pairs are left alone by a change of type. -/
theorem typeRow_of_ne {u v : Text} {type : Int} {f : FriendRow}
    (h : Database.isPair u v f = false) : typeRow u v type f = f := by
  unfold typeRow Table.rewrite
  rw [if_neg (by simp [h])]

/-- **One write lets feeds grow**, unless it sets the type of the viewer's row to another
one than close. -/
theorem Write.feed_grows {env : Env} {db db' : Db} {issuer : Option Text} {current : Option Int}
    {cmd : Command} {reply : Text} (h : Write hasher env db issuer current cmd reply db')
    {viewer : Option Text}
    (hno : ∀ v type, viewer = some v → cmd = .setFriendType v type → isOk reply = true → type = 1) :
    (feedRows db viewer).Sublist (feedRows db' viewer) := by
  have hkeep : ∀ {rows' : List FriendRow}, (∀ f ∈ db.friends.rows, f ∈ rows') → ∀ v,
      viewer = some v → ∀ f ∈ db.friends.rows, f.friendUsername = v → f.status = 1 →
        ∃ f' ∈ rows', f'.userUsername = f.userUsername ∧
          f'.friendUsername = f.friendUsername ∧ f'.status = 1 ∧
          (f.friendType = 1 → f'.friendType = 1) :=
    fun hsub _ _ f hf _ hone => ⟨f, hsub f hf, rfl, rfl, hone, id⟩
  cases h with
  | friendRequest _ _ _ _ ht =>
    refine feedRows_sublist (List.Sublist.refl _) (hkeep fun f hf => ?_)
    show f ∈ _
    rw [ht]
    exact List.mem_append_left _ hf
  | @acceptFriend u v updated inserted t _ _ _ _ ht =>
    refine feedRows_sublist (List.Sublist.refl _) fun _ _ f hf _ hone => ?_
    -- an accepted row stays accepted and keeps its type
    have hin : (if updated then acceptRow v u f else f) ∈ t.rows := by
      rw [ht, acceptedRows]
      refine List.mem_append_left _ ?_
      split
      · exact List.mem_map_of_mem hf
      · exact hf
    refine ⟨_, hin, ?_⟩
    split
    · refine ⟨by simp, by simp, ?_, by simp⟩
      rw [acceptRow_status]
      split
      · rfl
      · exact hone
    · exact ⟨rfl, rfl, hone, id⟩
  | @setFriendType u v type t _ _ _ ht =>
    refine feedRows_sublist (List.Sublist.refl _) fun w hw f hf hfw hone => ?_
    refine ⟨typeRow u v type f, ht ▸ List.mem_map_of_mem hf, by simp, by simp, by simpa using hone,
      fun hclose => ?_⟩
    rw [typeRow_friendType]
    split
    next hpair =>
      rw [Bool.and_eq_true, isPair_iff] at hpair
      refine hno v type ?_ rfl rfl
      rw [hw, ← hfw, hpair.1.2]
    next => exact hclose
  | createPost _ _ _ ht =>
    refine feedRows_sublist ?_ (hkeep fun _ => id)
    show List.Sublist _ _
    rw [ht]
    exact List.sublist_append_left ..
  | chat _ _ _ _ hcreated =>
    refine feedRows_sublist ?_ (hkeep ?_)
    · rw [hcreated.posts]
    · rw [hcreated.friends]
      exact fun _ => id
  | group _ _ hcreated =>
    refine feedRows_sublist ?_ (hkeep ?_)
    · rw [hcreated.posts]
    · rw [hcreated.friends]
      exact fun _ => id
  | _ => exact List.Sublist.refl _

section

variable {env : Env} {db db' : Db} {issuer : Option Text} {current : Option Int} {reply : Text}
  {v : Text} {type : Int}

/-- What an OK `set_friend_type` writes, and that another one writes nothing. -/
theorem Write.typed (h : Write hasher env db issuer current (.setFriendType v type) reply db') :
    (isOk reply = false ∧ db' = db) ∨
      ∃ u, issuer = some u ∧ isOk reply = true ∧ Accepted db u v ∧
        db'.friends.rows = db.friends.rows.map (typeRow u v type) ∧ db'.posts = db.posts := by
  cases h with
  | unchanged h => exact Or.inl ⟨not_isOk_of_unchanged h rfl, rfl⟩
  | setFriendType hs _ haccepted ht => exact Or.inr ⟨_, hs, rfl, haccepted, ht, rfl⟩

/-- **A demotion takes the posts for close friends away**, and nothing else. -/
theorem sees_demoted {u : Text} (hne : u ≠ v) (htype : type ≠ 1)
    (ht : db'.friends.rows = db.friends.rows.map (typeRow u v type)) (p : PostRow) :
    Sees db' v p ↔ Sees db v p ∧ ¬ (p.authorUsername = u ∧ p.visibility = 2) := by
  unfold Sees
  rw [ht]
  constructor
  · rintro (hpublic | hown | ⟨hvis, f', hf', hu, hv, hone⟩ | ⟨hvis, f', hf', hu, hv, hone, hclose⟩)
    · exact ⟨Or.inl hpublic, fun hp => by omega⟩
    · exact ⟨Or.inr (Or.inl hown), fun hp => hne (hp.1.symm.trans hown)⟩
    · obtain ⟨f, hf, rfl⟩ := List.mem_map.mp hf'
      rw [typeRow_userUsername] at hu
      rw [typeRow_friendUsername] at hv
      rw [typeRow_status] at hone
      exact ⟨Or.inr (Or.inr (Or.inl ⟨hvis, f, hf, hu, hv, hone⟩)), fun hp => by omega⟩
    · obtain ⟨f, hf, rfl⟩ := List.mem_map.mp hf'
      rw [typeRow_userUsername] at hu
      rw [typeRow_friendUsername] at hv
      rw [typeRow_status] at hone
      -- the row of `(u, v)` is no longer a close one
      have hpair : (Database.isPair u v f && f.status == 1) = false := by
        rw [← Bool.not_eq_true]
        intro hpair
        rw [typeRow_friendType, if_pos hpair] at hclose
        exact htype hclose
      rw [typeRow_friendType, hpair] at hclose
      refine ⟨Or.inr (Or.inr (Or.inr ⟨hvis, f, hf, hu, hv, hone, hclose⟩)), fun hp => ?_⟩
      have hin : (Database.isPair u v f && f.status == 1) = true := by
        rw [Bool.and_eq_true, isPair_iff, beq_iff_eq]
        exact ⟨⟨hu.trans hp.1, hv⟩, hone⟩
      rw [hpair] at hin
      cases hin
  · rintro ⟨hpublic | hown | ⟨hvis, f, hf, hu, hv, hone⟩ | ⟨hvis, f, hf, hu, hv, hone, hclose⟩,
      hnot⟩
    · exact Or.inl hpublic
    · exact Or.inr (Or.inl hown)
    · exact Or.inr (Or.inr (Or.inl ⟨hvis, _, List.mem_map_of_mem hf, by simpa using hu,
        by simpa using hv, by simpa using hone⟩))
    · have hpair : Database.isPair u v f = false := by
        rw [← Bool.not_eq_true, isPair_iff]
        exact fun hpair => hnot ⟨hu.symm.trans hpair.1, hvis⟩
      have hin := List.mem_map_of_mem (f := typeRow u v type) hf
      rw [typeRow_of_ne hpair] at hin
      exact Or.inr (Or.inr (Or.inr ⟨hvis, f, hin, hu, hv, hone, hclose⟩))

theorem feedRows_demoted {u : Text} (hne : u ≠ v) (htype : type ≠ 1)
    (ht : db'.friends.rows = db.friends.rows.map (typeRow u v type))
    (hposts : db'.posts = db.posts) :
    feedRows db' (some v) = (feedRows db (some v)).filter fun p =>
      !(p.authorUsername == u && p.visibility == 2) := by
  unfold feedRows
  rw [hposts, List.filter_filter]
  refine List.filter_congr fun p _ => ?_
  rw [Bool.eq_iff_iff, shows_user, sees_demoted hne htype ht, Bool.and_eq_true, shows_user,
    and_comm, Bool.not_eq_true', ← Bool.not_eq_true, Bool.and_eq_true, beq_iff_eq, beq_iff_eq]

/-- A change of type leaves what others see alone. -/
theorem sees_typed_of_ne {u w : Text} (hw : w ≠ v)
    (ht : db'.friends.rows = db.friends.rows.map (typeRow u v type)) (p : PostRow) :
    Sees db' w p ↔ Sees db w p := by
  have hother : ∀ f : FriendRow, f.friendUsername = w → typeRow u v type f = f := by
    intro f hf
    refine typeRow_of_ne ?_
    rw [← Bool.not_eq_true, isPair_iff]
    exact fun hpair => hw (hf.symm.trans hpair.2)
  constructor
  · refine fun h => h.mono fun f' hf' hfw hone => ?_
    rw [ht] at hf'
    obtain ⟨f, hf, rfl⟩ := List.mem_map.mp hf'
    rw [typeRow_friendUsername] at hfw
    rw [hother f hfw] at hone ⊢
    exact ⟨f, hf, rfl, rfl, hone, id⟩
  · refine fun h => h.mono fun f hf hfw hone => ?_
    refine ⟨f, ?_, rfl, rfl, hone, id⟩
    rw [ht, ← hother f hfw]
    exact List.mem_map_of_mem hf

theorem feedRows_typed_of_ne {u : Text} {viewer : Option Text} (hne : viewer ≠ some v)
    (ht : db'.friends.rows = db.friends.rows.map (typeRow u v type))
    (hposts : db'.posts = db.posts) :
    feedRows db' viewer = feedRows db viewer := by
  unfold feedRows
  rw [hposts]
  refine List.filter_congr fun p _ => ?_
  cases viewer with
  | none => rfl
  | some w =>
    have hw : w ≠ v := fun heq => hne (congrArg some heq)
    rw [Bool.eq_iff_iff, shows_user, shows_user, sees_typed_of_ne hw ht]

/-- A change of type leaves the friends of others alone. -/
theorem getFriends_typed_of_ne {u w : Text} (hw : w ≠ u)
    (ht : db'.friends.rows = db.friends.rows.map (typeRow u v type)) (env : Env) :
    Database.getFriends env db' w = Database.getFriends env db w := by
  have hrows : (db'.friends.rows.filter fun r => r.userUsername == w && r.status == 1) =
      db.friends.rows.filter fun r => r.userUsername == w && r.status == 1 := by
    rw [ht, List.filter_map]
    simp only [Function.comp_def, typeRow_userUsername, typeRow_status]
    refine (List.map_congr_left fun f hf => ?_).trans (List.map_id _)
    obtain ⟨_, hf⟩ := List.mem_filter.mp hf
    rw [Bool.and_eq_true, beq_iff_eq] at hf
    refine typeRow_of_ne ?_
    rw [← Bool.not_eq_true, isPair_iff]
    exact fun hpair => hw (hf.1.symm.trans hpair.1)
  unfold Database.getFriends
  rw [hrows]

end

/-- What a `set_friend_type` that was delivered did. -/
theorem step_typed (hasher : Text → Nat) {x : Step LoopState Event} {u v : Text} {type : Int}
    (hs : issuerOf x = some u) (hcmd : commandOf x = some (.setFriendType v type)) :
    (repliedOk hasher x = false ∧ (next hasher x.pre x.event).app.db = x.pre.app.db) ∨
      (repliedOk hasher x = true ∧ Accepted x.pre.app.db u v ∧
        (next hasher x.pre x.event).app.db.friends.rows =
          x.pre.app.db.friends.rows.map (typeRow u v type) ∧
        (next hasher x.pre x.event).app.db.posts = x.pre.app.db.posts) := by
  obtain ⟨i, env, data, reply, _, hreply, hw⟩ := write_of_command hasher hcmd
  rw [hreply]
  rcases hw.typed with hrefused | ⟨u', hs', hok, haccepted, ht, hposts⟩
  · exact Or.inl hrefused
  · rw [hs, Option.some.injEq] at hs'
    subst hs'
    exact Or.inr ⟨hok, haccepted, ht, hposts⟩

/-- **Feeds only grow, except by demotion.** For every step `x` of every run: each viewer
who is not demoted by it sees what was seen before; a demotion of `v` by `u` takes exactly
`u`'s posts of visibility 2 out of the feed of `v`; and no `set_friend_type` by `u` on `v`,
granted or refused, changes another feed than that of `v` or the friends of another user
than `u`. -/
theorem feeds_grow {h : History LoopState Event} {x : Step LoopState Event} {s : LoopState}
    (hr : (machine hasher serverSocket).Run (x :: h) s) :
    (∀ viewer, (∀ u v, viewer = some v → ¬ Demotes hasher x u v) →
      (feedRows x.pre.app.db viewer).Sublist (feedRows s.app.db viewer)) ∧
    (∀ u v, Demotes hasher x u v →
      feedRows s.app.db (some v) = (feedRows x.pre.app.db (some v)).filter fun p =>
        !(p.authorUsername == u && p.visibility == 2)) ∧
    ∀ u v type, issuerOf x = some u → commandOf x = some (.setFriendType v type) →
      (∀ viewer, viewer ≠ some v → feedRows s.app.db viewer = feedRows x.pre.app.db viewer) ∧
      ∀ w, w ≠ u → ∀ env,
        Database.getFriends env s.app.db w = Database.getFriends env x.pre.app.db w := by
  obtain ⟨hr', _, rfl⟩ := hr.of_cons
  show (∀ viewer, _ → (feedRows x.pre.app.db viewer).Sublist
      (feedRows (next hasher x.pre x.event).app.db viewer)) ∧
    (∀ u v, _ → feedRows (next hasher x.pre x.event).app.db (some v) = _) ∧
    ∀ u v type, _ → _ → (∀ viewer, _ → feedRows (next hasher x.pre x.event).app.db viewer = _) ∧
      ∀ w, _ → ∀ env, Database.getFriends env (next hasher x.pre x.event).app.db w = _
  refine ⟨fun viewer hno => ?_, fun u v hx => ?_, fun u v type hs hcmd => ⟨fun viewer hne => ?_,
    fun w hw env => ?_⟩⟩
  · rcases step_write hasher x with ⟨_, _, hdb⟩ | ⟨i, env, data, cmd, reply, _, hcmd, hreply, hw⟩
    · rw [hdb]
    · refine hw.feed_grows fun v type hv hcmd' hok => ?_
      subst hcmd'
      by_contra htype
      rcases hw.typed with hrefused | ⟨u, hs, _⟩
      · rw [hrefused.1] at hok
        cases hok
      · exact hno u v hv ⟨hs, (repliedOk_of_reply hreply).trans hok, type, hcmd, htype⟩
  · obtain ⟨hs, hok, type, hcmd, htype⟩ := hx
    rcases step_typed hasher hs hcmd with ⟨hrefused, _⟩ | ⟨_, ⟨r, hrow, hpair, _⟩, ht, hposts⟩
    · rw [hok] at hrefused
      cases hrefused
    · -- nobody is listed as a friend of themselves
      have hne : u ≠ v := by
        obtain ⟨hu, hv⟩ := isPair_iff.mp hpair
        exact hu ▸ hv ▸ noSelfRows_run hr' r hrow
      exact feedRows_demoted hne htype ht hposts
  · rcases step_typed hasher hs hcmd with ⟨_, hdb⟩ | ⟨_, _, ht, hposts⟩
    · rw [hdb]
    · exact feedRows_typed_of_ne hne ht hposts
  · rcases step_typed hasher hs hcmd with ⟨_, hdb⟩ | ⟨_, _, ht, _⟩
    · rw [hdb]
    · exact getFriends_typed_of_ne hw ht env

theorem feeds_grow_demoted :
    ∃ h x s, (machine List.length 3).Run (x :: h) s ∧
      Demotes List.length x (bytes "a") (bytes "b") ∧
      (feedRows x.pre.app.db (some (bytes "b"))).length = 3 ∧
      feedRows s.app.db (some (bytes "b")) =
        (feedRows x.pre.app.db (some (bytes "b"))).filter fun p =>
          !(p.authorUsername == bytes "a" && p.visibility == 2) := by
  obtain ⟨h, s, _, hrun, _, hlast⟩ := runEvents_exists List.length 3
    (audienceEvents ++ [.line 0 "set_friend_type b 2\n"])
    (p := fun h _ => ∃ x ∈ h.head?, (issuerOf x = some (bytes "a") ∧
        repliedOk List.length x = true ∧
        commandOf x = some (.setFriendType (bytes "b") 2)) ∧
      (feedRows x.pre.app.db (some (bytes "b"))).length = 3)
    (by simp [audienceEvents]) (by decide)
  obtain ⟨x, hx, ⟨hs, hok, hcmd⟩, hthree⟩ := hlast
  obtain ⟨h, rfl⟩ := List.head?_eq_some_iff.mp hx
  have hdemotes : Demotes List.length x (bytes "a") (bytes "b") :=
    ⟨hs, hok, 2, hcmd, by decide⟩
  exact ⟨h, x, s, hrun, hdemotes, hthree, (feeds_grow hrun).2.1 _ _ hdemotes⟩

/-- **A refused `set_friend_type` takes nothing away**: the type 7 is another one than 1, but
the close friend keeps seeing the post of visibility 2. -/
theorem feed_not_demoted :
    ∃ h x s, (machine List.length 3).Run (x :: h) s ∧ SoundStep x ∧
      issuerOf x = some (bytes "a") ∧ commandOf x = some (.setFriendType (bytes "b") 7) ∧
      (feedRows s.app.db (some (bytes "b"))).map (·.content) =
        [bytes "all", bytes "friends", bytes "close"] ∧
      feedRows s.app.db (some (bytes "b")) ≠
        (feedRows x.pre.app.db (some (bytes "b"))).filter fun p =>
          !(p.authorUsername == bytes "a" && p.visibility == 2) := by
  obtain ⟨h, s, _, hrun, hsound, hlast⟩ := runEvents_exists List.length 3
    (audienceEvents ++ [.line 0 "set_friend_type b 7\n"])
    (p := fun h s => ∃ x ∈ h.head?, issuerOf x = some (bytes "a") ∧
      commandOf x = some (.setFriendType (bytes "b") 7) ∧
      (feedRows s.app.db (some (bytes "b"))).map (·.content) =
        [bytes "all", bytes "friends", bytes "close"] ∧
      feedRows s.app.db (some (bytes "b")) ≠
        (feedRows x.pre.app.db (some (bytes "b"))).filter fun p =>
          !(p.authorUsername == bytes "a" && p.visibility == 2))
    (by simp [audienceEvents]) (by decide)
  obtain ⟨x, hx, hs, hcmd, hfeed, hne⟩ := hlast
  obtain ⟨h, rfl⟩ := List.head?_eq_some_iff.mp hx
  exact ⟨h, x, s, hrun, hsound x (List.mem_cons_self ..), hs, hcmd, hfeed, hne⟩

end SocialNetwork.Server
