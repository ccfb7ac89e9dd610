import SocialNetwork.Server.Writes

/-!
# No restricted post without consent

`Consented h db` is the ghost-history invariant of the `friends` table: a pending
row was requested by its first user, an accepted row stems from a request by one of
the two and a later acceptance by the other, and the type of a row is what the last
OK `set_friend_type` of its first user on its second said. It survives failing
statements: `accept_friend` may then write only one of its two rows, but each row
it does write is one both users asked for.

`restricted_post_consent` reads the visibility query off it.
-/

namespace SocialNetwork.Server

open SocialNetwork.Lib

variable {hasher : Text → Nat} {serverSocket : Int}

/-! ## What the history says about a pair -/

/-- `a` executed `add_friend b` with reply OK. -/
def Requests (hasher : Text → Nat) (a b : Text) (x : Step LoopState Event) : Prop :=
  issuerOf x = some a ∧ commandOf x = some (.friendRequest b) ∧ repliedOk hasher x = true

/-- `a` executed `accept_friend b` with reply OK. -/
def Accepts (hasher : Text → Nat) (a b : Text) (x : Step LoopState Event) : Prop :=
  issuerOf x = some a ∧ commandOf x = some (.acceptFriend b) ∧ repliedOk hasher x = true

def Requested (hasher : Text → Nat) (h : History LoopState Event) (a b : Text) : Prop :=
  ∃ x ∈ h, Requests hasher a b x

/-- One of `u`, `v` requested the other, and after that the other accepted. -/
def Consent (hasher : Text → Nat) (h : History LoopState Event) (u v : Text) : Prop :=
  ∃ newer x older, h = newer ++ x :: older ∧
    ((Accepts hasher v u x ∧ Requested hasher older u v) ∨
      (Accepts hasher u v x ∧ Requested hasher older v u))

/-- The step is an OK `set_friend_type` of `a` on `b`. -/
def isTypeStep (hasher : Text → Nat) (a b : Text) (x : Step LoopState Event) : Bool :=
  decide (issuerOf x = some a) && repliedOk hasher x &&
    match commandOf x with
    | some (.setFriendType w _) => w == b
    | _ => false

/-- The type a `set_friend_type` step sets. -/
def typeOf (x : Step LoopState Event) : Option Int :=
  match commandOf x with
  | some (.setFriendType _ type) => some type
  | _ => none

/-- The type the history gives the pair `(a, b)`. -/
def ghostType (hasher : Text → Nat) (h : History LoopState Event) (a b : Text) : Int :=
  ((h.find? (isTypeStep hasher a b)).bind typeOf).getD 0

theorem Requested.cons {h : History LoopState Event} {a b : Text}
    (hr : Requested hasher h a b) (x : Step LoopState Event) : Requested hasher (x :: h) a b := by
  obtain ⟨y, hy, hreq⟩ := hr
  exact ⟨y, List.mem_cons_of_mem _ hy, hreq⟩

theorem Consent.cons {h : History LoopState Event} {u v : Text} (hc : Consent hasher h u v)
    (x : Step LoopState Event) : Consent hasher (x :: h) u v := by
  obtain ⟨newer, y, older, rfl, hy⟩ := hc
  exact ⟨x :: newer, y, older, rfl, hy⟩

/-- Consent does not depend on the order of the pair. -/
theorem Consent.symm {h : History LoopState Event} {u v : Text} (hc : Consent hasher h u v) :
    Consent hasher h v u := by
  obtain ⟨newer, x, older, rfl, hx⟩ := hc
  exact ⟨newer, x, older, rfl, hx.symm⟩

/-- The type of a pair is 1 only if its last `set_friend_type` said so. -/
theorem ghostType_eq_one {h : History LoopState Event} {a b : Text}
    (hg : ghostType hasher h a b = 1) :
    ∃ x, h.find? (isTypeStep hasher a b) = some x ∧ commandOf x = some (.setFriendType b 1) := by
  unfold ghostType at hg
  cases hfind : h.find? (isTypeStep hasher a b) with
  | none =>
    rw [hfind] at hg
    cases hg
  | some x =>
    refine ⟨x, rfl, ?_⟩
    have hx := List.find?_some hfind
    rw [hfind, Option.bind_some] at hg
    unfold isTypeStep at hx
    unfold typeOf at hg
    split at hx
    next w type hcmd =>
      simp only [Bool.and_eq_true, beq_iff_eq] at hx
      rw [hcmd] at hg ⊢
      rw [hx.2, show type = 1 from hg]
    next => simp at hx

/-! ## The ghost-history invariant -/

/-- The `friends` rows are what the history entitles the pairs to. -/
structure Consented (hasher : Text → Nat) (h : History LoopState Event) (db : Db) : Prop where
  status : ∀ r ∈ db.friends.rows,
    (r.status = 0 ∧ Requested hasher h r.userUsername r.friendUsername) ∨
      (r.status = 1 ∧ Consent hasher h r.userUsername r.friendUsername)
  type : ∀ r ∈ db.friends.rows, r.friendType = ghostType hasher h r.userUsername r.friendUsername
  typed : ∀ a b, h.find? (isTypeStep hasher a b) ≠ none →
    ∃ r ∈ db.friends.rows, Database.isPair a b r = true

theorem consented_init : Consented hasher [] Db.empty where
  status _ hr := by cases hr
  type _ hr := by cases hr
  typed _ _ h := absurd rfl h

/-- A step that is no OK `set_friend_type` changes no ghost type. -/
theorem find_cons_of_not {x : Step LoopState Event} {a b : Text}
    (hx : isTypeStep hasher a b x = false) (h : History LoopState Event) :
    (x :: h).find? (isTypeStep hasher a b) = h.find? (isTypeStep hasher a b) := by
  rw [List.find?_cons_of_neg (by simp [hx])]

theorem ghostType_cons_of_not {x : Step LoopState Event} {a b : Text}
    (hx : isTypeStep hasher a b x = false) (h : History LoopState Event) :
    ghostType hasher (x :: h) a b = ghostType hasher h a b := by
  unfold ghostType
  rw [find_cons_of_not hx]

/-- Only an OK reply to `set_friend_type` is a type step. -/
theorem isTypeStep_eq_false {x : Step LoopState Event} {cmd : Command}
    (hcmd : commandOf x = some cmd)
    (h : repliedOk hasher x = true → ∀ w type, cmd ≠ .setFriendType w type) (a b : Text) :
    isTypeStep hasher a b x = false := by
  unfold isTypeStep
  rw [hcmd]
  cases hok : repliedOk hasher x with
  | false => simp
  | true =>
    cases cmd with
    | setFriendType w type => exact absurd rfl (h hok w type)
    | _ => simp

/-- A step that leaves the table alone and is no type step keeps the invariant. -/
theorem Consented.idle {h : History LoopState Event} {db db' : Db} {x : Step LoopState Event}
    (hc : Consented hasher h db) (hx : ∀ a b, isTypeStep hasher a b x = false)
    (hdb : db'.friends = db.friends) : Consented hasher (x :: h) db' where
  status r hr := by
    rw [hdb] at hr
    exact (hc.status r hr).imp (And.imp_right (·.cons x)) (And.imp_right (·.cons x))
  type r hr := by
    rw [hdb] at hr
    rw [ghostType_cons_of_not (hx _ _), hc.type r hr]
  typed a b hne := by
    rw [find_cons_of_not (hx a b)] at hne
    rw [hdb]
    exact hc.typed a b hne

/-- A pair without a row has the default type. -/
theorem Consented.ghostType_of_fit {h : History LoopState Event} {db : Db}
    (hc : Consented hasher h db) {a b : Text}
    (hfit : ∀ r ∈ db.friends.rows, Database.isPair a b r = false) :
    ghostType hasher h a b = 0 := by
  unfold ghostType
  cases hfind : h.find? (isTypeStep hasher a b) with
  | none => rfl
  | some x =>
    obtain ⟨r, hr, hpair⟩ := hc.typed a b (by rw [hfind]; simp)
    rw [hfit r hr] at hpair
    cases hpair

/-- An OK request adds a pending row its issuer asked for. -/
theorem Consented.request {h : History LoopState Event} {db : Db} {x : Step LoopState Event}
    {u v : Text} {t : Table friendsConstraints} (hc : Consented hasher h db)
    (hreq : Requests hasher u v x)
    (hfit : ∀ r ∈ db.friends.rows, Database.isPair u v r = false)
    (ht : t.rows = db.friends.rows ++ [⟨u, v, 0, 0⟩]) :
    Consented hasher (x :: h) { db with friends := t } := by
  have hx : ∀ a b, isTypeStep hasher a b x = false :=
    isTypeStep_eq_false hreq.2.1 (fun _ _ _ => by simp)
  have hidle : Consented hasher (x :: h) db := hc.idle hx rfl
  refine ⟨fun r hr => ?_, fun r hr => ?_, fun a b hne => ?_⟩
  · rcases mem_inserted ht hr with hold | rfl
    · exact hidle.status r hold
    · exact Or.inl ⟨rfl, x, List.mem_cons_self .., hreq⟩
  · rcases mem_inserted ht hr with hold | rfl
    · exact hidle.type r hold
    · exact (hidle.ghostType_of_fit hfit).symm
  · obtain ⟨r, hr, hpair⟩ := hidle.typed a b hne
    refine ⟨r, ?_, hpair⟩
    show r ∈ t.rows
    rw [ht]
    exact List.mem_append_left _ hr

/-- An OK acceptance completes the consent behind the rows it writes, whichever of
its two statements took effect. -/
theorem Consented.accept {h : History LoopState Event} {db : Db} {x : Step LoopState Event}
    {u v : Text} {updated inserted : Bool} {t : Table friendsConstraints}
    (hc : Consented hasher h db) (hacc : Accepts hasher u v x)
    (hpending : ∃ r ∈ db.friends.rows, Database.isPair v u r = true ∧ r.status = 0)
    (hfit : inserted = true → ∀ r ∈ db.friends.rows, Database.isPair u v r = false)
    (ht : t.rows = acceptedRows updated inserted u v db.friends.rows) :
    Consented hasher (x :: h) { db with friends := t } := by
  have hx : ∀ a b, isTypeStep hasher a b x = false :=
    isTypeStep_eq_false hacc.2.1 (fun _ _ _ => by simp)
  have hidle : Consented hasher (x :: h) db := hc.idle hx rfl
  -- the pending row was requested, and this step accepts it
  have hconsent : Consent hasher (x :: h) v u := by
    obtain ⟨r, hr, hpair, hzero⟩ := hpending
    obtain ⟨rfl, rfl⟩ := isPair_iff.mp hpair
    rcases hc.status r hr with ⟨_, hreq⟩ | ⟨hone, _⟩
    · exact ⟨[], x, h, rfl, Or.inl ⟨hacc, hreq⟩⟩
    · omega
  -- the rows of the table: possibly updated old ones, possibly the reverse row
  have hrows : ∀ r ∈ t.rows, r ∈ db.friends.rows ∨
      (∃ r₀ ∈ db.friends.rows, r = acceptRow v u r₀) ∨
      (inserted = true ∧ r = ⟨u, v, 0, 1⟩) := by
    intro r hr
    rw [ht, acceptedRows] at hr
    rcases List.mem_append.mp hr with hr | hr
    · split at hr
      · obtain ⟨r₀, hr₀, rfl⟩ := List.mem_map.mp hr
        exact Or.inr (Or.inl ⟨r₀, hr₀, rfl⟩)
      · exact Or.inl hr
    · split at hr
      next hins => exact Or.inr (Or.inr ⟨hins, List.mem_singleton.mp hr⟩)
      next => cases hr
  refine ⟨fun r hr => ?_, fun r hr => ?_, fun a b hne => ?_⟩
  · rcases hrows r hr with hr | ⟨r₀, hr₀, rfl⟩ | ⟨_, rfl⟩
    · exact hidle.status r hr
    · rw [acceptRow_status, acceptRow_userUsername, acceptRow_friendUsername]
      split
      next hpair =>
        obtain ⟨rfl, rfl⟩ := isPair_iff.mp hpair
        exact Or.inr ⟨rfl, hconsent⟩
      next => exact hidle.status r₀ hr₀
    · exact Or.inr ⟨rfl, hconsent.symm⟩
  · rcases hrows r hr with hr | ⟨r₀, hr₀, rfl⟩ | ⟨hins, rfl⟩
    · exact hidle.type r hr
    · simpa using hidle.type r₀ hr₀
    · exact (hidle.ghostType_of_fit (hfit hins)).symm
  · obtain ⟨r, hr, hpair⟩ := hidle.typed a b hne
    by_cases hup : updated = true
    · refine ⟨acceptRow v u r, ?_, by simpa using hpair⟩
      show acceptRow v u r ∈ t.rows
      rw [ht, acceptedRows, if_pos hup]
      exact List.mem_append_left _ (List.mem_map_of_mem hr)
    · refine ⟨r, ?_, hpair⟩
      show r ∈ t.rows
      rw [ht, acceptedRows, if_neg hup]
      exact List.mem_append_left _ hr

/-- An OK `set_friend_type` is the last one of its pair and typed the pair's row. -/
theorem Consented.setType {h : History LoopState Event} {db : Db} {x : Step LoopState Event}
    {u v : Text} {type : Int} {t : Table friendsConstraints} (hc : Consented hasher h db)
    (hs : issuerOf x = some u) (hcmd : commandOf x = some (.setFriendType v type))
    (hok : repliedOk hasher x = true)
    (haccepted : ∃ r ∈ db.friends.rows, Database.isPair u v r = true ∧ r.status = 1)
    (ht : t.rows = db.friends.rows.map (typeRow u v type)) :
    Consented hasher (x :: h) { db with friends := t } := by
  have hx : ∀ a b, isTypeStep hasher a b x = (decide (u = a) && v == b) := by
    intro a b
    simp [isTypeStep, hs, hcmd, hok]
  have hrows : ∀ r ∈ t.rows, ∃ r₀ ∈ db.friends.rows, typeRow u v type r₀ = r := by
    intro r hr
    rw [ht] at hr
    exact List.mem_map.mp hr
  refine ⟨fun r hr => ?_, fun r hr => ?_, fun a b hne => ?_⟩
  · obtain ⟨r₀, hr₀, rfl⟩ := hrows r hr
    rw [typeRow_status, typeRow_userUsername, typeRow_friendUsername]
    exact (hc.status r₀ hr₀).imp (And.imp_right (·.cons x)) (And.imp_right (·.cons x))
  · obtain ⟨r₀, hr₀, rfl⟩ := hrows r hr
    rw [typeRow_friendType, typeRow_userUsername, typeRow_friendUsername]
    by_cases hpair : Database.isPair u v r₀ = true
    · -- the pair's row is the accepted one, so the update reached it
      obtain ⟨r₁, hr₁, hpair₁, hone⟩ := haccepted
      have heq : r₀ = r₁ := eq_of_isPair hr₀ hr₁ hpair hpair₁
      have hboth : (Database.isPair u v r₀ && r₀.status == 1) = true := by
        rw [heq, hpair₁, hone]
        rfl
      rw [if_pos hboth]
      obtain ⟨rfl, rfl⟩ := isPair_iff.mp hpair
      unfold ghostType
      rw [List.find?_cons_of_pos (by simp [hx]), Option.bind_some]
      simp [typeOf, hcmd]
    · rw [if_neg (by simp [hpair]), hc.type r₀ hr₀, ghostType_cons_of_not]
      rw [hx, ← Bool.not_eq_true]
      intro hboth
      rw [Bool.and_eq_true, decide_eq_true_eq, beq_iff_eq] at hboth
      exact hpair (isPair_iff.mpr ⟨hboth.1.symm, hboth.2.symm⟩)
  · have hold : ∃ r ∈ db.friends.rows, Database.isPair a b r = true := by
      cases hxab : isTypeStep hasher a b x with
      | false =>
        rw [find_cons_of_not hxab] at hne
        exact hc.typed a b hne
      | true =>
        rw [hx, Bool.and_eq_true, decide_eq_true_eq, beq_iff_eq] at hxab
        obtain ⟨r, hr, hpair, _⟩ := haccepted
        exact ⟨r, hr, hxab.1 ▸ hxab.2 ▸ hpair⟩
    obtain ⟨r, hr, hpair⟩ := hold
    refine ⟨typeRow u v type r, ?_, by simpa using hpair⟩
    show typeRow u v type r ∈ t.rows
    rw [ht]
    exact List.mem_map_of_mem hr

/-- **The invariant holds in every reachable state**, whatever statements fail. -/
theorem consented_run {h : History LoopState Event} {s : LoopState}
    (hr : (machine hasher serverSocket).Run h s) : Consented hasher h s.app.db := by
  refine hr.invariant_history (P := fun _ => True)
    (I := fun h s => Consented hasher h s.app.db) consented_init ?_ fun _ _ => trivial
  intro h s e _ _ hc _ _
  rcases step_write hasher ⟨s, e⟩ with
    ⟨hnone, _, hdb⟩ | ⟨i, env, data, cmd, reply, -, hcmd, hreply, hw⟩
  · refine hc.idle (fun a b => ?_) (congrArg Db.friends hdb)
    simp [isTypeStep, hnone]
  · have hok := repliedOk_of_reply hreply
    show Consented hasher (⟨s, e⟩ :: h) (next hasher s e).app.db
    generalize hdb : (next hasher s e).app.db = db' at hw
    cases hw with
    | unchanged hno =>
      refine hc.idle (isTypeStep_eq_false hcmd fun hyes w type hset => ?_) rfl
      have := hno (hok ▸ hyes)
      rw [hset] at this
      cases this
    | friendRequest hs _ _ hfit ht => exact hc.request ⟨hs, hcmd, hok⟩ hfit ht
    | acceptFriend hs hpending hfit _ ht => exact hc.accept ⟨hs, hcmd, hok⟩ hpending hfit ht
    | setFriendType hs _ haccepted ht => exact hc.setType hs hcmd hok haccepted ht
    | chat _ _ _ _ hcreated =>
      exact hc.idle (isTypeStep_eq_false hcmd fun _ _ _ => by simp) hcreated.friends
    | group _ _ hcreated =>
      exact hc.idle (isTypeStep_eq_false hcmd fun _ _ _ => by simp) hcreated.friends
    | _ => exact hc.idle (isTypeStep_eq_false hcmd fun _ _ _ => by simp) rfl

/-! ## Who sees a restricted post -/

/-- A post in the feed of `v` is a row the visibility clause admits. -/
theorem mem_posts {env : Env} {sd : Int} {a : App} {v : Text} {p : Post}
    (hs : a.sessions.sessions sd = some v) (hp : p ∈ ListPostsCommand.posts env sd a) :
    ∃ r ∈ a.db.posts.rows, Database.visibleTo a.db v r = true ∧ p = Database.readPost r := by
  unfold ListPostsCommand.posts at hp
  rw [if_pos (by simp [SessionManager.isAuthenticated, hs])] at hp
  unfold Database.getVisiblePosts Database.newestFirst at hp
  obtain ⟨r, hr, rfl⟩ := List.mem_map.mp hp
  rw [mem_orderBy] at hr
  have hmem := mem_of_mem_select hr
  rw [List.mem_filter] at hmem
  refine ⟨r, hmem.1, ?_, rfl⟩
  simpa [SessionManager.getUsername, hs] using hmem.2

/-- **No restricted post is shown without consent.** If the feed of a client logged
in as `v` contains a post of another user `u` with visibility 1 or 2, then one of
them requested the other's friendship and the other accepted after that; and if the
visibility is 2, the last `set_friend_type` of `u` on `v` that replied OK set 1. -/
theorem restricted_post_consent {h : History LoopState Event} {s : LoopState}
    (hr : (machine hasher serverSocket).Run h s) {env : Env} {sd : Int} {u v : Text} {p : Post}
    (hs : s.app.sessions.sessions sd = some v)
    (hp : p ∈ ListPostsCommand.posts env sd s.app) (hauthor : p.author = u) (hne : u ≠ v)
    (hvis : p.visibility = 1 ∨ p.visibility = 2) :
    Consent hasher h u v ∧
      (p.visibility = 2 → ∃ x, h.find? (isTypeStep hasher u v) = some x ∧
        commandOf x = some (.setFriendType v 1)) := by
  have hc := consented_run hr
  obtain ⟨row, _, hvisible, rfl⟩ := mem_posts hs hp
  have hrow : row.authorUsername = u := hauthor
  have haccepted : ∀ f ∈ s.app.db.friends.rows, Database.isPair row.authorUsername v f = true →
      f.status = 1 → Consent hasher h u v := by
    intro f hf hpair hone
    obtain ⟨hfu, hfv⟩ := isPair_iff.mp hpair
    rcases hc.status f hf with ⟨hzero, _⟩ | ⟨_, hconsent⟩
    · omega
    · rwa [hfu, hfv, hrow] at hconsent
  simp only [Database.readPost] at hvis ⊢
  simp only [Database.visibleTo, Bool.or_eq_true, Bool.and_eq_true, beq_iff_eq,
    List.any_eq_true] at hvisible
  rcases hvisible with ((hown | hpublic) | ⟨hfriends, f, hf, hpair, hone⟩) |
    ⟨hclose, f, hf, ⟨hpair, hone⟩, htype⟩
  · exact absurd (hrow.symm.trans hown) hne
  · rw [hpublic] at hvis
    rcases hvis with h0 | h0 <;> cases h0
  · refine ⟨haccepted f hf hpair hone, fun htwo => ?_⟩
    rw [hfriends] at htwo
    cases htwo
  · refine ⟨haccepted f hf hpair hone, fun _ => ?_⟩
    obtain ⟨hfu, hfv⟩ := isPair_iff.mp hpair
    -- the type of the row is the one `u` set last
    have hghost := hc.type f hf
    rw [hfu, hfv, hrow] at hghost
    exact ghostType_eq_one (hghost.symm.trans htype)

/-- Two users become friends, one types the other as a close friend and posts for
close friends. -/
def closeFriendEvents : List Event :=
  [.accept 4, .accept 5,
    .line 0 "register a p a@x normal public\n", .line 1 "register b p b@x normal public\n",
    .line 0 "login a p\n", .line 1 "login b p\n",
    .line 0 "add_friend b\n", .line 1 "accept_friend a\n",
    .line 0 "set_friend_type b 1\n", .line 0 "create_post 2 hello\n"]

theorem restricted_post_consent_close :
    ∃ r, runEvents List.length 3 closeFriendEvents = some r ∧
      Consent List.length r.1 (bytes "a") (bytes "b") ∧
      ∃ x, r.1.find? (isTypeStep List.length (bytes "a") (bytes "b")) = some x ∧
        commandOf x = some (.setFriendType (bytes "b") 1) := by
  obtain ⟨h, s, hr, hrun, _, hs, hp⟩ := runEvents_exists List.length 3 closeFriendEvents
    (p := fun _ s => s.app.sessions.sessions 5 = some (bytes "b") ∧
      ⟨bytes "a", bytes "hello", 2, Env.plain.now⟩ ∈ ListPostsCommand.posts Env.plain 5 s.app)
    (by simp [closeFriendEvents]) (by decide)
  have hboth := restricted_post_consent hrun hs hp rfl (by decide) (Or.inr rfl)
  exact ⟨(h, s), hr, hboth.1, hboth.2 rfl⟩

end SocialNetwork.Server
