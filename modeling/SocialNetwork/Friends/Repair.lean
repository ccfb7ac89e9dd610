import SocialNetwork.Server.Durability

/-!
# Half a friendship can be repaired

`accept_friend` is two statements, so a death between them leaves one direction accepted and
the other one missing, and crossed requests can leave it pending. Nothing in the program
completes such a pair by itself. But `friendExchange`, in which each of the two asks the other
one and is accepted, ends with both directions accepted from every state a lifetime can reach
(`friendship_repaired`): a request that is refused finds its row there already, and an
acceptance that is refused finds it accepted.
-/

namespace SocialNetwork.Server

open SocialNetwork.Lib

variable {hasher : Text → Nat} {serverSocket : Int}

/-- The statuses in use. -/
def Statuses (db : Db) : Prop := ∀ r ∈ db.friends.rows, r.status = 0 ∨ r.status = 1

/-- The row is not between `u` and `v`. -/
def isOther (u v : Text) (r : FriendRow) : Bool :=
  !(Database.isPair u v r || Database.isPair v u r)

/-- From `a` to `a'` the friendship of `u` and `v` went on, and nothing else changed. -/
structure Furthers (u v : Text) (a a' : App) : Prop where
  frame : ∃ t, a' = { a with db := { a.db with friends := t } }
  accepted : ∀ x y, Accepted a.db x y → Accepted a'.db x y
  statuses : Statuses a.db → Statuses a'.db
  others : a'.db.friends.rows.filter (isOther u v) = a.db.friends.rows.filter (isOther u v)

/-- One of two users asks the other one for friendship and is accepted, and the other way
round. -/
def friendExchange (hasher : Text → Nat) (envs : Fin 4 → Env) (sd sd' : Int) (u v : Text)
    (a : App) : App :=
  let a := (execute hasher (envs 0) sd a (.friendRequest v)).2
  let a := (execute hasher (envs 1) sd' a (.acceptFriend u)).2
  let a := (execute hasher (envs 2) sd' a (.friendRequest u)).2
  (execute hasher (envs 3) sd a (.acceptFriend v)).2

/-! ## Statuses -/

theorem Write.statuses {env : Env} {db db' : Db} {issuer : Option Text} {current : Option Int}
    {cmd : Command} {reply : Text} (h : Write hasher env db issuer current cmd reply db')
    (hI : Statuses db) : Statuses db' := by
  cases h with
  | friendRequest _ _ _ _ ht =>
    intro r hr
    rcases mem_inserted ht hr with hold | rfl
    · exact hI r hold
    · exact Or.inl rfl
  | @acceptFriend u v updated inserted t _ _ _ _ ht =>
    intro r hr
    have hr : r ∈ t.rows := hr
    rw [ht, acceptedRows] at hr
    rcases List.mem_append.mp hr with hr | hr
    · split at hr
      · obtain ⟨r₀, hr₀, rfl⟩ := List.mem_map.mp hr
        rw [acceptRow_status]
        split
        · exact Or.inr rfl
        · exact hI r₀ hr₀
      · exact hI r hr
    · split at hr
      · exact Or.inr (List.mem_singleton.mp hr ▸ rfl)
      · cases hr
  | setFriendType _ _ _ ht =>
    intro r hr
    obtain ⟨r₀, hr₀, rfl⟩ := mem_updated ht hr
    rw [typeRow_status]
    exact hI r₀ hr₀
  | chat _ _ _ _ hcreated =>
    unfold Statuses
    rw [hcreated.friends]
    exact hI
  | group _ _ hcreated =>
    unfold Statuses
    rw [hcreated.friends]
    exact hI
  | _ => exact hI

theorem statuses_run {h : History LoopState Event} {s : LoopState}
    (hr : (machine hasher serverSocket).Run h s) : Statuses s.app.db :=
  db_invariant (List.forall_mem_nil _) (fun hw hI => hw.statuses hI) hr

/-! ## One request and one acceptance -/

theorem isOther_comm (u v : Text) : isOther u v = isOther v u := by
  funext r
  unfold isOther
  rw [Bool.or_comm]

namespace Furthers

theorem symm {u v : Text} {a a' : App} (h : Furthers u v a a') : Furthers v u a a' :=
  ⟨h.frame, h.accepted, h.statuses, isOther_comm u v ▸ h.others⟩

theorem trans {u v : Text} {a b c : App} (hab : Furthers u v a b) (hbc : Furthers u v b c) :
    Furthers u v a c := by
  obtain ⟨t, rfl⟩ := hab.frame
  obtain ⟨t', rfl⟩ := hbc.frame
  exact ⟨⟨t', rfl⟩, fun x y h => hbc.accepted x y (hab.accepted x y h),
    fun h => hbc.statuses (hab.statuses h), hbc.others.trans hab.others⟩

theorem sessions {u v : Text} {a a' : App} (h : Furthers u v a a') : a'.sessions = a.sessions := by
  obtain ⟨t, rfl⟩ := h.frame
  rfl

theorem registered {u v : Text} {a a' : App} (h : Furthers u v a a') {w : Text}
    (hw : Registered a.db w) : Registered a'.db w := by
  obtain ⟨t, rfl⟩ := h.frame
  exact hw

end Furthers

section

variable {env : Env} {sd : Int} {a : App} {u v : Text}

/-- Without failures a request adds its row unless there is one. -/
theorem friendRequest_rows (hasher : Text → Nat) (he : env.Sound)
    (hs : a.sessions.sessions sd = some u) (hne : u ≠ v)
    (hv : Registered a.db v) :
    ∃ t, (execute hasher env sd a (.friendRequest v)).2 =
        { a with db := { a.db with friends := t } } ∧
      t.rows = a.db.friends.rows ++
        if a.db.friends.rows.any (Database.isPair u v) then [] else [⟨u, v, 0, 0⟩] := by
  obtain ⟨hauth, hname⟩ := SessionManager.sessions_eq_some hs
  have hknown : ¬ (Database.getUserByUsername env 0 a.db v).isNone = true := by
    rw [Option.isNone_iff_eq_none, getUserByUsername_eq_none he]
    obtain ⟨row, hrow, hw⟩ := hv
    exact fun hno => hno row hrow hw
  show ∃ t, (FriendRequestCommand.execute env sd a v).2 = _ ∧ _
  unfold FriendRequestCommand.execute
  dsimp only
  rw [hauth, hname, if_neg (by simp), if_neg hne, if_neg hknown]
  split
  next hfriends =>
    obtain ⟨r, hr, hpair, _⟩ := areFriends_true hfriends
    have hany : a.db.friends.rows.any (Database.isPair u v) = true :=
      List.any_eq_true.mpr ⟨r, hr, hpair⟩
    exact ⟨a.db.friends, rfl, by rw [hany]; exact (List.append_nil _).symm⟩
  next =>
    obtain ⟨t, ht, hdb⟩ := exec_insertFriend env .sendFriendRequest 0 ⟨u, v, 0, 0⟩ a.db
    refine ⟨t, ?_, ?_⟩
    · have hdb : (Database.sendFriendRequest env a.db u v).2 = { a.db with friends := t } := hdb
      rw [← hdb]
      rcases Database.sendFriendRequest env a.db u v with ⟨_ | _, db⟩
      · rfl
      · rfl
    · rw [ht, he]
      cases a.db.friends.rows.any (Database.isPair u v) with
      | true => rfl
      | false => rfl

/-- A request leaves a row, accepted or pending. -/
theorem request_furthers (hasher : Text → Nat) (he : env.Sound)
    (hs : a.sessions.sessions sd = some u) (hne : u ≠ v)
    (hv : Registered a.db v) (hst : Statuses a.db) :
    Furthers u v a (execute hasher env sd a (.friendRequest v)).2 ∧
      (Accepted (execute hasher env sd a (.friendRequest v)).2.db u v ∨
        Pending (execute hasher env sd a (.friendRequest v)).2.db u v) := by
  obtain ⟨t, ht, hrows⟩ := friendRequest_rows hasher he hs hne hv
  rw [ht]
  have hold : ∀ r ∈ a.db.friends.rows, r ∈ t.rows :=
    fun r hr => hrows ▸ List.mem_append_left _ hr
  refine ⟨⟨⟨t, rfl⟩, ?_, ?_, ?_⟩, ?_⟩
  · exact fun x y ⟨r, hr, hpair⟩ => ⟨r, hold r hr, hpair⟩
  · intro _ r hr
    have hr : r ∈ t.rows := hr
    rw [hrows] at hr
    rcases List.mem_append.mp hr with hr | hr
    · exact hst r hr
    · split at hr
      · cases hr
      · exact Or.inl (List.mem_singleton.mp hr ▸ rfl)
  · show t.rows.filter _ = _
    rw [hrows, List.filter_append]
    split
    · exact List.append_nil _
    · rw [List.filter_cons_of_neg (by simp [isOther, Database.isPair])]
      exact List.append_nil _
  · cases hany : a.db.friends.rows.any (Database.isPair u v) with
    | true =>
      obtain ⟨r, hr, hpair⟩ := List.any_eq_true.mp hany
      rcases hst r hr with hzero | hone
      · exact Or.inr ⟨r, hold r hr, hpair, hzero⟩
      · exact Or.inl ⟨r, hold r hr, hpair, hone⟩
    | false =>
      refine Or.inr ⟨⟨u, v, 0, 0⟩, ?_, isPair_iff.mpr ⟨rfl, rfl⟩, rfl⟩
      show _ ∈ t.rows
      rw [hrows, hany]
      exact List.mem_append_right _ (List.mem_singleton_self _)

/-- Without failures an acceptance edits the pending row and adds the reverse one unless there
is one; without a pending row it does nothing. -/
theorem acceptFriend_rows (hasher : Text → Nat) (u : Text) (he : env.Sound)
    (hs : a.sessions.sessions sd = some v) :
    ∃ t, (execute hasher env sd a (.acceptFriend u)).2 =
        { a with db := { a.db with friends := t } } ∧
      ((¬ Pending a.db u v ∧ t = a.db.friends) ∨
        (Pending a.db u v ∧ t.rows = acceptedRows true
          (!a.db.friends.rows.any (Database.isPair v u)) v u a.db.friends.rows)) := by
  obtain ⟨hauth, hname⟩ := SessionManager.sessions_eq_some hs
  show ∃ t, (AcceptFriendCommand.execute env sd a u).2 = _ ∧ _
  unfold AcceptFriendCommand.execute
  rw [hauth, hname, if_neg (by simp)]
  rcases hacc : Database.acceptFriendRequest env a.db v u with ⟨_ | _, db⟩
  · refine ⟨a.db.friends, by rw [acceptFriendRequest_false hacc], Or.inl ⟨fun hp => ?_, rfl⟩⟩
    have hok := acceptFriendRequest_of_pending he hp
    rw [hacc] at hok
    cases hok
  · obtain ⟨hpending, t, ht, rfl⟩ := acceptFriendRequest_true hacc
    refine ⟨t, rfl, Or.inr ⟨hpending, ?_⟩⟩
    rw [ht, he, he]
    rfl

/-- An acceptance leaves a row that is pending or accepted accepted. -/
theorem accept_furthers (hasher : Text → Nat) (he : env.Sound)
    (hs : a.sessions.sessions sd = some v)
    (hrow : Accepted a.db u v ∨ Pending a.db u v) :
    Furthers u v a (execute hasher env sd a (.acceptFriend u)).2 ∧
      Accepted (execute hasher env sd a (.acceptFriend u)).2.db u v := by
  obtain ⟨t, ht, hcase⟩ := acceptFriend_rows hasher u he hs
  rw [ht]
  rcases hcase with ⟨hno, rfl⟩ | ⟨⟨r₁, hr₁, hpair₁, _⟩, hrows⟩
  · exact ⟨⟨⟨_, rfl⟩, fun _ _ h => h, fun h => h, rfl⟩, hrow.resolve_right hno⟩
  · unfold acceptedRows at hrows
    rw [if_pos rfl] at hrows
    have hin : ∀ r ∈ a.db.friends.rows, acceptRow u v r ∈ t.rows := by
      intro r hr
      rw [hrows]
      exact List.mem_append_left _ (List.mem_map_of_mem hr)
    refine ⟨⟨⟨t, rfl⟩, ?_, ?_, ?_⟩, ?_⟩
    · rintro x y ⟨r, hr, hpair, hone⟩
      refine ⟨_, hin r hr, by simpa using hpair, ?_⟩
      rw [acceptRow_status, hone]
      split <;> rfl
    · intro hst r hr
      have hr : r ∈ t.rows := hr
      rw [hrows] at hr
      rcases List.mem_append.mp hr with hr | hr
      · obtain ⟨r₀, hr₀, rfl⟩ := List.mem_map.mp hr
        rw [acceptRow_status]
        split
        · exact Or.inr rfl
        · exact hst r₀ hr₀
      · split at hr
        · exact Or.inr (List.mem_singleton.mp hr ▸ rfl)
        · cases hr
    · show t.rows.filter _ = _
      rw [hrows, List.filter_append, List.filter_map]
      have hcomp : isOther u v ∘ acceptRow u v = isOther u v := by
        funext r
        simp [isOther]
      have hid : (a.db.friends.rows.filter (isOther u v)).map (acceptRow u v) =
          a.db.friends.rows.filter (isOther u v) := by
        refine (List.map_congr_left fun r hr => ?_).trans (List.map_id _)
        have hother := (List.mem_filter.mp hr).2
        unfold isOther at hother
        rw [Bool.not_eq_true', Bool.or_eq_false_iff] at hother
        unfold acceptRow Table.rewrite
        rw [hother.1]
        rfl
      rw [hcomp, hid]
      split
      · rw [List.filter_cons_of_neg (by simp [isOther, Database.isPair])]
        exact List.append_nil _
      · exact List.append_nil _
    · refine ⟨_, hin r₁ hr₁, by simpa using hpair₁, ?_⟩
      rw [acceptRow_status, if_pos hpair₁]

end

/-! ## The exchange -/

/-- **The exchange completes any friendship.** -/
theorem exchange_befriends (hasher : Text → Nat) {envs : Fin 4 → Env} (he : ∀ i, (envs i).Sound)
    {sd sd' : Int} {a : App}
    {u v : Text} (hs : a.sessions.sessions sd = some u) (hs' : a.sessions.sessions sd' = some v)
    (hne : u ≠ v) (hu : Registered a.db u) (hv : Registered a.db v) (hst : Statuses a.db) :
    Furthers u v a (friendExchange hasher envs sd sd' u v a) ∧
      Accepted (friendExchange hasher envs sd sd' u v a).db u v ∧
      Accepted (friendExchange hasher envs sd sd' u v a).db v u := by
  unfold friendExchange
  dsimp only
  obtain ⟨h₁, hrow⟩ := request_furthers hasher (he 0) hs hne hv hst
  generalize (execute hasher (envs 0) sd a (.friendRequest v)).2 = a₁ at h₁ hrow ⊢
  obtain ⟨h₂, huv⟩ := accept_furthers hasher (he 1) (h₁.sessions ▸ hs') hrow
  generalize (execute hasher (envs 1) sd' a₁ (.acceptFriend u)).2 = a₂ at h₂ huv ⊢
  have h₁₂ := h₁.trans h₂
  obtain ⟨h₃, hrow'⟩ := request_furthers hasher (he 2) (h₁₂.sessions ▸ hs') hne.symm
    (h₁₂.registered hu) (h₁₂.statuses hst)
  generalize (execute hasher (envs 2) sd' a₂ (.friendRequest u)).2 = a₃ at h₃ hrow' ⊢
  have h₁₃ := h₁₂.trans h₃.symm
  obtain ⟨h₄, hvu⟩ := accept_furthers hasher (he 3) (h₁₃.sessions ▸ hs) hrow'
  exact ⟨h₁₃.trans h₄.symm, h₄.accepted _ _ (h₃.accepted _ _ huv), hvu⟩

/-- **Half a friendship can always be repaired**: in every state of every lifetime, whatever
its deaths have left of the pair, the exchange makes two users who are logged in friends of
each other, for the check and for both lists, and changes no other row. -/
theorem friendship_repaired {h : History LoopState Incident} {s : LoopState}
    (hr : (service hasher serverSocket).Run h s) {envs : Fin 4 → Env} (he : ∀ i, (envs i).Sound)
    {sd sd' : Int} {u v : Text} (hs : s.app.sessions.sessions sd = some u)
    (hs' : s.app.sessions.sessions sd' = some v) (hne : u ≠ v) :
    Furthers u v s.app (friendExchange hasher envs sd sd' u v s.app) ∧
      Accepted (friendExchange hasher envs sd sd' u v s.app).db u v ∧
      Accepted (friendExchange hasher envs sd sd' u v s.app).db v u ∧
      ∀ env : Env, env.Sound → ∀ x y, (x = u ∧ y = v ∨ x = v ∧ y = u) →
        Database.areFriends env (friendExchange hasher envs sd sd' u v s.app).db x y = true ∧
          y ∈ (Database.getFriends env (friendExchange hasher envs sd sd' u v s.app).db x).map
            Prod.fst := by
  obtain ⟨k, t, hrun, hm⟩ := lifetime_mimics hr
  obtain ⟨_, hsessions⟩ := grounded_run hrun
  have hst := statuses_run hrun
  rw [hm.app] at hsessions hst
  obtain ⟨hfurthers, huv, hvu⟩ := exchange_befriends hasher he hs hs' hne
    (hsessions sd u hs) (hsessions sd' v hs') hst
  refine ⟨hfurthers, huv, hvu, ?_⟩
  rintro env henv x y (⟨rfl, rfl⟩ | ⟨rfl, rfl⟩)
  · exact ⟨(areFriends_iff henv).mpr huv, (mem_getFriends henv).mpr huv⟩
  · exact ⟨(areFriends_iff henv).mpr hvu, (mem_getFriends henv).mpr hvu⟩

/-- Two logged-in users of whom the first has asked the second, when the process dies over
the acceptance after its first statement. Both log in again. -/
def tornAcceptEvents : List Incident :=
  [.served (.accept 4), .served (.accept 5),
    .served (.line 0 "register a p a@x normal public\n"),
    .served (.line 0 "register b p b@x normal public\n"),
    .served (.line 0 "login a p\n"), .served (.line 1 "login b p\n"),
    .served (.line 0 "add_friend b\n"), .killed 1 .plain (bytes "accept_friend a\n") 1 3,
    .served (.accept 4), .served (.accept 5), .served (.line 0 "login a p\n"),
    .served (.line 1 "login b p\n")]

theorem friendship_repaired_torn :
    ∃ h s, (service List.length 3).Run h s ∧
      Database.areFriends .plain s.app.db (bytes "a") (bytes "b") = true ∧
      Database.areFriends .plain s.app.db (bytes "b") (bytes "a") = false ∧
      Database.areFriends .plain (friendExchange List.length (fun _ => .plain) 4 5 (bytes "a")
        (bytes "b") s.app).db (bytes "b") (bytes "a") = true := by
  obtain ⟨h, s, hrun, ha, hb, hab, hba⟩ := runIncidents_exists List.length 3 tornAcceptEvents
    (p := fun _ s => s.app.sessions.sessions 4 = some (bytes "a") ∧
      s.app.sessions.sessions 5 = some (bytes "b") ∧
      Database.areFriends .plain s.app.db (bytes "a") (bytes "b") = true ∧
      Database.areFriends .plain s.app.db (bytes "b") (bytes "a") = false) (by decide)
  have hsound : ∀ i, ((fun _ => .plain : Fin 4 → Env) i).Sound := fun _ => Env.plain_sound
  have hrepaired := friendship_repaired hrun hsound ha hb (by decide)
  exact ⟨h, s, hrun, hab, hba,
    (hrepaired.2.2.2 .plain Env.plain_sound _ _ (.inr ⟨rfl, rfl⟩)).1⟩

/-! ## What a death leaves of an acceptance -/

/-- **An acceptance is torn exactly between its two statements.** -/
theorem accept_torn_iff {env : Env} (he : env.Sound) {sd : Int} {a : App} {u v : Text}
    (hs : a.sessions.sessions sd = some v) (hp : Pending a.db u v)
    (hno : ∀ r ∈ a.db.friends.rows, Database.isPair v u r = false) (k : Nat) :
    (Accepted ((Command.acceptFriend u).interrupted hasher env sd a k) u v ↔
      Accepted ((Command.acceptFriend u).interrupted hasher env sd a k) v u) ↔ k ≠ 1 := by
  have hcommits : ∃ d, (Command.acceptFriend u).commits hasher env sd a =
      [Database.setAccepted u v a.db, d] := by
    obtain ⟨hauth, hname⟩ := SessionManager.sessions_eq_some hs
    show ∃ d, AcceptFriendCommand.commits env sd a u = _
    unfold AcceptFriendCommand.commits Database.acceptFriendRequestCommits
    rw [hauth, hname, if_neg (by simp)]
    split
    next hsel =>
      obtain ⟨r, hr, hpair, hzero⟩ := hp
      rw [select_filter_eq_nil he] at hsel
      exact absurd (by rw [hpair, hzero]; rfl) (hsel r hr)
    next =>
      dsimp only
      rw [exec_update, he]
      exact ⟨_, rfl⟩
  have hlast := commits_last hasher env sd a (.acceptFriend u)
  obtain ⟨d, hcommits⟩ := hcommits
  unfold Command.interrupted
  rw [hcommits] at hlast ⊢
  match k with
  | 0 =>
    -- nothing happened: one direction is pending, the other one is missing
    have huv := not_accepted_of_pending hp
    have hvu : ¬ Accepted a.db v u := fun ⟨r, hr, hpair, _⟩ => by
      rw [hno r hr] at hpair
      cases hpair
    simp [huv, hvu]
  | 1 =>
    have hrows : (Database.setAccepted u v a.db).friends.rows =
        a.db.friends.rows.map (acceptRow u v) := rfl
    have huv : Accepted (Database.setAccepted u v a.db) u v := by
      obtain ⟨r, hr, hpair, _⟩ := hp
      refine ⟨acceptRow u v r, hrows ▸ List.mem_map_of_mem hr, by simpa using hpair, ?_⟩
      rw [acceptRow_status, if_pos hpair]
    have hvu : ¬ Accepted (Database.setAccepted u v a.db) v u := by
      rintro ⟨r, hr, hpair, _⟩
      rw [hrows] at hr
      obtain ⟨r₀, hr₀, rfl⟩ := List.mem_map.mp hr
      rw [isPair_acceptRow, hno r₀ hr₀] at hpair
      cases hpair
    simp [huv, hvu]
  | k + 2 =>
    obtain ⟨_, huv⟩ := accept_furthers hasher he hs (Or.inr hp)
    obtain ⟨t, ht, ⟨hnot, _⟩ | ⟨_, hrows⟩⟩ := acceptFriend_rows hasher u he hs
    · exact absurd hp hnot
    · have hvu : Accepted (execute hasher env sd a (.acceptFriend u)).2.db v u := by
        rw [ht]
        refine ⟨⟨v, u, 0, 1⟩, ?_, isPair_iff.mpr ⟨rfl, rfl⟩, rfl⟩
        have hany : a.db.friends.rows.any (Database.isPair v u) = false :=
          List.any_eq_false.mpr fun r hr => Bool.not_eq_true _ ▸ hno r hr
        show _ ∈ t.rows
        rw [hrows, hany]
        exact List.mem_append_right _ (List.mem_singleton_self _)
      rw [← hlast] at huv hvu
      have huv : Accepted d u v := huv
      have hvu : Accepted d v u := hvu
      simp [huv, hvu]

theorem accept_torn_iff_one :
    ∃ h s, (machine List.length 3).Run h s ∧
      ¬ (Accepted ((Command.acceptFriend (bytes "a")).interrupted List.length .plain 5 s.app 1)
          (bytes "a") (bytes "b") ↔
        Accepted ((Command.acceptFriend (bytes "a")).interrupted List.length .plain 5 s.app 1)
          (bytes "b") (bytes "a")) := by
  obtain ⟨h, s, _, hrun, _, hb, hp, hno⟩ := runEvents_exists List.length 3
    [.accept 4, .accept 5, .line 0 "register a p a@x normal public\n",
      .line 0 "register b p b@x normal public\n", .line 0 "login a p\n", .line 1 "login b p\n",
      .line 0 "add_friend b\n"]
    (p := fun _ s => s.app.sessions.sessions 5 = some (bytes "b") ∧
      (∃ r ∈ s.app.db.friends.rows, Database.isPair (bytes "a") (bytes "b") r = true ∧
        r.status = 0) ∧
      ∀ r ∈ s.app.db.friends.rows, Database.isPair (bytes "b") (bytes "a") r = false)
    (by simp) (by decide)
  refine ⟨h, s, hrun, fun hiff => ?_⟩
  exact (accept_torn_iff Env.plain_sound hb hp hno 1).mp hiff rfl

end SocialNetwork.Server
