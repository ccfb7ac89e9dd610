import SocialNetwork.Lib.Handshake
import SocialNetwork.Friends.Consent

/-!
# When friendship is symmetric

`Friendship` relates the `friends` table to the abstract protocol: accepted rows are
its bonds, pending rows its open proposals. Every step that does not confirm one of
two crossed requests is a step of the protocol (`friendship_step`), so in runs
without such a step the table always represents a graph, and friendship is symmetric
(`symmetric_of_friendship`).

A crossing step is where it ends: the update accepts one row, and the insert of the
reverse row, which exists as a pending row, violates the primary key unnoticed
(`crossing_breaks`).
-/

namespace SocialNetwork.Server

open SocialNetwork.Lib

variable {hasher : Text → Nat} {serverSocket : Int}

/-- The row `(a, b)` exists and has status 1. -/
def Accepted (db : Db) (a b : Text) : Prop :=
  ∃ r ∈ db.friends.rows, Database.isPair a b r = true ∧ r.status = 1

/-- The row `(a, b)` exists and has status 0. -/
def Pending (db : Db) (a b : Text) : Prop :=
  ∃ r ∈ db.friends.rows, Database.isPair a b r = true ∧ r.status = 0

/-- Friendship as the queries see it is symmetric and leaves no request behind. -/
structure FriendshipSymmetric (db : Db) : Prop where
  accepted : ∀ a b, Accepted db a b ↔ Accepted db b a
  areFriends : ∀ env env' : Env, env.Sound → env'.Sound → ∀ a b,
    Database.areFriends env db a b = Database.areFriends env' db b a
  listed : ∀ env env' : Env, env.Sound → env'.Sound → ∀ a b,
    b ∈ (Database.getFriends env db a).map Prod.fst ↔
      a ∈ (Database.getFriends env' db b).map Prod.fst
  settled : ∀ a b, Accepted db a b → ¬ Pending db a b ∧ ¬ Pending db b a

/-- The step accepts one of two crossed requests: its issuer `u` executes
`accept_friend v` while `u` has a pending request to `v` as well. -/
def Crosses (x : Step LoopState Event) : Prop :=
  ∃ u v, issuerOf x = some u ∧ commandOf x = some (.acceptFriend v) ∧
    Pending x.pre.app.db v u ∧ Pending x.pre.app.db u v

/-! ## The queries in terms of the rows -/

section

variable {env : Env} {db : Db}

theorem areFriends_iff (he : env.Sound) {a b : Text} :
    Database.areFriends env db a b = true ↔ Accepted db a b := by
  constructor
  · exact areFriends_true
  · intro ⟨r, hr, hpair, hone⟩
    refine (select_nonempty_iff he).mpr ⟨r, hr, ?_⟩
    rw [hpair, hone]
    rfl

theorem mem_getFriends (he : env.Sound) {a b : Text} :
    b ∈ (Database.getFriends env db a).map Prod.fst ↔ Accepted db a b := by
  unfold Database.getFriends Accepted
  simp only [List.map_map, List.mem_map, mem_select he, List.mem_filter, Bool.and_eq_true,
    beq_iff_eq, isPair_iff, Function.comp]
  constructor
  · rintro ⟨r, ⟨hr, ha, hone⟩, hb⟩
    exact ⟨r, hr, ⟨ha, hb⟩, hone⟩
  · rintro ⟨r, hr, ⟨ha, hb⟩, hone⟩
    exact ⟨r, ⟨hr, ha, hone⟩, hb⟩

/-- A pair's row cannot be both pending and accepted. -/
theorem not_accepted_of_pending {a b : Text} (hp : Pending db a b) : ¬ Accepted db a b := by
  rintro ⟨r, hr, hpair, hone⟩
  obtain ⟨r', hr', hpair', hzero⟩ := hp
  rw [eq_of_isPair hr hr' hpair hpair'] at hone
  omega

end

/-! ## The table and the protocol -/

/-- The table represents the state `f` of the protocol. -/
structure Friendship (f : Handshake Text) (db : Db) : Prop where
  bonds : ∀ a b, Accepted db a b ↔ f.bonds.Adj a b
  proposed : ∀ a b, Pending db a b ↔ f.proposed a b

/-- A table that represents a state of the protocol is symmetric. -/
theorem symmetric_of_friendship {f : Handshake Text} {db : Db} (hf : Friendship f db) :
    FriendshipSymmetric db := by
  have hsymm : ∀ a b, Accepted db a b ↔ Accepted db b a := by
    intro a b
    rw [hf.bonds, hf.bonds, SimpleGraph.adj_comm]
  refine ⟨hsymm, fun env env' he he' a b => ?_, fun env env' he he' a b => ?_,
    fun a b hacc => ⟨?_, ?_⟩⟩
  · rw [Bool.eq_iff_iff, areFriends_iff he, areFriends_iff he', hsymm]
  · rw [mem_getFriends he, mem_getFriends he', hsymm]
  · intro hp
    exact not_accepted_of_pending hp hacc
  · intro hp
    exact not_accepted_of_pending hp ((hsymm a b).mp hacc)

theorem friendship_init : Friendship Handshake.start Db.empty where
  bonds a b := by
    constructor
    · rintro ⟨r, hr, _⟩
      cases hr
    · exact False.elim
  proposed a b := by
    constructor
    · rintro ⟨r, hr, _⟩
      cases hr
    · exact False.elim

/-- Equal tables represent the same state. -/
theorem Friendship.frame {f : Handshake Text} {db db' : Db} (hf : Friendship f db)
    (h : db'.friends = db.friends) : Friendship f db' := by
  refine ⟨fun a b => ?_, fun a b => ?_⟩
  · rw [← hf.bonds, Accepted, Accepted, h]
  · rw [← hf.proposed, Pending, Pending, h]

/-- An OK `add_friend` is a proposal. -/
theorem Friendship.request {f : Handshake Text} {db : Db} {u v : Text}
    {t : Table friendsConstraints} (hf : Friendship f db) (hne : u ≠ v)
    (hfit : ∀ r ∈ db.friends.rows, Database.isPair u v r = false)
    (ht : t.rows = db.friends.rows ++ [⟨u, v, 0, 0⟩]) :
    ∃ f', Handshake.Step f f' ∧ Friendship f' { db with friends := t } := by
  -- a bond would have a row, and the insert found none
  have hfree : ¬ f.bonds.Adj u v := by
    rw [← hf.bonds]
    rintro ⟨r, hr, hpair, _⟩
    rw [hfit r hr] at hpair
    cases hpair
  refine ⟨_, .propose hne hfree, fun a b => ?_, fun a b => ?_⟩
  · show (∃ r ∈ t.rows, _) ↔ f.bonds.Adj a b
    rw [← hf.bonds, ht]
    simp [Accepted, or_and_right, exists_or]
  · show (∃ r ∈ t.rows, _) ↔ f.proposed a b ∨ (a = u ∧ b = v)
    rw [← hf.proposed, ht]
    simp [Pending, or_and_right, exists_or, isPair_iff, @eq_comm _ u a, @eq_comm _ v b]

/-- The rows with the status `n` after an acceptance both of whose statements worked. -/
theorem exists_acceptedRows {rows : List FriendRow} {u v a b : Text} {n : Int} :
    (∃ r ∈ acceptedRows true true u v rows, Database.isPair a b r = true ∧ r.status = n) ↔
      (∃ r ∈ rows, Database.isPair a b r = true ∧
        (if a = v ∧ b = u then 1 else r.status) = n) ∨ (a = u ∧ b = v ∧ n = 1) := by
  have hstatus : ∀ r, Database.isPair a b r = true →
      (acceptRow v u r).status = if a = v ∧ b = u then 1 else r.status := by
    intro r hpair
    obtain ⟨rfl, rfl⟩ := isPair_iff.mp hpair
    rw [acceptRow_status]
    simp only [isPair_iff]
  unfold acceptedRows
  simp only [if_true, List.mem_append, List.mem_map, List.mem_singleton, or_and_right, exists_or]
  refine or_congr ⟨?_, ?_⟩ ⟨?_, ?_⟩
  · rintro ⟨_, ⟨r, hr, rfl⟩, hpair, hn⟩
    rw [isPair_acceptRow] at hpair
    exact ⟨r, hr, hpair, hstatus r hpair ▸ hn⟩
  · rintro ⟨r, hr, hpair, hn⟩
    exact ⟨acceptRow v u r, ⟨r, hr, rfl⟩, by simpa using hpair, (hstatus r hpair).trans hn⟩
  · rintro ⟨r, rfl, hpair, hn⟩
    obtain ⟨rfl, rfl⟩ := isPair_iff.mp hpair
    exact ⟨rfl, rfl, hn.symm⟩
  · rintro ⟨rfl, rfl, rfl⟩
    exact ⟨_, rfl, by simp [isPair_iff], rfl⟩

/-- An OK `accept_friend` that crosses no other request is a confirmation. -/
theorem Friendship.accept {f : Handshake Text} {db : Db} {u v : Text} {updated inserted : Bool}
    {t : Table friendsConstraints} (hf : Friendship f db)
    (hstatus : ∀ r ∈ db.friends.rows, r.status = 0 ∨ r.status = 1)
    (hpending : Pending db v u) (hone : ¬ Pending db u v)
    (hup : updated = true) (hins : inserted = false →
      ∃ r ∈ db.friends.rows, Database.isPair u v r = true)
    (ht : t.rows = acceptedRows updated inserted u v db.friends.rows) :
    ∃ f', Handshake.Step f f' ∧ Friendship f' { db with friends := t } := by
  have hprop := (hf.proposed v u).mp hpending
  have hne : u ≠ v := (f.distinct v u hprop).symm
  -- the reverse row cannot exist: accepted it would contradict the pending row
  have hinserted : inserted = true := by
    cases inserted with
    | true => rfl
    | false =>
      obtain ⟨r, hr, hpair⟩ := hins rfl
      rcases hstatus r hr with hzero | hone'
      · exact absurd ⟨r, hr, hpair, hzero⟩ hone
      · have hadj := (hf.bonds u v).mp ⟨r, hr, hpair, hone'⟩
        exact absurd hprop (f.settled v u hadj.symm)
  subst hup hinserted
  refine ⟨_, .confirm hprop (hf.proposed u v |>.not.mp hone), fun a b => ?_, fun a b => ?_⟩
  · show (∃ r ∈ t.rows, _) ↔ _
    rw [ht, exists_acceptedRows, Handshake.confirm_adj hne, ← hf.bonds]
    -- the row that was pending, and all others
    by_cases hvu : a = v ∧ b = u
    · obtain ⟨rfl, rfl⟩ := hvu
      obtain ⟨r, hr, hpair, _⟩ := hpending
      simp only [and_self, or_true, iff_true]
      exact Or.inl ⟨r, hr, hpair, by simp⟩
    · simp [hvu, Accepted]
  · show (∃ r ∈ t.rows, _) ↔ f.proposed a b ∧ ¬ (a = v ∧ b = u)
    rw [ht, exists_acceptedRows, ← hf.proposed]
    by_cases hvu : a = v ∧ b = u
    · simp [hvu]
    · simp [hvu, Pending]

/-- Retyping an accepted pair is no event of the protocol. -/
theorem Friendship.setType {f : Handshake Text} {db : Db} {u v : Text} {type : Int}
    {t : Table friendsConstraints} (hf : Friendship f db)
    (ht : t.rows = db.friends.rows.map (typeRow u v type)) :
    Friendship f { db with friends := t } := by
  have hrows : ∀ (a b : Text) (n : Int),
      (∃ r ∈ t.rows, Database.isPair a b r = true ∧ r.status = n) ↔
        ∃ r ∈ db.friends.rows, Database.isPair a b r = true ∧ r.status = n := by
    intro a b n
    rw [ht]
    simp
  exact ⟨fun a b => (hrows a b 1).trans (hf.bonds a b),
    fun a b => (hrows a b 0).trans (hf.proposed a b)⟩

/-- **Simulation**: a step that crosses no requests is at most one event of the protocol. -/
theorem friendship_step {f : Handshake Text} {h : History LoopState Event}
    {x : Step LoopState Event} (hc : Consented hasher h x.pre.app.db) (hsound : SoundStep x)
    (hx : ¬ Crosses x) (hf : Friendship f x.pre.app.db) :
    ∃ f', Handshake.Step f f' ∧ Friendship f' (next hasher x.pre x.event).app.db := by
  rcases step_write hasher x with
    ⟨_, _, hdb⟩ | ⟨i, env, data, cmd, reply, he, hcmd, _, hw⟩
  · exact ⟨f, .idle f, hf.frame (congrArg Db.friends hdb)⟩
  · have hstatus : ∀ r ∈ x.pre.app.db.friends.rows, r.status = 0 ∨ r.status = 1 :=
      fun r hr => (hc.status r hr).imp And.left And.left
    generalize (next hasher x.pre x.event).app.db = db' at hw
    cases hw with
    | friendRequest _ hne _ hfit ht => exact hf.request hne hfit ht
    | @acceptFriend u v _ _ _ hs hpending _ hwrites ht =>
      have hboth := hwrites (hsound.env he)
      refine hf.accept hstatus hpending ?_ hboth.1 hboth.2 ht
      exact fun hback => hx ⟨u, v, hs, hcmd, hpending, hback⟩
    | setFriendType _ _ _ ht => exact ⟨f, .idle f, hf.setType ht⟩
    | chat _ _ _ _ hcreated => exact ⟨f, .idle f, hf.frame hcreated.friends⟩
    | group _ _ hcreated => exact ⟨f, .idle f, hf.frame hcreated.friends⟩
    | _ => exact ⟨f, .idle f, hf.frame rfl⟩

/-- **Refinement**: without crossing steps the table always represents a state the
protocol can reach. -/
theorem friendship_run {h : History LoopState Event} {s : LoopState}
    (hr : (machine hasher serverSocket).Run h s)
    (hq : ∀ x ∈ h, SoundStep x ∧ ¬ Crosses x) :
    ∃ f, Handshake.Reachable f ∧ Friendship f s.app.db := by
  refine hr.invariant_history (P := fun x => SoundStep x ∧ ¬ Crosses x)
    (I := fun _ s => ∃ f, Handshake.Reachable f ∧ Friendship f s.app.db)
    ⟨_, .start, friendship_init⟩ ?_ hq
  rintro h s e hr _ ⟨f, hreach, hf⟩ _ ⟨hsound, hx⟩
  obtain ⟨f', hstep, hf'⟩ := friendship_step (consented_run hr) hsound hx hf
  exact ⟨f', hreach.step hstep, hf'⟩

/-! ## Crossing steps -/

/-- No row relates a user to itself. -/
def NoSelfRows (db : Db) : Prop := ∀ r ∈ db.friends.rows, r.userUsername ≠ r.friendUsername

/-- A request to oneself is refused, and an acceptance needs a request. -/
theorem Write.noSelfRows {env : Env} {db db' : Db} {issuer : Option Text} {current : Option Int}
    {cmd : Command} {reply : Text} (h : Write hasher env db issuer current cmd reply db')
    (hI : NoSelfRows db) : NoSelfRows db' := by
  cases h with
  | @friendRequest u v t _ hne _ _ ht =>
    intro r hr
    rcases mem_inserted ht hr with hold | rfl
    · exact hI r hold
    · exact hne
  | @acceptFriend u v updated inserted t _ hpending _ _ ht =>
    intro r hr
    rcases mem_acceptedRows ht hr with ⟨r₀, hr₀, huser, hfriend, _⟩ | rfl
    · rw [huser, hfriend]
      exact hI r₀ hr₀
    · -- the reverse row has the two users of the pending one
      obtain ⟨r₀, hr₀, hpair, _⟩ := hpending
      obtain ⟨hv, hu⟩ := isPair_iff.mp hpair
      have hne := hI r₀ hr₀
      rw [hv, hu] at hne
      exact hne.symm
  | @setFriendType u v type t _ _ _ ht =>
    intro r hr
    obtain ⟨r₀, hr₀, rfl⟩ := mem_updated ht hr
    simpa using hI r₀ hr₀
  | chat _ _ _ _ hcreated =>
    unfold NoSelfRows
    rw [hcreated.friends]
    exact hI
  | group _ _ hcreated =>
    unfold NoSelfRows
    rw [hcreated.friends]
    exact hI
  | _ => exact hI

theorem noSelfRows_run {h : History LoopState Event} {s : LoopState}
    (hr : (machine hasher serverSocket).Run h s) : NoSelfRows s.app.db :=
  db_invariant (List.forall_mem_nil _) (fun hw hI => hw.noSelfRows hI) hr

/-- Without failures a pending request can be accepted. -/
theorem acceptFriendRequest_of_pending {env : Env} (he : env.Sound) {db : Db} {u v : Text}
    (hp : Pending db v u) : (Database.acceptFriendRequest env db u v).1 = true := by
  unfold Database.acceptFriendRequest
  split
  next hsel =>
    obtain ⟨r, hr, hpair, hzero⟩ := hp
    rw [select_filter_eq_nil he] at hsel
    exact absurd (by rw [hpair, hzero]; rfl) (hsel r hr)
  next => rfl

/-- Without failures the acceptance of a pending request replies OK. -/
theorem accept_repliedOk {x : Step LoopState Event} {u v : Text} (hsound : SoundStep x)
    (hs : issuerOf x = some u) (hcmd : commandOf x = some (.acceptFriend v))
    (hp : Pending x.pre.app.db v u) : repliedOk hasher x = true := by
  obtain ⟨i, env, data, he, hreply, _⟩ := step_execute hasher hcmd
  obtain ⟨hauth, hname⟩ := SessionManager.sessions_eq_some hs
  have haccept := acceptFriendRequest_of_pending (hsound.env he) hp
  rw [repliedOk_of_reply hreply]
  show isOk (AcceptFriendCommand.execute env (sdOf x) x.pre.app v).1 = true
  unfold AcceptFriendCommand.execute
  rw [hauth, hname]
  rcases hacc : Database.acceptFriendRequest env x.pre.app.db u v with ⟨_ | _, db⟩
  · rw [hacc] at haccept
    cases haccept
  · rfl

/-- A crossing step leaves one direction accepted and the other one pending. -/
theorem crossing_breaks {x : Step LoopState Event} (hself : NoSelfRows x.pre.app.db)
    (hsound : SoundStep x) (hx : Crosses x) :
    ¬ FriendshipSymmetric (next hasher x.pre x.event).app.db := by
  obtain ⟨u, v, hs, hcmd, hpending, hback⟩ := hx
  have hok : repliedOk hasher x = true := accept_repliedOk hsound hs hcmd hpending
  obtain ⟨i, env, data, reply, he, hreply, hw⟩ := write_of_command hasher hcmd
  rw [hreply] at hok
  generalize (next hasher x.pre x.event).app.db = db' at hw
  cases hw with
  | unchanged hno => cases hno hok
  | @acceptFriend u' _ updated inserted t hs' _ hfit hwrites ht =>
    rw [hs, Option.some.injEq] at hs'
    subst hs'
    obtain ⟨r, hr, hpair, hzero⟩ := hback
    have hne : u ≠ v := by
      obtain ⟨hu, hv⟩ := isPair_iff.mp hpair
      exact hu ▸ hv ▸ hself r hr
    -- the pending row (u, v) blocks the insert of the reverse row
    have hins : inserted = false := by
      cases inserted with
      | false => rfl
      | true =>
        rw [hfit rfl r hr] at hpair
        cases hpair
    have hup : updated = true := (hwrites (hsound.env he)).1
    subst hup hins
    have hrows : t.rows = x.pre.app.db.friends.rows.map (acceptRow v u) := by
      rw [ht]
      simp [acceptedRows]
    have hstays : acceptRow v u r ∈ t.rows := hrows ▸ List.mem_map_of_mem hr
    have hpending' : Pending { x.pre.app.db with friends := t } u v := by
      refine ⟨acceptRow v u r, hstays, by simpa using hpair, ?_⟩
      obtain ⟨hu, hv⟩ := isPair_iff.mp hpair
      rw [acceptRow_status, if_neg, hzero]
      rw [isPair_iff, hu]
      exact fun h => hne h.1
    have haccepted : Accepted { x.pre.app.db with friends := t } v u := by
      obtain ⟨r₀, hr₀, hpair₀, _⟩ := hpending
      refine ⟨acceptRow v u r₀, hrows ▸ List.mem_map_of_mem hr₀, by simpa using hpair₀, ?_⟩
      rw [acceptRow_status, if_pos hpair₀]
    exact fun hsymm => (hsymm.settled v u haccepted).2 hpending'

/-- **Friendship is symmetric exactly in the runs without crossing steps**: in a run
whose statements SQLite executes as written, every state reached has a symmetric
friendship relation without leftover requests if and only if no step accepts one of
two crossed requests. -/
theorem friendship_symmetric_iff {h : History LoopState Event} {s : LoopState}
    (hr : (machine hasher serverSocket).Run h s) (hsound : ∀ x ∈ h, SoundStep x) :
    (∀ s' ∈ visited h s, FriendshipSymmetric s'.app.db) ↔ ∀ x ∈ h, ¬ Crosses x := by
  constructor
  · intro hsymm x hx hcross
    obtain ⟨newer, older, rfl⟩ := List.append_of_mem hx
    exact crossing_breaks (noSelfRows_run hr.at_step.1) (hsound x hx) hcross
      (hsymm _ (hr.post_visited hx))
  · intro hno s' hs'
    obtain ⟨h', hr', hsub⟩ := hr.of_visited hs'
    obtain ⟨f, _, hf⟩ := friendship_run hr' fun x hx =>
      ⟨hsound x (hsub.subset hx), hno x (hsub.subset hx)⟩
    exact symmetric_of_friendship hf

/-- Both users request each other before one of them accepts. -/
def crossedEvents : List Event :=
  [.accept 4, .accept 5,
    .line 0 "register a p a@x normal public\n", .line 1 "register b p b@x normal public\n",
    .line 0 "login a p\n", .line 1 "login b p\n",
    .line 0 "add_friend b\n", .line 1 "add_friend a\n", .line 1 "accept_friend a\n"]

theorem friendship_symmetric_iff_crossed :
    ∃ r, runEvents List.length 3 crossedEvents = some r ∧
      ((∀ s' ∈ visited r.1 r.2, FriendshipSymmetric s'.app.db) ↔ ∀ x ∈ r.1, ¬ Crosses x) := by
  obtain ⟨h, s, hr, hrun, hsound, _⟩ := runEvents_exists List.length 3 crossedEvents
    (p := fun _ _ => True) (by simp [crossedEvents]) (by decide)
  exact ⟨(h, s), hr, friendship_symmetric_iff hrun hsound⟩

/-- Friendship is not symmetric in every reachable state: crossed requests leave
`(a, b)` accepted and `(b, a)` pending. -/
theorem friendship_not_symmetric :
    ¬ ∀ (hasher : Text → Nat) (serverSocket : Int) (h : History LoopState Event) (s : LoopState),
      (machine hasher serverSocket).Run h s → (∀ x ∈ h, SoundStep x) →
        FriendshipSymmetric s.app.db := by
  intro hall
  obtain ⟨h, s, _, hrun, hsound, hrows⟩ := runEvents_exists List.length 3 crossedEvents
    (p := fun _ s => s.app.db.friends.rows =
      [⟨bytes "a", bytes "b", 0, 1⟩, ⟨bytes "b", bytes "a", 0, 0⟩])
    (by simp [crossedEvents]) (by decide)
  have hsymm := hall _ _ _ _ hrun hsound
  have haccepted : Accepted s.app.db (bytes "a") (bytes "b") := by
    unfold Accepted
    rw [hrows]
    decide
  have hpending : Pending s.app.db (bytes "b") (bytes "a") := by
    unfold Pending
    rw [hrows]
    decide
  exact (hsymm.settled _ _ haccepted).2 hpending

end SocialNetwork.Server
