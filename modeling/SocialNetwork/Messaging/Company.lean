import SocialNetwork.Messaging.PrivateChat
import SocialNetwork.Server.Integrity

/-!
# Conversations of one person

`group` checks the size of the list of names before the attachments merge repeated ones,
and the caller is appended to the list. So the check admits a list that names the caller
alone (`LoneGroup`), and only such lists make a conversation of one person:
`accompanied_iff_no_lone`. The positive part is the rooms model's `shared_after`.
-/

namespace SocialNetwork.Server

open SocialNetwork.Lib

variable {hasher : Text → Nat} {serverSocket : Int}

/-- Every conversation has two different participants. -/
def Accompanied (db : Db) : Prop :=
  ∀ row ∈ db.conversations.rows, ∃ u v, u ≠ v ∧
    Member db row.conversationId u ∧ Member db row.conversationId v

/-- The step is a `group` of a logged-in client that names nobody else. -/
def LoneGroup (x : Step LoopState Event) : Prop :=
  ∃ users u, commandOf x = some (.group users) ∧ issuerOf x = some u ∧ ∀ w ∈ users, w = u

/-- In terms of the rooms: all of them are shared. -/
theorem accompanied_iff (db : Db) : Accompanied db ↔ (rooms db).Shared := by
  constructor
  · intro h c m hm
    obtain ⟨⟨row, hrow, rfl⟩, hmem⟩ := rooms_eq_some hm
    obtain ⟨u, v, hne, hu, hv⟩ := h row hrow
    exact ⟨u, (hmem u).mp hu, v, (hmem v).mp hv, hne⟩
  · intro h row hrow
    obtain ⟨u, hu, v, hv, hne⟩ := h _ _ (rooms_of_exists ⟨row, hrow, rfl⟩)
    exact ⟨u, v, hne, hu, hv⟩

/-! ## What the founders are -/

/-- A `chat` that inserts a conversation is with somebody else. -/
theorem ne_of_inserts {x : Step LoopState Event} {u v : Text} (hcmd : commandOf x = some (.chat v))
    (hs : issuerOf x = some u) (hins : insertsConversation hasher x = true) : u ≠ v := by
  unfold insertsConversation at hins
  rw [decide_eq_true_eq] at hins
  obtain ⟨_, _, _, _, _, _, hw⟩ := write_of_command hasher hcmd
  generalize (next hasher x.pre x.event).app.db = db' at hw hins
  cases hw with
  | unchanged => omega
  | chat hs' hne =>
    rw [hs, Option.some.injEq] at hs'
    exact hs' ▸ hne

/-- Only lone groups have one founder. -/
theorem founders_nontrivial {x : Step LoopState Event} {c : Int} {founders : Set Text}
    (h : roomEvent hasher x = .create c founders) (hx : ¬ LoneGroup x) : founders.Nontrivial := by
  unfold roomEvent at h
  split at h
  next v u hcmd hs =>
    split at h
    next hins =>
      cases h
      exact ⟨u, by simp, v, by simp, ne_of_inserts hcmd hs hins⟩
    next => cases h
  next users u hcmd hs =>
    split at h
    next hins =>
      cases h
      by_contra hnot
      refine hx ⟨users, u, hcmd, hs, fun w hw => ?_⟩
      by_contra hne
      exact hnot ⟨w, List.mem_append_left _ hw, u, by simp, hne⟩
    next => cases h
  next =>
    split at h
    · split at h <;> cases h
    · cases h
  next => cases h

/-! ## What a lone group does -/

/-- Without failures the validation loop passes registered users. -/
theorem unknown_of_registered {env : Env} (he : env.Sound) {a : App} {users : List Text} (i : Nat)
    (h : ∀ w ∈ users, Registered a.db w) : GroupCommand.unknown env a i users = none := by
  induction users generalizing i with
  | nil => rfl
  | cons w users ih =>
    rw [GroupCommand.unknown, if_neg]
    · exact ih (i + 1) fun w' hw' => h w' (List.mem_cons_of_mem _ hw')
    · intro hnone
      rw [Option.isNone_iff_eq_none, getUserByUsername_eq_none he] at hnone
      obtain ⟨row, hrow, hname⟩ := h w (List.mem_cons_self ..)
      exact hnone row hrow hname

/-- Without failures a group is created as long as there are row ids. -/
theorem createGroupConversation_created {env : Env} (he : env.Sound) {db : Db} {users : List Text}
    (hlen : 2 ≤ users.length) (h : db.conversations.seq < maxRowid) :
    ∃ id db', Database.createGroupConversation env db users = (id, db') ∧
      Created env db users id db' := by
  obtain ⟨db₁, hins⟩ := insertConversation_of_lt env.now h
  refine ⟨_, _, ?_, created_of_insert users hins⟩
  unfold Database.createGroupConversation
  rw [if_neg (by omega), exec_some he hins]

/-- **A lone group passes the size check** and creates a room of its caller alone. -/
theorem lone_creates {h : History LoopState Event} {x : Step LoopState Event}
    (hr : (machine hasher serverSocket).Run h x.pre) (hsound : SoundStep x)
    (hf : FewConversations x.pre.app.db) (hx : LoneGroup x) :
    ∃ c founders, roomEvent hasher x = .create c founders ∧ ¬ founders.Nontrivial := by
  obtain ⟨users, u, hcmd, hs, hlone⟩ := hx
  obtain ⟨i, env, data, he, _, happ⟩ := step_execute hasher hcmd
  have hne := (commandOf_wellFormed hcmd).1
  have hu : Registered x.pre.app.db u := (grounded_run hr).2 _ _ hs
  have hall : ∀ w ∈ users ++ [u], w = u := by
    intro w hw
    rcases List.mem_append.mp hw with hw | hw
    · exact hlone w hw
    · exact List.mem_singleton.mp hw
  have hlen : 2 ≤ (users ++ [u]).length := by
    have hpos := List.length_pos_iff.mpr hne
    rw [List.length_append, List.length_singleton]
    omega
  have hseq : x.pre.app.db.conversations.seq < maxRowid := by
    have hmax := exists_of_fewer (counted_run hr) hf
    unfold intMax at hmax
    unfold maxRowid
    omega
  obtain ⟨id, db', hcreate, hcreated⟩ :=
    createGroupConversation_created (hsound.env he) hlen hseq
  have hknown := unknown_of_registered (hsound.env he) 0 fun w hw => hall w hw ▸ hu
  have hdb : (next hasher x.pre x.event).app.db = db' := by
    obtain ⟨hauth, hname⟩ := SessionManager.sessions_eq_some hs
    rw [happ]
    show (GroupCommand.execute env (sdOf x) x.pre.app users).2.db = db'
    unfold GroupCommand.execute
    rw [hauth, hname, if_neg (by decide)]
    dsimp only
    rw [hknown]
    dsimp only
    rw [hcreate]
    exact GroupCommand.created_db id db'
  have hins : insertsConversation hasher x = true := by
    unfold insertsConversation
    rw [hdb, hcreated.seq_eq, decide_eq_true_eq]
  refine ⟨x.pre.app.db.conversations.seq + 1, { w | w ∈ users ++ [u] }, ?_, ?_⟩
  · unfold roomEvent
    rw [hcmd, hs]
    simp only [hins, if_true]
  · rintro ⟨w, hw, w', hw', hne'⟩
    exact hne' ((hall w hw).trans (hall w' hw').symm)

/-- **Every conversation has two different people in every state of a run if and only if
no `group` of the run named its caller alone.** -/
theorem accompanied_iff_no_lone {h : History LoopState Event} {s : LoopState}
    (hr : (machine hasher serverSocket).Run h s) (hsound : ∀ x ∈ h, SoundStep x)
    (hf : FewConversations s.app.db) :
    (∀ s' ∈ visited h s, Accompanied s'.app.db) ↔ ∀ x ∈ h, ¬ LoneGroup x := by
  constructor
  · intro hall x hx hlone
    obtain ⟨newer, older, rfl⟩ := List.append_of_mem hx
    obtain ⟨hrx, hg⟩ := hr.at_step
    have hpost := hall _ (hr.post_visited hx)
    have hfx : FewConversations (next hasher x.pre x.event).app.db :=
      few_earlier hr (hrx.step x.event hg) hf
    have hjoins : ∀ y ∈ older, JoinStep y := fun y hy =>
      (hsound y (List.mem_append_right _ (List.mem_cons_of_mem _ hy))).join
    -- the room of the step is the caller's alone
    obtain ⟨c, founders, hevent, htrivial⟩ :=
      lone_creates hrx (hsound x hx) (few_of_next hfx) hlone
    obtain ⟨_, happly⟩ := rooms_step (hsound x hx).join (joined_run hrx hjoins) (counted_run hrx)
      (rooms_run hrx hjoins (few_of_next hfx)).2.2 hfx
    have hshared := (accompanied_iff _).mp hpost
    rw [show (Machine.post _ x).app.db = (next hasher x.pre x.event).app.db from rfl, happly,
      hevent] at hshared
    exact htrivial (Rooms.nontrivial_of_shared hshared)
  · intro hno s' hs'
    obtain ⟨h', hr', newer, rfl⟩ := hr.of_visited hs'
    have hmem : ∀ {x}, x ∈ h' → x ∈ newer ++ h' := fun hx => List.mem_append_right _ hx
    rw [accompanied_iff, (rooms_run hr' (fun x hx => (hsound x (hmem hx)).join)
      (few_earlier hr hr' hf)).2.1]
    refine Rooms.shared_after fun c founders hin => ?_
    obtain ⟨x, hx, hevent⟩ := List.mem_map.mp hin
    exact founders_nontrivial hevent (hno x (hmem hx))

/-- A user makes a group with nobody else. -/
def loneEvents : List Event :=
  [.accept 4, .line 0 "register a p a@x normal public\n", .line 0 "login a p\n",
    .line 0 "group a\n"]

theorem accompanied_iff_no_lone_alone :
    ∃ h s, (machine List.length 3).Run h s ∧
      ((∀ s' ∈ visited h s, Accompanied s'.app.db) ↔ ∀ x ∈ h, ¬ LoneGroup x) := by
  obtain ⟨h, s, _, hrun, hsound, hlen⟩ := runEvents_exists List.length 3 loneEvents
    (p := fun _ s => s.app.db.conversations.rows.length < 2147483648)
    (by simp [loneEvents]) (by decide)
  exact ⟨h, s, hrun, accompanied_iff_no_lone hrun hsound hlen⟩

/-- A conversation may have one participant only: `group` with the caller's own name. -/
theorem conversation_not_accompanied :
    ¬ ∀ (hasher : Text → Nat) (serverSocket : Int) (h : History LoopState Event) (s : LoopState),
      (machine hasher serverSocket).Run h s → (∀ x ∈ h, SoundStep x) →
        FewConversations s.app.db → Accompanied s.app.db := by
  intro hall
  obtain ⟨h, s, _, hrun, hsound, hrows, hpart⟩ := runEvents_exists List.length 3 loneEvents
    (p := fun _ s => s.app.db.conversations.rows.map (·.conversationId) = [1] ∧
      s.app.db.participants.rows = [⟨1, bytes "a"⟩])
    (by simp [loneEvents]) (by decide)
  have hlen := congrArg List.length hrows
  rw [List.length_map] at hlen
  have hf : FewConversations s.app.db := by
    unfold FewConversations
    rw [hlen]
    decide
  obtain ⟨row, hrow⟩ := List.exists_mem_of_length_pos (l := s.app.db.conversations.rows)
    (by rw [hlen]; decide)
  obtain ⟨u, v, hne, hu, hv⟩ := hall _ _ _ _ hrun hsound hf row hrow
  unfold Member at hu hv
  rw [hpart, List.mem_singleton, ParticipantRow.mk.injEq] at hu hv
  exact hne (hu.2.trans hv.2.symm)

end SocialNetwork.Server
