import SocialNetwork.Messaging.PrivateChat

/-!
# When one-to-one conversations stay one-to-one

Nothing marks a conversation as created by `chat`, and `add` works on any open
conversation. `Intrudes` is an `add` of a third user to a conversation created by
`chat`; `one_to_one_iff` shows that a run keeps the law at every moment exactly when
it contains no such step. Both directions go through `member_later`: after its
creation a conversation gains exactly the users added to it.
-/

namespace SocialNetwork.Server

open SocialNetwork.Lib

variable {hasher : Text → Nat} {serverSocket : Int}

/-- The step is the `chat v` of a client logged in as `u` that created `c`. -/
structure ChatCreates (hasher : Text → Nat) (x : Step LoopState Event) (c : Int) (u v : Text) :
    Prop where
  creates : Creates hasher x c
  command : commandOf x = some (.chat v)
  issuer : issuerOf x = some u

/-- The step is the `group` that created `c`. -/
structure GroupCreates (hasher : Text → Nat) (x : Step LoopState Event) (c : Int) : Prop where
  creates : Creates hasher x c
  command : ∃ users, commandOf x = some (.group users)

/-- The law of one-to-one conversations, in the state `s` reached by `h`: the
participants of a conversation created by `chat` are its two users, and the last step
added a participant only if the conversation was created by `group`. -/
structure OneToOne (hasher : Text → Nat) (h : History LoopState Event) (s : LoopState) :
    Prop where
  pairs : ∀ x ∈ h, ∀ c u v, ChatCreates hasher x c u v →
    ∀ w, Member s.app.db c w ↔ w = u ∨ w = v
  gains : ∀ y older, h = y :: older → ∀ w c, commandOf y = some (.add w) →
    currentOf y = some c → ¬ Member y.pre.app.db c w → Member s.app.db c w →
    ∃ x ∈ older, GroupCreates hasher x c

/-- The step adds a third user to a conversation created by `chat`: its client has the
conversation open, and the lookup of the named user succeeds. -/
def Intrudes (hasher : Text → Nat) (older : History LoopState Event) (y : Step LoopState Event) :
    Prop :=
  ∃ i env data w c, y.event = .recv i env data ∧ commandOf y = some (.add w) ∧
    currentOf y = some c ∧ Database.getUserByUsername env 0 y.pre.app.db w ≠ none ∧
    ∃ x ∈ older, ∃ u v, ChatCreates hasher x c u v ∧ w ≠ u ∧ w ≠ v

/-! ## Single steps -/

/-- The sentinel is no conversation while there are few. -/
theorem exists_pos {db : Db} {c : Int} (h : Exists db c) : 0 < c := by
  obtain ⟨row, hrow, rfl⟩ := h
  exact (db.conversations.bounded row hrow).1

/-- An `add` on the open conversation of a user the lookup finds adds the user. -/
theorem add_execute {env : Env} (hj : env.Joins) {sd : Int} {a : App} {u w : Text} {c : Int}
    (hs : a.sessions.sessions sd = some u) (hc : a.sessions.currentConversation sd = some c)
    (hne : c ≠ -1) (hw : Database.getUserByUsername env 0 a.db w ≠ none) :
    Member (AddCommand.execute env sd a w).2.db c w := by
  obtain ⟨hauth, _⟩ := SessionManager.sessions_eq_some hs
  have hcur : a.sessions.getCurrentConversation sd = c := by
    unfold SessionManager.getCurrentConversation
    rw [hc]
    rfl
  have hfound : (Database.getUserByUsername env 0 a.db w).isNone = false := by
    cases hget : Database.getUserByUsername env 0 a.db w with
    | none => exact absurd hget hw
    | some user => rfl
  obtain ⟨t, ht, hattached, _⟩ := addParticipant_spec env 0 a.db c w
  have hin := hattached.all hj w (List.mem_singleton_self w)
  unfold AddCommand.execute
  simp only [hauth, hcur, hne, hfound]
  rcases hadd : Database.addParticipant env 0 a.db c w with ⟨ok, db⟩
  rw [hadd] at ht
  cases ht
  cases ok <;> exact hin

/-- What an invitation says about the lookup of its step. -/
theorem lookup_of_roomEvent {y : Step LoopState Event} {c : Int} {host w : Text}
    (h : roomEvent hasher y = .invite c host w) :
    ∃ i env data, y.event = .recv i env data ∧
      Database.getUserByUsername env 0 y.pre.app.db w ≠ none := by
  obtain ⟨hcmd, hok, _, _⟩ := add_of_roomEvent h
  obtain ⟨i, env, data, reply, he, hreply, hw⟩ := write_of_command hasher hcmd
  rw [hreply] at hok
  refine ⟨i, env, data, he, ?_⟩
  generalize (next hasher y.pre y.event).app.db = db' at hw
  cases hw with
  | unchanged hno => cases hno hok
  | add _ _ hw => exact hw

/-- A step after which a conversation exists that did not exist before created it. -/
theorem creates_of_new {x : Step LoopState Event} {c : Int} (hold : ¬ Exists x.pre.app.db c)
    (hnew : Exists (next hasher x.pre x.event).app.db c) : Creates hasher x c := by
  rcases step_write hasher x with
    ⟨_, _, hdb⟩ | ⟨i, env, data, cmd, reply, _, hcmd, _, hw⟩
  · rw [hdb] at hnew
    exact absurd hnew hold
  · have hcreates : issuerOf x ≠ none →
        ((∃ v, commandOf x = some (.chat v)) ∨ ∃ users, commandOf x = some (.group users)) →
        Creates hasher x c := fun hs hcommand => ⟨hcommand, hs, hold, hnew⟩
    generalize (next hasher x.pre x.event).app.db = db' at hw hnew
    cases hw with
    | @chat u v _ _ hs => exact hcreates (by rw [hs]; simp) (Or.inl ⟨v, hcmd⟩)
    | @group u users _ _ _ hs => exact hcreates (by rw [hs]; simp) (Or.inr ⟨users, hcmd⟩)
    | _ => exact absurd hnew hold

/-- Every existing conversation was created by a step of the run. -/
theorem creator_run {h : History LoopState Event} {s : LoopState}
    (hr : (machine hasher serverSocket).Run h s) {c : Int} (hex : Exists s.app.db c) :
    ∃ x ∈ h, Creates hasher x c := by
  revert hex
  refine hr.invariant_history (P := fun _ => True)
    (I := fun h s => Exists s.app.db c → ∃ x ∈ h, Creates hasher x c) ?_ ?_ fun _ _ => trivial
  · intro ⟨row, hrow, _⟩
    cases hrow
  · intro h s e _ _ ih _ _ hex
    by_cases hold : Exists s.app.db c
    · obtain ⟨x, hx, hc⟩ := ih hold
      exact ⟨x, List.mem_cons_of_mem _ hx, hc⟩
    · exact ⟨⟨s, e⟩, List.mem_cons_self .., creates_of_new hold hex⟩

/-- A `chat` that created a conversation gave it its two users. -/
theorem chatCreates_members {h : History LoopState Event} {x : Step LoopState Event}
    (hr : (machine hasher serverSocket).Run h x.pre) (hj : ∀ y ∈ h, JoinStep y)
    (hjx : JoinStep x) (hf : FewConversations (next hasher x.pre x.event).app.db)
    {c : Int} {u v : Text} (hx : ChatCreates hasher x c u v) (w : Text) :
    Member (next hasher x.pre x.event).app.db c w ↔ w = u ∨ w = v := by
  have hres := (rooms_run hr hj (few_of_next hf)).2.2
  have hcount := counted_run hr
  obtain ⟨i, env, data, reply, he, _, hw⟩ := write_of_command hasher hx.command
  have hnew := hx.creates.created
  generalize (next hasher x.pre x.event).app.db = db' at hw hnew hf
  cases hw with
  | unchanged => exact absurd hnew hx.creates.fresh
  | @chat u' v id _ hs _ _ _ hcreated =>
    rw [hx.issuer, Option.some.injEq] at hs
    subst hs
    have hroom := hcreated.rooms (hjx.env he) hcount hf hres
    -- the only new id is the next one
    have hid : c = x.pre.app.db.conversations.seq + 1 := by
      by_contra hne
      have hsame := congrFun hroom c
      rw [Function.update_of_ne hne, rooms_of_exists hnew,
        rooms_of_not_exists hx.creates.fresh] at hsame
      cases hsame
    subst hid
    have hsome := congrFun hroom (x.pre.app.db.conversations.seq + 1)
    rw [Function.update_self] at hsome
    rw [(rooms_eq_some hsome).2 w]
    show w ∈ [u, v] ↔ _
    simp

/-- An intruding step adds a third participant to a conversation of two. -/
theorem intrudes_adds {older : History LoopState Event} {y : Step LoopState Event}
    (hr : (machine hasher serverSocket).Run older y.pre) (hj : ∀ x ∈ older, JoinStep x)
    (hjy : JoinStep y) (hy : Intrudes hasher older y) :
    ∃ c w, Member (next hasher y.pre y.event).app.db c w ∧
      ∃ x ∈ older, ∃ u v, ChatCreates hasher x c u v ∧ w ≠ u ∧ w ≠ v := by
  obtain ⟨i, env, data, w, c, he, hcmd, hcur, hlookup, x, hx, u, v, hchat, hwu, hwv⟩ := hy
  refine ⟨c, w, ?_, x, hx, u, v, hchat, hwu, hwv⟩
  obtain ⟨host, hs, _⟩ := joined_run hr hj (sdOf y) c hcur
  -- the conversation still exists, so its id is not the sentinel
  have hex : Exists y.pre.app.db c := by
    obtain ⟨newer, rest, hsplit⟩ := List.append_of_mem hx
    subst hsplit
    obtain ⟨hrx, hg⟩ := hr.at_step
    exact exists_later hr (hrx.step x.event hg) hchat.creates.created
  have hne : c ≠ -1 := by
    have := exists_pos hex
    omega
  obtain ⟨i', env', data', he', _, happ⟩ := step_execute hasher hcmd
  rw [he, Event.recv.injEq] at he'
  obtain ⟨_, rfl, _⟩ := he'
  rw [happ]
  exact add_execute (hjy.env he) hs hcur hne hlookup

/-- Without intruding steps a conversation created by `chat` keeps its two users. -/
theorem pairs_of_not_intrudes {h : History LoopState Event} {s : LoopState}
    (hr : (machine hasher serverSocket).Run h s) (hj : ∀ x ∈ h, JoinStep x)
    (hf : FewConversations s.app.db)
    (hno : ∀ y older, y :: older <:+ h → ¬ Intrudes hasher older y)
    {x : Step LoopState Event} (hx : x ∈ h) {c : Int} {u v : Text}
    (hchat : ChatCreates hasher x c u v) (w : Text) : Member s.app.db c w ↔ w = u ∨ w = v := by
  obtain ⟨newer, older, rfl⟩ := List.append_of_mem hx
  obtain ⟨hrx, hg⟩ := hr.at_step
  have hrpost := hrx.step x.event hg
  have hfpost := few_earlier hr hrpost hf
  have hmembers := chatCreates_members hrx
    (fun y hy => hj y (List.mem_append_right _ (List.mem_cons_of_mem _ hy))) (hj x hx) hfpost hchat
  rw [member_later hr hrpost hj hf hchat.creates.created w]
  constructor
  · intro hm
    rcases hm with hm | ⟨z, hz, host, hevent⟩
    · exact (hmembers w).mp hm
    · -- an invitation since then would be an intruding step, unless it named one of the two
      by_contra hthird
      obtain ⟨i, env, data, he, hlookup⟩ := lookup_of_roomEvent hevent
      obtain ⟨hcmd, _, _, hcur⟩ := add_of_roomEvent hevent
      obtain ⟨newest, mid, rfl⟩ := List.append_of_mem hz
      refine hno z (mid ++ x :: older) ⟨newest, by simp⟩
        ⟨i, env, data, w, c, he, hcmd, hcur, hlookup, x, by simp, u, v, hchat, ?_, ?_⟩
      · exact fun heq => hthird (Or.inl heq)
      · exact fun heq => hthird (Or.inr heq)
  · intro hm
    exact Or.inl ((hmembers w).mpr hm)

/-- Without intruding steps only conversations created by `group` gain participants. -/
theorem gains_of_not_intrudes {older : History LoopState Event} {y : Step LoopState Event}
    {s : LoopState} (hr : (machine hasher serverSocket).Run (y :: older) s)
    (hj : ∀ x ∈ y :: older, JoinStep x) (hf : FewConversations s.app.db)
    (hno : ∀ z rest, z :: rest <:+ y :: older → ¬ Intrudes hasher rest z) {c : Int} {w : Text}
    (hcmd : commandOf y = some (.add w)) (hcur : currentOf y = some c)
    (hout : ¬ Member y.pre.app.db c w) (hin : Member s.app.db c w) :
    ∃ x ∈ older, GroupCreates hasher x c := by
  obtain ⟨hry, _, _⟩ := hr.of_cons
  have hjolder : ∀ x ∈ older, JoinStep x := fun x hx => hj x (List.mem_cons_of_mem _ hx)
  have hrapp : (machine hasher serverSocket).Run ([y] ++ older) s := hr
  have hfy := few_earlier hrapp hry hf
  obtain ⟨host, _, hm⟩ := joined_run hry hjolder (sdOf y) c hcur
  have hex : Exists y.pre.app.db c := (rooms_run hry hjolder hfy).2.2 _ hm
  obtain ⟨x, hx, hcreates⟩ := creator_run hry hex
  rcases hcreates.command with ⟨v, hchat⟩ | hgroup
  · -- a chat: the gained participant is a third user, so the step intrudes
    obtain ⟨u, hu⟩ := Option.ne_none_iff_exists'.mp hcreates.issuer
    have hpairs := pairs_of_not_intrudes hry hjolder hfy
      (fun z rest hz => hno z rest (hz.trans (List.suffix_cons ..))) hx ⟨hcreates, hchat, hu⟩
    rcases (member_later hrapp hry hj hf hex w).mp hin with hold | ⟨z, hz, _, hevent⟩
    · exact absurd hold hout
    · rw [List.mem_singleton.mp hz] at hevent
      obtain ⟨i, env, data, he, hlookup⟩ := lookup_of_roomEvent hevent
      refine absurd ⟨i, env, data, w, c, he, hcmd, hcur, hlookup, x, hx, u, v,
        ⟨hcreates, hchat, hu⟩, ?_, ?_⟩ (hno y older (List.suffix_refl _))
      · exact fun heq => hout ((hpairs w).mpr (Or.inl heq))
      · exact fun heq => hout ((hpairs w).mpr (Or.inr heq))
  · exact ⟨x, hx, hcreates, hgroup⟩

/-- **Chats stay one-to-one exactly in the runs without intruding steps**: in a run with
few conversations, at every moment the participants of the conversations created by
`chat` are their two users and only conversations created by `group` have gained
participants through `add`, if and only if no step of the run adds a third user to a
conversation created by `chat`. -/
theorem one_to_one_iff {h : History LoopState Event} {s : LoopState}
    (hr : (machine hasher serverSocket).Run h s) (hj : ∀ x ∈ h, JoinStep x)
    (hf : FewConversations s.app.db) :
    (∀ h' s', h' <:+ h → (machine hasher serverSocket).Run h' s' → OneToOne hasher h' s') ↔
      ∀ y older, y :: older <:+ h → ¬ Intrudes hasher older y := by
  constructor
  · intro hlaw y older hsuffix hintrudes
    obtain ⟨newer, rfl⟩ := hsuffix
    obtain ⟨hry, hg⟩ := hr.at_step
    have hjolder : ∀ x ∈ older, JoinStep x := fun x hx =>
      hj x (List.mem_append_right _ (List.mem_cons_of_mem _ hx))
    obtain ⟨c, w, hm, x, hx, u, v, hchat, hwu, hwv⟩ := intrudes_adds hry hjolder
      (hj y (List.mem_append_right _ (List.mem_cons_self ..))) hintrudes
    have hpairs := (hlaw _ _ (List.suffix_append ..) (hry.step y.event hg)).pairs x
      (List.mem_cons_of_mem _ hx) c u v hchat w
    rcases hpairs.mp hm with heq | heq
    · exact hwu heq
    · exact hwv heq
  · intro hno h' s' hsuffix hr'
    have hj' : ∀ x ∈ h', JoinStep x := fun x hx => hj x (hsuffix.subset hx)
    have hf' : FewConversations s'.app.db := by
      obtain ⟨newer, rfl⟩ := hsuffix
      exact few_earlier hr hr' hf
    have hno' : ∀ y older, y :: older <:+ h' → ¬ Intrudes hasher older y :=
      fun y older hy => hno y older (hy.trans hsuffix)
    constructor
    · intro x hx c u v hchat w
      exact pairs_of_not_intrudes hr' hj' hf' hno' hx hchat w
    · intro y older hsplit w c hcmd hcur hout hin
      subst hsplit
      exact gains_of_not_intrudes hr' hj' hf' hno' hcmd hcur hout hin

/-- `a` opens its chat with `b` and adds `c`. -/
def intrusionEvents : List Event :=
  [.accept 4, .line 0 "register a p a@x normal public\n",
    .line 0 "register b p b@x normal public\n", .line 0 "register c p c@x normal public\n",
    .line 0 "login a p\n", .line 0 "chat b\n", .line 0 "open 1\n", .line 0 "add c\n"]

theorem one_to_one_iff_intrusion :
    ∃ r, runEvents List.length 3 intrusionEvents = some r ∧
      ((∀ h' s', h' <:+ r.1 → (machine List.length 3).Run h' s' → OneToOne List.length h' s') ↔
        ∀ y older, y :: older <:+ r.1 → ¬ Intrudes List.length older y) := by
  obtain ⟨h, s, hr, hrun, hsound, hlen⟩ := runEvents_exists List.length 3 intrusionEvents
    (p := fun _ s => s.app.db.conversations.rows.length = 1)
    (by simp [intrusionEvents]) (by decide)
  have hf : FewConversations s.app.db := by
    unfold FewConversations
    omega
  exact ⟨(h, s), hr, one_to_one_iff hrun (fun x hx => (hsound x hx).join) hf⟩

/-- A conversation created by `chat` does not keep its two participants in every run. -/
theorem chat_not_one_to_one :
    ¬ ∀ (hasher : Text → Nat) (serverSocket : Int) (h : History LoopState Event) (s : LoopState),
      (machine hasher serverSocket).Run h s → (∀ x ∈ h, SoundStep x) →
        FewConversations s.app.db → OneToOne hasher h s := by
  intro hall
  obtain ⟨h, s, _, hrun, hsound, hlen, hm, x, hx, hcmd, hs, hfresh, hcreated⟩ :=
    runEvents_exists List.length 3 intrusionEvents
      (p := fun h s => s.app.db.conversations.rows.length = 1 ∧
        (⟨1, bytes "c"⟩ : ParticipantRow) ∈ s.app.db.participants.rows ∧
        ∃ x ∈ h, commandOf x = some (.chat (bytes "b")) ∧ issuerOf x = some (bytes "a") ∧
          ¬ Exists x.pre.app.db 1 ∧ Exists (next List.length x.pre x.event).app.db 1)
      (by simp [intrusionEvents]) (by decide)
  have hf : FewConversations s.app.db := by
    unfold FewConversations
    omega
  have hchat : ChatCreates List.length x 1 (bytes "a") (bytes "b") :=
    ⟨⟨Or.inl ⟨_, hcmd⟩, by rw [hs]; simp, hfresh, hcreated⟩, hcmd, hs⟩
  have hpair := ((hall _ _ _ _ hrun hsound hf).pairs x hx 1 _ _ hchat (bytes "c")).mp hm
  revert hpair
  decide

end SocialNetwork.Server
