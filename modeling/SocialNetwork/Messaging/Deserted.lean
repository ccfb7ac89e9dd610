import SocialNetwork.Server.Durability

/-!
# Conversations nobody is in

`chat` and `group` insert the conversation first and attach its people one by one. A process
that dies right after the first statement leaves a conversation without participants. Such a
conversation is lost: only a participant can open it, and only where it is open can anybody be
added or a message be sent (`Effect.deserted`), so it stays in the file, empty, for the rest of
the service's lifetime (`died_deserts`).
-/

namespace SocialNetwork.Server

open SocialNetwork.Lib

variable {hasher : Text → Nat} {serverSocket : Int}

/-- The conversation `c` exists, but nobody participates in it and no socket has it open. -/
structure Deserted (a : App) (c : Int) : Prop where
  there : Exists a.db c
  nobody : ∀ r ∈ a.db.participants.rows, r.conversationId ≠ c
  closed : ∀ sd, a.sessions.currentConversation sd ≠ some c

/-! ## One command -/

section

variable {env : Env} {sd : Int} {a : App} {cmd : Command} {r : Text × App} {c : Int}

/-- A new conversation is not an old one. -/
theorem Created.ne_old {db db' : Db} {names : List Text} {id : Int}
    (h : Created env db names id db') (hc : Counted db) (hf : FewConversations db')
    (hold : Exists db c) : id ≠ c := by
  have hid := h.id_eq_next hc hf
  obtain ⟨row, hrow, rfl⟩ := hold
  have hle := (db.conversations.bounded row hrow).2
  omega

/-- A write attaches people to the issuer's open conversation or to a new one. -/
theorem Write.nobody {db db' : Db} {issuer : Option Text} {current : Option Int} {reply : Text}
    (h : Write hasher env db issuer current cmd reply db') (hc : Counted db)
    (hf : FewConversations db') (hold : Exists db c)
    (hnobody : ∀ r ∈ db.participants.rows, r.conversationId ≠ c) (hclosed : current ≠ some c) :
    ∀ r ∈ db'.participants.rows, r.conversationId ≠ c := by
  have hcreated : ∀ {names id}, Created env db names id db' →
      ∀ r ∈ db'.participants.rows, r.conversationId ≠ c := by
    intro names id hcr r hr
    rcases hcr.attached.mem_cases hr with hr | ⟨heq, _⟩
    · exact hnobody r hr
    · exact heq ▸ hcr.ne_old hc hf hold
  cases h with
  | chat _ _ _ _ hcr => exact hcreated hcr
  | group _ _ hcr => exact hcreated hcr
  | add _ hcurrent _ hattached =>
    intro r hr
    rcases hattached.mem_cases hr with hr | ⟨heq, _⟩
    · exact hnobody r hr
    · rw [heq]
      rintro rfl
      exact hclosed hcurrent
  | _ => exact hnobody

theorem Write.exists_mono {db db' : Db} {issuer : Option Text} {current : Option Int}
    {reply : Text} (h : Write hasher env db issuer current cmd reply db') (hold : Exists db c) :
    Exists db' c := by
  rcases h.conversations with hsame | ⟨_, _, hcr⟩
  · unfold Exists
    rw [hsame]
    exact hold
  · exact (hcr.exists_iff c).mpr (Or.inl hold)

/-- **No command brings anybody into a deserted conversation.** -/
theorem Effect.deserted (h : Effect hasher env sd a cmd r) (hc : Counted a.db)
    (hf : FewConversations r.2.db) (hd : Deserted a c) : Deserted r.2 c := by
  refine ⟨h.write.exists_mono hd.there,
    h.write.nobody hc hf hd.there hd.nobody (hd.closed sd), fun sd' hopen => ?_⟩
  by_cases hsd : sd' = sd
  · subst hsd
    cases h with
    | logout => exact hd.closed _ (SessionManager.currentConversation_of_logout hopen).2
    | @openConversation u c' _ hmem =>
      -- who opens a conversation participates in it
      rw [show (a.sessions.openConversation sd' c').currentConversation sd' = some c' from
        SessionManager.openConversation_currentConversation_self .., Option.some.injEq] at hopen
      subst hopen
      exact hd.nobody _ (isParticipant_true hmem) rfl
    | @group u users id db _ _ hcreate =>
      rw [GroupCommand.created_db] at hf
      unfold GroupCommand.created at hopen
      split at hopen
      · exact hd.closed _ hopen
      next hid =>
        rcases createGroupConversation_cases hcreate with ⟨hfail, _⟩ | hcr
        · exact hid hfail
        · rw [show (a.sessions.openConversation sd' id).currentConversation sd' = some id from
            SessionManager.openConversation_currentConversation_self .., Option.some.injEq] at hopen
          exact hcr.ne_old hc hf hd.there hopen
    | _ => exact hd.closed _ hopen
  · exact hd.closed sd' ((h.frame hsd).2 ▸ hopen)

end

/-! ## A lifetime -/

/-- An incident leaves a deserted conversation deserted. -/
theorem AppStep.deserted {a a' : App} {c : Int} (h : AppStep hasher a a') (hc : Counted a.db)
    (hf : FewConversations a'.db) (hd : Deserted a c) : Deserted a' c := by
  cases h with
  | same => exact hd
  | logout sd => exact ⟨hd.there, hd.nobody, fun sd' hopen =>
      hd.closed sd' (SessionManager.currentConversation_of_logout hopen).2⟩
  | command h => exact h.deserted hc hf hd

theorem AppStep.few {a a' : App} (h : AppStep hasher a a') (hf : FewConversations a'.db) :
    FewConversations a.db := by
  cases h with
  | command h =>
    rcases h.write.conversations with hsame | ⟨_, _, hcr⟩
    · unfold FewConversations at hf ⊢
      rw [← hsame]
      exact hf
    · exact hcr.few hf
  | _ => exact hf

/-- **A deserted conversation stays deserted** over any number of restarts. -/
theorem deserted_later {c : Int} {older : History LoopState Incident} {s₀ : LoopState}
    (hr₀ : (service hasher serverSocket).Run older s₀) (hd : Deserted s₀.app c) :
    ∀ {newer : History LoopState Incident} {s : LoopState},
      (service hasher serverSocket).Run (newer ++ older) s → FewConversations s.app.db →
      Deserted s.app c := by
  intro newer
  induction newer with
  | nil =>
    intro s hr _
    rw [← hr₀.unique hr]
    exact hd
  | cons x newer ih =>
    intro s hr hf
    obtain ⟨hr', _, rfl⟩ := Machine.Run.of_cons hr
    obtain ⟨a, hstep, hcase⟩ := incident_appStep serverSocket x.pre x.event
    have hdb : ((service hasher serverSocket).post x).app.db = a.db := by
      rcases hcase with h | h
      · exact congrArg App.db h
      · exact (congrArg App.db h).trans rfl
    rw [hdb] at hf
    obtain ⟨k, t, hrun, hm⟩ := lifetime_mimics hr'
    have hcounted : Counted x.pre.app.db := hm.app ▸ counted_run hrun
    have hd' := hstep.deserted hcounted hf (ih hr' (hstep.few hf))
    rcases hcase with h | h
    · show Deserted ((service hasher serverSocket).next x.pre x.event).app c
      rw [h]
      exact hd'
    · show Deserted ((service hasher serverSocket).next x.pre x.event).app c
      rw [h]
      exact ⟨hd'.there, hd'.nobody, fun _ hopen => nomatch hopen⟩

/-! ## A death after the first statement -/

/-- The commands that create conversations. -/
def Command.isCreation : Command → Bool
  | .chat _ | .group _ => true
  | _ => false

/-- The first statement of a creation inserts the conversation. -/
theorem insertedCommits_head {env : Env} {db d : Db} {users : List Text} {rest : List Db}
    (h : Database.insertedCommits env db users = d :: rest) :
    Database.insertConversation env.now db = some d := by
  unfold Database.insertedCommits at h
  rcases hex : exec env .insertConversation 0 (Database.insertConversation env.now) db
    with ⟨_ | _, db₁⟩
  · rw [hex] at h
    cases h
  · rw [hex] at h
    injection h with hd _
    exact hd ▸ exec_eq_true hex

theorem creation_head {env : Env} {sd : Int} {a : App} {cmd : Command} {d : Db} {rest : List Db}
    (hcmd : cmd.isCreation = true) (h : cmd.commits hasher env sd a = d :: rest) :
    Database.insertConversation env.now a.db = some d := by
  cases cmd with
  | chat v =>
    have h : ChatCommand.commits env sd a v = d :: rest := h
    unfold ChatCommand.commits at h
    dsimp only at h
    split at h
    · cases h
    · split at h
      · cases h
      · split at h
        · cases h
        · split at h
          · cases h
          · exact insertedCommits_head h
  | group users =>
    have h : GroupCommand.commits env sd a users = d :: rest := h
    unfold GroupCommand.commits at h
    dsimp only at h
    split at h
    · cases h
    · split at h
      · cases h
      · unfold Database.createGroupConversationCommits at h
        split at h
        · cases h
        · exact insertedCommits_head h
  | _ => cases hcmd

/-- A conversation that was just inserted is deserted until somebody is attached. -/
theorem deserted_of_insert {a : App} {d : Db} {now : Text} (hn : Numbered a)
    (h : Database.insertConversation now a.db = some d) :
    Deserted ⟨d, SessionManager.empty⟩ (a.db.conversations.seq + 1) := by
  obtain ⟨t, ht, rfl⟩ := Option.map_eq_some_iff.mp h
  obtain ⟨_, _, hrows, _⟩ := AutoTable.insert_eq_some ht
  refine ⟨⟨⟨a.db.conversations.seq + 1, now⟩, ?_, rfl⟩, fun r hr heq => ?_,
    fun _ hopen => nomatch hopen⟩
  · show _ ∈ t.rows
    rw [hrows]
    exact List.mem_append_right _ (List.mem_singleton_self _)
  · exact not_issued_next a.db (heq ▸ hn.participants r hr)

/-- **A `chat` or `group` the process died over right after its first statement has left a
conversation that is lost**: in every later state of the lifetime it is still there, without
participants and without messages, and open nowhere. -/
theorem died_deserts {newer older : History LoopState Incident} {s₀ s : LoopState} {i : Slot}
    {env : Env} {data : Text} {socket : Int}
    (hr : (service hasher serverSocket).Run (newer ++ ⟨s₀, .killed i env data 1 socket⟩ :: older) s)
    {cmd : Command} (hcmd : CommandFactory.create env.junk (inputOf data) = some cmd)
    (hcreation : cmd.isCreation = true)
    (hcommits : cmd.commits hasher env (s₀.clientSocket i) s₀.app ≠ [])
    (hf : FewConversations s.app.db) :
    Deserted s.app (s₀.app.db.conversations.seq + 1) ∧
      ∀ m ∈ s.app.db.messages.rows, m.conversationId ≠ s₀.app.db.conversations.seq + 1 := by
  obtain ⟨hr₀, hg⟩ := hr.at_step
  obtain ⟨k₀, t₀, hrun₀, hm₀⟩ := lifetime_mimics hr₀
  obtain ⟨d, rest, hrest⟩ := List.exists_cons_of_ne_nil hcommits
  have hfile : s₀.fileAfter hasher i env data 1 = d := by
    unfold LoopState.fileAfter Command.interrupted
    rw [hcmd]
    dsimp only
    rw [hrest]
    rfl
  have hd : Deserted ((service hasher serverSocket).next s₀ (.killed i env data 1 socket)).app
      (s₀.app.db.conversations.seq + 1) := by
    show Deserted ⟨s₀.fileAfter hasher i env data 1, SessionManager.empty⟩ _
    rw [hfile]
    exact deserted_of_insert (hm₀.app ▸ numbered_run hrun₀) (creation_head hcreation hrest)
  have hlater := deserted_later (hr₀.step (Incident.killed i env data 1 socket) hg) hd hr hf
  obtain ⟨k, t, hrun, hm⟩ := lifetime_mimics hr
  refine ⟨hlater, fun m hmsg heq => ?_⟩
  rw [← hm.app] at hmsg hlater
  -- the sender of a message participates in its conversation
  have hmember := ((grounded_run hrun).1.senders m hmsg).2
  exact hlater.nobody _ hmember heq

theorem died_deserts_chat :
    ∃ older s₀, (service List.length 3).Run
        (⟨s₀, .killed 0 .plain (bytes "chat b\n") 1 3⟩ :: older)
        (.boot 3 (some (s₀.fileAfter List.length 0 .plain (bytes "chat b\n") 1))) ∧
      Deserted ⟨s₀.fileAfter List.length 0 .plain (bytes "chat b\n") 1, SessionManager.empty⟩
        (s₀.app.db.conversations.seq + 1) := by
  obtain ⟨older, s₀, hr₀, hg, hcommits, hone⟩ := runIncidents_exists List.length 3
    (loggedInEvents.map .served)
    (p := fun _ s => admits s (.recv 0 .plain (bytes "chat b\n")) ∧
      ((Command.chat (bytes "b")).commits List.length .plain (s.clientSocket 0) s.app).length ≠ 0 ∧
      (s.fileAfter List.length 0 .plain (bytes "chat b\n") 1).conversations.rows.length = 1)
    (by decide)
  have hrun := hr₀.step (Incident.killed 0 .plain (bytes "chat b\n") 1 3) hg
  have hf : FewConversations (s₀.fileAfter List.length 0 .plain (bytes "chat b\n") 1) := by
    unfold FewConversations
    omega
  have hchat : CommandFactory.create Env.plain.junk (inputOf (bytes "chat b\n")) =
      some (.chat (bytes "b")) := rfl
  exact ⟨older, s₀, hrun, (@died_deserts List.length 3 [] older s₀ _ 0 .plain _ 3 hrun _ hchat rfl
    (fun hnil => hcommits (congrArg List.length hnil)) hf).1⟩

end SocialNetwork.Server
