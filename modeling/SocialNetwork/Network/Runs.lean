import SocialNetwork.Lib.Simulation
import SocialNetwork.Network.Answers

/-!
# Every run of the server is a run of the network

Read through `App.network`, a run of the server whose statements succeed, and whose counters
have room, is a run of `Network.machine` under the same requests (`server_refines`). So what
is stored, and what is granted, depends on the requests alone: not on the slots, on the order
in which the engine returns rows, on ids or on queries (`stored_regardless`).
-/

namespace SocialNetwork.Server

open SocialNetwork.Lib

/-- What a step of the server is to the network. A request is the command as parsed, with what
an extraction that failed left in its `int`. -/
def deedOf (x : Step LoopState Event) : Network.Deed :=
  match x.event with
  | .accept _ => .nothing
  | .hangup i => .leave (x.pre.clientSocket i)
  | .recv i env data =>
    match CommandFactory.create env.junk (inputOf data) with
    | none => .nothing
    | some cmd => .request (x.pre.clientSocket i) env.now cmd

/-- The step as the network sees it. -/
def networkStep (x : Step LoopState Event) : Step Network Network.Deed :=
  ⟨x.pre.app.network, deedOf x⟩

section

variable {s : LoopState} {i : Slot} {env : Env} {data : Text}

theorem deedOf_none (h : CommandFactory.create env.junk (inputOf data) = none) :
    deedOf ⟨s, .recv i env data⟩ = .nothing := by
  unfold deedOf
  dsimp only
  rw [h]

theorem deedOf_some {cmd : Command}
    (h : CommandFactory.create env.junk (inputOf data) = some cmd) :
    deedOf ⟨s, .recv i env data⟩ = .request (s.clientSocket i) env.now cmd := by
  unfold deedOf
  dsimp only
  rw [h]

end

variable {hasher : Text → Nat} {serverSocket : Int}

/-! ## The state represents a network -/

/-- A request that waits is of the default type. -/
def WaitsPlain (db : Db) : Prop := ∀ r ∈ db.friends.rows, r.status = 0 → r.friendType = 0

theorem Write.waitsPlain {env : Env} {db db' : Db} {issuer : Option Text} {current : Option Int}
    {cmd : Command} {reply : Text} (h : Write hasher env db issuer current cmd reply db')
    (hI : WaitsPlain db) : WaitsPlain db' := by
  cases h with
  | friendRequest _ _ _ _ ht =>
    intro r hr hzero
    rcases mem_inserted ht hr with hold | rfl
    · exact hI r hold hzero
    · rfl
  | @acceptFriend u v updated inserted t _ _ _ _ ht =>
    intro r hr hzero
    have hr : r ∈ t.rows := hr
    rw [ht, acceptedRows] at hr
    rcases List.mem_append.mp hr with hr | hr
    · split at hr
      · obtain ⟨r₀, hr₀, rfl⟩ := List.mem_map.mp hr
        rw [acceptRow_status] at hzero
        rw [acceptRow_friendType]
        split at hzero
        · cases hzero
        · exact hI r₀ hr₀ hzero
      · exact hI r hr hzero
    · split at hr
      · exact List.mem_singleton.mp hr ▸ rfl
      · cases hr
  | @setFriendType u v k t _ _ _ ht =>
    intro r hr hzero
    obtain ⟨r₀, hr₀, rfl⟩ := mem_updated ht hr
    rw [typeRow_status] at hzero
    -- the update is of accepted rows only
    have hkeep : typeRow u v k r₀ = r₀ := by
      unfold typeRow Table.rewrite
      simp [hzero]
    rw [hkeep]
    exact hI r₀ hr₀ hzero
  | chat _ _ _ _ hcreated =>
    unfold WaitsPlain
    rw [hcreated.friends]
    exact hI
  | group _ _ hcreated =>
    unfold WaitsPlain
    rw [hcreated.friends]
    exact hI
  | _ => exact hI

theorem waitsPlain_run {h : History LoopState Event} {s : LoopState}
    (hr : (machine hasher serverSocket).Run h s) : WaitsPlain s.app.db :=
  db_invariant (List.forall_mem_nil _) (fun hw hI => hw.waitsPlain hI) hr

theorem represented_run {h : History LoopState Event} {s : LoopState}
    (hr : (machine hasher serverSocket).Run h s) (hj : ∀ x ∈ h, JoinStep x)
    (hf : FewConversations s.app.db) : Represented s.app where
  statuses := statuses_run hr
  pending := waitsPlain_run hr
  counted := counted_run hr
  resolved := (rooms_run hr hj hf).2.2
  joined := joined_run hr hj
  registered := (grounded_run hr).2
  visibilities := (grounded_run hr).1.visibilities
  filed := filed_run hr hj

/-! ## Counters only count up -/

theorem Write.spacious {env : Env} {db db' : Db} {issuer : Option Text} {current : Option Int}
    {cmd : Command} {reply : Text} (h : Write hasher env db issuer current cmd reply db')
    (hsp : Spacious db') : Spacious db := by
  have hfew : FewConversations db := by
    rcases h.conversations with hsame | ⟨_, _, hcreated⟩
    · unfold FewConversations
      rw [← hsame]
      exact hsp.conversations
    · exact hcreated.few hsp.conversations
  obtain ⟨husers, hposts, hmessages, _⟩ := hsp
  cases h with
  | register _ _ _ _ _ _ hseq => exact ⟨by dsimp only at husers; omega, hposts, hmessages, hfew⟩
  | setVisibility _ _ _ _ _ _ hseq => exact ⟨hseq ▸ husers, hposts, hmessages, hfew⟩
  | createPost _ _ _ _ hseq => exact ⟨husers, by dsimp only at hposts; omega, hmessages, hfew⟩
  | send _ _ _ _ hseq => exact ⟨husers, hposts, by dsimp only at hmessages; omega, hfew⟩
  | chat _ _ _ _ hc => exact ⟨hc.users ▸ husers, hc.posts ▸ hposts, hc.messages ▸ hmessages, hfew⟩
  | group _ _ hc => exact ⟨hc.users ▸ husers, hc.posts ▸ hposts, hc.messages ▸ hmessages, hfew⟩
  | _ => exact ⟨husers, hposts, hmessages, hfew⟩

theorem spacious_of_next {x : Step LoopState Event}
    (hsp : Spacious (next hasher x.pre x.event).app.db) : Spacious x.pre.app.db := by
  rcases step_write hasher x with ⟨_, _, hdb⟩ | ⟨_, _, _, _, _, _, _, _, hw⟩
  · rwa [hdb] at hsp
  · exact hw.spacious hsp

/-- If there is room at the end, there was room all the time. -/
theorem spacious_run {h : History LoopState Event} {s : LoopState}
    (hr : (machine hasher serverSocket).Run h s) (hsp : Spacious s.app.db) :
    ∀ x ∈ h, Spacious x.pre.app.db ∧ Spacious (next hasher x.pre x.event).app.db := by
  induction hr with
  | init => exact List.forall_mem_nil _
  | @step h s e hr hg ih =>
    have hpre : Spacious s.app.db := spacious_of_next (x := ⟨s, e⟩) hsp
    exact List.forall_mem_cons.mpr ⟨⟨hpre, hsp⟩, ih hpre⟩

theorem spacious_earlier {newer older : History LoopState Event} {s s₀ : LoopState}
    (hr : (machine hasher serverSocket).Run (newer ++ older) s)
    (hr₀ : (machine hasher serverSocket).Run older s₀) (hsp : Spacious s.app.db) :
    Spacious s₀.app.db :=
  Machine.Run.later (P := fun _ => True)
    (R := fun s s' : LoopState => Spacious s'.app.db → Spacious s.app.db) (fun _ => id)
    (fun hab hbc => hab ∘ hbc) (fun s e _ _ => spacious_of_next (x := ⟨s, e⟩)) hr hr₀
    (fun _ _ => trivial) hsp

/-! ## Refinement -/

/-- The answer is OK exactly if the network grants the request. -/
def Truthful (hasher : Text → Nat) (x : Step LoopState Event) : Prop :=
  ∀ sd now cmd, deedOf x = .request sd now cmd → cmd.isRead = false →
    (repliedOk hasher x = true ↔
      ∃ n, x.pre.app.network.Grants (Database.Hashpassword hasher) now sd cmd n)

/-- **One step of the server is one step of the network.** -/
theorem step_refines {h : History LoopState Event} {x : Step LoopState Event}
    (hr : (machine hasher serverSocket).Run h x.pre) (hj : ∀ y ∈ h, JoinStep y)
    (hsound : SoundStep x) (hsp : Spacious (next hasher x.pre x.event).app.db) :
    (next hasher x.pre x.event).app.network =
        x.pre.app.network.next (Database.Hashpassword hasher) (deedOf x) ∧ Truthful hasher x := by
  have hpre := spacious_of_next hsp
  have hrep := represented_run hr hj hpre.conversations
  obtain ⟨s, e⟩ := x
  cases e with
  | accept fd => exact ⟨rfl, fun _ _ _ hdeed => by cases hdeed⟩
  | hangup i =>
    refine ⟨?_, fun _ _ _ hdeed => by cases hdeed⟩
    show ({ s.app with sessions := s.app.sessions.logout (s.clientSocket i) } : App).network =
      s.app.network.sit (s.clientSocket i) none
    exact network_sit (by simp) (fun _ hsd => SessionManager.logout_sessions_ne hsd)
      fun _ hsd => SessionManager.logout_currentConversation_ne hsd
  | recv i env data =>
    cases hcmd : CommandFactory.create env.junk (inputOf data) with
    | none =>
      refine ⟨?_, fun _ _ _ hdeed => by rw [deedOf_none hcmd] at hdeed; cases hdeed⟩
      rw [deedOf_none hcmd]
      show (handle hasher env (s.clientSocket i) data s.app).2.network = _
      rw [handle_of_none hasher env _ s.app hcmd]
      rfl
    | some cmd =>
      have hexec : (s.recvSlot hasher i env data).app =
          (execute hasher env (s.clientSocket i) s.app cmd).2 :=
        congrArg Prod.snd (handle_of_some hasher env _ s.app hcmd)
      have hf : FewConversations (execute hasher env (s.clientSocket i) s.app cmd).2.db := by
        rw [← hexec]
        exact hsp.conversations
      obtain ⟨hok, hnet⟩ := execute_refines cmd hsound hrep hpre hf
      refine ⟨?_, fun sd now cmd' heq => ?_⟩
      · rw [deedOf_some hcmd]
        exact (congrArg App.network hexec).trans hnet
      rw [deedOf_some hcmd] at heq
      cases heq
      have hreply : repliedOk hasher ⟨s, .recv i env data⟩ =
          isOk (execute hasher env (s.clientSocket i) s.app cmd).1 :=
        congrArg isOk (congrArg Prod.fst (handle_of_some hasher env _ s.app hcmd))
      rw [hreply]
      exact hok

theorem network_run {h : History LoopState Event} {s : LoopState}
    (hr : (machine hasher serverSocket).Run h s) (hsound : ∀ x ∈ h, SoundStep x)
    (hsp : Spacious s.app.db) :
    (Network.machine (Database.Hashpassword hasher)).Run (h.map networkStep) s.app.network := by
  have hroom := spacious_run hr hsp
  refine hr.refined (N := Network.machine (Database.Hashpassword hasher))
    (P := fun x => SoundStep x ∧ Spacious (next hasher x.pre x.event).app.db)
    (fun s => s.app.network) deedOf ?_ (fun e hr hP _ hp => ?_)
    fun x hx => ⟨hsound x hx, (hroom x hx).2⟩
  · rfl
  · exact ⟨trivial, (step_refines hr (fun y hy => (hP y hy).1.join) hp.1 hp.2).1⟩

/-- What is known of every step of a run of the server. -/
structure Regular (hasher : Text → Nat) (x : Step LoopState Event) : Prop where
  sound : SoundStep x
  represented : Represented x.pre.app
  refines : (next hasher x.pre x.event).app.network =
    x.pre.app.network.next (Database.Hashpassword hasher) (deedOf x)
  truthful : Truthful hasher x

theorem regular_run {h : History LoopState Event} {s : LoopState}
    (hr : (machine hasher serverSocket).Run h s) (hsound : ∀ x ∈ h, SoundStep x)
    (hsp : Spacious s.app.db) : ∀ x ∈ h, Regular hasher x := by
  intro x hx
  obtain ⟨hroom, hroom'⟩ := spacious_run hr hsp x hx
  have hsoundx := hsound x hx
  obtain ⟨newer, older, rfl⟩ := List.append_of_mem hx
  have hjoin : ∀ y ∈ older, JoinStep y := fun y hy =>
    (hsound y (List.mem_append_right _ (List.mem_cons_of_mem _ hy))).join
  obtain ⟨hnet, htrue⟩ := step_refines hr.at_step.1 hjoin hsoundx hroom'
  exact ⟨hsoundx, represented_run hr.at_step.1 hjoin hroom.conversations, hnet, htrue⟩

/-- **The server refines the network.** -/
theorem server_refines {h : History LoopState Event} {s : LoopState}
    (hr : (machine hasher serverSocket).Run h s) (hsound : ∀ x ∈ h, SoundStep x)
    (hsp : Spacious s.app.db) :
    (Network.machine (Database.Hashpassword hasher)).Run (h.map networkStep) s.app.network ∧
      ∀ x ∈ h, Truthful hasher x :=
  ⟨network_run hr hsound hsp, fun x hx => (regular_run hr hsound hsp x hx).truthful⟩

theorem server_refines_acquainted :
    ∃ h s, (machine List.length 3).Run h s ∧ s.app.db.friends.rows.length = 2 ∧
      s.app.db.messages.rows.length = 1 ∧
      (Network.machine (Database.Hashpassword List.length)).Run (h.map networkStep)
        s.app.network := by
  obtain ⟨h, s, _, hrun, hsound, hfriends, hmessages, hsp⟩ :=
    runEvents_exists List.length 3 acquaintedEvents
      (p := fun _ s => s.app.db.friends.rows.length = 2 ∧ s.app.db.messages.rows.length = 1 ∧
        Spacious s.app.db)
      (by simp [acquaintedEvents]) (by decide)
  exact ⟨h, s, hrun, hfriends, hmessages, (server_refines hrun hsound hsp).1⟩

/-! ## What is stored depends on the requests alone -/

/-- Lists that look the same are related entry by entry. -/
theorem forall₂_of_map_eq {α β γ : Type} {f : α → γ} {g : β → γ} {l : List α} {l' : List β}
    (h : l.map f = l'.map g) : List.Forall₂ (fun a b => f a = g b) l l' := by
  rw [← List.forall₂_map_right_iff (R := fun a c => f a = c), ← List.forall₂_map_left_iff, h]
  exact List.forall₂_same.mpr fun _ _ => rfl

/-- What the read of a step may be answered, by the order in which the engine returns rows. -/
def answersOf (hasher : Text → Nat) (x : Step LoopState Event) : Set Text :=
  match x.event with
  | .recv i env data => responses hasher env (x.pre.clientSocket i) data x.pre.app
  | _ => ∅

/-- The same request is answered alike in both steps: it is granted in both or in neither, and
a query shows the same. -/
structure AnsweredAlike (hasher : Text → Nat) (x x' : Step LoopState Event) : Prop where
  deed : deedOf x = deedOf x'
  granted : ∀ sd now cmd, deedOf x = .request sd now cmd → cmd.isRead = false →
    repliedOk hasher x = repliedOk hasher x'
  shown : ∀ sd now cmd, deedOf x = .request sd now cmd → cmd.isRead = true →
    answersOf hasher x = answersOf hasher x'

/-- No query looks at what is left in uninitialised memory. -/
theorem execute_junk (env : Env) (junk : Int) (sd : Int) (a : App) {cmd : Command}
    (hread : cmd.isRead = true) : execute hasher { env with junk := junk } sd a cmd =
      execute hasher env sd a cmd := by
  cases cmd with
  | listFriends => rfl
  | listFriendRequests => rfl
  | listPosts => rfl
  | chats =>
    have hconvs : Database.getUserConversations { env with junk := junk } a.db
        (a.sessions.getUsername sd) =
          Database.getUserConversations env a.db (a.sessions.getUsername sd) := rfl
    have hlines : ∀ convs, ChatsCommand.lines { env with junk := junk } a 0 convs =
        ChatsCommand.lines env a 0 convs := fun convs =>
      lines_congr a a convs 0 fun _ _ _ => rfl
    unfold execute ChatsCommand.execute
    dsimp only
    rw [hconvs, hlines]
  | «show» => rfl
  | _ => cases hread

theorem deedOf_request {x : Step LoopState Event} {sd : Int} {now : Text} {cmd : Command}
    (h : deedOf x = .request sd now cmd) :
    ∃ i env data, x.event = .recv i env data ∧ x.pre.clientSocket i = sd ∧ env.now = now ∧
      CommandFactory.create env.junk (inputOf data) = some cmd := by
  obtain ⟨s, e⟩ := x
  cases e with
  | accept fd => cases h
  | hangup i => cases h
  | recv i env data =>
    cases hcmd : CommandFactory.create env.junk (inputOf data) with
    | none =>
      rw [deedOf_none hcmd] at h
      cases h
    | some cmd' =>
      rw [deedOf_some hcmd] at h
      cases h
      exact ⟨i, env, data, rfl, rfl, rfl, hcmd⟩

/-- The answers to a query, as its handler gives them. -/
theorem answersOf_eq {x : Step LoopState Event} {sd : Int} {now : Text} {cmd : Command}
    (hsound : SoundStep x) (h : deedOf x = .request sd now cmd) (hread : cmd.isRead = true) :
    answersOf hasher x = answers (fun order a =>
      (execute hasher ⟨fun _ _ => false, order, now, 0⟩ sd a cmd).1) x.pre.app := by
  obtain ⟨i, env, data, hevent, rfl, rfl, hcmd⟩ := deedOf_request h
  obtain ⟨s, e⟩ := x
  cases hevent
  have henv : env.fails = fun _ _ => false := funext fun st => funext fun i => hsound st i
  unfold answersOf responses answers
  dsimp only
  congr 1
  funext order
  rw [handle_of_some hasher { env with order := order } _ _ hcmd,
    ← execute_junk { env with order := order } 0 _ _ hread, ← henv]

/-- Steps that agree on what a query reads show the same. -/
theorem answersOf_agree {x x' : Step LoopState Event} {sd : Int} {now : Text} {cmd : Command}
    (hsound : SoundStep x) (hsound' : SoundStep x') (hrep : Represented x.pre.app)
    (hrep' : Represented x'.pre.app) (h : deedOf x = .request sd now cmd)
    (h' : deedOf x' = .request sd now cmd) (hread : cmd.isRead = true)
    (hag : Network.cells.Agree {k | x.pre.app.network.Reads (.request sd now cmd) k}
      x.pre.app.network x'.pre.app.network) : answersOf hasher x = answersOf hasher x' := by
  rw [answersOf_eq hsound h hread, answersOf_eq hsound' h' hread]
  apply Set.Subset.antisymm
  · exact answers_subset fun order =>
      query_of_agree hrep hrep' hread hag hasher ⟨fun _ _ => false, order, now, 0⟩
  · exact answers_subset fun order => query_of_agree hrep' hrep hread (Network.agree_swap hag)
      hasher ⟨fun _ _ => false, order, now, 0⟩

/-- **Steps that agree on what a request reads answer it alike.** -/
theorem AnsweredAlike.of_agree {x x' : Step LoopState Event} (hx : Regular hasher x)
    (hx' : Regular hasher x') (hdeed : deedOf x = deedOf x')
    (hag : Network.cells.Agree {k | x.pre.app.network.Reads (deedOf x) k} x.pre.app.network
      x'.pre.app.network) : AnsweredAlike hasher x x' where
  deed := hdeed
  granted sd now cmd hcmd hread := by
    rw [hcmd] at hag
    rw [Bool.eq_iff_iff, hx.truthful sd now cmd hcmd hread,
      hx'.truthful sd now cmd (hdeed ▸ hcmd) hread]
    exact Network.grants_congr hag
  shown sd now cmd hcmd hread := by
    rw [hcmd] at hag
    exact answersOf_agree hx.sound hx'.sound hx.represented hx'.represented hcmd (hdeed ▸ hcmd)
      hread hag

/-- Both steps find the same network, and answer the same request alike. -/
def SameStep (hasher : Text → Nat) (x x' : Step LoopState Event) : Prop :=
  x.pre.app.network = x'.pre.app.network ∧ AnsweredAlike hasher x x'

/-- Two runs that have stored the same go on to store the same under the same requests. -/
theorem alike_after {serverSocket' : Int} {h h' h₀ h₀' : History LoopState Event}
    {s s' s₀ s₀' : LoopState} (hr : (machine hasher serverSocket).Run (h ++ h₀) s)
    (hr' : (machine hasher serverSocket').Run (h' ++ h₀') s')
    (hr₀ : (machine hasher serverSocket).Run h₀ s₀)
    (hr₀' : (machine hasher serverSocket').Run h₀' s₀') (hsound : ∀ x ∈ h ++ h₀, SoundStep x)
    (hsound' : ∀ x ∈ h' ++ h₀', SoundStep x) (hsp : Spacious s.app.db)
    (hsp' : Spacious s'.app.db) (hsame : s₀.app.network = s₀'.app.network)
    (hdeeds : h.map deedOf = h'.map deedOf) :
    s.app.network = s'.app.network ∧ List.Forall₂ (SameStep hasher) h h' := by
  have hreg := fun x hx => regular_run hr hsound hsp x (List.mem_append_left h₀ hx)
  have hreg' := fun x hx => regular_run hr' hsound' hsp' x (List.mem_append_left h₀' hx)
  have hstep : ∀ {x x' : Step LoopState Event}, Regular hasher x → Regular hasher x' →
      deedOf x = deedOf x' → x.pre.app.network = x'.pre.app.network →
      (next hasher x.pre x.event).app.network = (next hasher x'.pre x'.event).app.network := by
    intro x x' hx hx' hdeed hpre
    rw [hx.refines, hx'.refines, hpre, hdeed]
  have hdeeds' : List.Forall₂ (fun x x' => deedOf x = deedOf x') (h.filter fun _ => true) h' := by
    rw [List.filter_true]
    exact forall₂_of_map_eq hdeeds
  obtain ⟨hnet, hall⟩ := Machine.Run.lockstep
    (R := fun s s' : LoopState => s.app.network = s'.app.network) (fun _ => true) hstep
    (fun _ hno _ => by cases hno) hr₀ hr₀' hsame hr hr' hreg hreg' hdeeds'
  rw [List.filter_true] at hall
  refine ⟨hnet, hall.imp fun x x' hx => ?_⟩
  obtain ⟨hx, hx', hdeed, hpre⟩ := hx
  exact ⟨hpre, .of_agree hx hx' hdeed (hpre ▸ .refl _ _)⟩

/-- **Two runs under the same requests store the same network and answer the requests alike**,
whatever the slots and the order in which the engine returns rows. The requests are commands as
parsed: a left-over `int` that was taken for a type is the same in both. -/
theorem stored_regardless {serverSocket' : Int} {h h' : History LoopState Event}
    {s s' : LoopState} (hr : (machine hasher serverSocket).Run h s)
    (hr' : (machine hasher serverSocket').Run h' s') (hsound : ∀ x ∈ h, SoundStep x)
    (hsound' : ∀ x ∈ h', SoundStep x) (hsp : Spacious s.app.db) (hsp' : Spacious s'.app.db)
    (hdeeds : h.map deedOf = h'.map deedOf) :
    s.app.network = s'.app.network ∧ List.Forall₂ (SameStep hasher) h h' := by
  rw [← List.append_nil h] at hr hsound
  rw [← List.append_nil h'] at hr' hsound'
  exact alike_after hr hr' .init .init hsound hsound' hsp hsp' rfl hdeeds

/-- Two clients, the first one in slot `i`, of an engine that behaves like `env`. -/
def twoClientsEvents (env : Env) (i j : Slot) (fds : Int × Int) : List Event :=
  [.accept fds.1, .accept fds.2, .recv i env (bytes "register a p a@x normal private\n"),
    .recv i env (bytes "login a p\n"), .recv j env (bytes "login a q\n"),
    .recv i env (bytes "create_post 0 hi\n"), .recv i env (bytes "create_post 0 ho\n"),
    .recv j env (bytes "list_posts\n")]

/-- What they ask for, the last first. -/
def twoClientsDeeds (now : Text) : List Network.Deed :=
  [.request 5 now .listPosts, .request 4 now (.createPost 0 (bytes "ho")),
    .request 4 now (.createPost 0 (bytes "hi")), .request 5 now (.login (bytes "a") (bytes "q")),
    .request 4 now (.login (bytes "a") (bytes "p")),
    .request 4 now (.register (bytes "a") (bytes "p") (bytes "a@x") (bytes "normal")
      (bytes "private")), .nothing, .nothing]

theorem stored_regardless_swapped :
    ∃ h s h' s', (machine List.length 3).Run h s ∧ (machine List.length 7).Run h' s' ∧
      s.clientSocket 0 = 4 ∧ s'.clientSocket 0 = 5 ∧ s.app.db.posts.rows.length = 2 ∧
      s.app.network = s'.app.network := by
  have hevents : ∀ env : Env, env.Sound → ∀ i j fds, ∀ e ∈ twoClientsEvents env i j fds,
      e.Sound := by
    intro env he i j fds
    simp [twoClientsEvents, Event.Sound, he]
  obtain ⟨h, s, _, hrun, hsound, hdeeds, hslot, hposts, hsp⟩ :=
    runEvents_exists List.length 3 (twoClientsEvents .plain 0 1 (4, 5))
      (p := fun h s => h.map deedOf = twoClientsDeeds Env.plain.now ∧ s.clientSocket 0 = 4 ∧
        s.app.db.posts.rows.length = 2 ∧ Spacious s.app.db)
      (hevents _ Env.plain_sound _ _ _) (by decide)
  have hlast : Env.lastFirst.Sound := fun _ _ => rfl
  obtain ⟨h', s', _, hrun', hsound', hdeeds', hslot', hsp'⟩ :=
    runEvents_exists List.length 7 (twoClientsEvents .lastFirst 1 0 (5, 4))
      (p := fun h s => h.map deedOf = twoClientsDeeds Env.plain.now ∧ s.clientSocket 0 = 5 ∧
        Spacious s.app.db)
      (hevents _ hlast _ _ _) (by decide)
  exact ⟨h, s, h', s', hrun, hrun', hslot, hslot', hposts,
    (stored_regardless hrun hrun' hsound hsound' hsp hsp' (hdeeds.trans hdeeds'.symm)).1⟩

end SocialNetwork.Server
