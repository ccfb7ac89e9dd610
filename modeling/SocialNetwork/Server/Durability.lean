import SocialNetwork.Server.Chronology
import SocialNetwork.Server.Restart
import SocialNetwork.Session.Accounts

/-!
# What survives restarts

The users, the posts and the messages of a conversation are each a record of the steps that
made them: of the OK `register`s (`accounts_run`), the OK `create_post`s and the OK `send`s.
Over a lifetime the record has, in order, everything that was acknowledged, and nothing but
what was attempted: only the command a process died over may be in it or not
(`acknowledged_durable`). No restart duplicates, reorders or drops an entry.

Such a record is an observation of the steps that depends on the read alone
(`DependsOnRead`), and that losing writes cannot produce (`Survives`).

The rest is read off the run a lifetime looks like: the tables and the sessions are as sound
as in one process (`lifetime_integrity`), and an account that was registered can be used
after any number of restarts (`accounts_survive`).
-/

namespace SocialNetwork.Server

open SocialNetwork.Lib

variable {hasher : Text → Nat} {serverSocket : Int} {α : Type}

/-! ## Observations of reads -/

/-- A step of the loop that takes the read. -/
def Reading.step (r : Reading) : Step LoopState Event :=
  ⟨{ LoopState.init 0 with app := r.app, clientSocket := fun _ => r.sd }, .recv 0 r.env r.data⟩

/-- `f` sees nothing of a step but its read. -/
def DependsOnRead (f : Step LoopState Event → Option α) : Prop :=
  ∀ x, f x = (readingOf x).bind fun r => f r.step

/-- What `f` sees of a read of which writes were lost it sees of the whole one. -/
def Survives (f : Step LoopState Event → Option α) : Prop :=
  ∀ (r : Reading) lost a,
    f { r with env := r.env.cut lost : Reading }.step = some a → f r.step = some a

/-- What `f` sees of the reads that were answered, newest first. -/
def acknowledged (f : Step LoopState Event → Option α) (h : History LoopState Incident) : List α :=
  (h.filterMap Incident.readingOf).filterMap fun r => if r.2 then none else f r.1.step

/-- What `f` sees of all reads, or would have seen if the process had not died. -/
def attempted (f : Step LoopState Event → Option α) (h : History LoopState Incident) : List α :=
  (h.filterMap Incident.readingOf).filterMap fun r => f r.1.step

/-- `rows`, oldest first, record everything acknowledged and nothing but what was attempted. -/
structure Records (f : Step LoopState Event → Option α) (h : History LoopState Incident)
    (rows : List α) : Prop where
  complete : (acknowledged f h).reverse.Sublist rows
  sound : rows.Sublist (attempted f h).reverse

section

variable {f : Step LoopState Event → Option α}

theorem DependsOnRead.filterMap (hf : DependsOnRead f) (k : History LoopState Event) :
    k.filterMap f = (k.filterMap readingOf).filterMap fun r => f r.step := by
  rw [List.filterMap_filterMap]
  exact List.filterMap_congr fun x _ => hf x

/-- Between two lists of reads of which the second repeats the first. -/
theorem repeats_between (hf : Survives f) {l : List (Reading × Bool)} {m : List Reading}
    (h : List.Forall₂ Reading.Repeats l m) :
    (l.filterMap fun r => if r.2 then none else f r.1.step).Sublist
        (m.filterMap fun r => f r.step) ∧
      (m.filterMap fun r => f r.step).Sublist (l.filterMap fun r => f r.1.step) := by
  induction h with
  | nil => exact ⟨.slnil, .slnil⟩
  | @cons x r l m hx _ ih =>
    obtain ⟨lost, hcut, hsame⟩ := hx
    obtain ⟨r₀, died⟩ := x
    rw [List.filterMap_cons, List.filterMap_cons, List.filterMap_cons]
    cases died with
    | false =>
      rw [hsame rfl]
      dsimp only
      cases hfr : f r₀.step with
      | none => exact ih
      | some a => exact ⟨ih.1.cons_cons a, ih.2.cons_cons a⟩
    | true =>
      dsimp only
      cases hfr : f r.step with
      | none =>
        refine ⟨ih.1, ?_⟩
        cases f r₀.step with
        | none => exact ih.2
        | some a => exact ih.2.cons a
      | some a =>
        -- it is in the file although nobody was told
        rw [hcut] at hfr
        rw [hf r₀ lost a hfr]
        exact ⟨ih.1.cons a, ih.2.cons_cons a⟩

/-- **What holds of the record of a run holds of the record of a lifetime.** -/
theorem Mimics.records {h : History LoopState Incident} {s : LoopState}
    {k : History LoopState Event} {t : LoopState} (hm : Mimics h s k t) (hf : DependsOnRead f)
    (hs : Survives f) {rows : List α} (hrows : rows = (k.filterMap f).reverse) :
    Records f h rows := by
  obtain ⟨hcomplete, hsound⟩ := repeats_between hs hm.reads
  rw [← hf.filterMap] at hcomplete hsound
  rw [hrows]
  exact ⟨hcomplete.reverse, hsound.reverse⟩

end

/-! ## Writes that are lost are not reported -/

section

variable {env : Env} {lost : Stmt → Nat → Bool}

/-- A statement that was not lost does what it does. -/
theorem exec_cut_cases (env : Env) (lost : Stmt → Nat → Bool) (st : Stmt) (i : Nat)
    (effect : Db → Option Db) (db : Db) :
    exec (env.cut lost) st i effect db = exec env st i effect db ∨
      exec (env.cut lost) st i effect db = (false, db) := by
  cases hst : st.writes && lost st i with
  | false =>
    left
    unfold exec
    rw [Env.cut_fails, hst, Bool.false_or]
  | true =>
    rw [Bool.and_eq_true] at hst
    exact Or.inr (exec_cut_lost hst.1 hst.2 effect db)

theorem send_cut (sd : Int) (a : App) (content : Text)
    (h : isOk (SendCommand.execute (env.cut lost) sd a content).1 = true) :
    isOk (SendCommand.execute env sd a content).1 = true := by
  unfold SendCommand.execute Database.sendMessage at h ⊢
  split at h
  · cases h
  next hauth =>
    rw [if_neg hauth]
    dsimp only at h ⊢
    split at h
    · cases h
    next hc =>
      rw [if_neg hc]
      rw [isParticipant_cut] at h
      cases hmem : !Database.isParticipant env 0 a.db (a.sessions.getCurrentConversation sd)
        (a.sessions.getUsername sd) with
      | true =>
        rw [hmem] at h
        cases h
      | false =>
        rw [hmem] at h
        rcases exec_cut_cases env lost .sendMessage 0 (Database.insertMessage
          (a.sessions.getCurrentConversation sd) (a.sessions.getUsername sd) content env.now) a.db
          with hex | hex
        · rw [← hex]
          exact h
        · rw [show (env.cut lost).now = env.now from rfl, hex] at h
          cases h

theorem createPost_cut (sd : Int) (a : App) (visibility : Int) (content : Text)
    (h : isOk (CreatePostCommand.execute (env.cut lost) sd a visibility content).1 = true) :
    isOk (CreatePostCommand.execute env sd a visibility content).1 = true := by
  unfold CreatePostCommand.execute Database.createPost at h ⊢
  split at h
  · cases h
  next hauth =>
    rw [if_neg hauth]
    split at h
    · cases h
    next hcontent =>
      rw [if_neg hcontent]
      by_cases hrange : visibility < 0 ∨ visibility > 2
      · rw [if_pos hrange] at h
        cases h
      · rw [if_neg hrange] at h ⊢
        rcases exec_cut_cases env lost .createPost 0
          (Database.insertPost (a.sessions.getUsername sd) content visibility env.now) a.db
          with hex | hex
        · rw [← hex]
          exact h
        · rw [show (env.cut lost).now = env.now from rfl, hex] at h
          cases h

theorem register_cut (a : App) (u p e role v : Text)
    (h : isOk (RegisterCommand.execute hasher (env.cut lost) a u p e role v).1 = true) :
    isOk (RegisterCommand.execute hasher env a u p e role v).1 = true := by
  unfold RegisterCommand.execute Database.registerUser at h ⊢
  split at h
  · cases h
  next hargs =>
    rw [if_neg hargs]
    split at h
    · cases h
    next hrole =>
      rw [if_neg hrole]
      split at h
      · cases h
      next hvis =>
        rw [if_neg hvis]
        rcases exec_cut_cases env lost .registerUser 0
          (Database.insertUser u (Database.Hashpassword hasher p) e role) a.db with hex | hex
        · rw [← hex]
          revert h
          rcases exec (env.cut lost) .registerUser 0
            (Database.insertUser u (Database.Hashpassword hasher p) e role) a.db with ⟨_ | _, db⟩
          · exact id
          · exact fun _ => rfl
        · rw [hex] at h
          cases h

end

/-! ## The three records -/

/-- An account without its visibility. -/
structure Account where
  userId : Int
  username : Text
  password : Text
  email : Text
  userType : Text

def UserRow.account (r : UserRow) : Account :=
  ⟨r.userId, r.username, r.password, r.email, r.userType⟩

/-- The account a step registers. -/
def registeredBy (hasher : Text → Nat) (x : Step LoopState Event) : Option Account :=
  match commandOf x with
  | some (.register u p e role _) =>
    if repliedOk hasher x then
      some ⟨x.pre.app.db.users.seq + 1, u, Database.Hashpassword hasher p, e, role⟩
    else none
  | _ => none

/-- The message a step sends into `c`. -/
def sentInto (hasher : Text → Nat) (c : Int) (x : Step LoopState Event) : Option Entry :=
  (sentBy hasher x).filter (·.conversationId == c)

@[simp] theorem account_shownRow (shown : Bool) (userId : Int) (v : Text) (r : UserRow) :
    (shownRow shown userId v r).account = r.account := by
  unfold UserRow.account
  simp

theorem accounts_setRows (written : Bool) (base : List UserRow) (row : UserRow) (v : Text) :
    (setRows written base row v).map UserRow.account = base.map UserRow.account := by
  unfold setRows
  rw [List.map_map]
  exact List.map_congr_left fun r _ => account_shownRow ..

/-- **The accounts are the OK `register`s**, oldest first. -/
theorem accounts_run {h : History LoopState Event} {s : LoopState}
    (hr : (machine hasher serverSocket).Run h s) :
    s.app.db.users.rows.map UserRow.account = (h.filterMap (registeredBy hasher)).reverse := by
  induction hr with
  | init => rfl
  | @step h s e _ _ ih =>
    rw [List.filterMap_cons]
    show (next hasher s e).app.db.users.rows.map _ = _
    rcases step_users hasher ⟨s, e⟩ with ⟨hsame, hnone, _⟩ |
      ⟨u, p, email, role, v, written, hcmd, hok, hset⟩ | ⟨row, v, written, hcmd, _, _, hset⟩
    · have hreg : registeredBy hasher ⟨s, e⟩ = none := by
        unfold registeredBy
        split
        next u p email role v hcmd =>
          have := hnone u
          unfold assignedBy at this
          rw [hcmd] at this
          simpa using this
        next => rfl
      rw [hreg, hsame]
      exact ih
    · have hreg : registeredBy hasher ⟨s, e⟩ =
          some (newUser hasher s.app.db.users.seq u p email role).account := by
        unfold registeredBy
        rw [hcmd]
        simp only [hok]
        rfl
      rw [hreg, hset.rows, accounts_setRows, List.map_append, ih, List.reverse_cons]
      rfl
    · have hreg : registeredBy hasher ⟨s, e⟩ = none := by
        unfold registeredBy
        rw [hcmd]
      rw [hreg, hset.rows, accounts_setRows]
      exact ih

/-! ## They depend on the reads and survive -/

theorem registeredBy_reads : DependsOnRead (registeredBy hasher) := by
  rintro ⟨s, e⟩
  cases e with
  | _ => rfl

theorem createdBy_reads : DependsOnRead (createdBy hasher) := by
  rintro ⟨s, e⟩
  cases e with
  | _ => rfl

theorem sentInto_reads (c : Int) : DependsOnRead (sentInto hasher c) := by
  rintro ⟨s, e⟩
  cases e with
  | _ => rfl

/-- The commands whose rows the three tables record. -/
def Command.isRecorded : Command → Bool
  | .register .. | .createPost .. | .send _ => true
  | _ => false

/-- An OK reply although writes were lost is one that nothing lost could have spoiled. -/
theorem repliedOk_of_cut {r : Reading} {lost : Stmt → Nat → Bool} {cmd : Command}
    (hcmd : commandOf r.step = some cmd) (hrecorded : cmd.isRecorded = true)
    (h : repliedOk hasher { r with env := r.env.cut lost : Reading }.step = true) :
    repliedOk hasher r.step = true := by
  have hreply : ∀ env : Env, env.junk = r.env.junk →
      handle hasher env r.sd r.data r.app = execute hasher env r.sd r.app cmd := by
    intro env hjunk
    refine handle_of_some hasher env r.sd r.app ?_
    rw [hjunk]
    exact hcmd
  have h : isOk (handle hasher (r.env.cut lost) r.sd r.data r.app).1 = true := h
  show isOk (handle hasher r.env r.sd r.data r.app).1 = true
  rw [hreply (r.env.cut lost) rfl] at h
  rw [hreply r.env rfl]
  cases cmd with
  | register u p e role v => exact register_cut r.app u p e role v h
  | createPost visibility content => exact createPost_cut r.sd r.app visibility content h
  | send content => exact send_cut r.sd r.app content h
  | _ => cases hrecorded

theorem registeredBy_survives : Survives (registeredBy hasher) := by
  intro r lost a h
  unfold registeredBy at h ⊢
  rw [show commandOf { r with env := r.env.cut lost : Reading }.step = commandOf r.step from rfl]
    at h
  split at h
  next hcmd =>
    split at h
    next hok =>
      rw [if_pos (repliedOk_of_cut hcmd rfl hok)]
      exact h
    next => cases h
  next => cases h

theorem createdBy_survives : Survives (createdBy hasher) := by
  intro r lost a h
  unfold createdBy at h ⊢
  rw [show commandOf { r with env := r.env.cut lost : Reading }.step = commandOf r.step from rfl]
    at h
  split at h
  next hcmd =>
    split at h
    next hok =>
      rw [if_pos (repliedOk_of_cut hcmd rfl hok)]
      exact h
    next => cases h
  next => cases h

theorem sentBy_survives : Survives (sentBy hasher) := by
  intro r lost a h
  unfold sentBy at h ⊢
  rw [show commandOf { r with env := r.env.cut lost : Reading }.step = commandOf r.step from rfl]
    at h
  split at h
  next hcmd =>
    split at h
    next hok =>
      rw [if_pos (repliedOk_of_cut hcmd rfl hok)]
      exact h
    next => cases h
  next => cases h

theorem sentInto_survives (c : Int) : Survives (sentInto hasher c) := by
  intro r lost a h
  obtain ⟨hsent, hc⟩ := Option.filter_eq_some_iff.mp h
  exact Option.filter_eq_some_iff.mpr ⟨sentBy_survives r lost a hsent, hc⟩

/-! ## Over a lifetime -/

/-- **What was acknowledged is durable**, whatever restarts and deaths in the middle of
commands the service has been through: the users, the posts and the messages of each
conversation record all that was answered OK, in that order and each once, and beyond it at
most commands a process died over. -/
theorem acknowledged_durable {h : History LoopState Incident} {s : LoopState}
    (hr : (service hasher serverSocket).Run h s) :
    Records (registeredBy hasher) h (s.app.db.users.rows.map UserRow.account) ∧
      Records (createdBy hasher) h (s.app.db.posts.rows.map Database.readPost) ∧
      ∀ c, Records (sentInto hasher c) h ((messagesOf s.app.db c).map MessageRow.entry) := by
  obtain ⟨k, t, hrun, hm⟩ := lifetime_mimics hr
  rw [← hm.app]
  refine ⟨hm.records registeredBy_reads registeredBy_survives (accounts_run hrun),
    hm.records createdBy_reads createdBy_survives (posts_run hrun).1, fun c =>
    hm.records (sentInto_reads c) (sentInto_survives c) ?_⟩
  rw [messages_run hrun c]
  unfold sendsInto sentInto
  rw [List.filter_filterMap]

instance (hasher : Text → Nat) (serverSocket : Int) :
    ∀ s e, Decidable ((service hasher serverSocket).guard s e)
  | s, .served e => inferInstanceAs (Decidable (admits s e))
  | _, .restarted _ => inferInstanceAs (Decidable True)
  | s, .killed i env data _ _ => inferInstanceAs (Decidable (admits s (.recv i env data)))

/-- Deliver incidents to a service that starts on an empty directory. -/
def runIncidents (hasher : Text → Nat) (serverSocket : Int) (es : List Incident) :
    Option (History LoopState Incident × LoopState) :=
  (service hasher serverSocket).replay es ([], LoopState.boot serverSocket none)

/-- A lifetime can be evaluated. -/
theorem runIncidents_exists (hasher : Text → Nat) (serverSocket : Int) (es : List Incident)
    {p : History LoopState Incident → LoopState → Prop} [∀ h s, Decidable (p h s)]
    (hp : (runIncidents hasher serverSocket es).any (fun r => decide (p r.1 r.2)) = true) :
    ∃ h s, (service hasher serverSocket).Run h s ∧ p h s := by
  obtain ⟨⟨h, s⟩, _, hrun, _, hp⟩ :=
    Machine.Run.replay_exists (Q := fun _ => True) (fun _ _ => trivial) hp
  exact ⟨h, s, hrun, hp⟩

/-- The process dies over a message after its one statement, and over a registration before. -/
def diedOverEvents : List Incident :=
  [.served (.accept 4), .served (.line 0 "register a p a@x normal public\n"),
    .served (.line 0 "login a p\n"), .served (.line 0 "group a\n"),
    .served (.line 0 "send hi\n"), .killed 0 .plain (bytes "send ho\n") 1 3,
    .served (.accept 4), .killed 0 .plain (bytes "register b p b@x normal public\n") 0 3]

theorem acknowledged_durable_died :
    ∃ h s, (service List.length 3).Run h s ∧
      (acknowledged (sentInto List.length 1) h).length = 1 ∧
      ((messagesOf s.app.db 1).map MessageRow.entry).length = 2 ∧
      (attempted (registeredBy List.length) h).length = 2 ∧
      (s.app.db.users.rows.map UserRow.account).length = 1 ∧
      Records (sentInto List.length 1) h ((messagesOf s.app.db 1).map MessageRow.entry) := by
  obtain ⟨h, s, hrun, hone, htwo, htried, hthere⟩ :=
    runIncidents_exists List.length 3 diedOverEvents
      (p := fun h s => (acknowledged (sentInto List.length 1) h).length = 1 ∧
        ((messagesOf s.app.db 1).map MessageRow.entry).length = 2 ∧
        (attempted (registeredBy List.length) h).length = 2 ∧
        (s.app.db.users.rows.map UserRow.account).length = 1) (by decide)
  exact ⟨h, s, hrun, hone, htwo, htried, hthere, (acknowledged_durable hrun).2.2 1⟩

/-! ## What holds in every run -/

/-- **A lifetime is a run as far as any client can tell**: there is a run of one process, never
stopped, that ends with the same tables, sessions and slots, after the same reads of the same
clients in the same states, one for one. A read a process died over appears with some of its
writes failing. -/
theorem lifetime_looks_like_run {h : History LoopState Incident} {s : LoopState}
    (hr : (service hasher serverSocket).Run h s) :
    ∃ k t, (machine hasher 0).Run k t ∧ t.app = s.app ∧ t.clientSocket = s.clientSocket ∧
      List.Forall₂ Reading.Repeats (h.filterMap Incident.readingOf) (k.filterMap readingOf) := by
  obtain ⟨k, t, hrun, hm⟩ := lifetime_mimics hr
  exact ⟨k, t, hrun, hm.app, hm.slots, hm.reads⟩

theorem lifetime_looks_like_run_died :
    ∃ h s k t, (service List.length 3).Run h s ∧ (machine List.length 0).Run k t ∧
      t.app = s.app ∧ s.app.db.users.rows.length = 1 ∧ (h.filterMap Incident.readingOf).length = 6 ∧
      List.Forall₂ Reading.Repeats (h.filterMap Incident.readingOf) (k.filterMap readingOf) := by
  obtain ⟨h, s, hrun, husers, hreads⟩ := runIncidents_exists List.length 3 diedOverEvents
    (p := fun h s => s.app.db.users.rows.length = 1 ∧
      (h.filterMap Incident.readingOf).length = 6) (by decide)
  obtain ⟨k, t, hrun', happ, _, hrepeats⟩ := lifetime_looks_like_run hrun
  exact ⟨h, s, k, t, hrun, hrun', happ, husers, hreads, hrepeats⟩

/-- **References resolve and sessions are registered users' over every lifetime** with fewer
than 2^31 conversations: no death between two statements of a command leaves a row behind that
names nobody. -/
theorem lifetime_integrity {h : History LoopState Incident} {s : LoopState}
    (hr : (service hasher serverSocket).Run h s) (hf : FewConversations s.app.db) :
    ReferentialIntegrity s.app ∧ Named s.app.db := by
  obtain ⟨k, t, hrun, hm⟩ := lifetime_mimics hr
  rw [← hm.app] at hf ⊢
  obtain ⟨hg, hsessions⟩ := grounded_run hrun
  have hn := numbered_run hrun
  have hc := counted_run hrun
  refine ⟨⟨hg.friends, noSelfRows_run hrun, hg.friendTypes, hg.authors, hg.visibilities,
    fun r hr => ⟨hg.participants r hr, ?_⟩, fun m hm => ⟨(hg.senders m hm).1, ?_,
    (hg.senders m hm).2⟩, hsessions⟩, named_run hrun⟩
  · exact (hn.participants r hr).exists hn hc hf
  · exact (hn.messages m hm).exists hn hc hf

theorem lifetime_integrity_died :
    ∃ h s, (service List.length 3).Run h s ∧ s.app.db.messages.rows.length = 2 ∧
      s.app.db.participants.rows.length = 1 ∧ ReferentialIntegrity s.app := by
  obtain ⟨h, s, hrun, hmessages, hparticipants, hone⟩ := runIncidents_exists List.length 3
    diedOverEvents (p := fun _ s => s.app.db.messages.rows.length = 2 ∧
      s.app.db.participants.rows.length = 1 ∧ s.app.db.conversations.rows.length = 1) (by decide)
  have hf : FewConversations s.app.db := by
    unfold FewConversations
    omega
  exact ⟨h, s, hrun, hmessages, hparticipants, (lifetime_integrity hrun hf).1⟩

/-- The step of the loop an incident is, if the process went on. -/
def servedStep (x : Step LoopState Incident) : Option (Step LoopState Event) :=
  match x.event with
  | .served e => some ⟨x.pre, e⟩
  | _ => none

/-- What `f` sees of a step that was served is acknowledged. -/
theorem mem_acknowledged {f : Step LoopState Event → Option α} (hf : DependsOnRead f)
    {h : History LoopState Incident} {y : Step LoopState Event} (hy : y ∈ h.filterMap servedStep)
    {a : α} (ha : f y = some a) : a ∈ acknowledged f h := by
  obtain ⟨⟨s, incident⟩, hx, hserved⟩ := List.mem_filterMap.mp hy
  cases incident with
  | served e =>
    cases hserved
    rw [hf, Option.bind_eq_some_iff] at ha
    obtain ⟨r, hread, ha⟩ := ha
    refine List.mem_filterMap.mpr ⟨(r, false), List.mem_filterMap.mpr ⟨_, hx, ?_⟩, ha⟩
    exact congrArg (Option.map (·, false)) hread
  | restarted => cases hserved
  | killed => cases hserved

/-- **An account outlives every process.** Once a registration was answered OK, its row is in
the table once under its name and once under its email as registered, exactly the passwords
with the stored digest log in, and neither name nor email can be registered again, in every
later state of the lifetime. -/
theorem accounts_survive {h : History LoopState Incident} {s : LoopState}
    (hr : (service hasher serverSocket).Run h s) {y : Step LoopState Event}
    (hy : y ∈ h.filterMap servedStep) {u p email role v : Text}
    (hcmd : commandOf y = some (.register u p email role v)) (hok : repliedOk hasher y = true) :
    Durable hasher s (y.pre.app.db.users.seq + 1) u p email role := by
  obtain ⟨k, t, hrun, hm⟩ := lifetime_mimics hr
  have hrecords := hm.records registeredBy_reads registeredBy_survives (accounts_run hrun)
  have hregistered : registeredBy hasher y =
      some ⟨y.pre.app.db.users.seq + 1, u, Database.Hashpassword hasher p, email, role⟩ := by
    unfold registeredBy
    rw [hcmd]
    simp only [hok]
    rfl
  have hin := hrecords.complete.subset
    (List.mem_reverse.mpr (mem_acknowledged registeredBy_reads hy hregistered))
  rw [hm.app] at hin
  obtain ⟨row, hrow, haccount⟩ := List.mem_map.mp hin
  unfold UserRow.account at haccount
  injection haccount with hid hname hpw hemail htype
  have hne : u ≠ [] := hname ▸ ((named_run hrun) row (hm.app ▸ hrow)).1
  have hrow : (⟨y.pre.app.db.users.seq + 1, u, Database.Hashpassword hasher p, email, role,
      row.profileVisibility⟩ : UserRow) ∈ s.app.db.users.rows := by
    rw [← hid, ← hname, ← hpw, ← hemail, ← htype]
    exact hrow
  exact durable_of_row hne hrow

theorem accounts_survive_died :
    ∃ h s id, (service List.length 3).Run h s ∧ s.app.sessions.sessions 4 = none ∧
      Durable List.length s id (bytes "a") (bytes "p") (bytes "a@x") (bytes "normal") := by
  obtain ⟨h, s, hrun, ⟨y, hy, hcmd, hok⟩, hout⟩ := runIncidents_exists List.length 3 diedOverEvents
    (p := fun h s => (∃ y ∈ h.filterMap servedStep, commandOf y = some (.register (bytes "a")
        (bytes "p") (bytes "a@x") (bytes "normal") (bytes "public")) ∧
        repliedOk List.length y = true) ∧ s.app.sessions.sessions 4 = none) (by decide)
  exact ⟨h, s, _, hrun, hout, accounts_survive hrun hy hcmd hok⟩

end SocialNetwork.Server
