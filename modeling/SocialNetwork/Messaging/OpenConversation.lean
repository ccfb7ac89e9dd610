import SocialNetwork.Server.Writes

/-!
# An open conversation belongs to its holder

`show` and `add` never check participation: that they stay within the user's own
conversations rests on the invariant `Joined`, an open conversation is one the
logged-in user of its socket participates in. It holds in every run in which the
inserts of participants fail on constraint violations only (`joined_run`); the
number of conversations plays no part.

From it, `open_conversation_own` states what `show`, `send` and `add` can read and
change.
-/

namespace SocialNetwork.Server

open SocialNetwork.Lib

variable {hasher : Text → Nat} {serverSocket : Int}

/-- `u` participates in the conversation `c`. -/
def Member (db : Db) (c : Int) (u : Text) : Prop :=
  (⟨c, u⟩ : ParticipantRow) ∈ db.participants.rows

instance (db : Db) (c : Int) (u : Text) : Decidable (Member db c u) :=
  inferInstanceAs (Decidable ((⟨c, u⟩ : ParticipantRow) ∈ db.participants.rows))

/-- Every participant has one row. -/
theorem participants_nodup (db : Db) : db.participants.rows.Nodup := by
  refine db.participants.unique.imp ?_
  intro a b hclash heq
  rw [heq] at hclash
  simp [participantsConstraints] at hclash

/-- The participants of a conversation, as stored. -/
def participantsOf (db : Db) (c : Int) : List Text :=
  (db.participants.rows.filter (·.conversationId == c)).map (·.username)

theorem mem_participantsOf {db : Db} {c : Int} {u : Text} :
    u ∈ participantsOf db c ↔ Member db c u := by
  unfold participantsOf
  rw [List.mem_map]
  constructor
  · rintro ⟨r, hr, rfl⟩
    rw [List.mem_filter, beq_iff_eq] at hr
    obtain ⟨hr, rfl⟩ := hr
    exact hr
  · intro hu
    exact ⟨⟨c, u⟩, List.mem_filter.mpr ⟨hu, beq_self_eq_true c⟩, rfl⟩

/-- No participant of a conversation is listed twice. -/
theorem participantsOf_nodup (db : Db) (c : Int) : (participantsOf db c).Nodup := by
  refine List.Nodup.map_on ?_ ((participants_nodup db).filter _)
  intro x hx y hy heq
  rw [List.mem_filter, beq_iff_eq] at hx hy
  obtain ⟨d, w⟩ := x
  obtain ⟨d', w'⟩ := y
  exact congrArg₂ ParticipantRow.mk (hx.2.trans hy.2.symm) heq

/-- Participants are never removed. -/
theorem Write.member_mono {env : Env} {db db' : Db} {issuer : Option Text} {current : Option Int}
    {cmd : Command} {reply : Text} (h : Write hasher env db issuer current cmd reply db')
    {c : Int} {u : Text} (hm : Member db c u) : Member db' c u := by
  cases h with
  | chat _ _ _ _ hcreated => exact hcreated.attached.mono hm
  | group _ _ hcreated => exact hcreated.attached.mono hm
  | add _ _ _ hattached => exact hattached.mono hm
  | _ => exact hm

/-! ## The invariant -/

/-- Every open conversation is one the user logged in on its socket participates in. -/
def Joined (a : App) : Prop :=
  ∀ sd c, a.sessions.currentConversation sd = some c →
    ∃ u, a.sessions.sessions sd = some u ∧ Member a.db c u

/-- What a command opens on its own socket is its user's. -/
theorem Effect.joined_self {env : Env} {sd : Int} {a : App} {cmd : Command} {r : Text × App}
    (h : Effect hasher env sd a cmd r) (hj : env.Joins) (hI : Joined a) {c : Int}
    (hc : r.2.sessions.currentConversation sd = some c) :
    ∃ u, r.2.sessions.sessions sd = some u ∧ Member r.2.db c u := by
  have hw := h.write
  -- where the maps are unchanged, the invariant and the growth of the table suffice
  have hkeep : a.sessions.currentConversation sd = some c →
      r.2.sessions.sessions sd = a.sessions.sessions sd →
      ∃ u, r.2.sessions.sessions sd = some u ∧ Member r.2.db c u := by
    intro hold hsame
    obtain ⟨u, hu, hm⟩ := hI sd c hold
    exact ⟨u, hsame.trans hu, hw.member_mono hm⟩
  cases h with
  | login hfree =>
    obtain ⟨u, hu, _⟩ := hI sd c hc
    rw [hfree] at hu
    cases hu
  | logout =>
    rw [show (a.sessions.logout sd).currentConversation sd = none from
      SessionManager.logout_currentConversation_self ..] at hc
    cases hc
  | @openConversation u c' hs hmem =>
    rw [show (a.sessions.openConversation sd c').currentConversation sd = some c' from
      SessionManager.openConversation_currentConversation_self .., Option.some.injEq] at hc
    subst hc
    exact ⟨u, hs, isParticipant_true hmem⟩
  | @group u users id db hs _ hcreate =>
    rcases createGroupConversation_cases hcreate with ⟨rfl, rfl⟩ | hcreated
    · exact hkeep hc rfl
    · unfold GroupCommand.created at hc hkeep ⊢
      split at hc
      next hid =>
        rw [if_pos hid] at hkeep ⊢
        exact hkeep hc rfl
      next hid =>
        rw [if_neg hid]
        rw [show (a.sessions.openConversation sd id).currentConversation sd = some id from
          SessionManager.openConversation_currentConversation_self .., Option.some.injEq] at hc
        subst hc
        exact ⟨u, hs, hcreated.attached.all hj u (by simp)⟩
  | _ => exact hkeep hc rfl

/-- One command keeps the invariant, on every socket. -/
theorem Effect.joined {env : Env} {sd : Int} {a : App} {cmd : Command} {r : Text × App}
    (h : Effect hasher env sd a cmd r) (hj : env.Joins) (hI : Joined a) : Joined r.2 := by
  intro sd' c hc
  by_cases hsd : sd' = sd
  · subst hsd
    exact h.joined_self hj hI hc
  · obtain ⟨hsession, hcurrent⟩ := h.frame hsd
    rw [hcurrent] at hc
    obtain ⟨u, hu, hm⟩ := hI sd' c hc
    exact ⟨u, hsession.trans hu, h.write.member_mono hm⟩

/-- **The invariant holds in every reachable state.** -/
theorem joined_run {h : History LoopState Event} {s : LoopState}
    (hr : (machine hasher serverSocket).Run h s) (hj : ∀ x ∈ h, JoinStep x) : Joined s.app := by
  refine app_invariant (Q := Env.Joins) (fun _ _ hc => by cases hc) (fun a sd hI => ?_)
    (fun h _ hq hI => h.joined hq hI) hr fun x hx i env data he => (hj x hx).env he
  intro sd' c hc
  obtain ⟨hne, hold⟩ := SessionManager.currentConversation_of_logout hc
  obtain ⟨u, hu, hm⟩ := hI sd' c hold
  exact ⟨u, (SessionManager.logout_sessions_ne hne).trans hu, hm⟩

/-- SQLite does not write the second participant of a conversation. -/
def Env.losing : Env := { Env.plain with fails := fun st i => st == .addParticipant && i == 1 }

/-- A group of `a` with `b` in which the row of `a` is lost: `createGroupConversation` ignores
what becomes of its inserts, and `group` opens the conversation for `a` all the same. So
`joined_run` does not hold without its assumption. -/
def tornGroupEvents : List Event :=
  [.accept 4, .line 0 "register a p a@x normal public\n",
    .line 0 "register b p b@x normal public\n", .line 0 "register c p c@x normal public\n",
    .line 0 "login a p\n", .recv 0 .losing (bytes "group b\n")]

/-! ## What the three commands read -/

/-- `db'` agrees with `db` on the users and on the conversations of `u`. -/
structure AgreesFor (u : Text) (db db' : Db) : Prop where
  users : db'.users = db.users
  seq : db'.messages.seq = db.messages.seq
  messages : ∀ c, Member db c u →
    db'.messages.rows.filter (·.conversationId == c) =
      db.messages.rows.filter (·.conversationId == c)
  participants : ∀ c, Member db c u →
    db'.participants.rows.filter (·.conversationId == c) =
      db.participants.rows.filter (·.conversationId == c)

/-- `show`, `send` and `add`: the commands that act on the open conversation. -/
def Command.onOpen : Command → Bool
  | .show | .send _ | .add _ => true
  | _ => false

section

variable {env : Env} {db db' : Db}

/-- Whether a statement succeeds. -/
theorem exec_fst (env : Env) (st : Stmt) (i : Nat) (effect : Db → Option Db) (db : Db) :
    (exec env st i effect db).1 = (!env.fails st i && (effect db).isSome) := by
  unfold exec
  split
  next hfail => rw [hfail]; rfl
  next hfail =>
    rw [Bool.not_eq_true] at hfail
    rw [hfail]
    split
    next hnone => rw [hnone]; rfl
    next db₁ hsome => rw [hsome]; rfl

/-- The membership test only looks at the rows of its conversation. -/
theorem filter_isMember (rows : List ParticipantRow) (c : Int) (u : Text) :
    rows.filter (Database.isMember c u) =
      (rows.filter (·.conversationId == c)).filter (·.username == u) := by
  rw [List.filter_filter]
  apply List.filter_congr
  intro r _
  unfold Database.isMember
  rw [Bool.and_comm]

theorem isParticipant_congr {c : Int}
    (h : db'.participants.rows.filter (·.conversationId == c) =
      db.participants.rows.filter (·.conversationId == c)) (i : Nat) (w : Text) :
    Database.isParticipant env i db' c w = Database.isParticipant env i db c w := by
  unfold Database.isParticipant
  rw [filter_isMember, filter_isMember, h]

theorem getUserByUsername_congr (h : db'.users = db.users) (i : Nat) (w : Text) :
    Database.getUserByUsername env i db' w = Database.getUserByUsername env i db w := by
  unfold Database.getUserByUsername
  rw [h]

/-- A message is refused by the table only when the row ids are exhausted. -/
theorem insertMessage_isSome (c : Int) (sender content now : Text) (db : Db) :
    (Database.insertMessage c sender content now db).isSome =
      decide (db.messages.seq < maxRowid) := by
  have hfit : db.messages.toTable.Fits ⟨db.messages.seq + 1, c, sender, content, now⟩ := by
    intro r hr
    have := db.messages.id_ne_next hr
    simpa [messagesConstraints] using this
  unfold Database.insertMessage AutoTable.insert
  rw [Option.isSome_map]
  by_cases hseq : db.messages.seq < maxRowid
  · rw [dif_pos ⟨hseq, hfit⟩, decide_eq_true hseq]
    rfl
  · rw [dif_neg fun h => hseq h.1, decide_eq_false hseq]
    rfl

/-- A participant is refused only when the conversation has it already. -/
theorem insertParticipant_isSome (c : Int) (w : Text) (db : Db) :
    (Database.insertParticipant c w db).isSome =
      !(db.participants.rows.filter (·.conversationId == c)).any (·.username == w) := by
  cases hins : Database.insertParticipant c w db with
  | none =>
    have hin := insertParticipant_eq_none hins
    symm
    rw [Option.isSome_none, Bool.not_eq_false', List.any_eq_true]
    exact ⟨⟨c, w⟩, List.mem_filter.mpr ⟨hin, by simp⟩, by simp⟩
  | some db₁ =>
    obtain ⟨t, ht, _⟩ := Option.map_eq_some_iff.mp hins
    have hfit := (Table.insert_eq_some ht).1
    symm
    rw [Option.isSome_some, Bool.not_eq_true', List.any_eq_false]
    intro r hr hname
    rw [List.mem_filter, beq_iff_eq] at hr
    rw [beq_iff_eq] at hname
    have hclash := hfit r hr.1
    simp [participantsConstraints, hr.2, hname] at hclash

theorem sendMessage_fst_congr (env : Env) {c : Int} (u content : Text)
    (hseq : db'.messages.seq = db.messages.seq)
    (h : db'.participants.rows.filter (·.conversationId == c) =
      db.participants.rows.filter (·.conversationId == c)) :
    (Database.sendMessage env db' c u content).1 = (Database.sendMessage env db c u content).1 := by
  unfold Database.sendMessage
  rw [isParticipant_congr h]
  split
  · rfl
  · rw [exec_fst, exec_fst, insertMessage_isSome, insertMessage_isSome, hseq]

theorem addParticipant_fst_congr (env : Env) (i : Nat) {c : Int} (w : Text)
    (h : db'.participants.rows.filter (·.conversationId == c) =
      db.participants.rows.filter (·.conversationId == c)) :
    (Database.addParticipant env i db' c w).1 = (Database.addParticipant env i db c w).1 := by
  unfold Database.addParticipant
  rw [isParticipant_congr h]
  split
  · rfl
  · rw [exec_fst, exec_fst, insertParticipant_isSome, insertParticipant_isSome, h]

end

section

variable {env : Env} {sd : Int} {a : App} {db' : Db}

/-- The reply to `show` depends on the open conversation only. -/
theorem show_reply_congr {c : Int} (hc : a.sessions.getCurrentConversation sd = c)
    (h : c ≠ -1 → db'.messages.rows.filter (·.conversationId == c) =
      a.db.messages.rows.filter (·.conversationId == c)) :
    ShowCommand.execute env sd { a with db := db' } = ShowCommand.execute env sd a := by
  unfold ShowCommand.execute
  by_cases hnone : c = -1
  · simp only [hc, hnone]
    rfl
  · simp only [hc, if_neg hnone, Database.getMessages, h hnone]

/-- The reply to `send` depends on the participants of the open conversation only. -/
theorem send_reply_congr {c : Int} {content : Text}
    (hc : a.sessions.getCurrentConversation sd = c)
    (hseq : db'.messages.seq = a.db.messages.seq)
    (h : c ≠ -1 → db'.participants.rows.filter (·.conversationId == c) =
      a.db.participants.rows.filter (·.conversationId == c)) :
    (SendCommand.execute env sd { a with db := db' } content).1 =
      (SendCommand.execute env sd a content).1 := by
  unfold SendCommand.execute
  split
  · rfl
  · simp only [hc]
    split
    · rfl
    next hne =>
      have hfst := sendMessage_fst_congr env (a.sessions.getUsername sd) content hseq (h hne)
      rcases h₁ : Database.sendMessage env db' c (a.sessions.getUsername sd) content with ⟨ok, db₁⟩
      rcases h₂ : Database.sendMessage env a.db c (a.sessions.getUsername sd) content with
        ⟨ok', db₂⟩
      rw [h₁, h₂] at hfst
      cases hfst
      cases ok <;> rfl

/-- The reply to `add` depends on the users and the participants of the open
conversation only. -/
theorem add_reply_congr {c : Int} {w : Text} (hc : a.sessions.getCurrentConversation sd = c)
    (husers : db'.users = a.db.users)
    (h : c ≠ -1 → db'.participants.rows.filter (·.conversationId == c) =
      a.db.participants.rows.filter (·.conversationId == c)) :
    (AddCommand.execute env sd { a with db := db' } w).1 = (AddCommand.execute env sd a w).1 := by
  unfold AddCommand.execute
  split
  · rfl
  · simp only [hc, getUserByUsername_congr husers]
    split
    · rfl
    next hne =>
      split
      · rfl
      · have hfst := addParticipant_fst_congr env 0 w (h hne)
        rcases h₁ : Database.addParticipant env 0 db' c w with ⟨ok, db₁⟩
        rcases h₂ : Database.addParticipant env 0 a.db c w with ⟨ok', db₂⟩
        rw [h₁, h₂] at hfst
        cases hfst
        cases ok <;> rfl

end

/-! ## What the three commands change -/

/-- Only messages and participants are added, and only to conversations of `u`. -/
structure Confined (u : Text) (db db' : Db) : Prop where
  users : db'.users = db.users
  friends : db'.friends = db.friends
  posts : db'.posts = db.posts
  conversations : db'.conversations = db.conversations
  messages : ∃ new, db'.messages.rows = db.messages.rows ++ new ∧
    ∀ m ∈ new, Member db m.conversationId u
  participants : ∃ new, db'.participants.rows = db.participants.rows ++ new ∧
    ∀ r ∈ new, Member db r.conversationId u

theorem Confined.refl (u : Text) (db : Db) : Confined u db db :=
  ⟨rfl, rfl, rfl, rfl, ⟨[], by simp, by simp⟩, ⟨[], by simp, by simp⟩⟩

/-- `send` and `add` add to the open conversation only, `show` adds nothing. -/
theorem confined_of_write {env : Env} {db db' : Db} {u : Text} {current : Option Int}
    {cmd : Command} {reply : Text} (h : Write hasher env db (some u) current cmd reply db')
    (hcmd : cmd.onOpen = true) (hmember : ∀ c, current = some c → Member db c u) :
    Confined u db db' := by
  cases h with
  | unchanged => exact Confined.refl u db
  | @send u' content c t hs hc _ ht =>
    refine ⟨rfl, rfl, rfl, rfl, ⟨_, ht, fun m hm => ?_⟩, ⟨[], by simp, by simp⟩⟩
    rw [List.mem_singleton.mp hm]
    exact hmember c hc
  | @add u' w c t hs hc _ hattached =>
    obtain ⟨new, hnew, hconv⟩ := hattached.rows
    refine ⟨rfl, rfl, rfl, rfl, ⟨[], by simp, by simp⟩, ⟨new, hnew, fun r hr => ?_⟩⟩
    rw [(hconv r hr).1]
    exact hmember c hc
  | _ => cases hcmd

/-- **An open conversation is always one its holder belongs to.** In every reachable
state the conversation open on a socket has the logged-in user of that socket among
its participants. Hence an execution of `show`, `send` or `add` adds messages and
participants to conversations of its user only, and its reply is the same in every
database that agrees on the users and on the conversations of its user. -/
theorem open_conversation_own {h : History LoopState Event} {s : LoopState}
    (hr : (machine hasher serverSocket).Run h s) (hj : ∀ x ∈ h, JoinStep x) :
    (∀ sd c, s.app.sessions.currentConversation sd = some c →
      ∃ u, s.app.sessions.sessions sd = some u ∧ Member s.app.db c u) ∧
    ∀ (sd : Int) (u : Text) (env : Env) (cmd : Command),
      s.app.sessions.sessions sd = some u → cmd.onOpen = true →
        Confined u s.app.db (execute hasher env sd s.app cmd).2.db ∧
        ∀ db', AgreesFor u s.app.db db' →
          (execute hasher env sd { s.app with db := db' } cmd).1 =
            (execute hasher env sd s.app cmd).1 := by
  have hI := joined_run hr hj
  refine ⟨hI, fun sd u env cmd hs hcmd => ?_⟩
  have hmember : ∀ c, s.app.sessions.currentConversation sd = some c → Member s.app.db c u := by
    intro c hc
    obtain ⟨u', hu', hm⟩ := hI sd c hc
    rw [hs, Option.some.injEq] at hu'
    exact hu' ▸ hm
  have hopen : ∀ c, s.app.sessions.getCurrentConversation sd = c → c ≠ -1 → Member s.app.db c u :=
    fun c hc hne => hmember c (SessionManager.currentConversation_of_ne hc hne)
  constructor
  · have hw := (execute_effect hasher env sd s.app cmd).write
    rw [hs] at hw
    exact confined_of_write hw hcmd hmember
  · intro db' hagree
    cases cmd with
    | «show» => exact show_reply_congr rfl fun hne => hagree.messages _ (hopen _ rfl hne)
    | send content =>
      exact send_reply_congr rfl hagree.seq fun hne => hagree.participants _ (hopen _ rfl hne)
    | add w =>
      exact add_reply_congr rfl hagree.users fun hne => hagree.participants _ (hopen _ rfl hne)
    | _ => cases hcmd

/-- A group is opened by its creator, who then leaves the socket to another user; that
one opens it again. -/
def reopenEvents : List Event :=
  [.accept 4, .line 0 "register a p a@x normal public\n",
    .line 0 "register b p b@x normal public\n", .line 0 "login a p\n", .line 0 "group b\n",
    .line 0 "logout\n", .line 0 "login b p\n", .line 0 "open 1\n"]

theorem open_conversation_own_reopened :
    ∃ r, runEvents List.length 3 reopenEvents = some r ∧
      r.2.app.sessions.currentConversation 4 = some 1 ∧
      ∃ u, r.2.app.sessions.sessions 4 = some u ∧ Member r.2.app.db 1 u := by
  obtain ⟨h, s, hr, hrun, hsound, hopen⟩ := runEvents_exists List.length 3 reopenEvents
    (p := fun _ s => s.app.sessions.currentConversation 4 = some 1)
    (by simp [reopenEvents]) (by decide)
  exact ⟨(h, s), hr, hopen,
    (open_conversation_own hrun fun x hx => (hsound x hx).join).1 4 1 hopen⟩

end SocialNetwork.Server
