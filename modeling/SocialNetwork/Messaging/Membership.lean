import SocialNetwork.Lib.Rooms
import SocialNetwork.Messaging.OpenConversation

/-!
# Conversations as rooms

The two conversation tables refine the abstract model of rooms: `rooms` reads the
members of every existing conversation off them, `roomEvent` says what a step is for
the rooms (a `chat` or `group` that inserted a conversation creates a room, an OK
`add` is an invitation), and `rooms_run` shows that the tables of every reachable
state are the rooms after the run's events, each of which was possible.

The refinement needs what it says: fewer than 2^31 conversations, since ids are read
into an `int`, and participant inserts that fail on constraint violations only.
-/

namespace SocialNetwork.Server

open SocialNetwork.Lib

variable {hasher : Text → Nat} {serverSocket : Int}

/-- Fewer than 2^31 conversations exist. -/
def FewConversations (db : Db) : Prop := db.conversations.rows.length < 2147483648

/-- The conversation `c` exists. -/
def Exists (db : Db) (c : Int) : Prop := ∃ row ∈ db.conversations.rows, row.conversationId = c

instance (db : Db) (c : Int) : Decidable (Exists db c) :=
  inferInstanceAs (Decidable (∃ row ∈ db.conversations.rows, row.conversationId = c))

/-- The members of every existing conversation. -/
def rooms (db : Db) : Rooms Int Text :=
  fun c => if Exists db c then some { w | Member db c w } else none

/-- The step inserted a row into `conversations`. -/
def insertsConversation (hasher : Text → Nat) (x : Step LoopState Event) : Bool :=
  decide ((next hasher x.pre x.event).app.db.conversations.seq =
    x.pre.app.db.conversations.seq + 1)

/-- What a step does to the rooms. -/
def roomEvent (hasher : Text → Nat) (x : Step LoopState Event) : RoomEvent Int Text :=
  match commandOf x, issuerOf x with
  | some (.chat v), some u =>
    if insertsConversation hasher x then
      .create (x.pre.app.db.conversations.seq + 1) { w | w ∈ [u, v] }
    else .idle
  | some (.group users), some u =>
    if insertsConversation hasher x then
      .create (x.pre.app.db.conversations.seq + 1) { w | w ∈ users ++ [u] }
    else .idle
  | some (.add w), some u =>
    match currentOf x with
    | some c => if repliedOk hasher x then .invite c u w else .idle
    | none => .idle
  | _, _ => .idle

/-! ## Conversations are counted and never removed -/

section

variable {env : Env} {db db' : Db} {issuer : Option Text} {current : Option Int} {cmd : Command}
  {reply : Text}

/-- A command leaves the conversations alone or creates one. -/
theorem Write.conversations (h : Write hasher env db issuer current cmd reply db') :
    db'.conversations = db.conversations ∨ ∃ names id, Created env db names id db' := by
  cases h with
  | chat _ _ _ _ hcreated => exact Or.inr ⟨_, _, hcreated⟩
  | group _ _ hcreated => exact Or.inr ⟨_, _, hcreated⟩
  | _ => exact Or.inl rfl

/-- The largest id is the number of conversations. -/
def Counted (db : Db) : Prop := (db.conversations.rows.length : Int) = db.conversations.seq

theorem Created.counted {names : List Text} {id : Int} (h : Created env db names id db')
    (hc : Counted db) : Counted db' := by
  unfold Counted at hc ⊢
  rw [h.conversations, h.seq_eq, List.length_append, List.length_singleton]
  omega

theorem Created.few {names : List Text} {id : Int} (h : Created env db names id db')
    (hf : FewConversations db') : FewConversations db := by
  unfold FewConversations at hf ⊢
  rw [h.conversations, List.length_append] at hf
  omega

/-- While there are few conversations, a new one gets the id the program reads back. -/
theorem Created.id_eq_next {names : List Text} {id : Int} (h : Created env db names id db')
    (hc : Counted db) (hf : FewConversations db') : id = db.conversations.seq + 1 := by
  have hcount := h.counted hc
  unfold Counted at hcount
  unfold FewConversations at hf
  have hseq := h.seq_eq
  have hnonneg := db.conversations.nonneg
  rw [h.id_eq, narrow_of_fits]
  unfold intMin intMax
  omega

end

theorem counted_run {h : History LoopState Event} {s : LoopState}
    (hr : (machine hasher serverSocket).Run h s) : Counted s.app.db := by
  refine db_invariant (rfl : ((0 : Nat) : Int) = 0) (fun hw hI => ?_) hr
  rcases hw.conversations with hsame | ⟨names, id, hcreated⟩
  · unfold Counted
    rw [hsame]
    exact hI
  · exact hcreated.counted hI

/-- Conversations are never removed. -/
theorem few_of_next {x : Step LoopState Event}
    (hf : FewConversations (next hasher x.pre x.event).app.db) :
    FewConversations x.pre.app.db := by
  revert hf
  refine step_db (I := fun db' => FewConversations db' → FewConversations x.pre.app.db)
    (fun hf => hf) fun hw hf => ?_
  rcases hw.conversations with hsame | ⟨names, id, hcreated⟩
  · unfold FewConversations at hf ⊢
    rw [hsame] at hf
    exact hf
  · exact hcreated.few hf

/-! ## The refinement -/

/-- Every participant is one of an existing conversation. -/
def Resolved (db : Db) : Prop := ∀ r ∈ db.participants.rows, Exists db r.conversationId

section

variable {env : Env} {db db' : Db}

/-- The next id is not in use. -/
theorem not_exists_next (db : Db) : ¬ Exists db (db.conversations.seq + 1) := by
  intro ⟨row, hrow, hid⟩
  exact db.conversations.id_ne_next hrow hid

theorem rooms_of_exists {c : Int} (h : Exists db c) : rooms db c = some { w | Member db c w } :=
  if_pos h

theorem rooms_of_not_exists {c : Int} (h : ¬ Exists db c) : rooms db c = none :=
  if_neg h

/-- A new conversation is the only one that comes to exist. -/
theorem Created.exists_iff {names : List Text} {id : Int} (h : Created env db names id db')
    (c : Int) : Exists db' c ↔ Exists db c ∨ c = db.conversations.seq + 1 := by
  unfold Exists
  rw [h.conversations]
  simp [or_and_right, exists_or, @eq_comm _ c]

/-- An insert creates a room whose members are the given names. -/
theorem Created.rooms {names : List Text} {id : Int} (h : Created env db names id db')
    (hj : env.Joins) (hc : Counted db) (hf : FewConversations db') (hres : Resolved db) :
    rooms db' = Function.update (rooms db) (db.conversations.seq + 1)
      (some { w | w ∈ names }) := by
  have hid := h.id_eq_next hc hf
  funext c
  by_cases hcnew : c = db.conversations.seq + 1
  · subst hcnew
    rw [Function.update_self, rooms_of_exists ((h.exists_iff _).mpr (Or.inr rfl)),
      Option.some.injEq]
    ext w
    constructor
    · intro hm
      rcases h.attached.mem_cases hm with hold | ⟨_, hin⟩
      · -- a participant of the new id before its insert
        exact absurd (hres _ hold) (not_exists_next db)
      · exact hin
    · intro hin
      have := h.attached.all hj w hin
      rwa [hid] at this
  · rw [Function.update_of_ne hcnew]
    have hmember : ∀ w, Member db' c w ↔ Member db c w := by
      intro w
      constructor
      · intro hm
        rcases h.attached.mem_cases hm with hold | ⟨hconv, _⟩
        · exact hold
        · exact absurd (hconv.trans hid) hcnew
      · exact h.attached.mono
    by_cases hex : Exists db c
    · rw [rooms_of_exists hex, rooms_of_exists ((h.exists_iff c).mpr (Or.inl hex))]
      simp only [hmember]
    · rw [rooms_of_not_exists hex, rooms_of_not_exists]
      rw [h.exists_iff]
      exact not_or.mpr ⟨hex, hcnew⟩

/-- An attachment to an existing conversation is an invitation. -/
theorem Attached.rooms {c : Int} {w : Text} {t : Table participantsConstraints}
    (h : Attached env db.participants.rows c [w] t.rows)
    (hmem : (⟨c, w⟩ : ParticipantRow) ∈ t.rows) :
    rooms { db with participants := t } =
      Function.update (rooms db) c ((rooms db c).map (insert w)) := by
  have hmember : ∀ d v, Member { db with participants := t } d v ↔
      Member db d v ∨ (d = c ∧ v = w) := by
    intro d v
    constructor
    · intro hm
      rcases h.mem_cases hm with hold | ⟨hconv, hin⟩
      · exact Or.inl hold
      · exact Or.inr ⟨hconv, List.mem_singleton.mp hin⟩
    · intro hm
      rcases hm with hold | ⟨rfl, rfl⟩
      · exact h.mono hold
      · exact hmem
  funext d
  by_cases hex : Exists db d
  · rw [rooms_of_exists (show Exists { db with participants := t } d from hex)]
    by_cases hdc : d = c
    · subst hdc
      rw [Function.update_self, rooms_of_exists hex, Option.map_some, Option.some.injEq]
      ext v
      rw [Set.mem_insert_iff]
      show Member { db with participants := t } d v ↔ v = w ∨ Member db d v
      rw [hmember, and_iff_right rfl, or_comm]
    · rw [Function.update_of_ne hdc, rooms_of_exists hex]
      simp only [hmember, hdc, false_and, or_false]
  · rw [rooms_of_not_exists (show ¬ Exists { db with participants := t } d from hex)]
    by_cases hdc : d = c
    · subst hdc
      rw [Function.update_self, rooms_of_not_exists hex]
      rfl
    · rw [Function.update_of_ne hdc, rooms_of_not_exists hex]

end

/-! ## Every step is an event of the rooms -/

/-- Without a creation or an addition a step is no event. -/
theorem roomEvent_idle {x : Step LoopState Event} {cmd : Command} (hcmd : commandOf x = some cmd)
    (hins : (next hasher x.pre x.event).app.db.conversations.seq =
      x.pre.app.db.conversations.seq)
    (hadd : repliedOk hasher x = true → ∀ w, cmd ≠ .add w) : roomEvent hasher x = .idle := by
  have hno : insertsConversation hasher x = false := by
    unfold insertsConversation
    rw [hins, decide_eq_false_iff_not]
    omega
  unfold roomEvent
  rw [hcmd]
  cases issuerOf x with
  | none => cases cmd <;> rfl
  | some u =>
    cases cmd with
    | chat v => simp [hno]
    | group users => simp [hno]
    | add w =>
      cases currentOf x with
      | none => rfl
      | some c =>
        cases hok : repliedOk hasher x with
        | false => simp
        | true => exact absurd rfl (hadd hok w)
    | _ => rfl

/-- **One step of the server is one event of the rooms**, possible where it happens. -/
theorem rooms_step {x : Step LoopState Event} (hj : JoinStep x) (hI : Joined x.pre.app)
    (hc : Counted x.pre.app.db) (hres : Resolved x.pre.app.db)
    (hf : FewConversations (next hasher x.pre x.event).app.db) :
    (rooms x.pre.app.db).guard (roomEvent hasher x) ∧
      rooms (next hasher x.pre x.event).app.db =
        (rooms x.pre.app.db).apply (roomEvent hasher x) := by
  rcases step_write hasher x with
    ⟨hnone, _, hdb⟩ | ⟨i, env, data, cmd, reply, he, hcmd, hreply, hw⟩
  · have hidle : roomEvent hasher x = .idle := by
      unfold roomEvent
      rw [hnone]
    rw [hidle, hdb]
    exact ⟨trivial, rfl⟩
  · have hok := repliedOk_of_reply hreply
    have hidle := @roomEvent_idle hasher x cmd hcmd
    have hins : insertsConversation hasher x =
        decide ((next hasher x.pre x.event).app.db.conversations.seq =
          x.pre.app.db.conversations.seq + 1) := rfl
    generalize (next hasher x.pre x.event).app.db = db' at hw hf hidle hins
    cases hw with
    | unchanged hno =>
      rw [hidle rfl fun hyes w hadd => by
        have := hno (hok ▸ hyes)
        rw [hadd] at this
        cases this]
      exact ⟨trivial, rfl⟩
    | @chat u v id _ hs _ _ _ hcreated =>
      have hevent : roomEvent hasher x =
          .create (x.pre.app.db.conversations.seq + 1) { w | w ∈ [u, v] } := by
        unfold roomEvent
        rw [hcmd, hs]
        simp only [hins, hcreated.seq_eq, decide_true, if_true]
      rw [hevent]
      exact ⟨rooms_of_not_exists (not_exists_next _), hcreated.rooms (hj.env he) hc hf hres⟩
    | @group u users id _ _ hs _ hcreated =>
      have hevent : roomEvent hasher x =
          .create (x.pre.app.db.conversations.seq + 1) { w | w ∈ users ++ [u] } := by
        unfold roomEvent
        rw [hcmd, hs]
        simp only [hins, hcreated.seq_eq, decide_true, if_true]
      rw [hevent]
      exact ⟨rooms_of_not_exists (not_exists_next _), hcreated.rooms (hj.env he) hc hf hres⟩
    | @add u w c t hs hcur _ hattached hmem =>
      have hevent : roomEvent hasher x = .invite c u w := by
        unfold roomEvent
        rw [hcmd, hs, hcur, show repliedOk hasher x = true from hok]
        rfl
      -- the host is a member: the open conversation is one of its user's
      obtain ⟨u', hu', hm⟩ := hI (sdOf x) c hcur
      rw [show x.pre.app.sessions.sessions (sdOf x) = some u from hs, Option.some.injEq] at hu'
      subst hu'
      rw [hevent]
      exact ⟨⟨_, rooms_of_exists (hres _ hm), hm⟩, hattached.rooms hmem⟩
    | _ =>
      rw [hidle rfl fun _ _ => by simp]
      exact ⟨trivial, rfl⟩

/-- The participants stay those of existing conversations. -/
theorem resolved_step {x : Step LoopState Event} (hI : Joined x.pre.app)
    (hc : Counted x.pre.app.db) (hres : Resolved x.pre.app.db)
    (hf : FewConversations (next hasher x.pre x.event).app.db) :
    Resolved (next hasher x.pre x.event).app.db := by
  revert hf
  refine step_db (I := fun db' => FewConversations db' → Resolved db') (fun _ => hres)
    fun {env cmd reply db'} hw hf => ?_
  have hcreated : ∀ names id, Created env x.pre.app.db names id db' → Resolved db' := by
    intro names id h r hr
    unfold Exists
    rw [h.conversations]
    rcases h.attached.mem_cases hr with hold | ⟨hconv, _⟩
    · obtain ⟨row, hrow, hid⟩ := hres r hold
      exact ⟨row, List.mem_append_left _ hrow, hid⟩
    · exact ⟨_, List.mem_append_right _ (List.mem_singleton_self _),
        (hconv.trans (h.id_eq_next hc hf)).symm⟩
  cases hw with
  | chat _ _ _ _ h => exact hcreated _ _ h
  | group _ _ h => exact hcreated _ _ h
  | @add u w c t _ hcur _ hattached _ =>
    intro r hr
    rcases hattached.mem_cases hr with hold | ⟨hconv, _⟩
    · exact hres r hold
    · obtain ⟨u', _, hm⟩ := hI (sdOf x) c hcur
      show Exists x.pre.app.db r.conversationId
      rw [hconv]
      exact hres _ hm
  | _ => exact hres

/-- **Refinement**: in every run with few conversations the tables are the rooms after
the events of its steps, and every event was possible. -/
theorem rooms_run {h : History LoopState Event} {s : LoopState}
    (hr : (machine hasher serverSocket).Run h s) (hj : ∀ x ∈ h, JoinStep x)
    (hf : FewConversations s.app.db) :
    Rooms.Valid (h.map (roomEvent hasher)) ∧
      rooms s.app.db = Rooms.after (h.map (roomEvent hasher)) ∧ Resolved s.app.db := by
  revert hf
  refine hr.invariant_history (P := JoinStep) (I := fun h s => FewConversations s.app.db →
    Rooms.Valid (h.map (roomEvent hasher)) ∧
      rooms s.app.db = Rooms.after (h.map (roomEvent hasher)) ∧ Resolved s.app.db) ?_ ?_ hj
  · intro _
    refine ⟨trivial, ?_, fun r hr => by cases hr⟩
    funext c
    exact rooms_of_not_exists fun ⟨row, hrow, _⟩ => by cases hrow
  · intro h s e hr hold ih _ hjoin hf
    obtain ⟨hvalid, hrooms, hres⟩ := ih (few_of_next (x := ⟨s, e⟩) hf)
    have hI := joined_run hr hold
    have hc := counted_run hr
    obtain ⟨hguard, happly⟩ := rooms_step (x := ⟨s, e⟩) hjoin hI hc hres hf
    rw [hrooms] at hguard happly
    exact ⟨⟨hguard, hvalid⟩, happly, resolved_step (x := ⟨s, e⟩) hI hc hres hf⟩

/-! ## Conversations over time -/

/-- Conversations are never removed. -/
theorem exists_next {x : Step LoopState Event} {c : Int} (h : Exists x.pre.app.db c) :
    Exists (next hasher x.pre x.event).app.db c := by
  refine step_db (I := fun db => Exists db c) h fun hw => ?_
  rcases hw.conversations with hsame | ⟨names, id, hcreated⟩
  · unfold Exists
    rw [hsame]
    exact h
  · exact (hcreated.exists_iff c).mpr (Or.inl h)

/-- A conversation that exists at some point of a run exists ever after. -/
theorem exists_later {newer older : History LoopState Event} {s s₀ : LoopState} {c : Int}
    (hr : (machine hasher serverSocket).Run (newer ++ older) s)
    (hr₀ : (machine hasher serverSocket).Run older s₀) (h : Exists s₀.app.db c) :
    Exists s.app.db c := by
  refine Machine.Run.later (P := fun _ => True)
    (R := fun a b : LoopState => Exists a.app.db c → Exists b.app.db c)
    (fun _ h => h) (fun h₁ h₂ h => h₂ (h₁ h)) ?_ hr hr₀ (fun _ _ => trivial) h
  intro s e _ _ h
  exact exists_next (x := ⟨s, e⟩) h

/-- A run has few conversations at every earlier moment. -/
theorem few_earlier {newer older : History LoopState Event} {s s₀ : LoopState}
    (hr : (machine hasher serverSocket).Run (newer ++ older) s)
    (hr₀ : (machine hasher serverSocket).Run older s₀) (hf : FewConversations s.app.db) :
    FewConversations s₀.app.db := by
  refine Machine.Run.later (P := fun _ => True)
    (R := fun a b : LoopState => FewConversations b.app.db → FewConversations a.app.db)
    (fun _ h => h) (fun h₁ h₂ h => h₁ (h₂ h)) ?_ hr hr₀ (fun _ _ => trivial) hf
  intro s e _ _ h
  exact few_of_next (x := ⟨s, e⟩) h

/-- The members of a room are the participants of the conversation. -/
theorem rooms_eq_some {db : Db} {c : Int} {m : Set Text} (h : rooms db c = some m) :
    Exists db c ∧ ∀ w, Member db c w ↔ w ∈ m := by
  unfold rooms at h
  split at h
  next hex =>
    cases h
    exact ⟨hex, fun _ => Iff.rfl⟩
  next => cases h

theorem member_of_inside {db : Db} {c : Int} {w : Text} (h : (rooms db).Inside c w) :
    Member db c w := by
  obtain ⟨m, hm, hin⟩ := h
  exact ((rooms_eq_some hm).2 w).mpr hin

/-- **A conversation gains exactly the users added to it**: between two moments of a run
its participants grow by the guests of the invitations in between. -/
theorem member_later {newer older : History LoopState Event} {s s₀ : LoopState} {c : Int}
    (hr : (machine hasher serverSocket).Run (newer ++ older) s)
    (hr₀ : (machine hasher serverSocket).Run older s₀) (hj : ∀ x ∈ newer ++ older, JoinStep x)
    (hf : FewConversations s.app.db) (hex : Exists s₀.app.db c) (w : Text) :
    Member s.app.db c w ↔ Member s₀.app.db c w ∨
      ∃ z ∈ newer, ∃ host, roomEvent hasher z = .invite c host w := by
  obtain ⟨hvalid, hrooms, _⟩ := rooms_run hr hj hf
  obtain ⟨_, hrooms₀, _⟩ := rooms_run hr₀ (fun x hx => hj x (List.mem_append_right _ hx))
    (few_earlier hr hr₀ hf)
  have hroom : Rooms.after (older.map (roomEvent hasher)) c =
      some { w | Member s₀.app.db c w } := by
    rw [← hrooms₀, rooms_of_exists hex]
  rw [List.map_append] at hvalid hrooms
  have hlater := Rooms.after_append hvalid hroom
  rw [← hrooms] at hlater
  rw [(rooms_eq_some hlater).2 w, Set.mem_union]
  refine or_congr Iff.rfl ⟨?_, ?_⟩
  · intro ⟨host, hin⟩
    obtain ⟨z, hz, hevent⟩ := List.mem_map.mp hin
    exact ⟨z, hz, host, hevent⟩
  · intro ⟨z, hz, host, hevent⟩
    exact ⟨host, List.mem_map.mpr ⟨z, hz, hevent⟩⟩

end SocialNetwork.Server
