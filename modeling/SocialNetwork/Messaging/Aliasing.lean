import SocialNetwork.Server.Completion
import SocialNetwork.Authority.Overflow

/-!
# Conversation ids that alias

`conversations` counts its rows in 64 bits, and `createConversation` and
`createGroupConversation` keep the row id in an `int`. `OwnRow` says what they are for: they
attach the given users to the row they inserted, to no other, and return its id. They do so
exactly as long as that id fits in an `int` (`conversation_ids_iff`), whatever the tables
hold. Past `INT_MAX` the id reads as another number, first a negative one, which counts as a
failure, and from `2 ^ 32 + 1` on as the ids of the first conversations: their new
participants then get into the old rooms (`ids_alias`).
-/

namespace SocialNetwork.Server

open SocialNetwork.Lib

variable {hasher : Text → Nat} {serverSocket : Int}

/-! ## The two methods -/

/-- What creating a conversation for `names` promises of its result and the database
afterwards: nothing happened, or the row under the next id has the names attached, and the
result is its id. -/
def OwnRow (now : Text) (db : Db) (names : List Text) (r : Int × Db) : Prop :=
  r = (-1, db) ∨
    (r.1 = db.conversations.seq + 1 ∧
      r.2.conversations.rows = db.conversations.rows ++ [⟨db.conversations.seq + 1, now⟩] ∧
      ∀ d w, Member r.2 d w ↔ Member db d w ∨ (d = db.conversations.seq + 1 ∧ w ∈ names))

/-- If the row is inserted, its id fits in an `int`, and each name is attached to that id
already or has an insert that does not fail. -/
def AttachesOwn (env : Env) (db : Db) (names : List Text) : Prop :=
  Inserts env db → db.conversations.seq < intMax ∧
    ∀ w ∈ names, Member db (db.conversations.seq + 1) w ∨
      ∃ i : Nat, names[i]? = some w ∧ env.fails .addParticipant i = false

section

variable {env : Env} {db db' : Db} {names : List Text} {id : Int}

/-- The next id is what an `int` makes of it exactly while it fits. -/
theorem narrow_next_iff (db : Db) :
    narrow (db.conversations.seq + 1) = db.conversations.seq + 1 ↔
      db.conversations.seq < intMax := by
  have hnonneg := db.conversations.nonneg
  rw [narrow_eq_self_iff]
  unfold intMin
  omega

theorem exec_insertConversation_done (hins : Inserts env db) :
    ∃ db₁, Database.insertConversation env.now db = some db₁ ∧
      exec env .insertConversation 0 (Database.insertConversation env.now) db = (true, db₁) := by
  obtain ⟨db₁, hdb₁⟩ := insertConversation_of_lt env.now hins.2
  refine ⟨db₁, hdb₁, ?_⟩
  unfold exec
  rw [hins.1, hdb₁]
  rfl

/-- What a method created, it inserted. -/
theorem Created.inserts (hc : Created env db names id db') {r : Int × Db} (hr : r = (id, db'))
    (hrefused : ¬ Inserts env db → r = (-1, db)) : Inserts env db := by
  by_contra hno
  rw [hrefused hno] at hr
  exact hc.db_ne (congrArg Prod.snd hr).symm

/-- **A conversation that was created is the one reported exactly if its id fits and the
names could be attached.** -/
theorem ownRow_of_created_iff (hins : Inserts env db) (hc : Created env db names id db')
    (hat : Attaches env db names id db') :
    OwnRow env.now db names (id, db') ↔ AttachesOwn env db names := by
  have hfits : id = db.conversations.seq + 1 ↔ db.conversations.seq < intMax := by
    rw [hc.id_eq]
    exact narrow_next_iff db
  constructor
  · rintro (hsame | ⟨hid, _, hmembers⟩) _
    · exact absurd (congrArg Prod.snd hsame) hc.db_ne
    · have hid : id = db.conversations.seq + 1 := hid
      refine ⟨hfits.mp hid, fun w hw => ?_⟩
      have hmem : Member db' (db.conversations.seq + 1) w := (hmembers _ w).mpr (Or.inr ⟨rfl, hw⟩)
      exact ((hat _ w).mp hmem).imp_right And.right
  · intro hown
    obtain ⟨hlt, hall⟩ := hown hins
    have hid := hfits.mpr hlt
    refine Or.inr ⟨hid, hc.conversations, fun d w => ?_⟩
    show Member db' d w ↔ _
    rw [hat d w, hid]
    constructor
    · rintro (hold | ⟨hd, i, hi, _⟩)
      · exact Or.inl hold
      · exact Or.inr ⟨hd, List.mem_of_getElem? hi⟩
    · rintro (hold | ⟨rfl, hw⟩)
      · exact Or.inl hold
      · exact (hall w hw).imp_right fun hi => ⟨rfl, hi⟩

theorem createConversation_ownRow_iff (env : Env) (db : Db) (u v : Text) :
    OwnRow env.now db [u, v] (Database.createConversation env db u v) ↔
      AttachesOwn env db [u, v] := by
  by_cases hins : Inserts env db
  · obtain ⟨db₁, hdb₁, hex⟩ := exec_insertConversation_done hins
    have hcreate : Database.createConversation env db u v =
        (narrow db₁.conversations.seq,
          Database.addParticipants env (narrow db₁.conversations.seq) 0 [u, v] db₁) := by
      unfold Database.createConversation
      rw [hex]
      rfl
    rw [hcreate]
    exact ownRow_of_created_iff hins (created_of_insert _ hdb₁) (attaches_of_insert _ _ hdb₁)
  · rw [createConversation_refused hins]
    exact iff_of_true (Or.inl rfl) fun h => absurd h hins

theorem createGroupConversation_ownRow_iff (env : Env) (db : Db) (users : List Text) :
    OwnRow env.now db users (Database.createGroupConversation env db users) ↔
      users.length < 2 ∨ AttachesOwn env db users := by
  by_cases hins : Inserts env db
  · obtain ⟨db₁, hdb₁, hex⟩ := exec_insertConversation_done hins
    unfold Database.createGroupConversation
    split
    next hfew => exact iff_of_true (Or.inl rfl) (Or.inl hfew)
    next hmany =>
      rw [or_iff_right hmany, hex]
      exact ownRow_of_created_iff hins (created_of_insert _ hdb₁) (attaches_of_insert _ _ hdb₁)
  · rw [createGroupConversation_refused hins]
    exact iff_of_true (Or.inl rfl) (Or.inr fun h => absurd h hins)

end

/-! ## The commands that call them -/

/-- The commands that can create a conversation. -/
def Command.creates : Command → Bool
  | .chat _ | .group _ => true
  | _ => false

/-- A call leaves the members of every conversation there is alone, and one that inserted a
conversation replies OK. -/
structure KeepsRooms (hasher : Text → Nat) (env : Env) (sd : Int) (a : App) (cmd : Command) :
    Prop where
  members : ∀ d, Exists a.db d → ∀ w,
    Member (execute hasher env sd a cmd).2.db d w ↔ Member a.db d w
  reported : (execute hasher env sd a cmd).2.db.conversations.seq ≠ a.db.conversations.seq →
    isOk (execute hasher env sd a cmd).1 = true

section

variable {env : Env} {db db' : Db} {names : List Text} {id : Int}

/-- As long as it fits, the id is the row's. -/
theorem Created.id_eq_own (hc : Created env db names id db')
    (hlt : db.conversations.seq < intMax) : id = db.conversations.seq + 1 :=
  hc.id_eq.trans ((narrow_next_iff db).mpr hlt)

/-- A conversation under its own id takes nobody into another one. -/
theorem Created.member_iff (hc : Created env db names id db')
    (hlt : db.conversations.seq < intMax) {d : Int} (hd : Exists db d) (w : Text) :
    Member db' d w ↔ Member db d w := by
  constructor
  · intro hm
    rcases hc.attached.mem_cases hm with hold | ⟨hconv, _⟩
    · exact hold
    · exact absurd (hc.id_eq_own hlt ▸ hconv ▸ hd) (not_exists_next db)
  · exact hc.attached.mono

variable {sd : Int} {a b : App} {cmd : Command} {reply : Text}

theorem keepsRooms_of_same (hexec : execute hasher env sd a cmd = (reply, b)) (hdb : b.db = a.db) :
    KeepsRooms hasher env sd a cmd := by
  constructor
  · intro d _ w
    rw [hexec]
    show Member b.db d w ↔ _
    rw [hdb]
  · intro hseq
    rw [hexec] at hseq
    exact absurd (by rw [show (reply, b).2.db = b.db from rfl, hdb]) hseq

theorem keepsRooms_of_created (hexec : execute hasher env sd a cmd = (reply, b))
    (hc : Created env a.db names id b.db) (hlt : a.db.conversations.seq < intMax)
    (hok : isOk reply = true) : KeepsRooms hasher env sd a cmd := by
  constructor
  · intro d hd w
    rw [hexec]
    exact hc.member_iff hlt hd w
  · intro _
    rw [hexec]
    exact hok

/-- **As long as the next id fits, no call gets into a conversation there is**, and no insert
is reported as a failure. -/
theorem keepsRooms_of_fits (hasher : Text → Nat) (env : Env) (sd : Int) (a : App)
    {cmd : Command} (hcmd : cmd.creates = true)
    (hfits : Inserts env a.db → a.db.conversations.seq < intMax) :
    KeepsRooms hasher env sd a cmd := by
  have hnonneg := a.db.conversations.nonneg
  have heffect := execute_effect hasher env sd a cmd
  generalize hexec : execute hasher env sd a cmd = r at heffect
  cases heffect with
  | idle _ => exact keepsRooms_of_same hexec rfl
  | chatExists _ _ _ _ => exact keepsRooms_of_same hexec rfl
  | @chat u v id db _ _ _ _ hcreate =>
    rcases createConversation_cases hcreate with ⟨_, rfl⟩ | hc
    · exact keepsRooms_of_same hexec rfl
    · have hlt := hfits (hc.inserts hcreate (createConversation_refused · u v))
      have hid := hc.id_eq_own hlt
      refine keepsRooms_of_created hexec hc hlt ?_
      unfold ChatCommand.created
      rw [if_neg (by omega)]
      rfl
  | @group u users id db _ _ hcreate =>
    rcases createGroupConversation_cases hcreate with ⟨rfl, rfl⟩ | hc
    · exact keepsRooms_of_same hexec rfl
    · have hlt := hfits (hc.inserts hcreate (createGroupConversation_refused · _))
      have hid := hc.id_eq_own hlt
      have hcreated : GroupCommand.created sd a id db =
          (bytes "OK Group created. conversation_id = " ++ intText id,
            { db := db, sessions := a.sessions.openConversation sd id }) := by
        unfold GroupCommand.created
        rw [if_neg (by omega)]
      exact keepsRooms_of_created (hexec.trans hcreated) hc hlt rfl
  | _ => cases hcmd

end

/-- **A new conversation has its own id exactly as long as the id fits in an `int`.** In
every state of the database, with any number of conversations, and whatever statements fail:
each of the two methods attaches its users to the row it inserted, to no other, and returns
that row's id if and only if nothing is inserted, or the row's id is at most `INT_MAX` and for
each user one of the inserts goes through. And while the id fits, no `chat` or `group` adds
anybody to a conversation there is, or reports an insert as a failure. -/
theorem conversation_ids_iff (env : Env) (a : App) :
    (∀ u v, OwnRow env.now a.db [u, v] (Database.createConversation env a.db u v) ↔
      AttachesOwn env a.db [u, v]) ∧
    (∀ users, OwnRow env.now a.db users (Database.createGroupConversation env a.db users) ↔
      users.length < 2 ∨ AttachesOwn env a.db users) ∧
    ∀ (hasher : Text → Nat) (sd : Int) (cmd : Command), cmd.creates = true →
      (Inserts env a.db → a.db.conversations.seq < intMax) → KeepsRooms hasher env sd a cmd :=
  ⟨createConversation_ownRow_iff env a.db, createGroupConversation_ownRow_iff env a.db,
    fun hasher sd _ => keepsRooms_of_fits hasher env sd a⟩

/-- The last id that fits. -/
theorem conversation_ids_iff_last :
    ∃ h s, (machine List.length 3).Run h s ∧ s.app.db.conversations.seq + 1 = intMax ∧
      OwnRow Env.plain.now s.app.db [bytes "a", bytes "b"]
        (Database.createConversation Env.plain s.app.db (bytes "a") (bytes "b")) ∧
      KeepsRooms List.length Env.plain 4 s.app (.chat (bytes "b")) := by
  obtain ⟨h, s, hr, _, hf⟩ := flooded_run 2147483646 (by decide)
  have hseq : s.app.db.conversations.seq = 2147483646 := hf.seq
  have hlt : s.app.db.conversations.seq < intMax := by
    rw [hseq]
    decide
  obtain ⟨hchat, _, hcalls⟩ := conversation_ids_iff Env.plain s.app
  refine ⟨h, s, hr, by rw [hseq]; rfl, (hchat _ _).mpr fun _ => ⟨hlt, fun w hw => Or.inr ?_⟩,
    hcalls _ 4 _ rfl fun _ => hlt⟩
  obtain ⟨i, hi⟩ := List.mem_iff_getElem?.mp hw
  exact ⟨i, hi, rfl⟩

/-! ## The ids come round -/

/-- `n` conversations have been created, the first of them is that of `a` and `b`, who keeps
asking for more on the first slot, and `c` is logged in on the second. -/
structure ComesRound (n : Int) (s : LoopState) : Prop where
  socket : s.clientSocket 0 = 4
  watched : (4 : Int) ∈ s.masterSet
  session : s.app.sessions.sessions 4 = some (bytes "a")
  other : Registered s.app.db (bytes "b")
  session' : s.app.sessions.sessions 5 = some (bytes "c")
  other' : Registered s.app.db (bytes "d")
  seq : s.app.db.conversations.seq = n
  first : ∀ w, Member s.app.db 1 w ↔ w = bytes "a" ∨ w = bytes "b"

namespace ComesRound

variable {n : Int} {s : LoopState}

theorem admits (hc : ComesRound n s) : admits s floodEvent := by
  refine ⟨?_, by decide⟩
  rw [hc.socket]
  exact ⟨by decide, hc.watched⟩

/-- One more chat of `a` and `b` leaves the first as it is. -/
theorem step (hasher : Text → Nat) (hc : ComesRound n s) (hn : n < maxRowid) :
    ComesRound (n + 1) (next hasher s floodEvent) := by
  obtain ⟨db', happ, hcreated⟩ := floodEvent_creates hasher hc.socket hc.session hc.other
    (show s.app.db.conversations.seq < maxRowid by rw [hc.seq]; exact hn)
  refine ⟨hc.socket, hc.watched, ?_, ?_, ?_, ?_, ?_, fun w => ?_⟩
  · rw [happ]
    exact hc.session
  · rw [happ]
    unfold Registered
    rw [show (⟨db', s.app.sessions⟩ : App).db.users = s.app.db.users from hcreated.users]
    exact hc.other
  · rw [happ]
    exact hc.session'
  · rw [happ]
    unfold Registered
    rw [show (⟨db', s.app.sessions⟩ : App).db.users = s.app.db.users from hcreated.users]
    exact hc.other'
  · rw [happ]
    exact hcreated.seq_eq.trans (by rw [hc.seq])
  · rw [happ]
    show Member db' 1 w ↔ _
    constructor
    · intro hm
      rcases hcreated.attached.mem_cases hm with hold | ⟨_, hw⟩
      · exact (hc.first w).mp hold
      · simpa using hw
    · exact fun hw => hcreated.attached.mono ((hc.first w).mpr hw)

end ComesRound

/-- Four users register, two log in, and the first conversation is created. -/
def roundEvents : List Event :=
  [.accept 4, .accept 5, .line 0 "register a p a@x normal public\n",
    .line 0 "register b p b@x normal public\n", .line 0 "register c p c@x normal public\n",
    .line 0 "register d p d@x normal public\n", .line 0 "login a p\n", .line 1 "login c p\n",
    .line 0 "chat b\n"]

theorem comesRound_start :
    ∃ h s, (machine List.length 3).Run h s ∧ (∀ x ∈ h, SoundStep x) ∧ ComesRound 1 s := by
  obtain ⟨h, s, _, hrun, hsound, hsocket, hwatched, hsession, hother, hsession', hother', hseq,
      hrows⟩ :=
    runEvents_exists List.length 3 roundEvents
      (p := fun _ s => s.clientSocket 0 = 4 ∧ (4 : Int) ∈ s.masterSet ∧
        s.app.sessions.sessions 4 = some (bytes "a") ∧ Registered s.app.db (bytes "b") ∧
        s.app.sessions.sessions 5 = some (bytes "c") ∧ Registered s.app.db (bytes "d") ∧
        s.app.db.conversations.seq = 1 ∧
        s.app.db.participants.rows = [⟨1, bytes "a"⟩, ⟨1, bytes "b"⟩])
      (by simp [roundEvents]) (by decide)
  refine ⟨h, s, hrun, hsound, hsocket, hwatched, hsession, hother, hsession', hother', hseq,
    fun w => ?_⟩
  unfold Member
  rw [hrows]
  simp

/-- Some run without failures has created `n` conversations, up to the last row id. -/
theorem comesRound_run (n : Nat) (hn : (n : Int) < maxRowid) :
    ∃ h s, (machine List.length 3).Run h s ∧ (∀ x ∈ h, SoundStep x) ∧
      ComesRound ((n : Int) + 1) s := by
  refine Machine.Run.repeated (I := fun (n : Nat) s => ComesRound ((n : Int) + 1) s) floodEvent
    comesRound_start n fun m hm s hc => ⟨hc.admits, Env.plain_sound, ?_⟩
  exact hc.step List.length (by omega)

/-- **The ids alias**: after `2 ^ 32` conversations the chat of two others gets into the
private conversation of `a` and `b`, and is reported as created. -/
theorem ids_alias :
    ∃ h s, (machine List.length 3).Run h s ∧ (∀ x ∈ h, SoundStep x) ∧
      (∀ w, Member s.app.db 1 w ↔ w = bytes "a" ∨ w = bytes "b") ∧
      ∃ db', execute List.length Env.plain 5 s.app (.chat (bytes "d")) =
          (bytes "OK Private chat created. conversation_id = 1", ⟨db', s.app.sessions⟩) ∧
        Member db' 1 (bytes "c") ∧ Member db' 1 (bytes "d") := by
  obtain ⟨h, s, hr, hsound, hc⟩ := comesRound_run 4294967295 (by decide)
  have hseq : s.app.db.conversations.seq = 4294967296 := hc.seq
  obtain ⟨id, db', hexec, hcreated⟩ := chat_execute Env.plain_sound hc.session' (by decide)
    hc.other' (show s.app.db.conversations.seq < maxRowid by rw [hseq]; decide)
  have hid : id = 1 := by
    rw [hcreated.id_eq, hseq]
    decide
  subst hid
  refine ⟨h, s, hr, hsound, hc.first, db', hexec, ?_, ?_⟩
  · exact hcreated.attached.all Env.plain_sound.joins _ (by simp)
  · exact hcreated.attached.all Env.plain_sound.joins _ (by simp)

/-- New conversations do not always have their own id, not even in the states a run
reaches. -/
theorem ids_not_own :
    ¬ ∀ (hasher : Text → Nat) (serverSocket : Int) (h : History LoopState Event) (s : LoopState)
      (env : Env), (machine hasher serverSocket).Run h s → env.Sound →
        (∀ u v, OwnRow env.now s.app.db [u, v] (Database.createConversation env s.app.db u v)) ∧
        (∀ users,
          OwnRow env.now s.app.db users (Database.createGroupConversation env s.app.db users)) ∧
        ∀ (sd : Int) (cmd : Command), cmd.creates = true →
          KeepsRooms hasher env sd s.app cmd := by
  intro hall
  obtain ⟨h, s, hr, _, hc⟩ := comesRound_run 4294967295 (by decide)
  have hseq : s.app.db.conversations.seq = 4294967296 := hc.seq
  obtain ⟨hown, _⟩ := hall _ 3 h s Env.plain hr Env.plain_sound
  have hattaches := (createConversation_ownRow_iff ..).mp (hown (bytes "c") (bytes "d"))
  have hlt := (hattaches ⟨rfl, by rw [hseq]; decide⟩).1
  rw [hseq] at hlt
  exact absurd hlt (by decide)

end SocialNetwork.Server
