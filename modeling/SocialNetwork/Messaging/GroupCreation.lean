import SocialNetwork.Lib.Tokens
import SocialNetwork.Messaging.Company

/-!
# Whom a group attaches

A `group` line names people, in any number and with any repetition. The parser takes all its
words (`create_group`), the validation loop passes if each names a user, and the attachment
loop adds a row for each name that has none yet. So the new conversation has each person
named and the caller once, and nobody else (`group_attaches_named`).
-/

namespace SocialNetwork.Server

open SocialNetwork.Lib

variable {hasher : Text → Nat} {serverSocket : Int}

/-- **What the parser makes of a line that starts with `group`.** -/
theorem create_group {input : Text} {names : List Text} (junk : Int)
    (h : tokens input = bytes "group" :: names) :
    CommandFactory.create junk input = if names.isEmpty then none else some (.group names) := by
  obtain ⟨ss, hword, hleft⟩ := IStream.word_ofText h
  unfold CommandFactory.create
  rw [hword]
  show (if ss.words.isEmpty then none else some (Command.group ss.words)) = _
  rw [IStream.words_eq, hleft]

/-- The conversation `c` is new, has exactly the given people as its participants, each once,
is open on `sd`, and was reported; nothing else is different. -/
structure NewGroup (now : Text) (sd : Int) (people : List Text) (before : App) (c : Int)
    (reply : Text) (after : App) : Prop where
  fresh : ¬ Exists before.db c
  conversations : after.db.conversations.rows = before.db.conversations.rows ++ [⟨c, now⟩]
  people : ((after.db.participants.rows.filter (·.conversationId == c)).map (·.username)).Perm
    people.dedup
  participants : ∃ new, after.db.participants.rows = before.db.participants.rows ++ new ∧
    ∀ r ∈ new, r.conversationId = c
  users : after.db.users = before.db.users
  friends : after.db.friends = before.db.friends
  posts : after.db.posts = before.db.posts
  messages : after.db.messages = before.db.messages
  sessions : after.sessions = before.sessions.openConversation sd c
  reply : reply = bytes "OK Group created. conversation_id = " ++ intText c

/-- The participants of a new conversation are the people named, each once. -/
theorem Created.people {env : Env} {db db' : Db} {names : List Text} {id : Int}
    (h : Created env db names id db') (hj : env.Joins)
    (hfresh : ∀ r ∈ db.participants.rows, r.conversationId ≠ id) :
    ((db'.participants.rows.filter (·.conversationId == id)).map (·.username)).Perm
      names.dedup := by
  change (participantsOf db' id).Perm names.dedup
  rw [List.perm_ext_iff_of_nodup (participantsOf_nodup db' id) (List.nodup_dedup names)]
  intro w
  rw [List.mem_dedup, mem_participantsOf]
  constructor
  · intro hw
    rcases h.attached.mem_cases hw with hold | ⟨_, hin⟩
    · exact (hfresh _ hold rfl).elim
    · exact hin
  · exact h.attached.all hj w

/-- Without failures the loop that checks the names stops at none exactly if all are
registered. -/
theorem unknown_eq_none_iff {env : Env} (he : env.Sound) {a : App} (users : List Text) :
    GroupCommand.unknown env a 0 users = none ↔ ∀ w ∈ users, Registered a.db w :=
  ⟨unknown_eq_none users 0, unknown_of_registered he 0⟩

/-- If it stops at a name, then at one that was given, as the caller is registered. -/
theorem exists_unknown {env : Env} (he : env.Sound) {a : App} {u w : Text} {names : List Text}
    (hu : Registered a.db u) (h : GroupCommand.unknown env a 0 (names ++ [u]) = some w) :
    ∃ w ∈ names, ¬ Registered a.db w := by
  by_contra hno
  have hnone : GroupCommand.unknown env a 0 (names ++ [u]) = none := by
    rw [unknown_eq_none_iff he]
    intro w hw
    rcases List.mem_append.mp hw with hw | hw
    · exact not_not.mp fun hw' => hno ⟨w, hw, hw'⟩
    · exact List.mem_singleton.mp hw ▸ hu
  rw [h] at hnone
  cases hnone

/-- Without failures a list of two creates a conversation while there are few. -/
theorem created_of_few {env : Env} (he : env.Sound) {db db' : Db} {users : List Text} {id : Int}
    (hc : Counted db) (hf : FewConversations db') (hlen : 2 ≤ users.length)
    (h : Database.createGroupConversation env db users = (id, db')) :
    Created env db users id db' := by
  have hfew : FewConversations db := by
    rcases createGroupConversation_cases h with ⟨_, rfl⟩ | hcreated
    · exact hf
    · exact hcreated.few hf
  have hseq : db.conversations.seq < maxRowid := by
    have hmax := exists_of_fewer hc hfew
    unfold intMax at hmax
    unfold maxRowid
    omega
  obtain ⟨id', db'', h', hcreated⟩ := createGroupConversation_created he hlen hseq
  rw [h, Prod.mk.injEq] at h'
  rw [h'.1, h'.2]
  exact hcreated

/-- **A creation under the next id is a new group**, once it is open and reported. -/
theorem Created.newGroup {env : Env} (hj : env.Joins) {a : App} {sd id : Int}
    {people : List Text} {db' : Db} (h : Created env a.db people id db') (hn : Numbered a)
    (hid : id = a.db.conversations.seq + 1) :
    NewGroup env.now sd people a id (GroupCommand.created sd a id db').1
      (GroupCommand.created sd a id db').2 := by
  have hpos := a.db.conversations.nonneg
  have hfresh : ∀ r ∈ a.db.participants.rows, r.conversationId ≠ id := by
    intro r hrow heq
    exact not_issued_next a.db (hid ▸ heq ▸ hn.participants r hrow)
  obtain ⟨new, hnew, hin⟩ := h.attached.rows
  unfold GroupCommand.created
  rw [if_neg (by omega)]
  exact {
    fresh := hid ▸ not_exists_next a.db
    conversations := hid ▸ h.conversations
    people := h.people hj hfresh
    participants := ⟨new, hnew, fun r hr => (hin r hr).1⟩
    users := h.users
    friends := h.friends
    posts := h.posts
    messages := h.messages
    sessions := rfl
    reply := rfl }

/-- **A group attaches exactly the people named.** For every reachable state, every client
logged in as `u` and every line of the word `group` and any nonempty list of words: either
one of them is no registered name, and nothing changes, or a new conversation has each
person named and `u` once. Without failing statements, and with fewer than `2 ^ 31`
conversations. -/
theorem group_attaches_named {h : History LoopState Event} {s : LoopState}
    (hr : (machine hasher serverSocket).Run h s) {env : Env} (he : env.Sound) {sd : Int}
    {data u : Text} {names : List Text} (hs : s.app.sessions.sessions sd = some u)
    (hline : tokens (inputOf data) = bytes "group" :: names) (hne : names ≠ [])
    (hf : FewConversations (handle hasher env sd data s.app).2.db) :
    ((∃ w ∈ names, ¬ Registered s.app.db w) ∧ (handle hasher env sd data s.app).2 = s.app) ∨
      ((∀ w ∈ names, Registered s.app.db w) ∧
        ∃ c, NewGroup env.now sd (names ++ [u]) s.app c (handle hasher env sd data s.app).1
          (handle hasher env sd data s.app).2) := by
  have hu : Registered s.app.db u := (grounded_run hr).2 _ _ hs
  have hcmd : CommandFactory.create env.junk (inputOf data) = some (.group names) := by
    rw [create_group env.junk hline, if_neg (by simpa using hne)]
  obtain ⟨hauth, hname⟩ := SessionManager.sessions_eq_some hs
  rw [handle_of_some hasher env sd s.app hcmd] at hf ⊢
  change FewConversations (GroupCommand.execute env sd s.app names).2.db at hf
  change (_ ∧ (GroupCommand.execute env sd s.app names).2 = s.app) ∨
    (_ ∧ ∃ c, NewGroup env.now sd (names ++ [u]) s.app c
      (GroupCommand.execute env sd s.app names).1 (GroupCommand.execute env sd s.app names).2)
  unfold GroupCommand.execute at hf ⊢
  rw [hauth, hname, if_neg (by decide)] at hf ⊢
  dsimp only at hf ⊢
  cases hunknown : GroupCommand.unknown env s.app 0 (names ++ [u]) with
  | some w => exact Or.inl ⟨exists_unknown he hu hunknown, rfl⟩
  | none =>
    right
    have hall := (unknown_eq_none_iff he _).mp hunknown
    refine ⟨fun w hw => hall w (List.mem_append_left _ hw), ?_⟩
    rw [hunknown] at hf
    dsimp only at hf ⊢
    rcases hcreate : Database.createGroupConversation env s.app.db (names ++ [u]) with ⟨id, db'⟩
    rw [hcreate] at hf
    dsimp only at hf ⊢
    rw [GroupCommand.created_db] at hf
    have hcreated := created_of_few he (counted_run hr) hf (by
      have := List.length_pos_iff.mpr hne
      rw [List.length_append, List.length_singleton]
      omega) hcreate
    have hid := hcreated.id_eq_next (counted_run hr) hf
    exact ⟨id, hcreated.newGroup he.joins (numbered_run hr) hid⟩

/-- Three registered users, the first of them logged in on descriptor 4. -/
def threeUsersEvents : List Event :=
  [.accept 4, .line 0 "register a p a@x normal public\n",
    .line 0 "register b p b@x normal public\n", .line 0 "register c p c@x normal public\n",
    .line 0 "login a p\n"]

theorem group_attaches_named_repeated :
    ∃ h s c, (machine List.length 3).Run h s ∧
      NewGroup Env.plain.now 4 [bytes "b", bytes "a", bytes "c", bytes "b", bytes "a"] s.app c
        (handle List.length Env.plain 4 (bytes "group b  a c\tb\n") s.app).1
        (handle List.length Env.plain 4 (bytes "group b  a c\tb\n") s.app).2 := by
  obtain ⟨h, s, _, hrun, _, hs, hall, hf⟩ := runEvents_exists List.length 3 threeUsersEvents
    (p := fun _ s => s.app.sessions.sessions 4 = some (bytes "a") ∧
      (∀ w ∈ [bytes "b", bytes "a", bytes "c", bytes "b"],
        ∃ row ∈ s.app.db.users.rows, row.username = w) ∧
      (handle List.length Env.plain 4 (bytes "group b  a c\tb\n")
        s.app).2.db.conversations.rows.length < 2147483648)
    (by simp [threeUsersEvents]) (by decide)
  rcases group_attaches_named hrun Env.plain_sound hs
    (by decide : tokens (inputOf (bytes "group b  a c\tb\n")) =
      bytes "group" :: [bytes "b", bytes "a", bytes "c", bytes "b"])
    (List.cons_ne_nil _ _) hf with ⟨⟨w, hw, hno⟩, _⟩ | ⟨_, c, hnew⟩
  · exact (hno (hall w hw)).elim
  · exact ⟨h, s, c, hrun, hnew⟩

end SocialNetwork.Server
