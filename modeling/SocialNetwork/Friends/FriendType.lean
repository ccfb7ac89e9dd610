import SocialNetwork.Lib.Tokens
import SocialNetwork.Friends.Symmetry

/-!
# Malformed friend types

`set_friend_type` does not look at the state of the stream it extracts its type from. So
the type is whatever number the third word of the line starts with, 0 if it starts with
none, and what the variable held before if there is no third word (`create_friendType`);
`setFriendType` then refuses what is out of range, and nothing else stands in the way.
`friends_unchanged_iff` says exactly which lines leave the table alone.
-/

namespace SocialNetwork.Server

open SocialNetwork.Lib

variable {hasher : Text → Nat} {serverSocket : Int}

/-- The line has the form `set_friend_type <user> <n>` with a decimal integer `n` from 0 to
2. -/
def IsFriendTypeLine (input : Text) : Prop :=
  ∃ user n, tokens input = [bytes "set_friend_type", user, n] ∧ n ≠ [] ∧
    (∀ b ∈ n, isDigit b = true) ∧ digitsValue n ≤ 2

/-- The type such a line sets: the number its third word starts with, or `junk`. -/
def typeArgument (junk : Int) (input : Text) : Int :=
  (((tokens input).drop 2).map numberOf).headD junk

/-- The user it names. -/
def userArgument (input : Text) : Text := ((tokens input).drop 1).headD []

/-- **What the parser makes of a line that starts with `set_friend_type`.** -/
theorem create_friendType {input : Text} (junk : Int)
    (h : (tokens input).head? = some (bytes "set_friend_type")) :
    CommandFactory.create junk input =
      some (.setFriendType (userArgument input) (typeArgument junk input)) := by
  obtain ⟨args, htokens⟩ := List.head?_eq_some_iff.mp h
  obtain ⟨ss, hword, hleft⟩ := IStream.word_ofText htokens
  unfold CommandFactory.create userArgument typeArgument
  rw [hword, htokens]
  show some (Command.setFriendType (ss.word []).1 ((ss.word []).2.int junk).1) = _
  rw [IStream.word_fst, IStream.int_fst, IStream.word_left, hleft, ← List.drop_one]
  rfl

example : typeArgument 7 (bytes "set_friend_type b 1x") = 1 := by decide
example : typeArgument 7 (bytes "set_friend_type b close") = 0 := by decide
example : typeArgument 7 (bytes "set_friend_type b 99999999999") = intMax := by decide
example : typeArgument 7 (bytes "set_friend_type b ") = 7 := by decide

section

variable {env : Env} {db : Db} {u v : Text} {type : Int}

/-- A query that does not fail finds an accepted row exactly if there is one. -/
theorem areFriends_done (h : env.fails .areFriends 0 = false) :
    Database.areFriends env db u v = true ↔ Accepted db u v := by
  constructor
  · exact areFriends_true
  · rintro ⟨r, hr, hpair, hone⟩
    unfold Database.areFriends
    rw [select_done h, Bool.not_eq_true', List.isEmpty_eq_false_iff, Ne, arrange_eq_nil,
      List.filter_eq_nil_iff]
    exact fun hnone => hnone r hr (by rw [hpair, hone]; rfl)

theorem areFriends_fails (h : env.fails .areFriends 0 = true) :
    Database.areFriends env db u v = false := by
  unfold Database.areFriends select
  rw [h]
  rfl

/-- A change of type changes nothing exactly if the accepted row of the pair, if any, has
that type. -/
theorem map_typeRow_eq_iff {rows : List FriendRow} :
    rows.map (typeRow u v type) = rows ↔
      ∀ r ∈ rows, Database.isPair u v r = true → r.status = 1 → r.friendType = type := by
  conv_lhs => rhs; rw [← List.map_id rows]
  rw [List.map_inj_left]
  refine forall₂_congr fun r _ => ⟨fun heq hpair hone => ?_, fun hsame => ?_⟩
  · have htype := typeRow_friendType u v r type
    rw [heq, if_pos (by rw [hpair, hone]; rfl)] at htype
    exact htype
  · unfold typeRow Table.rewrite
    split
    next hboth =>
      rw [Bool.and_eq_true, beq_iff_eq] at hboth
      rw [← hsame hboth.1 hboth.2]
      rfl
    next => rfl

/-- **What `setFriendType` does to the table.** -/
theorem setFriendType_rows (env : Env) (db : Db) (u v : Text) (type : Int) :
    (Database.setFriendType env db u v type).2.friends.rows =
      if 0 ≤ type ∧ type ≤ 2 ∧ Database.areFriends env db u v = true ∧
        env.fails .setFriendType 0 = false
      then db.friends.rows.map (typeRow u v type) else db.friends.rows := by
  unfold Database.setFriendType
  split
  next hout =>
    rw [if_neg]
    omega
  next hin =>
    split
    next hno =>
      rw [if_neg]
      rintro ⟨_, _, hyes, _⟩
      rw [hyes] at hno
      cases hno
    next hyes =>
      rw [Bool.not_eq_true', Bool.not_eq_false] at hyes
      rw [exec_update]
      cases hfail : env.fails .setFriendType 0 with
      | true => rw [if_pos rfl, if_neg (by simp)]
      | false =>
        rw [if_neg Bool.false_ne_true, if_pos ⟨by omega, by omega, hyes, rfl⟩]
        rfl

end

/-- **When a `set_friend_type` changes nothing.** For every state, every client logged in as
`u` and every line that starts with `set_friend_type`, well formed or not, and whatever the
uninitialised variable holds: the friends table is unchanged if and only if the number taken
for the type is out of range, or `u` has no accepted row for the user named, or it has that
type already, or one of the two statements fails. -/
theorem friends_unchanged_iff (hasher : Text → Nat) (env : Env) {sd : Int} {data : Text} {a : App}
    {u : Text} (hs : a.sessions.sessions sd = some u)
    (hline : (tokens (inputOf data)).head? = some (bytes "set_friend_type")) :
    (handle hasher env sd data a).2.db.friends.rows = a.db.friends.rows ↔
      ¬ (0 ≤ typeArgument env.junk (inputOf data) ∧ typeArgument env.junk (inputOf data) ≤ 2) ∨
      (∀ r ∈ a.db.friends.rows, Database.isPair u (userArgument (inputOf data)) r = true →
        r.status = 1 → r.friendType = typeArgument env.junk (inputOf data)) ∨
      env.fails .areFriends 0 = true ∨ env.fails .setFriendType 0 = true := by
  obtain ⟨hauth, hname⟩ := SessionManager.sessions_eq_some hs
  rw [handle_of_some hasher env sd a (create_friendType env.junk hline)]
  generalize typeArgument env.junk (inputOf data) = type
  generalize userArgument (inputOf data) = v
  have hrows : (execute hasher env sd a (.setFriendType v type)).2.db.friends.rows =
      (Database.setFriendType env a.db u v type).2.friends.rows := by
    show (SetFriendTypeCommand.execute env sd a v type).2.db.friends.rows = _
    unfold SetFriendTypeCommand.execute
    rw [hauth, hname, if_neg (by decide)]
    rcases Database.setFriendType env a.db u v type with ⟨_ | _, db⟩ <;> rfl
  rw [hrows, setFriendType_rows]
  split
  next hdone =>
    obtain ⟨hlow, hhigh, hfriends, hset⟩ := hdone
    have hfound : env.fails .areFriends 0 = false := by
      rw [← Bool.not_eq_true]
      intro hfail
      rw [areFriends_fails hfail] at hfriends
      cases hfriends
    rw [map_typeRow_eq_iff, hset, hfound]
    simp [hlow, hhigh]
  next hnot =>
    refine iff_of_true rfl ?_
    by_contra hno
    rw [not_or, not_or, not_or, not_not] at hno
    obtain ⟨hrange, hrow, hfound, hset⟩ := hno
    rw [Bool.not_eq_true] at hfound hset
    refine hnot ⟨hrange.1, hrange.2, (areFriends_done hfound).mpr ?_, hset⟩
    by_contra hnone
    exact hrow fun r hr hpair hone => (hnone ⟨r, hr, hpair, hone⟩).elim

/-- Two friends, the first of them logged in on descriptor 4. -/
def friendsEvents : List Event :=
  [.accept 4, .line 0 "register a p a@x normal public\n",
    .line 0 "register b p b@x normal public\n", .line 0 "login b p\n",
    .line 0 "add_friend a\n", .line 0 "logout\n", .line 0 "login a p\n",
    .line 0 "accept_friend b\n"]

theorem friends_unchanged_iff_missing :
    ∃ h s, (machine List.length 3).Run h s ∧
      (tokens (inputOf (bytes "set_friend_type b\n"))) = [bytes "set_friend_type", bytes "b"] ∧
      (handle List.length { Env.plain with junk := 3 } 4 (bytes "set_friend_type b\n")
        s.app).2.db.friends.rows = s.app.db.friends.rows := by
  obtain ⟨h, s, _, hrun, _, hs⟩ := runEvents_exists List.length 3 friendsEvents
    (p := fun _ s => s.app.sessions.sessions 4 = some (bytes "a"))
    (by simp [friendsEvents]) (by decide)
  exact ⟨h, s, hrun, by decide, (friends_unchanged_iff List.length { Env.plain with junk := 3 } hs
    (by decide)).mpr (Or.inl (by decide))⟩

/-- **A malformed friend type changes the table**: without a third word the type is what the
variable happened to hold. -/
theorem malformed_type_set :
    ¬ ∀ (hasher : Text → Nat) (serverSocket : Int) (h : History LoopState Event) (s : LoopState)
      (env : Env) (sd : Int) (u data : Text),
      (machine hasher serverSocket).Run h s → s.app.sessions.sessions sd = some u →
        (tokens (inputOf data)).head? = some (bytes "set_friend_type") →
          ¬ IsFriendTypeLine (inputOf data) →
            (handle hasher env sd data s.app).2.db.friends.rows = s.app.db.friends.rows := by
  intro hall
  obtain ⟨h, s, _, hrun, _, hs, hchanged⟩ := runEvents_exists List.length 3 friendsEvents
    (p := fun _ s => s.app.sessions.sessions 4 = some (bytes "a") ∧
      (handle List.length { Env.plain with junk := 1 } 4 (bytes "set_friend_type b\n")
        s.app).2.db.friends.rows ≠ s.app.db.friends.rows)
    (by simp [friendsEvents]) (by decide)
  refine hchanged (hall _ _ h s _ 4 _ _ hrun hs (by decide) ?_)
  rintro ⟨user, n, htokens, _⟩
  have hlen : (tokens (inputOf (bytes "set_friend_type b\n"))).length = 2 := by decide
  rw [htokens] at hlen
  cases hlen

end SocialNetwork.Server
