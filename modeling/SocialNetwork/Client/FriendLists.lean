import SocialNetwork.Client.Forms
import SocialNetwork.Friends.FriendType
import SocialNetwork.Lib.Utf8
import SocialNetwork.Server.Feed
import SocialNetwork.Server.Integrity

/-!
# The friend lists, decoded

`loadFriends` and `loadRequests` look for a marker text in a response and read what follows its
first line. No data line is mistaken for a marker, as names are words, so both lists come back
whole (`friends_list`, `requests_list`).

A name then goes into a command. `FriendRequests` sends the bytes it has read, and the parser
gives them back. `MainWindow` keeps the name as a `QString`, and that changes a name that is not
UTF-8 or starts with a byte order mark: `friend_lists_iff` says that a `set_friend_type` is for
the friend who was clicked exactly if the name is neither.
-/

namespace SocialNetwork.Client

open SocialNetwork.Lib SocialNetwork.Server

/-! ## The windows -/

/-- `QString::fromStdString`; a `QString` is a string of characters. -/
def QString.fromStdString (qt : Utf8Decoder) (t : Text) : String := qt.read t

/-- `QString::toStdString`. -/
def QString.toStdString (q : String) : Text := bytes q

/-- An item of `friendsList`, with its `Qt::UserRole`. -/
structure FriendItem where
  label : String
  user : String
  deriving DecidableEq, Repr

/-- `ls >> username >> type`, where `type` is not initialised. -/
def MainWindow.readFriend (junk : Int) (line : Text) : Text × Int :=
  let (username, ls) := (IStream.ofText line).word []
  let (type, _) := ls.int junk
  (username, type)

/-- What `loadFriends` reads from the response; `none` if it shows the notice. -/
def MainWindow.friends (junk : Nat → Int) (response : Text) : Option (List (Text × Int)) :=
  if contains (bytes "No friends") response then none
  else some (((lines response).tail.filter (!·.isEmpty)).mapIdx fun i => readFriend (junk i))

def MainWindow.friendItem (qt : Utf8Decoder) (f : Text × Int) : FriendItem where
  label := (if f.2 = 1 then "💖 " else if f.2 = 2 then "👋 " else "🙂 ") ++
    QString.fromStdString qt f.1
  user := QString.fromStdString qt f.1

/-- The notice is an item too, without a `Qt::UserRole`. -/
def MainWindow.loadFriends (qt : Utf8Decoder) (junk : Nat → Int) (response : Text) :
    List FriendItem :=
  match friends junk response with
  | none => [⟨"(no friends yet)", ""⟩]
  | some fs => fs.map (friendItem qt)

/-- `loadRequests`, after the response: its rows, or `none` for the status `No requests`. -/
def FriendRequests.loadRequests (response : Text) : Option (List Text) :=
  if !contains (bytes "OK") response then none
  else some ((lines response).tail.filter (!·.isEmpty))

/-- What the accept button of a row sends. -/
def FriendRequests.acceptCommand (line : Text) : Text := bytes "accept_friend " ++ line

/-- What `sendType` sends. -/
def FriendType.command (friendUser : String) (type : Int) : Text :=
  bytes "set_friend_type " ++ QString.toStdString friendUser ++ bytes " " ++ intText type

/-! ## Decoding the lists -/

def friendLine (f : Text × Int) : Text := f.1 ++ 32 :: intText f.2

/-- A name without blank and a number do not make the marker. -/
theorem not_infix_friendLine {f : Text × Int} (hname : 32 ∉ f.1) :
    ¬ bytes "No friends" <:+: friendLine f := by
  have hnumber : ∀ {b : UInt8} {t : Text}, b ≠ 45 → isDigit b = false → b ∈ t →
      ¬ t <:+: intText f.2 := by
    intro b t hminus hdigit hb hin
    exact not_mem_intText hminus hdigit f.2 (hin.subset hb)
  -- its blank and the letter after it are enough
  have hpart : [32, 102] <:+: bytes "No friends" := by decide
  intro hin
  have hin := hpart.trans hin
  unfold friendLine at hin
  rw [List.infix_append_iff, List.infix_cons_iff, List.cons_prefix_cons] at hin
  rcases hin with hin | (⟨_, hpre⟩ | hin) | ⟨t, t', heq, hsuf, hpre⟩
  · exact hname (hin.subset (List.mem_cons_self ..))
  · exact hnumber (by decide) (by decide) (List.mem_singleton_self 102) hpre.isInfix
  · exact hnumber (b := 102) (by decide) (by decide) (by simp) hin
  · cases t with
    | nil =>
      rw [List.nil_append] at heq
      rw [← heq, List.cons_prefix_cons] at hpre
      exact hnumber (by decide) (by decide) (List.mem_singleton_self 102) hpre.2.isInfix
    | cons b t =>
      rw [List.cons_append, List.cons.injEq] at heq
      exact hname (hsuf.subset (heq.1 ▸ List.mem_cons_self ..))

/-- **A line is read as it was written.** -/
theorem readFriend_friendLine {f : Text × Int} (hne : f.1 ≠ []) (hw : IsWord f.1)
    (hfits : intMin ≤ f.2 ∧ f.2 ≤ intMax) (junk : Int) :
    MainWindow.readFriend junk (friendLine f) = f := by
  have hspace : f.1.any isSpace = false := by
    rw [List.any_eq_false]
    intro b hb
    rw [(hw b hb).1]
    exact Bool.false_ne_true
  have hint := IStream.int_intText hfits [] (by intro b hb; cases hb) junk
  rw [List.append_nil] at hint
  unfold MainWindow.readFriend friendLine
  rw [IStream.word_append _ _ hne hspace]
  dsimp only
  rw [hint]

theorem friendLine_line {f : Text × Int} (hw : IsWord f.1) :
    friendLine f ≠ [] ∧ 10 ∉ friendLine f := by
  unfold friendLine
  refine ⟨by simp, fun hin => ?_⟩
  rcases List.mem_append.mp hin with hin | hin
  · exact hw.not_mem (by decide) hin
  · rcases List.mem_cons.mp hin with heq | hin
    · cases heq
    · exact not_mem_intText (by decide) (by decide) f.2 hin

theorem friends_reply_eq (fs : List (Text × Int)) :
    (bytes "OK Friends list:\n" ++
      fs.flatMap fun f => f.1 ++ bytes " " ++ intText f.2 ++ bytes "\n") =
        unlines 10 (bytes "OK Friends list:" :: fs.map friendLine) := by
  rw [unlines_cons]
  unfold unlines friendLine
  rw [List.flatMap_map]
  simp only [List.append_assoc]
  rfl

/-- **Lines of names and numbers are read as they are.** -/
theorem friends_lines {fs : List (Text × Int)}
    (hfs : ∀ f ∈ fs, f.1 ≠ [] ∧ IsWord f.1 ∧ intMin ≤ f.2 ∧ f.2 ≤ intMax) (junk : Nat → Int) :
    MainWindow.friends junk (unlines 10 (bytes "OK Friends list:" :: fs.map friendLine)) =
      some fs := by
  have hline : ∀ l ∈ fs.map friendLine, l ≠ [] ∧ 10 ∉ l := by
    intro l hl
    obtain ⟨f, hf, rfl⟩ := List.mem_map.mp hl
    exact friendLine_line (hfs f hf).2.1
  have hmarker : contains (bytes "No friends")
      (unlines 10 (bytes "OK Friends list:" :: fs.map friendLine)) = false := by
    rw [← Bool.not_eq_true, contains_iff, infix_unlines_iff (by decide) (by decide)]
    rintro ⟨l, hl, hin⟩
    rcases List.mem_cons.mp hl with rfl | hl
    · exact absurd hin (by decide)
    · obtain ⟨f, hf, rfl⟩ := List.mem_map.mp hl
      exact not_infix_friendLine ((hfs f hf).2.1.not_mem (by decide)) hin
  unfold MainWindow.friends
  rw [hmarker, if_neg Bool.false_ne_true, lines_unlines_tail (by decide) hline]
  refine congrArg some (List.ext_getElem (by simp) fun i hi hi' => ?_)
  rw [List.getElem_mapIdx, List.getElem_map]
  obtain ⟨hne, hw, hfits⟩ := hfs _ (List.getElem_mem hi')
  exact readFriend_friendLine hne hw hfits _

/-- **Lines of names are read as they are.** -/
theorem loadRequests_lines {ws : List Text} (hws : ∀ w ∈ ws, w ≠ [] ∧ IsWord w) :
    FriendRequests.loadRequests (unlines 10 (bytes "OK Friend requests:" :: ws)) = some ws := by
  have hok : contains (bytes "OK") (unlines 10 (bytes "OK Friend requests:" :: ws)) = true := by
    rw [contains_iff, infix_unlines_iff (by decide) (by decide)]
    exact ⟨_, List.mem_cons_self .., by decide⟩
  unfold FriendRequests.loadRequests
  rw [hok, if_neg (by decide), lines_unlines_tail (by decide)]
  intro w hw
  obtain ⟨hne, hword⟩ := hws w hw
  exact ⟨hne, hword.not_mem (by decide)⟩

section

variable {hasher : Text → Nat} {serverSocket : Int} {h : History LoopState Event} {s : LoopState}
  {env : Env} {sd : Int} {u : Text}

/-- What `getFriends` lists are words and `int`s. -/
theorem getFriends_word (hr : (machine hasher serverSocket).Run h s) {f : Text × Int}
    (hf : f ∈ Database.getFriends env s.app.db u) :
    f.1 ≠ [] ∧ IsWord f.1 ∧ intMin ≤ f.2 ∧ f.2 ≤ intMax := by
  obtain ⟨hne, hw⟩ := (named_run hr).registered ((grounded_run hr).1.friend hf)
  obtain ⟨r, _, rfl⟩ := List.mem_map.mp hf
  exact ⟨hne, hw, narrow_fits _⟩

theorem getFriendRequests_word (hr : (machine hasher serverSocket).Run h s) {w : Text}
    (hw : w ∈ Database.getFriendRequests env s.app.db u) : w ≠ [] ∧ IsWord w :=
  (named_run hr).registered ((grounded_run hr).1.requester hw)

/-- **`loadFriends` reads the friends**, and shows the notice exactly if there are none. -/
theorem friends_list (hr : (machine hasher serverSocket).Run h s)
    (hs : s.app.sessions.sessions sd = some u) (junk : Nat → Int) :
    MainWindow.friends junk (ListFriendsCommand.execute env sd s.app) =
      if (Database.getFriends env s.app.db u).isEmpty then none
      else some (Database.getFriends env s.app.db u) := by
  obtain ⟨hauth, hname⟩ := SessionManager.sessions_eq_some hs
  unfold ListFriendsCommand.execute
  rw [hauth, hname, if_neg (by decide)]
  dsimp only
  split
  next => rfl
  next =>
    rw [friends_reply_eq]
    exact friends_lines (fun f hf => getFriends_word hr hf) junk

/-- **`loadRequests` reads the requests.** -/
theorem requests_list (hr : (machine hasher serverSocket).Run h s)
    (hs : s.app.sessions.sessions sd = some u) :
    FriendRequests.loadRequests (ListFriendRequestsCommand.execute env sd s.app) =
      some (Database.getFriendRequests env s.app.db u) := by
  obtain ⟨hauth, hname⟩ := SessionManager.sessions_eq_some hs
  unfold ListFriendRequestsCommand.execute
  rw [hauth, hname, if_neg (by decide)]
  dsimp only
  split
  next hnil =>
    rw [List.isEmpty_iff.mp hnil]
    decide
  next =>
    have hreply : ∀ ws : List Text, (bytes "OK Friend requests:\n" ++
        ws.flatMap fun r => r ++ bytes "\n") =
          unlines 10 (bytes "OK Friend requests:" :: ws) := by
      intro ws
      rw [unlines_cons]
      rfl
    rw [hreply]
    exact loadRequests_lines fun w hw => getFriendRequests_word hr hw

end

/-! ## The commands -/

section

variable {junk : Int} {w : Text}

/-- **An `accept_friend` comes back as it was built.** -/
theorem create_acceptCommand (hne : w ≠ []) (hw : IsWord w) :
    CommandFactory.create junk (FriendRequests.acceptCommand w) = some (.acceptFriend w) := by
  have htokens : tokens (FriendRequests.acceptCommand w) = [bytes "accept_friend", w] := by
    show tokens (bytes "accept_friend" ++ 32 :: w) = _
    rw [tokens_isWord _ (by decide) (by decide), tokens_lastWord hne hw]
  obtain ⟨ss, hword, hleft⟩ := IStream.word_ofText htokens
  unfold CommandFactory.create
  rw [hword]
  show some (Command.acceptFriend (ss.word []).1) = _
  rw [IStream.word_fst, hleft]
  rfl

/-- The words of a `set_friend_type`. -/
theorem tokens_command (q : String) (t : Int) :
    tokens (FriendType.command q t) =
      bytes "set_friend_type" :: (tokens (QString.toStdString q) ++ [intText t]) := by
  have hcommand : FriendType.command q t =
      bytes "set_friend_type" ++ 32 :: (QString.toStdString q ++ 32 :: intText t) := by
    show bytes "set_friend_type " ++ QString.toStdString q ++ [32] ++ intText t = _
    simp only [List.append_assoc, List.cons_append, List.nil_append]
    rfl
  rw [hcommand, tokens_isWord _ (by decide) (by decide), tokens_append_cons _ _ rfl,
    tokens_intText]

theorem create_command (q : String) (t : Int) :
    CommandFactory.create junk (FriendType.command q t) =
      some (.setFriendType (userArgument (FriendType.command q t))
        (typeArgument junk (FriendType.command q t))) :=
  create_friendType junk (by rw [tokens_command]; rfl)

/-- The name arrives if it survives the `QString`. -/
theorem create_command_kept (qt : Utf8Decoder) (hne : w ≠ []) (hw : IsWord w)
    (hkept : QString.toStdString (QString.fromStdString qt w) = w) {t : Int}
    (ht : intMin ≤ t ∧ t ≤ intMax) :
    CommandFactory.create junk (FriendType.command (QString.fromStdString qt w) t) =
      some (.setFriendType w t) := by
  rw [create_command]
  unfold userArgument typeArgument
  rw [tokens_command, hkept, tokens_lastWord hne hw]
  show some (Command.setFriendType w (numberOf (intText t))) = _
  rw [IStream.numberOf_intText ht]

/-- If not, another one does: what the server takes for the name is UTF-8, and shorter than a
name with a mark. -/
theorem userArgument_ne (qt : Utf8Decoder) (hw : IsWord w) (hlost : IsUtf8 w → mark <+: w)
    (t : Int) : userArgument (FriendType.command (QString.fromStdString qt w) t) ≠ w := by
  have hargument : userArgument (FriendType.command (QString.fromStdString qt w) t) =
      (tokens (bytes (qt.read w)) ++ [intText t]).headD [] := by
    unfold userArgument
    rw [tokens_command]
    rfl
  rw [hargument]
  intro heq
  have hutf8 : IsUtf8 w := by
    rw [← heq]
    cases hwords : tokens (bytes (qt.read w)) with
    | nil => exact isUtf8_intText t
    | cons v vs =>
      have hin : v ∈ tokens (bytes (qt.read w)) := by
        rw [hwords]
        exact List.mem_cons_self ..
      exact (isUtf8_bytes (qt.read w)).of_mem_tokens hin
  obtain ⟨r, rfl⟩ := hlost hutf8
  rw [qt.bytes_read_mark hutf8] at heq
  by_cases hnil : r = []
  · subst hnil
    have hin : 239 ∈ intText t := by
      rw [show intText t = mark from heq]
      decide
    exact not_mem_intText (by decide) (by decide) t hin
  · rw [tokens_word hnil fun b hb => (hw b (List.mem_append_right _ hb)).1] at heq
    have hlen := congrArg List.length heq
    rw [List.singleton_append, List.headD_cons, List.length_append] at hlen
    have : mark.length = 3 := rfl
    omega

end

section

variable {hasher : Text → Nat} {serverSocket : Int} {h : History LoopState Event} {s : LoopState}
  {sd : Int} {u : Text}

/-- **The friend lists round-trip, except for names that a `QString` does not hold.** In every
reachable state the friends and the requests of a user who is logged in are decoded as they
are, and whatever name has been registered, an `accept_friend` for it is parsed back to it. A
`set_friend_type` is parsed back if and only if the name is UTF-8 without a byte order mark at
the start. -/
theorem friend_lists_iff (hr : (machine hasher serverSocket).Run h s)
    (hs : s.app.sessions.sessions sd = some u) (env : Env) (qt : Utf8Decoder) (types : Nat → Int)
    (junk : Int) :
    MainWindow.friends types (ListFriendsCommand.execute env sd s.app) =
        (if (Database.getFriends env s.app.db u).isEmpty then none
          else some (Database.getFriends env s.app.db u)) ∧
      FriendRequests.loadRequests (ListFriendRequestsCommand.execute env sd s.app) =
        some (Database.getFriendRequests env s.app.db u) ∧
      ∀ w, Registered s.app.db w →
        CommandFactory.create junk (FriendRequests.acceptCommand w) = some (.acceptFriend w) ∧
        ∀ t, intMin ≤ t ∧ t ≤ intMax →
          (CommandFactory.create junk (FriendType.command (QString.fromStdString qt w) t) =
              some (.setFriendType w t) ↔ IsUtf8 w ∧ ¬ mark <+: w) := by
  refine ⟨friends_list hr hs types, requests_list hr hs, fun w hreg => ?_⟩
  obtain ⟨hne, hw⟩ := (named_run hr).registered hreg
  refine ⟨create_acceptCommand hne hw, fun t ht => ⟨fun hparsed => ?_, fun hkept => ?_⟩⟩
  · rw [create_command, Option.some.injEq, Command.setFriendType.injEq] at hparsed
    by_contra hnot
    rw [not_and, not_not] at hnot
    exact userArgument_ne qt hw hnot t hparsed.1
  · exact create_command_kept qt hne hw (qt.bytes_read_iff.mpr hkept) ht

/-- A close friend whose name is not ASCII, and a request. -/
def accentEvents : List Event :=
  [.accept 4, .line 0 "register zoë p z@x normal public\n",
    .line 0 "register b p b@x normal public\n", .line 0 "register c p c@x normal public\n",
    .line 0 "login zoë p\n", .line 0 "add_friend b\n", .line 0 "logout\n", .line 0 "login c p\n",
    .line 0 "add_friend b\n", .line 0 "logout\n", .line 0 "login b p\n",
    .line 0 "accept_friend zoë\n", .line 0 "set_friend_type zoë 1\n"]

theorem friend_lists_iff_accent :
    ∃ h s, (machine List.length 3).Run h s ∧
      MainWindow.loadFriends .replacing (fun _ => 7)
        (ListFriendsCommand.execute Env.plain 4 s.app) = [⟨"💖 zoë", "zoë"⟩] ∧
      FriendRequests.loadRequests (ListFriendRequestsCommand.execute Env.plain 4 s.app) =
        some [bytes "c"] ∧
      CommandFactory.create 7 (FriendType.command
        (QString.fromStdString .replacing (bytes "zoë")) 2) =
          some (.setFriendType (bytes "zoë") 2) := by
  obtain ⟨h, s, _, hrun, _, hs, hreg, hfriends, hrequests⟩ :=
    runEvents_exists List.length 3 accentEvents
      (p := fun _ s => s.app.sessions.sessions 4 = some (bytes "b") ∧
        Registered s.app.db (bytes "zoë") ∧
        Database.getFriends Env.plain s.app.db (bytes "b") = [(bytes "zoë", 1)] ∧
        Database.getFriendRequests Env.plain s.app.db (bytes "b") = [bytes "c"])
      (by simp [accentEvents]) (by decide)
  obtain ⟨hlist, hrequested, hcommands⟩ :=
    friend_lists_iff hrun hs Env.plain .replacing (fun _ => 7) 7
  refine ⟨h, s, hrun, ?_, ?_, ?_⟩
  · unfold MainWindow.loadFriends
    rw [hlist, hfriends]
    decide
  · rw [hrequested, hrequests]
  · exact ((hcommands _ hreg).2 2 (by decide)).mpr ⟨isUtf8_bytes _, by decide⟩

/-- A friend whose name is the byte 255, which the server accepts. -/
def byteEvents : List Event :=
  [.accept 4, .recv 0 Env.plain (bytes "register " ++ [255] ++ bytes " p x@x normal public\n"),
    .line 0 "register b p b@x normal public\n", .line 0 "login b p\n",
    .recv 0 Env.plain (bytes "add_friend " ++ [255] ++ bytes "\n"), .line 0 "logout\n",
    .recv 0 Env.plain (bytes "login " ++ [255] ++ bytes " p\n"), .line 0 "accept_friend b\n",
    .line 0 "logout\n", .line 0 "login b p\n"]

/-- **The type of that friend cannot be set**: the command names U+FFFD. -/
theorem friend_renamed :
    ¬ ∀ (hasher : Text → Nat) (serverSocket : Int) (h : History LoopState Event) (s : LoopState)
      (env : Env) (sd : Int) (u : Text) (qt : Utf8Decoder) (junk t : Int),
      (machine hasher serverSocket).Run h s → s.app.sessions.sessions sd = some u →
        0 ≤ t → t ≤ 2 → ∀ f ∈ Database.getFriends env s.app.db u,
          CommandFactory.create junk (FriendType.command (QString.fromStdString qt f.1) t) =
            some (.setFriendType f.1 t) := by
  intro hall
  have hraw : ∀ data, (Event.recv 0 Env.plain data).Sound := fun _ => Env.plain_sound
  obtain ⟨h, s, _, hrun, _, hs, hfriend⟩ := runEvents_exists List.length 3 byteEvents
    (p := fun _ s => s.app.sessions.sessions 4 = some (bytes "b") ∧
      ([255], 0) ∈ Database.getFriends Env.plain s.app.db (bytes "b"))
    (by simp [byteEvents, hraw]) (by decide)
  have hsent := hall _ _ h s _ 4 _ .replacing 7 1 hrun hs (by decide) (by decide) _ hfriend
  have hread : CommandFactory.create 7
      (FriendType.command (QString.fromStdString .replacing [255]) 1) =
        some (.setFriendType (bytes "\uFFFD") 1) := by decide
  rw [hread] at hsent
  exact absurd hsent (by decide)

end

end SocialNetwork.Client
