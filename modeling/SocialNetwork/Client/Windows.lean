import SocialNetwork.Client.FeedWindows
import SocialNetwork.Client.FriendLists
import SocialNetwork.Client.Language
import SocialNetwork.Client.Pairing
import SocialNetwork.Client.Selection
import SocialNetwork.Server.Chronology
import SocialNetwork.Server.Replies

/-!
# The windows and the session behind them

The Qt client has one connection, and one of four windows on the screen: `LoginWindow`,
`RegisterWindow`, `GuestPostsWindow` or a `MainWindow` that greets somebody. Whom the server takes
the client for is decided at the other end. `screenMachine` takes the two together: the user goes
from window to window, the windows make their calls, and the server works for others in between.

`window_follows_session` says that they agree at every moment: nobody is logged in unless a main
window is on the screen, and then it is the user it greets. So what the guest window shows is for
everybody (`guest_shows_public`).

Mirroring notes:
- A window that was closed is hidden, not destroyed: the timer of an old main window goes on. So
  the calls of the other widgets (`WidgetCall`) may come at any time.
- A call is taken in one piece: the command fits one read of the server and its response one
  `recv` (`Link.Prompt`).
-/

namespace SocialNetwork.Client

open SocialNetwork.Lib SocialNetwork.Server

variable {hasher : Text → Nat} {serverSocket : Int} {i : Slot}

/-! ## The machine -/

/-- The window on the screen, with what it shows of the server. -/
inductive Window
  | login
  | register
  | guest (postsList : FeedView)
  | main (currentUser : Text)
  deriving DecidableEq

def Window.isGuest : Window → Bool
  | .guest _ => true
  | _ => false

def Window.isMain : Window → Bool
  | .main _ => true
  | _ => false

structure Screen where
  link : Link
  window : Window

/-- The calls of the other widgets: the main window's timer, and the windows and dialogs it
opens. -/
inductive WidgetCall
  | listFriends
  | listPosts
  | listFriendRequests
  | addFriend (username : Text)
  | acceptFriend (line : Text)
  | friendType (friendUser : String) (type : Int)
  | createPost (vis : Int) (content : Text)
  | messages (c : Call)

def WidgetCall.command : WidgetCall → Text
  | .listFriends => bytes "list_friends"
  | .listPosts => bytes "list_posts"
  | .listFriendRequests => bytes "list_friend_requests"
  | .addFriend username => bytes "add_friend " ++ username
  | .acceptFriend line => FriendRequests.acceptCommand line
  | .friendType friendUser type => FriendType.command friendUser type
  | .createPost vis content => CreatePost.command vis content
  | .messages c => c.command

/-- `sendCommand`, with the server's work in the middle. -/
def Link.call (hasher : Text → Nat) (k : Link) (i : Slot) (env : Env) (cmd : Text) : Link × Text :=
  let k := (k.send cmd).read hasher i env (fullCmd cmd).length
  (k.receive k.down.length, k.received k.down.length)

/-- The call goes through in one piece. -/
structure Link.Prompt (hasher : Text → Nat) (k : Link) (i : Slot) (env : Env) (cmd : Text) :
    Prop where
  up : k.up = []
  down : k.down = []
  read : Server.admits k.server (.recv i env (fullCmd cmd))
  response : (handle hasher env (k.sd i) (fullCmd cmd) k.server.app).1.length ≤ recvSize

instance (hasher : Text → Nat) (k : Link) (i : Slot) (env : Env) (cmd : Text) :
    Decidable (k.Prompt hasher i env cmd) :=
  decidable_of_iff (k.up = [] ∧ k.down = [] ∧ Server.admits k.server (.recv i env (fullCmd cmd)) ∧
      (handle hasher env (k.sd i) (fullCmd cmd) k.server.app).1.length ≤ recvSize)
    ⟨fun h => ⟨h.1, h.2.1, h.2.2.1, h.2.2.2⟩, fun h => ⟨h.up, h.down, h.read, h.response⟩⟩

inductive ScreenEvent
  /-- `loginButton` -/
  | login (f : LoginForm) (env : Env)
  /-- `registerLink` -/
  | registerLink
  /-- `viewPostsBtn` -/
  | viewPosts (env : Env)
  /-- `backButton` of the guest window -/
  | back
  /-- `registerButton` -/
  | register (f : RegisterForm) (env : Env)
  /-- `logoutButton` -/
  | logout (env : Env)
  | widget (w : WidgetCall) (env : Env)
  /-- The server does something else. -/
  | server (e : Event)

def Screen.admits (hasher : Text → Nat) (i : Slot) (d : Screen) : ScreenEvent → Prop
  | .login f env => d.window = .login ∧ d.link.Prompt hasher i env (LoginWindow.command f)
  | .registerLink => d.window = .login
  | .viewPosts env => d.window = .login ∧ d.link.Prompt hasher i env (bytes "list_posts")
  | .back => d.window.isGuest = true
  | .register f env => d.window = .register ∧ d.link.Prompt hasher i env (RegisterWindow.command f)
  | .logout env => d.window.isMain = true ∧ d.link.Prompt hasher i env (bytes "logout")
  | .widget w env => d.link.Prompt hasher i env w.command
  | .server e => slotOf e ≠ some i ∧ Server.admits d.link.server e

instance (hasher : Text → Nat) (i : Slot) :
    ∀ (d : Screen) (e : ScreenEvent), Decidable (d.admits hasher i e)
  | _, .login _ _ => inferInstanceAs (Decidable (_ ∧ _))
  | d, .registerLink => inferInstanceAs (Decidable (d.window = .login))
  | _, .viewPosts _ => inferInstanceAs (Decidable (_ ∧ _))
  | d, .back => inferInstanceAs (Decidable (d.window.isGuest = true))
  | _, .register _ _ => inferInstanceAs (Decidable (_ ∧ _))
  | _, .logout _ => inferInstanceAs (Decidable (_ ∧ _))
  | _, .widget _ _ => inferInstanceAs (Decidable (Link.Prompt ..))
  | _, .server _ => inferInstanceAs (Decidable (_ ∧ _))

def Screen.next (hasher : Text → Nat) (i : Slot) (d : Screen) : ScreenEvent → Screen
  | .login f env =>
    let (link, response) := d.link.call hasher i env (LoginWindow.command f)
    ⟨link, if contains (bytes "OK") response then .main f.username else d.window⟩
  | .registerLink => { d with window := .register }
  | .viewPosts env =>
    -- the constructor of the guest window loads the posts
    let (link, response) := d.link.call hasher i env (bytes "list_posts")
    ⟨link, .guest (GuestPostsWindow.loadPublicPosts response)⟩
  | .back => { d with window := .login }
  | .register f env =>
    let (link, response) := d.link.call hasher i env (RegisterWindow.command f)
    ⟨link, if contains (bytes "OK") response then .login else d.window⟩
  | .logout env =>
    -- the response is not looked at
    ⟨(d.link.call hasher i env (bytes "logout")).1, .login⟩
  | .widget w env => { d with link := (d.link.call hasher i env w.command).1 }
  | .server e => { d with link := d.link.elsewhere hasher e }

/-- The client from its first window on, when the server is in the state `server`. -/
def screenMachine (hasher : Text → Nat) (i : Slot) (server : LoopState) :
    Machine Screen ScreenEvent where
  init := ⟨⟨server, true, [], []⟩, .login⟩
  guard := Screen.admits hasher i
  next := Screen.next hasher i

instance (hasher : Text → Nat) (i : Slot) (server : LoopState) :
    ∀ d e, Decidable ((screenMachine hasher i server).guard d e) :=
  fun d e => inferInstanceAs (Decidable (d.admits hasher i e))

/-! ## One call -/

/-- A call in one piece is one read of the server. -/
theorem Link.Prompt.call_eq {k : Link} {env : Env} {cmd : Text}
    (h : k.Prompt hasher i env cmd) :
    k.call hasher i env cmd =
      ({ k with server := next hasher k.server (.recv i env (fullCmd cmd)) },
        bufferText (handle hasher env (k.sd i) (fullCmd cmd) k.server.app).1) := by
  obtain ⟨server, connected, up, down⟩ := k
  obtain ⟨hup, hdown, _, _⟩ := h
  have hup : up = [] := hup
  have hdown : down = [] := hdown
  subst hup hdown
  unfold Link.call Link.read Link.readEvent Link.response Link.receive Link.received Link.send
  simp only [List.nil_append, List.take_length, List.drop_length]
  rfl

section

variable {junk : Int} {input keyword : Text} {ws : List Text} {cmd : Command}

/-- Only `login` and `logout` make session commands. -/
theorem create_not_session (h : CommandFactory.create junk input = some cmd)
    (htokens : tokens input = keyword :: ws) (hin : keyword ≠ bytes "login")
    (hout : keyword ≠ bytes "logout") : cmd.isSession = false := by
  obtain ⟨ss, hword, _⟩ := IStream.word_ofText htokens
  have hmakes := create_makes h
  rw [hword] at hmakes
  cases hmakes with
  | login => exact absurd rfl hin
  | logout => exact absurd rfl hout
  | _ => rfl

theorem isInner_of_isWord {w : Text} (hw : IsWord w) : ∀ b ∈ w, isInner b = true := by
  intro b hb
  obtain ⟨hspace, h0⟩ := hw b hb
  refine isInner_iff.mpr ⟨h0, ?_, ?_⟩
  · rintro rfl
    cases hspace
  · rintro rfl
    cases hspace

/-- The words in front of a blank arrive, whatever comes after it. -/
theorem inputOf_words {pre : Text} (hpre : ∀ b ∈ pre, isInner b = true) (rest : Text) :
    ∃ rest', inputOf (fullCmd (pre ++ 32 :: rest)) = pre ++ 32 :: rest' := by
  obtain ⟨sent, hsent⟩ := fullCmd_append (pre ++ [32]) rest
  rw [List.append_assoc, List.singleton_append] at hsent
  refine ⟨inputOf sent, ?_⟩
  rw [hsent, inputOf_append _ sent, List.append_assoc, List.singleton_append]
  intro b hb
  rcases List.mem_append.mp hb with hb | hb
  · exact hpre b hb
  · rw [List.mem_singleton.mp hb]
    rfl

/-- The first word of a call with arguments. -/
theorem tokens_call (hne : keyword ≠ []) (hk : IsWord keyword) (rest : Text) :
    ∃ ws, tokens (inputOf (fullCmd (keyword ++ 32 :: rest))) = keyword :: ws := by
  obtain ⟨rest', hinput⟩ := inputOf_words (isInner_of_isWord hk) rest
  rw [hinput, tokens_isWord rest' hne hk]
  exact ⟨_, rfl⟩

/-- The first word of a call without. -/
theorem tokens_bare (hne : keyword ≠ []) (hk : IsWord keyword) :
    tokens (inputOf (fullCmd keyword)) = [keyword] := by
  have hlast : fullCmd keyword = keyword ++ [10] := by
    unfold fullCmd
    rw [if_neg]
    intro h10
    have hspace := (hk 10 (List.mem_of_getLast? h10)).1
    cases hspace
  rw [hlast, inputOf_append (isInner_of_isWord hk), show inputOf [10] = [] from rfl,
    List.append_nil, tokens_lastWord hne hk]

end

/-- **The other widgets leave the session alone.** -/
theorem WidgetCall.not_session (w : WidgetCall) {junk : Int} {cmd : Command}
    (h : CommandFactory.create junk (inputOf (fullCmd w.command)) = some cmd) :
    cmd.isSession = false := by
  have hbare : ∀ keyword : Text, (keyword ≠ [] ∧ IsWord keyword ∧ keyword ≠ bytes "login" ∧
      keyword ≠ bytes "logout") → w.command = keyword → cmd.isSession = false := by
    rintro keyword ⟨hne, hk, hin, hout⟩ heq
    rw [heq] at h
    exact create_not_session h (tokens_bare hne hk) hin hout
  have hcall : ∀ keyword rest : Text, (keyword ≠ [] ∧ IsWord keyword ∧
      keyword ≠ bytes "login" ∧ keyword ≠ bytes "logout") → w.command = keyword ++ 32 :: rest →
        cmd.isSession = false := by
    rintro keyword rest ⟨hne, hk, hin, hout⟩ heq
    rw [heq] at h
    obtain ⟨ws, hws⟩ := tokens_call hne hk rest
    exact create_not_session h hws hin hout
  cases w with
  | listFriends => exact hbare (bytes "list_friends") (by decide) rfl
  | listPosts => exact hbare (bytes "list_posts") (by decide) rfl
  | listFriendRequests => exact hbare (bytes "list_friend_requests") (by decide) rfl
  | addFriend username => exact hcall (bytes "add_friend") username (by decide) rfl
  | acceptFriend line => exact hcall (bytes "accept_friend") line (by decide) rfl
  | friendType friendUser type =>
    refine hcall (bytes "set_friend_type") (QString.toStdString friendUser ++ 32 :: intText type)
      (by decide) ?_
    show bytes "set_friend_type" ++ [32] ++ _ ++ [32] ++ _ = _
    simp only [List.append_assoc, List.cons_append, List.nil_append]
  | createPost vis content =>
    refine hcall (bytes "create_post") (intText vis ++ 32 :: content) (by decide) ?_
    show bytes "create_post" ++ [32] ++ _ ++ [32] ++ _ = _
    simp only [List.append_assoc, List.cons_append, List.nil_append]
  | messages c =>
    cases c with
    | chats => exact hbare (bytes "chats") (by decide) rfl
    | load | reload => exact hbare (bytes "show") (by decide) rfl
    | «open» id => exact hcall (bytes "open") (intText id) (by decide) rfl
    | send text => exact hcall (bytes "send") text (by decide) rfl
    | chat user => exact hcall (bytes "chat") user (by decide) rfl
    | group users => exact hcall (bytes "group") users (by decide) rfl

/-! ## What a call does to the session -/

section

variable {env : Env} {sd : Int} {a : App}

/-- Reads that make no session command keep the session. -/
theorem session_kept {data : Text}
    (h : ∀ cmd, CommandFactory.create env.junk (inputOf data) = some cmd →
      cmd.isSession = false) :
    (handle hasher env sd data a).2.sessions.sessions sd = a.sessions.sessions sd := by
  rcases handle_cases hasher env sd data a with ⟨_, hh⟩ | ⟨cmd, hcmd, he⟩
  · rw [hh]
  · have hno := h cmd hcmd
    rcases he.session with ⟨_, _, rfl, _⟩ | ⟨rfl, _⟩ | ⟨_, hsame⟩
    · cases hno
    · cases hno
    · exact hsame

/-- The login window finds `OK` in the response exactly if the user is logged in. -/
theorem login_session (hasher : Text → Nat) (env : Env) (u p : Text)
    (hnone : a.sessions.sessions sd = none) :
    (LoginCommand.execute hasher env sd a u p).2.sessions.sessions sd =
      if contains (bytes "OK") (bufferText (LoginCommand.execute hasher env sd a u p).1) then some u
      else none := by
  unfold LoginCommand.execute
  split
  · exact hnone
  · split
    · exact hnone
    · split
      · exact hnone
      · exact SessionManager.login_sessions_self ..

/-- What the login form sends is a login, and a name of one word arrives. -/
theorem create_login_form (f : LoginForm) (junk : Int) :
    ∃ u p, CommandFactory.create junk (inputOf (fullCmd (LoginWindow.command f))) =
        some (.login u p) ∧ (IsWord f.username → u = f.username) := by
  have hcmd : LoginWindow.command f =
      bytes "login" ++ 32 :: (f.username ++ 32 :: f.password) := by
    show bytes "login" ++ [32] ++ _ ++ [32] ++ _ = _
    simp only [List.append_assoc, List.cons_append, List.nil_append]
  by_cases hu : IsWord f.username
  · have hpre : ∀ b ∈ bytes "login" ++ 32 :: f.username, isInner b = true := by
      intro b hb
      rcases List.mem_append.mp hb with hb | hb
      · exact isInner_of_isWord (by decide : IsWord (bytes "login")) b hb
      · rcases List.mem_cons.mp hb with rfl | hb
        · rfl
        · exact isInner_of_isWord hu b hb
    obtain ⟨rest, hinput⟩ := inputOf_words hpre f.password
    have htokens : tokens (inputOf (fullCmd (LoginWindow.command f))) =
        bytes "login" :: f.username :: tokens rest := by
      have hsame : bytes "login" ++ 32 :: (f.username ++ 32 :: f.password) =
          bytes "login" ++ 32 :: f.username ++ 32 :: f.password := by
        rw [List.append_assoc, List.cons_append]
      rw [hcmd, hsame, hinput, List.append_assoc, List.cons_append,
        tokens_isWord _ (by decide) (by decide), tokens_isWord _ f.filled.1 hu]
    exact ⟨_, _, say_login htokens, fun _ => rfl⟩
  · obtain ⟨ws, hws⟩ := tokens_call (by decide) (by decide : IsWord (bytes "login"))
      (f.username ++ 32 :: f.password)
    rw [← hcmd] at hws
    exact ⟨_, _, say_login hws, fun hword => absurd hword hu⟩

end

/-! ## The windows and the session -/

/-- The window is one for this session. -/
def Window.Fits : Window → Option Text → Prop
  | .main u, session => ∃ v, session = some v ∧ (IsWord u → v = u)
  | _, session => session = none

/-- What holds in every state: the window fits the session of the connection. -/
structure Agrees (i : Slot) (d : Screen) : Prop where
  tracked : Tracked d.link.server
  slot : 0 < d.link.sd i
  session : d.window.Fits (d.link.server.app.sessions.sessions (d.link.sd i))

section

variable {d : Screen} {env : Env} {cmd : Text}

/-- After a call the window must fit the session that the command leaves. -/
theorem Agrees.call (hd : Agrees i d) (hp : d.link.Prompt hasher i env cmd) {window : Window}
    (hfit : window.Fits ((handle hasher env (d.link.sd i) (fullCmd cmd)
      d.link.server.app).2.sessions.sessions (d.link.sd i))) :
    Agrees i ⟨(d.link.call hasher i env cmd).1, window⟩ := by
  rw [hp.call_eq]
  exact ⟨hd.tracked.step hp.read, hd.slot, hfit⟩

/-- A call that makes no session command may leave the window alone. -/
theorem Agrees.call_kept (hd : Agrees i d) (hp : d.link.Prompt hasher i env cmd)
    (hcmd : ∀ c, CommandFactory.create env.junk (inputOf (fullCmd cmd)) = some c →
      c.isSession = false) {window : Window}
    (hfit : window.Fits (d.link.server.app.sessions.sessions (d.link.sd i))) :
    Agrees i ⟨(d.link.call hasher i env cmd).1, window⟩ := by
  refine hd.call hp ?_
  rw [session_kept hcmd]
  exact hfit

/-- The login button, in the login window. -/
theorem Agrees.login (hd : Agrees i d) (hwindow : d.window = .login) {f : LoginForm}
    (hp : d.link.Prompt hasher i env (LoginWindow.command f)) :
    Agrees i (d.next hasher i (.login f env)) := by
  have hsession := hd.session
  rw [hwindow] at hsession
  obtain ⟨u, p, hcreate, hu⟩ := create_login_form f env.junk
  show Agrees i ⟨(d.link.call hasher i env (LoginWindow.command f)).1,
    if contains (bytes "OK") (d.link.call hasher i env (LoginWindow.command f)).2 then
      .main f.username
    else d.window⟩
  refine hd.call hp ?_
  rw [hp.call_eq, hwindow, handle_of_some _ _ _ _ hcreate]
  have hlogin := login_session hasher env u p hsession
  show Window.Fits _ ((LoginCommand.execute hasher env (d.link.sd i) d.link.server.app u
    p).2.sessions.sessions _)
  rw [hlogin]
  show Window.Fits (if contains (bytes "OK") (bufferText (LoginCommand.execute hasher env
    (d.link.sd i) d.link.server.app u p).1) then _ else _) _
  split
  · exact ⟨u, rfl, hu⟩
  · rfl

/-- The register button. It logs nobody in. -/
theorem Agrees.register (hd : Agrees i d) (hwindow : d.window = .register) {f : RegisterForm}
    (hp : d.link.Prompt hasher i env (RegisterWindow.command f)) :
    Agrees i (d.next hasher i (.register f env)) := by
  have hsession := hd.session
  rw [hwindow] at hsession
  show Agrees i ⟨(d.link.call hasher i env (RegisterWindow.command f)).1,
    if contains (bytes "OK") (d.link.call hasher i env (RegisterWindow.command f)).2 then .login
    else d.window⟩
  refine hd.call_kept hp (fun c hc => ?_) ?_
  · have hcmd : RegisterWindow.command f = bytes "register" ++ 32 :: (f.username ++ 32 ::
        (f.password ++ 32 :: (f.email ++ 32 :: (f.role ++ 32 :: f.visibility)))) := by
      show bytes "register" ++ [32] ++ _ ++ [32] ++ _ ++ [32] ++ _ ++ [32] ++ _ ++ [32] ++ _ = _
      simp only [List.append_assoc, List.cons_append, List.nil_append]
    rw [hcmd] at hc
    obtain ⟨ws, hws⟩ := tokens_call (by decide) (by decide : IsWord (bytes "register")) _
    exact create_not_session hc hws (by decide) (by decide)
  · rw [hwindow]
    split
    · exact hsession
    · exact hsession

/-- The logout button. It ends whatever session there is. -/
theorem Agrees.logout (hd : Agrees i d) (hp : d.link.Prompt hasher i env (bytes "logout")) :
    Agrees i (d.next hasher i (.logout env)) := by
  refine hd.call hp ?_
  have hcreate : CommandFactory.create env.junk (inputOf (fullCmd (bytes "logout"))) =
      some .logout := rfl
  rw [handle_of_some _ _ _ _ hcreate]
  show (LogoutCommand.execute (d.link.sd i) d.link.server.app).2.sessions.sessions _ = none
  unfold LogoutCommand.execute
  split
  next hauth =>
    rw [Bool.not_eq_true'] at hauth
    cases hs : d.link.server.app.sessions.sessions (d.link.sd i) with
    | none => rfl
    | some u =>
      rw [(SessionManager.sessions_eq_some hs).1] at hauth
      cases hauth
  · exact SessionManager.logout_sessions_self ..

/-- The server works for others. -/
theorem Agrees.server (hd : Agrees i d) {e : Event} (hother : slotOf e ≠ some i)
    (hadmits : Server.admits d.link.server e) : Agrees i (d.next hasher i (.server e)) := by
  obtain ⟨ht, hslot, hsession⟩ := hd
  have hne : d.link.server.clientSocket i ≠ 0 := by
    have hpos : 0 < d.link.server.clientSocket i := hslot
    omega
  obtain ⟨hsocket, hsame, _⟩ := elsewhere_frame hasher ht hne hadmits hother
  refine ⟨ht.step hadmits, ?_, ?_⟩
  · show 0 < (Server.next hasher d.link.server e).clientSocket i
    rw [hsocket]
    exact hslot
  · show d.window.Fits ((Server.next hasher d.link.server e).app.sessions.sessions
      ((Server.next hasher d.link.server e).clientSocket i))
    rw [hsocket, hsame]
    exact hsession

theorem Agrees.step (hd : Agrees i d) {e : ScreenEvent} (hg : d.admits hasher i e) :
    Agrees i (d.next hasher i e) := by
  obtain ⟨ht, hslot, hsession⟩ := hd
  have hd : Agrees i d := ⟨ht, hslot, hsession⟩
  cases e with
  | login f env => exact hd.login hg.1 hg.2
  | registerLink =>
    have hwindow : d.window = .login := hg
    rw [hwindow] at hsession
    exact ⟨ht, hslot, hsession⟩
  | viewPosts env =>
    obtain ⟨hwindow, hp⟩ := hg
    rw [hwindow] at hsession
    exact hd.call_kept hp (fun _ => WidgetCall.listPosts.not_session) hsession
  | back =>
    have hguest : d.window.isGuest = true := hg
    cases hwindow : d.window with
    | guest postsList =>
      rw [hwindow] at hsession
      exact ⟨ht, hslot, hsession⟩
    | _ =>
      rw [hwindow] at hguest
      cases hguest
  | register f env => exact hd.register hg.1 hg.2
  | logout env => exact hd.logout hg.2
  | widget w env => exact hd.call_kept hg (fun _ => w.not_session) hsession
  | server e => exact hd.server hg.1 hg.2

end

/-- **The window follows the session.** From any reachable state of the server in which the
client's connection is new, through whatever the user and the others do: while a main window is
on the screen somebody is logged in on the connection, and if the name it greets is one word then
it is theirs; while another window is, nobody is. -/
theorem window_follows_session {h₀ : History LoopState Event} {server : LoopState}
    (hr₀ : (machine hasher serverSocket).Run h₀ server) (hslot : 0 < server.clientSocket i)
    (hnew : server.app.sessions.sessions (server.clientSocket i) = none)
    {h : History Screen ScreenEvent} {d : Screen} (hr : (screenMachine hasher i server).Run h d) :
    d.window.Fits (d.link.server.app.sessions.sessions (d.link.sd i)) := by
  have hinit : Agrees i (screenMachine hasher i server).init := ⟨tracked_run hr₀, hslot, hnew⟩
  have hagrees : Agrees i d := hr.invariant (P := fun _ => True) hinit
    (fun _ _ hd hg _ => hd.step hg) fun _ _ => trivial
  exact hagrees.session

/-- Deliver events to a fresh client. -/
def runScreen (hasher : Text → Nat) (i : Slot) (server : LoopState) (es : List ScreenEvent) :
    Option (History Screen ScreenEvent × Screen) :=
  (screenMachine hasher i server).replay es ([], (screenMachine hasher i server).init)

/-- `a` has an account and connects with the client. -/
def accountEvents : List Event := [.accept 4, .line 0 "register a p a@x normal public\n"]

/-- A wrong password and the right one. -/
def loginEvents : List ScreenEvent :=
  [.login ⟨bytes "a", bytes "wrong", by decide⟩ .plain,
    .login ⟨bytes "a", bytes "p", by decide⟩ .plain]

theorem window_follows_session_login :
    ∃ server h d, (screenMachine List.length 0 server).Run h d ∧ d.window = .main (bytes "a") ∧
      d.link.server.app.sessions.sessions (d.link.sd 0) = some (bytes "a") := by
  obtain ⟨_, s, _, hrun, _, hslot, hnew, hscreen⟩ := runEvents_exists List.length 3 accountEvents
    (p := fun _ s => 0 < s.clientSocket 0 ∧
      s.app.sessions.sessions (s.clientSocket 0) = none ∧
      (runScreen List.length 0 s loginEvents).any
        (fun r => decide (r.2.window = .main (bytes "a"))) = true)
    (by simp [accountEvents]) (by decide)
  have hevents : ∀ e ∈ loginEvents, True := fun _ _ => trivial
  obtain ⟨⟨h, d⟩, _, hr, _, hwindow⟩ := Machine.Run.replay_exists hevents hscreen
  have hfits := window_follows_session hrun hslot hnew hr
  have hwindow : d.window = .main (bytes "a") := hwindow
  rw [hwindow] at hfits
  obtain ⟨v, hsession, hv⟩ := hfits
  rw [hv (by decide)] at hsession
  exact ⟨s, h, d, hr, hwindow, hsession⟩

/-! ## What a guest sees -/

/-- The clock of the machine keeps the format of `CURRENT_TIMESTAMP`. -/
def ScreenEvent.Timed : ScreenEvent → Prop
  | .login _ env | .viewPosts env | .register _ env | .logout env | .widget _ env =>
    IsTimestamp env.now
  | .server e => e.Timed
  | .registerLink | .back => True

section

variable {d : Screen} {e : ScreenEvent}

/-- Whatever happens on the screen, the server takes at most one step. -/
theorem Screen.server_step (hg : d.admits hasher i e) (ht : e.Timed) :
    (d.next hasher i e).link.server = d.link.server ∨
      ∃ e', Server.admits d.link.server e' ∧ e'.Timed ∧
        (d.next hasher i e).link.server = Server.next hasher d.link.server e' := by
  have hcall : ∀ {env : Env} {cmd : Text}, d.link.Prompt hasher i env cmd → IsTimestamp env.now →
      ∃ e', Server.admits d.link.server e' ∧ e'.Timed ∧
        (d.link.call hasher i env cmd).1.server = Server.next hasher d.link.server e' := by
    intro env cmd hp hnow
    refine ⟨.recv i env (fullCmd cmd), hp.read, hnow, ?_⟩
    rw [hp.call_eq]
  cases e with
  | login f env => exact Or.inr (hcall hg.2 ht)
  | registerLink => exact Or.inl rfl
  | viewPosts env => exact Or.inr (hcall hg.2 ht)
  | back => exact Or.inl rfl
  | register f env => exact Or.inr (hcall hg.2 ht)
  | logout env => exact Or.inr (hcall hg.2 ht)
  | widget w env => exact Or.inr (hcall hg ht)
  | server e => exact Or.inr ⟨e, hg.2, ht, rfl⟩

/-- Posts stay. -/
theorem posts_stay (s : LoopState) (e : Event) :
    ∀ row ∈ s.app.db.posts.rows, row ∈ (Server.next hasher s e).app.db.posts.rows := by
  intro row hrow
  rcases step_posts hasher ⟨s, e⟩ with ⟨_, hsame⟩ | ⟨p, id, _, _, _, hmore⟩
  · have hsame : (Server.next hasher s e).app.db.posts.rows = s.app.db.posts.rows := hsame
    rw [hsame]
    exact hrow
  · have hmore : (Server.next hasher s e).app.db.posts.rows = s.app.db.posts.rows ++ _ := hmore
    rw [hmore]
    exact List.mem_append_left _ hrow

/-- What a guest may be shown: public posts that are in the table. -/
def PublicView (db : Db) (view : FeedView) : Prop :=
  ∃ posts, view = feedView posts ∧
    ∀ p ∈ posts, p.visibility = 0 ∧ ∃ row ∈ db.posts.rows, Database.readPost row = p

theorem PublicView.mono {db db' : Db} {view : FeedView} (h : PublicView db view)
    (hstay : ∀ row ∈ db.posts.rows, row ∈ db'.posts.rows) : PublicView db' view := by
  obtain ⟨posts, hview, hpublic⟩ := h
  refine ⟨posts, hview, fun p hp => ?_⟩
  obtain ⟨hzero, row, hrow, hread⟩ := hpublic p hp
  exact ⟨hzero, row, hstay row hrow, hread⟩

/-- The posts for guests are public. -/
theorem publicView_getPublicPosts (env : Env) (db : Db) :
    PublicView db (feedView (Database.getPublicPosts env db)) := by
  refine ⟨_, rfl, fun p hp => ?_⟩
  obtain ⟨row, hrow, rfl⟩ := List.mem_map.mp hp
  obtain ⟨hin, hpublic⟩ := List.mem_filter.mp (mem_of_mem_select (mem_orderBy.mp hrow))
  refine ⟨?_, row, hin, rfl⟩
  show columnInt row.visibility = 0
  rw [beq_iff_eq.mp hpublic]
  rfl

/-- What holds in every state for the guest window. -/
structure GuestSees (hasher : Text → Nat) (serverSocket : Int) (i : Slot) (d : Screen) : Prop where
  agrees : Agrees i d
  served : ∃ h, (machine hasher serverSocket).Run h d.link.server ∧ ∀ x ∈ h, Timed x
  guest : ∀ postsList, d.window = .guest postsList → PublicView d.link.server.app.db postsList

/-- The guest window decodes what the server sends a guest. -/
theorem GuestSees.viewPosts (hd : GuestSees hasher serverSocket i d) {env : Env}
    (hwindow : d.window = .login) (hp : d.link.Prompt hasher i env (bytes "list_posts")) :
    GuestPostsWindow.loadPublicPosts (d.link.call hasher i env (bytes "list_posts")).2 =
      feedView (Database.getPublicPosts env d.link.server.app.db) := by
  obtain ⟨h, hr, ht⟩ := hd.served
  have hsession := hd.agrees.session
  rw [hwindow] at hsession
  have hcreate : CommandFactory.create env.junk (inputOf (fullCmd (bytes "list_posts"))) =
      some .listPosts := rfl
  have hsend := handle_sendable hr ht env (d.link.sd i) (fullCmd (bytes "list_posts"))
  rw [hp.call_eq]
  have hwhole : bufferText (handle hasher env (d.link.sd i) (fullCmd (bytes "list_posts"))
      d.link.server.app).1 = ListPostsCommand.execute env (d.link.sd i) d.link.server.app := by
    rw [bufferText_eq hsend.2, handle_of_some _ _ _ _ hcreate]
    rfl
  have hposts : ListPostsCommand.posts env (d.link.sd i) d.link.server.app =
      Database.getPublicPosts env d.link.server.app.db := by
    unfold ListPostsCommand.posts
    rw [SessionManager.isAuthenticated_eq_false hsession]
    rfl
  show GuestPostsWindow.loadPublicPosts (bufferText _) = _
  rw [hwhole, (feed_windows_iff hr ht env _).1, hposts]

theorem GuestSees.step (hd : GuestSees hasher serverSocket i d) (hg : d.admits hasher i e)
    (ht : e.Timed) : GuestSees hasher serverSocket i (d.next hasher i e) := by
  have hserver := Screen.server_step hg ht
  refine ⟨hd.agrees.step hg, ?_, fun postsList hwindow => ?_⟩
  · obtain ⟨h, hr, htimed⟩ := hd.served
    rcases hserver with hsame | ⟨e', hadmits, ht', hnext⟩
    · rw [hsame]
      exact ⟨h, hr, htimed⟩
    · rw [hnext]
      exact ⟨_, hr.step e' hadmits, List.forall_mem_cons.mpr ⟨ht', htimed⟩⟩
  · have hstay : ∀ row ∈ d.link.server.app.db.posts.rows,
        row ∈ (d.next hasher i e).link.server.app.db.posts.rows := by
      rcases hserver with hsame | ⟨e', _, _, hnext⟩
      · rw [hsame]
        exact fun _ hrow => hrow
      · rw [hnext]
        exact posts_stay d.link.server e'
    refine PublicView.mono ?_ hstay
    cases e with
    | login f env =>
      obtain ⟨hlogin, _⟩ := hg
      have hwindow : (if contains (bytes "OK")
          (d.link.call hasher i env (LoginWindow.command f)).2 then .main f.username
        else d.window) = Window.guest postsList := hwindow
      rw [hlogin] at hwindow
      split at hwindow
      · cases hwindow
      · cases hwindow
    | registerLink => cases hwindow
    | viewPosts env =>
      have hview := hd.viewPosts hg.1 hg.2
      have hwindow : Window.guest (GuestPostsWindow.loadPublicPosts
        (d.link.call hasher i env (bytes "list_posts")).2) = .guest postsList := hwindow
      rw [hview, Window.guest.injEq] at hwindow
      rw [← hwindow]
      exact publicView_getPublicPosts env _
    | back => cases hwindow
    | register f env =>
      obtain ⟨hregister, _⟩ := hg
      have hwindow : (if contains (bytes "OK")
          (d.link.call hasher i env (RegisterWindow.command f)).2 then .login
        else d.window) = Window.guest postsList := hwindow
      rw [hregister] at hwindow
      split at hwindow
      · cases hwindow
      · cases hwindow
    | logout env => cases hwindow
    | widget w env => exact hd.guest postsList hwindow
    | server e => exact hd.guest postsList hwindow

end

/-- **A guest sees what is public, and nothing made up.** From any reachable state of the server
in which the client's connection is new, through whatever the user and the others do: the list in
the guest window is a feed of public posts, each of which is in the table, shown as a feed window
should. -/
theorem guest_shows_public {h₀ : History LoopState Event} {server : LoopState}
    (hr₀ : (machine hasher serverSocket).Run h₀ server) (ht₀ : ∀ x ∈ h₀, Timed x)
    (hslot : 0 < server.clientSocket i)
    (hnew : server.app.sessions.sessions (server.clientSocket i) = none)
    {h : History Screen ScreenEvent} {d : Screen} (hr : (screenMachine hasher i server).Run h d)
    (ht : ∀ x ∈ h, x.event.Timed) {postsList : FeedView} (hwindow : d.window = .guest postsList) :
    PublicView d.link.server.app.db postsList := by
  have hinit : GuestSees hasher serverSocket i (screenMachine hasher i server).init :=
    ⟨⟨tracked_run hr₀, hslot, hnew⟩, ⟨h₀, hr₀, ht₀⟩, fun _ hguest => by cases hguest⟩
  have hsees : GuestSees hasher serverSocket i d := hr.invariant (P := fun x => x.event.Timed)
    hinit (fun _ _ hd hg ht => hd.step hg ht) ht
  exact hsees.guest postsList hwindow

/-- `a` has a post for everybody and one for friends when somebody else connects. -/
def postedEvents : List Event :=
  [.accept 4, .line 0 "register a p a@x normal public\n", .line 0 "login a p\n",
    .line 0 "create_post 0 hello\n", .line 0 "create_post 1 secret\n", .accept 5]

theorem guest_shows_public_two :
    ∃ server h d postsList, (screenMachine List.length 1 server).Run h d ∧
      server.app.db.posts.rows.length = 2 ∧ d.window = .guest postsList ∧ postsList ≠ .empty ∧
      PublicView d.link.server.app.db postsList := by
  have hevents : ∀ e ∈ postedEvents, e.Timed := by simp [postedEvents]
  obtain ⟨⟨h₀, s⟩, _, hrun, htimed, hslot, hnew, htwo, hscreen⟩ := Machine.Run.replay_exists
    (M := machine List.length 3)
    (p := fun r => 0 < r.2.clientSocket 1 ∧
      r.2.app.sessions.sessions (r.2.clientSocket 1) = none ∧
      r.2.app.db.posts.rows.length = 2 ∧
      (runScreen List.length 1 r.2 [.viewPosts .plain]).any (fun q =>
        decide (q.2.window.isGuest = true ∧ q.2.window ≠ .guest .empty)) = true)
    hevents (by decide)
  have hview : ∀ e ∈ [ScreenEvent.viewPosts .plain], e.Timed :=
    List.forall_mem_singleton.mpr (by decide : IsTimestamp Env.plain.now)
  obtain ⟨⟨h, d⟩, _, hr, ht, hguest, hsome⟩ := Machine.Run.replay_exists hview hscreen
  cases hwindow : d.window with
  | guest postsList =>
    refine ⟨s, h, d, postsList, hr, htwo, hwindow, ?_, ?_⟩
    · rintro rfl
      exact hsome hwindow
    · exact guest_shows_public hrun htimed hslot hnew hr ht hwindow
  | _ =>
    have hguest : d.window.isGuest = true := hguest
    rw [hwindow] at hguest
    cases hguest

end SocialNetwork.Client
