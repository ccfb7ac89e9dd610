import SocialNetwork.Server.Writes

/-!
# Sessions across descriptor reuse

The kernel reuses descriptor numbers, so the session map must forget a number
whenever its connection ends. `connection sd h` reads off the history the steps
taken since the connection now holding `sd` was accepted, and `lastSession` the
last of them that replied OK to a `login` or `logout`. `session_eq_ghost` is the
ghost-history invariant: the session of `sd` is exactly what that step left. From
it, `session_identity` states who a socket speaks for in every reachable state.

No statement about SQLite's success is needed: a failing read only refuses a login.
-/

namespace SocialNetwork.Server

open SocialNetwork.Lib

variable {hasher : Text → Nat} {serverSocket : Int}

/-- The steps since the connection now holding `sd` was accepted, newest first;
`none` if no connection holds `sd`. -/
def connection (sd : Int) : History LoopState Event → Option (History LoopState Event)
  | [] => none
  | x :: h =>
    match x.event with
    | .accept fd => if fd = sd then some [] else (connection sd h).map (x :: ·)
    | .hangup i =>
      if x.pre.clientSocket i = sd then none else (connection sd h).map (x :: ·)
    | .recv _ _ _ => (connection sd h).map (x :: ·)

/-- The step replied OK to a `login` or `logout` on `sd`. -/
def isSessionStep (hasher : Text → Nat) (sd : Int) (x : Step LoopState Event) : Bool :=
  sdOf x == sd && repliedOk hasher x &&
    match commandOf x with
    | some cmd => cmd.isSession
    | none => false

/-- The last `login` or `logout` on `sd` that replied OK, since `sd` was accepted. -/
def lastSession (hasher : Text → Nat) (sd : Int) (h : History LoopState Event) :
    Option (Step LoopState Event) :=
  (connection sd h).bind fun steps => steps.find? (isSessionStep hasher sd)

/-- The user a `login` step logs in. -/
def loginOf (x : Step LoopState Event) : Option Text :=
  match commandOf x with
  | some (.login u _) => some u
  | _ => none

/-- Whom the history says `sd` speaks for. -/
def ghostSession (hasher : Text → Nat) (sd : Int) (h : History LoopState Event) : Option Text :=
  (lastSession hasher sd h).bind loginOf

/-- `digest` is the password stored for the user `u`. -/
def StoresDigest (s : LoopState) (u digest : Text) : Prop :=
  ∃ row ∈ s.app.db.users.rows, row.username = u ∧ row.password = digest

/-! ## Single steps -/

/-- A step that is no session step of `sd` and does not renew `sd` leaves its ghost
session alone. -/
theorem ghostSession_cons {sd : Int} {x : Step LoopState Event} {h : History LoopState Event}
    (hconn : connection sd (x :: h) = (connection sd h).map (x :: ·))
    (hx : isSessionStep hasher sd x = false) :
    ghostSession hasher sd (x :: h) = ghostSession hasher sd h := by
  unfold ghostSession lastSession
  rw [hconn]
  cases connection sd h with
  | none => rfl
  | some steps => simp [hx]

/-- A session step of a live connection becomes its last one. -/
theorem ghostSession_self {sd : Int} {x : Step LoopState Event} {h : History LoopState Event}
    (hconn : connection sd (x :: h) = (connection sd h).map (x :: ·))
    (hlive : connection sd h ≠ none) (hx : isSessionStep hasher sd x = true) :
    ghostSession hasher sd (x :: h) = loginOf x := by
  unfold ghostSession lastSession
  rw [hconn]
  cases hc : connection sd h with
  | none => exact absurd hc hlive
  | some steps => simp [hx]

/-- What one read does to the session of its own socket, in terms of its step. -/
theorem recv_session (hasher : Text → Nat) (s : LoopState) (i : Slot) (env : Env) (data : Text) :
    (isSessionStep hasher (s.clientSocket i) ⟨s, .recv i env data⟩ = true ∧
        (s.recvSlot hasher i env data).app.sessions.sessions (s.clientSocket i) =
          loginOf ⟨s, .recv i env data⟩) ∨
      (isSessionStep hasher (s.clientSocket i) ⟨s, .recv i env data⟩ = false ∧
        (s.recvSlot hasher i env data).app.sessions.sessions (s.clientSocket i) =
          s.app.sessions.sessions (s.clientSocket i)) := by
  simp only [isSessionStep, repliedOk, replyOf, sdOf, commandOf, loginOf, LoopState.recvSlot,
    beq_self_eq_true, Bool.true_and]
  rcases handle_cases hasher env (s.clientSocket i) data s.app with ⟨hcmd, h⟩ | ⟨cmd, hcmd, h⟩
  · right
    rw [hcmd, h]
    simp
  · rw [hcmd]
    rcases h.session with ⟨u, p, rfl, hok, _, hs⟩ | ⟨rfl, hok, hs⟩ | ⟨hno, hs⟩
    · left
      exact ⟨by rw [hok]; rfl, hs⟩
    · left
      exact ⟨by rw [hok]; rfl, hs⟩
    · right
      refine ⟨?_, hs⟩
      cases hok : isOk (handle hasher env (s.clientSocket i) data s.app).1 with
      | false => rfl
      | true => exact hno hok

/-- A `login` that replied OK found the digest of its password stored for its user. -/
theorem login_stores {x : Step LoopState Event} {sd : Int} {u : Text}
    (hx : isSessionStep hasher sd x = true) (hu : loginOf x = some u) :
    ∃ p, commandOf x = some (.login u p) ∧
      StoresDigest x.pre u (Database.Hashpassword hasher p) := by
  obtain ⟨s, e⟩ := x
  cases e with
  | accept fd => simp [isSessionStep, repliedOk, replyOf] at hx
  | hangup i => simp [isSessionStep, repliedOk, replyOf] at hx
  | recv i env data =>
    simp only [isSessionStep, repliedOk, replyOf, Bool.and_eq_true] at hx
    simp only [loginOf] at hu
    rcases handle_cases hasher env (s.clientSocket i) data s.app with ⟨hcmd, _⟩ | ⟨cmd, hcmd, h⟩
    · rw [show commandOf ⟨s, .recv i env data⟩ = none from hcmd] at hu
      cases hu
    · rw [show commandOf ⟨s, .recv i env data⟩ = some cmd from hcmd] at hu ⊢
      have hok := hx.1.2
      rcases h.session with ⟨w, p, rfl, _, hauth, _⟩ | ⟨rfl, _, _⟩ | ⟨hno, _⟩
      · rw [Option.some.injEq] at hu
        subst hu
        refine ⟨p, rfl, ?_⟩
        obtain ⟨user, huser⟩ := Option.ne_none_iff_exists'.mp hauth
        obtain ⟨row, hrow, hname, hpw, _⟩ := authenticateUser_eq_some huser
        exact ⟨row, hrow, hname, hpw⟩
      · cases hu
      · have hlogin := hno hok
        cases cmd with
        | login => cases hlogin
        | _ => cases hu

/-! ## The ghost-history invariant -/

/-- A used slot's descriptor has a connection in the history. -/
theorem connection_live {h : History LoopState Event} {s : LoopState}
    (hr : (machine hasher serverSocket).Run h s) :
    ∀ i, s.clientSocket i ≠ 0 → connection (s.clientSocket i) h ≠ none := by
  refine hr.invariant_history (P := fun _ => True)
    (I := fun h s => ∀ i, s.clientSocket i ≠ 0 → connection (s.clientSocket i) h ≠ none)
    (fun i hi => absurd rfl hi) ?_ fun _ _ => trivial
  intro h s e hr _ ih hg _ i hi
  cases e with
  | accept fd =>
    show connection ((s.acceptFd fd).clientSocket i) (⟨s, .accept fd⟩ :: h) ≠ none
    simp only [connection]
    split
    · simp
    next hne =>
      rcases acceptFd_slot_cases hi with hfd | ⟨hold, heq⟩
      · exact absurd hfd.symm hne
      · rw [heq]
        simpa using ih i hold
  | hangup j =>
    have hij : i ≠ j := by
      intro heq
      subst heq
      exact hi (Function.update_self ..)
    have heq : (s.hangupSlot j).clientSocket i = s.clientSocket i :=
      Function.update_of_ne hij ..
    have hold : s.clientSocket i ≠ 0 := fun h0 => hi (heq.trans h0)
    show connection ((s.hangupSlot j).clientSocket i) (⟨s, .hangup j⟩ :: h) ≠ none
    simp only [connection]
    split
    next hsame =>
      exact absurd ((tracked_run hr).distinct i j hold (heq.symm.trans hsame.symm)) hij
    next =>
      rw [heq]
      simpa using ih i hold
  | recv j env data =>
    show connection (s.clientSocket i) (⟨s, .recv j env data⟩ :: h) ≠ none
    simpa [connection] using ih i hi

/-- **The session map is the ghost session** in every reachable state. -/
theorem session_eq_ghost {h : History LoopState Event} {s : LoopState}
    (hr : (machine hasher serverSocket).Run h s) (sd : Int) :
    s.app.sessions.sessions sd = ghostSession hasher sd h := by
  refine hr.invariant_history (P := fun _ => True)
    (I := fun h s => ∀ sd, s.app.sessions.sessions sd = ghostSession hasher sd h)
    (fun _ => rfl) ?_ (fun _ _ => trivial) sd
  intro h s e hr _ ih hg _ sd
  have ht := tracked_run hr
  cases e with
  | accept fd =>
    show s.app.sessions.sessions sd = _
    by_cases hfd : fd = sd
    · -- a new descriptor is in no slot, so it had no session
      have hnone : s.app.sessions.sessions sd = none := by
        by_contra hsome
        obtain ⟨i, hi, hne⟩ := ht.session sd hsome
        exact hg.2 (hfd ▸ hi ▸ (ht.slots i (hi ▸ hne)).2)
      rw [hnone]
      simp [ghostSession, lastSession, connection, hfd]
    · rw [ih sd, ghostSession_cons (by simp [connection, hfd]) (by
        simp [isSessionStep, repliedOk, replyOf])]
  | hangup i =>
    show (s.app.sessions.logout (s.clientSocket i)).sessions sd = _
    -- a hangup ends the connection of its own descriptor only
    by_cases hsd : sd = s.clientSocket i
    · rw [hsd, SessionManager.logout_sessions_self]
      simp [ghostSession, lastSession, connection]
    · rw [SessionManager.logout_sessions_ne hsd, ih sd,
        ghostSession_cons (by simp [connection, Ne.symm hsd]) (by
          simp [isSessionStep, repliedOk, replyOf])]
  | recv i env data =>
    show (s.recvSlot hasher i env data).app.sessions.sessions sd = _
    by_cases hsd : sd = s.clientSocket i
    · subst hsd
      rcases recv_session hasher s i env data with ⟨hx, hs⟩ | ⟨hx, hs⟩
      · rw [hs, ghostSession_self (by simp [connection]) (connection_live hr i ?_) hx]
        have : 0 < s.clientSocket i := hg.1.1
        omega
      · rw [hs, ih, ghostSession_cons (by simp [connection]) hx]
    · rw [show (s.recvSlot hasher i env data).app.sessions.sessions sd =
          s.app.sessions.sessions sd from (handle_frame hasher env _ data s.app hsd).1, ih sd,
        ghostSession_cons (by simp [connection]) (by simp [isSessionStep, sdOf, Ne.symm hsd])]

/-! ## Session identity -/

/-- One step leaves the session of every other socket alone. -/
theorem next_frame {s : LoopState} {e : Event} {sd : Int} (hne : sd ≠ sdOf ⟨s, e⟩) :
    (next hasher s e).app.sessions.sessions sd = s.app.sessions.sessions sd ∧
      (next hasher s e).app.sessions.currentConversation sd =
        s.app.sessions.currentConversation sd := by
  cases e with
  | accept fd => exact ⟨rfl, rfl⟩
  | hangup i => exact ⟨SessionManager.logout_sessions_ne hne,
      SessionManager.logout_currentConversation_ne hne⟩
  | recv i env data => exact handle_frame hasher env _ data s.app hne

/-- **Session identity.** In every reachable state a socket is treated as `u`
exactly when the last `login` or `logout` that replied OK on the connection now
holding it was a `login` as `u` whose password hashed to `u`'s stored digest; a
freshly accepted descriptor has no session and no open conversation; and no step
changes the session of another socket. -/
theorem session_identity {h : History LoopState Event} {s : LoopState}
    (hr : (machine hasher serverSocket).Run h s) :
    (∀ sd u, s.app.sessions.sessions sd = some u ↔
      ∃ steps x p, connection sd h = some steps ∧
        steps.find? (isSessionStep hasher sd) = some x ∧
        commandOf x = some (.login u p) ∧
        StoresDigest x.pre u (Database.Hashpassword hasher p)) ∧
    (∀ x ∈ h, ∀ fd, x.event = .accept fd →
      ((machine hasher serverSocket).post x).app.sessions.sessions fd = none ∧
      ((machine hasher serverSocket).post x).app.sessions.currentConversation fd = none) ∧
    (∀ x ∈ h, ∀ sd, sd ≠ sdOf x →
      ((machine hasher serverSocket).post x).app.sessions.sessions sd =
        x.pre.app.sessions.sessions sd) := by
  refine ⟨fun sd u => ?_, fun x hx fd he => ?_, fun x _ sd hsd => (next_frame hsd).1⟩
  · rw [session_eq_ghost hr sd]
    unfold ghostSession lastSession
    constructor
    · intro hu
      obtain ⟨x, hlast, hlogin⟩ := Option.bind_eq_some_iff.mp hu
      obtain ⟨steps, hconn, hfind⟩ := Option.bind_eq_some_iff.mp hlast
      obtain ⟨p, hcmd, hdigest⟩ := login_stores (List.find?_some hfind) hlogin
      exact ⟨steps, x, p, hconn, hfind, hcmd, hdigest⟩
    · rintro ⟨steps, x, p, hconn, hfind, hcmd, -⟩
      rw [hconn, Option.bind_some, hfind, Option.bind_some, loginOf, hcmd]
  · obtain ⟨newer, older, rfl⟩ := List.append_of_mem hx
    obtain ⟨hpre, hg⟩ := hr.at_step
    have hfresh : 0 < fd ∧ fd ∉ x.pre.opened := by
      rw [he] at hg
      exact hg
    have hnone : x.pre.app.sessions.sessions fd = none := by
      by_contra hsome
      obtain ⟨i, hi, hne⟩ := (tracked_run hpre).session fd hsome
      exact hfresh.2 (hi ▸ ((tracked_run hpre).slots i (hi ▸ hne)).2)
    have hpost : ((machine hasher serverSocket).post x).app = x.pre.app := by
      show (next hasher x.pre x.event).app = x.pre.app
      rw [he]
      rfl
    rw [hpost]
    refine ⟨hnone, ?_⟩
    by_contra hsome
    exact (tracked_run hpre).conversation fd hsome hnone

/-- A descriptor reused after its first owner left: the second connection on 4
speaks for nobody although the first one had logged in. -/
def reuseEvents : List Event :=
  [.accept 4, .line 0 "register a p a@x normal public\n", .line 0 "login a p\n", .hangup 0,
    .accept 4]

theorem session_identity_reuse :
    ∃ r, runEvents List.length 3 reuseEvents = some r ∧
      ∀ u, r.2.app.sessions.sessions 4 = some u ↔
        ∃ steps x p, connection 4 r.1 = some steps ∧
          steps.find? (isSessionStep List.length 4) = some x ∧
          commandOf x = some (.login u p) ∧
          StoresDigest x.pre u (Database.Hashpassword List.length p) := by
  obtain ⟨h, s, hr, hrun, _⟩ := runEvents_exists List.length 3 reuseEvents
    (p := fun _ _ => True) (by simp [reuseEvents]) (by decide)
  exact ⟨(h, s), hr, (session_identity hrun).1 4⟩

end SocialNetwork.Server
