import SocialNetwork.Lib.Simulation
import SocialNetwork.Server.Interruption

/-!
# The service over restarts

`machine` is one process of the server. `service` is its whole lifetime: processes one after
the other on the same database file. Between two events a process may stop
(`Incident.restarted`), and it may die while it serves a read, after any number of the
statements of the command (`Incident.killed`): `accept` may fail and end it by `error_exit`,
and `send` has no `MSG_NOSIGNAL`, so that a client that is gone ends it by SIGPIPE. The next
process finds the file as it was left (`initDatabase` creates only what is missing) and no
sessions.

`lifetime_run` compares lifetimes with runs: to the file and to the sessions a restart looks
as if all clients had hung up, and a death in the middle of a command as if the rest of its
writes had failed. So whatever holds in every run without an assumption about failing
statements holds over every lifetime.
-/

namespace SocialNetwork.Server

open SocialNetwork.Lib

variable {hasher : Text → Nat}

/-- `initDatabase`: `CREATE TABLE IF NOT EXISTS` leaves the tables of an existing file alone. -/
def Database.initDatabase : Option Db → Db
  | none => Db.empty
  | some file => file

/-- The state in which `main` enters its loop when there is a database file already. -/
def LoopState.boot (serverSocket : Int) (file : Option Db) : LoopState :=
  { LoopState.init serverSocket with app := ⟨Database.initDatabase file, SessionManager.empty⟩ }

/-- What can happen to the service. The listening socket of a new process may have any
descriptor. -/
inductive Incident
  | served (e : Event)
  | restarted (serverSocket : Int)
  | killed (i : Slot) (env : Env) (data : Text) (statements : Nat) (serverSocket : Int)

/-- The file a process leaves that dies while it serves a read. -/
def LoopState.fileAfter (hasher : Text → Nat) (s : LoopState) (i : Slot) (env : Env) (data : Text)
    (statements : Nat) : Db :=
  match CommandFactory.create env.junk (inputOf data) with
  | none => s.app.db
  | some cmd => cmd.interrupted hasher env (s.clientSocket i) s.app statements

/-- The service, from its first start on an empty directory. -/
def service (hasher : Text → Nat) (serverSocket : Int) : Machine LoopState Incident where
  init := LoopState.boot serverSocket none
  guard s
    | .served e => admits s e
    | .restarted _ => True
    | .killed i env data _ _ => admits s (.recv i env data)
  next s
    | .served e => next hasher s e
    | .restarted serverSocket => .boot serverSocket (some s.app.db)
    | .killed i env data statements serverSocket =>
      .boot serverSocket (some (s.fileAfter hasher i env data statements))

/-! ## What the clients asked for -/

/-- One read with all that decides what it does. -/
structure Reading where
  app : App
  sd : Int
  env : Env
  data : Text

/-- The read of a step of the loop. -/
def readingOf (x : Step LoopState Event) : Option Reading :=
  match x.event with
  | .recv i env data => some ⟨x.pre.app, x.pre.clientSocket i, env, data⟩
  | _ => none

/-- The read of an incident, and whether the process died over it. -/
def Incident.readingOf (x : Step LoopState Incident) : Option (Reading × Bool) :=
  match x.event with
  | .served e => (Server.readingOf ⟨x.pre, e⟩).map (·, false)
  | .restarted _ => none
  | .killed i env data _ _ => some (⟨x.pre.app, x.pre.clientSocket i, env, data⟩, true)

/-- The same read, of which some writes were lost if the process died over it. -/
def Reading.Repeats (r : Reading × Bool) (r' : Reading) : Prop :=
  ∃ lost, r' = { r.1 with env := r.1.env.cut lost } ∧ (r.2 = false → r' = r.1)

theorem Reading.repeats_self (r : Reading) : Reading.Repeats (r, false) r := by
  refine ⟨fun _ _ => false, ?_, fun _ => rfl⟩
  show r = { r with env := r.env.cut fun _ _ => false }
  rw [Env.cut_none]

/-! ## Every state of a lifetime is tracked -/

theorem tracked_boot (serverSocket : Int) (file : Option Db) :
    Tracked (.boot serverSocket file) where
  watched := rfl
  slots _ h := absurd rfl h
  distinct _ _ h := absurd rfl h
  session _ h := absurd rfl h
  conversation _ h := absurd rfl h

theorem tracked_service {serverSocket : Int} {h : History LoopState Incident} {s : LoopState}
    (hr : (service hasher serverSocket).Run h s) : Tracked s := by
  refine hr.invariant (P := fun _ => True) (tracked_boot serverSocket none) ?_ fun _ _ => trivial
  intro s e ht hg _
  cases e with
  | served e => exact ht.step hg
  | restarted serverSocket => exact tracked_boot _ _
  | killed i env data statements serverSocket => exact tracked_boot _ _

/-! ## One incident -/

/-- What one event does to the handlers' state. -/
inductive AppStep (hasher : Text → Nat) (a : App) : App → Prop
  | same : AppStep hasher a a
  | logout (sd : Int) : AppStep hasher a { a with sessions := a.sessions.logout sd }
  | command {env : Env} {sd : Int} {cmd : Command} {r : Text × App}
      (h : Effect hasher env sd a cmd r) : AppStep hasher a r.2

theorem appStep_handle (hasher : Text → Nat) (env : Env) (sd : Int) (data : Text) (a : App) :
    AppStep hasher a (handle hasher env sd data a).2 := by
  rcases handle_cases hasher env sd data a with ⟨_, h⟩ | ⟨cmd, _, h⟩
  · rw [h]
    exact .same
  · exact .command h

theorem appStep_next (s : LoopState) (e : Event) : AppStep hasher s.app (next hasher s e).app := by
  cases e with
  | accept fd => exact .same
  | hangup i => exact .logout _
  | recv i env data => exact appStep_handle hasher env _ data s.app

/-- The file after a death is that of some step. -/
theorem fileAfter_cut (hasher : Text → Nat) (s : LoopState) (i : Slot) (env : Env) (data : Text)
    (statements : Nat) :
    ∃ lost, (handle hasher (env.cut lost) (s.clientSocket i) data s.app).2.db =
      s.fileAfter hasher i env data statements := by
  unfold LoopState.fileAfter
  cases hcmd : CommandFactory.create env.junk (inputOf data) with
  | none =>
    refine ⟨fun _ _ => false, ?_⟩
    rw [handle_of_none hasher (env.cut _) _ _ hcmd]
  | some cmd =>
    obtain ⟨lost, hdb⟩ := interrupted hasher env (s.clientSocket i) s.app cmd statements
    refine ⟨lost, ?_⟩
    rw [handle_of_some hasher (env.cut lost) _ _ hcmd]
    exact hdb

/-- **What one incident does to the handlers' state**: one step, after which a new process has
forgotten the sessions. -/
theorem incident_appStep (serverSocket : Int) (s : LoopState) (e : Incident) :
    ∃ a, AppStep hasher s.app a ∧
      (((service hasher serverSocket).next s e).app = a ∨
        ((service hasher serverSocket).next s e).app = ⟨a.db, SessionManager.empty⟩) := by
  cases e with
  | served e => exact ⟨_, appStep_next s e, Or.inl rfl⟩
  | restarted => exact ⟨_, .same, Or.inr rfl⟩
  | killed i env data statements =>
    obtain ⟨lost, hfile⟩ := fileAfter_cut hasher s i env data statements
    refine ⟨_, appStep_handle hasher (env.cut lost) (s.clientSocket i) data s.app, Or.inr ?_⟩
    rw [hfile]
    rfl

/-! ## Everybody hangs up -/

/-- No descriptor is open but the listening socket, here 0, and those in the slots. -/
def NoLeak (s : LoopState) : Prop := ∀ fd ∈ s.opened, fd = 0 ∨ ∃ i, s.clientSocket i = fd

theorem NoLeak.hangup {s : LoopState} (h : NoLeak s) (i : Slot) : NoLeak (s.hangupSlot i) := by
  intro fd hfd
  obtain ⟨hne, hin⟩ := Finset.mem_erase.mp hfd
  refine (h fd hin).imp_right fun ⟨j, hj⟩ => ⟨j, ?_⟩
  have hji : j ≠ i := by
    rintro rfl
    exact hne hj.symm
  exact (Function.update_of_ne hji ..).trans hj

theorem NoLeak.accept {s : LoopState} (h : NoLeak s) {i : Slot}
    (hi : freeSlot s.clientSocket = some i)
    (fd : Int) : NoLeak (s.acceptFd fd) := by
  have hslots : (s.acceptFd fd).clientSocket = Function.update s.clientSocket i fd := by
    unfold LoopState.acceptFd
    rw [hi]
  intro fd' hfd'
  rw [hslots]
  rcases Finset.mem_insert.mp hfd' with rfl | hin
  · exact Or.inr ⟨i, Function.update_self ..⟩
  · rcases h fd' hin with h0 | ⟨j, hj⟩
    · exact Or.inl h0
    · by_cases hji : j = i
      · -- the free slot held no descriptor
        left
        rw [← hj, hji]
        exact freeSlot_eq_some hi
      · exact Or.inr ⟨j, (Function.update_of_ne hji ..).trans hj⟩

/-- The clients of the slots `l` can all hang up, one after the other. -/
theorem hangups_run (l : List Slot) {h : History LoopState Event} {s : LoopState}
    (hr : (machine hasher 0).Run h s) (hleak : NoLeak s) :
    ∃ new s', (machine hasher 0).Run (new ++ h) s' ∧ NoLeak s' ∧ s'.app.db = s.app.db ∧
      new.filterMap readingOf = [] ∧ (∀ i ∈ l, s'.clientSocket i = 0) ∧
      ∀ i, s.clientSocket i = 0 → s'.clientSocket i = 0 := by
  induction l generalizing h s with
  | nil => exact ⟨[], s, hr, hleak, rfl, rfl, nofun, fun _ h => h⟩
  | cons i l ih =>
    by_cases hi : s.clientSocket i = 0
    · obtain ⟨new, s', hr', hleak', hdb, hnew, hl, hkept⟩ := ih hr hleak
      exact ⟨new, s', hr', hleak', hdb, hnew, List.forall_mem_cons.mpr ⟨hkept i hi, hl⟩, hkept⟩
    · have ht := tracked_run hr
      have hadm : admits s (.hangup i) := ⟨(ht.slots i hi).1, ht.watched ▸ (ht.slots i hi).2⟩
      have hrun : (machine hasher 0).Run (⟨s, .hangup i⟩ :: h) (s.hangupSlot i) :=
        hr.step (Event.hangup i) hadm
      obtain ⟨new, s', hr', hleak', hdb, hnew, hl, hkept⟩ := ih hrun (hleak.hangup i)
      have hcleared : (s.hangupSlot i).clientSocket i = 0 := Function.update_self ..
      refine ⟨new ++ [⟨s, .hangup i⟩], s', ?_, hleak', hdb, ?_,
        List.forall_mem_cons.mpr ⟨hkept i hcleared, hl⟩, fun j hj => hkept j ?_⟩
      · rw [List.append_assoc]
        exact hr'
      · rw [List.filterMap_append, hnew]
        rfl
      · by_cases hji : j = i
        · rw [hji, hcleared]
        · exact (Function.update_of_ne hji ..).trans hj

/-- **After everybody has hung up the server is as if just started** on its file. -/
theorem emptied_run {h : History LoopState Event} {s : LoopState}
    (hr : (machine hasher 0).Run h s) (hleak : NoLeak s) :
    ∃ new s', (machine hasher 0).Run (new ++ h) s' ∧ NoLeak s' ∧
      s'.app = ⟨s.app.db, SessionManager.empty⟩ ∧ s'.clientSocket = (fun _ => 0) ∧
      new.filterMap readingOf = [] := by
  obtain ⟨new, s', hr', hleak', hdb, hnew, hl, _⟩ :=
    hangups_run (List.finRange maxClients) hr hleak
  have hslots : s'.clientSocket = fun _ => 0 := by
    funext i
    exact hl i (List.mem_finRange i)
  have ht := tracked_run hr'
  have hsessions : s'.app.sessions.sessions = fun _ => none := by
    funext sd
    by_contra hne
    obtain ⟨i, hi, h0⟩ := ht.session sd hne
    rw [hslots] at hi
    exact h0 hi.symm
  have hcurrent : s'.app.sessions.currentConversation = fun _ => none := by
    funext sd
    by_contra hne
    exact ht.conversation sd hne (congrFun hsessions sd)
  refine ⟨new, s', hr', hleak', ?_, hslots, hnew⟩
  show (⟨s'.app.db, ⟨s'.app.sessions.sessions, s'.app.sessions.currentConversation⟩⟩ : App) = _
  rw [hdb, hsessions, hcurrent]
  rfl

/-! ## A lifetime is a run -/

/-- The run shows the clients the same as the lifetime, and has read the same. -/
structure Mimics (h : History LoopState Incident) (s : LoopState) (k : History LoopState Event)
    (t : LoopState) : Prop where
  app : t.app = s.app
  slots : t.clientSocket = s.clientSocket
  noLeak : NoLeak t
  reads : List.Forall₂ Reading.Repeats (h.filterMap Incident.readingOf) (k.filterMap readingOf)

section

variable {serverSocket : Int} {h : History LoopState Incident} {s : LoopState}
  {k : History LoopState Event} {t : LoopState}

/-- What the kernel may deliver to the lifetime's process it may deliver to the run's. -/
theorem Mimics.admits (hm : Mimics h s k t) (hs : Tracked s) (ht : Tracked t) {e : Event}
    (hadm : admits s e) : Server.admits t e := by
  have hslot : ∀ i, 0 < s.clientSocket i →
      0 < t.clientSocket i ∧ t.clientSocket i ∈ t.masterSet := by
    intro i hi
    rw [← hm.slots] at hi
    exact ⟨hi, ht.watched ▸ (ht.slots i (Int.ne_of_gt hi)).2⟩
  cases e with
  | accept fd =>
    refine ⟨hadm.1, fun hin => ?_⟩
    have hpos := hadm.1
    rcases hm.noLeak fd hin with h0 | ⟨i, hi⟩
    · omega
    · rw [hm.slots] at hi
      exact hadm.2 (hi ▸ (hs.slots i (by omega)).2)
  | hangup i => exact hslot i hadm.1
  | recv i env data => exact ⟨hslot i hadm.1.1, hadm.2⟩

/-- An event of the loop. An accepted descriptor no slot is free for is skipped: nothing but
the set of watched descriptors shows it. -/
theorem Mimics.served (hm : Mimics h s k t) (hs : Tracked s)
    (hrun : (machine hasher 0).Run k t) {e : Event} (hadm : Server.admits s e) :
    ∃ new t', (machine hasher 0).Run (new ++ k) t' ∧
      Mimics (⟨s, .served e⟩ :: h) (next hasher s e) (new ++ k) t' := by
  have ht := tracked_run hrun
  have hrun' := hrun.step e (hm.admits hs ht hadm)
  cases e with
  | accept fd =>
    cases hfree : freeSlot s.clientSocket with
    | none =>
      have hslots : (s.acceptFd fd).clientSocket = s.clientSocket := by
        unfold LoopState.acceptFd
        rw [hfree]
      exact ⟨[], t, hrun, hm.app, hm.slots.trans hslots.symm, hm.noLeak, hm.reads⟩
    | some i =>
      refine ⟨[⟨t, .accept fd⟩], t.acceptFd fd, hrun', hm.app, ?_,
        hm.noLeak.accept (hm.slots ▸ hfree) fd, hm.reads⟩
      show (t.acceptFd fd).clientSocket = (s.acceptFd fd).clientSocket
      unfold LoopState.acceptFd
      rw [hm.slots]
  | hangup i =>
    refine ⟨[⟨t, .hangup i⟩], t.hangupSlot i, hrun', ?_, ?_, hm.noLeak.hangup i, hm.reads⟩
    · show (t.hangupSlot i).app = (s.hangupSlot i).app
      unfold LoopState.hangupSlot
      rw [hm.app, hm.slots]
    · show (t.hangupSlot i).clientSocket = (s.hangupSlot i).clientSocket
      unfold LoopState.hangupSlot
      rw [hm.slots]
  | recv i env data =>
    refine ⟨[⟨t, .recv i env data⟩], t.recvSlot hasher i env data, hrun', ?_, hm.slots, hm.noLeak,
      .cons ?_ hm.reads⟩
    · show (handle hasher env (t.clientSocket i) data t.app).2 =
        (handle hasher env (s.clientSocket i) data s.app).2
      rw [hm.app, hm.slots]
    · show Reading.Repeats (⟨s.app, s.clientSocket i, env, data⟩, false)
        ⟨t.app, t.clientSocket i, env, data⟩
      rw [hm.app, hm.slots]
      exact Reading.repeats_self _

/-- A new process: everybody hangs up. -/
theorem Mimics.restarted (hm : Mimics h s k t) (hrun : (machine hasher 0).Run k t)
    (serverSocket : Int) :
    ∃ new t', (machine hasher 0).Run (new ++ k) t' ∧
      Mimics (⟨s, .restarted serverSocket⟩ :: h) (.boot serverSocket (some s.app.db))
        (new ++ k) t' := by
  obtain ⟨new, t', hrun', hleak, happ, hslots, hnew⟩ := emptied_run hrun hm.noLeak
  refine ⟨new, t', hrun', ?_, hslots, hleak, ?_⟩
  · rw [happ, hm.app]
    rfl
  · rw [List.filterMap_append, hnew]
    exact hm.reads

/-- A death over a command: the rest of its writes is lost, and everybody hangs up. -/
theorem Mimics.killed (hm : Mimics h s k t) (hs : Tracked s) (hrun : (machine hasher 0).Run k t)
    {i : Slot} {env : Env} {data : Text} (hadm : Server.admits s (.recv i env data))
    (statements : Nat) (serverSocket : Int) :
    ∃ new t', (machine hasher 0).Run (new ++ k) t' ∧
      Mimics (⟨s, .killed i env data statements serverSocket⟩ :: h)
        (.boot serverSocket (some (s.fileAfter hasher i env data statements))) (new ++ k) t' := by
  obtain ⟨lost, hfile⟩ := fileAfter_cut hasher s i env data statements
  have hadm' : Server.admits t (.recv i (env.cut lost) data) := by
    have := hm.admits hs (tracked_run hrun) hadm
    exact ⟨this.1, this.2⟩
  obtain ⟨new, t', hrun', hleak, happ, hslots, hnew⟩ :=
    emptied_run (hrun.step (Event.recv i (env.cut lost) data) hadm') hm.noLeak
  refine ⟨new ++ [⟨t, .recv i (env.cut lost) data⟩], t', ?_, ?_, hslots, hleak, ?_⟩
  · rw [List.append_assoc]
    exact hrun'
  · rw [happ]
    show (⟨(handle hasher (env.cut lost) (t.clientSocket i) data t.app).2.db, _⟩ : App) = _
    rw [hm.app, hm.slots, hfile]
    rfl
  · rw [List.append_assoc, List.filterMap_append, hnew]
    refine .cons ⟨lost, ?_, nofun⟩ hm.reads
    show (⟨t.app, t.clientSocket i, env.cut lost, data⟩ : Reading) =
      ⟨s.app, s.clientSocket i, env.cut lost, data⟩
    rw [hm.app, hm.slots]

/-- **Every lifetime looks like a run of one process that is never stopped**: with the same
state, and with the same reads in the same order, of which those a process died over have lost
writes. -/
theorem lifetime_mimics (hr : (service hasher serverSocket).Run h s) :
    ∃ k t, (machine hasher 0).Run k t ∧ Mimics h s k t := by
  refine hr.simulated (P := fun _ => True) (R := Mimics) ?_ ?_ fun _ _ => trivial
  · refine ⟨rfl, rfl, fun fd hfd => Or.inl ?_, .nil⟩
    exact Finset.mem_singleton.mp hfd
  · intro h s k t e hr _ hrun hm hg _
    have hs := tracked_service hr
    cases e with
    | served e => exact hm.served hs hrun hg
    | restarted serverSocket => exact hm.restarted hrun serverSocket
    | killed i env data statements serverSocket =>
      exact hm.killed hs hrun hg statements serverSocket

end

end SocialNetwork.Server
