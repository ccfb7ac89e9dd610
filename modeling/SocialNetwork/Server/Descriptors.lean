import SocialNetwork.Server.Effect
import SocialNetwork.Server.Parsing

/-!
# Descriptors, slots and sessions stay in step

`Tracked` ties the socket tables of the loop to the session maps: a used slot
holds an open, watched descriptor that no other slot holds, and only such
descriptors carry a session. `tracked_run` proves it for every run, whatever
statements fail: it is what makes a freshly accepted descriptor clean.
-/

namespace SocialNetwork.Server

open SocialNetwork.Lib

/-! ## What a command does to the session maps -/

section

variable {hasher : Text → Nat} {env : Env} {sd : Int} {a : App}

/-- `login` and `logout`. -/
def Command.isSession : Command → Bool
  | .login _ _ | .logout => true
  | _ => false

@[simp] theorem GroupCommand.created_db (id : Int) (db : Db) :
    (GroupCommand.created sd a id db).2.db = db := by
  unfold GroupCommand.created
  split
  · rfl
  · rfl

/-- Commands on one socket leave every other socket's entries alone. -/
theorem Effect.frame {cmd : Command} {r : Text × App} (h : Effect hasher env sd a cmd r)
    {sd' : Int} (hne : sd' ≠ sd) :
    r.2.sessions.sessions sd' = a.sessions.sessions sd' ∧
      r.2.sessions.currentConversation sd' = a.sessions.currentConversation sd' := by
  cases h with
  | login => exact ⟨SessionManager.login_sessions_ne hne _, rfl⟩
  | logout => exact ⟨SessionManager.logout_sessions_ne hne,
      SessionManager.logout_currentConversation_ne hne⟩
  | openConversation => exact ⟨rfl, SessionManager.openConversation_currentConversation_ne hne _⟩
  | group =>
    unfold GroupCommand.created
    split
    · exact ⟨rfl, rfl⟩
    · exact ⟨rfl, SessionManager.openConversation_currentConversation_ne hne _⟩
  | _ => exact ⟨rfl, rfl⟩

/-- The session changes through a successful `login` or `logout` only. -/
theorem Effect.session {cmd : Command} {r : Text × App} (h : Effect hasher env sd a cmd r) :
    (∃ u p, cmd = .login u p ∧ isOk r.1 = true ∧
        Database.authenticateUser hasher env a.db u p ≠ none ∧
        r.2.sessions.sessions sd = some u) ∨
      (cmd = .logout ∧ isOk r.1 = true ∧ r.2.sessions.sessions sd = none) ∨
      ((isOk r.1 = true → cmd.isSession = false) ∧
        r.2.sessions.sessions sd = a.sessions.sessions sd) := by
  cases h with
  | @login u p _ hauth =>
    exact Or.inl ⟨u, p, rfl, rfl, hauth, SessionManager.login_sessions_self ..⟩
  | logout => exact Or.inr (Or.inl ⟨rfl, rfl, SessionManager.logout_sessions_self ..⟩)
  | @idle cmd reply hread =>
    refine Or.inr (Or.inr ⟨fun hok => ?_, rfl⟩)
    have := hread hok
    cases cmd <;> first | rfl | cases this
  | group =>
    refine Or.inr (Or.inr ⟨fun _ => rfl, ?_⟩)
    unfold GroupCommand.created
    split <;> rfl
  | _ => exact Or.inr (Or.inr ⟨fun _ => rfl, rfl⟩)

/-- An open conversation never outlives the session it was opened in. -/
theorem Effect.conversation {cmd : Command} {r : Text × App} (h : Effect hasher env sd a cmd r)
    (ha : a.sessions.currentConversation sd ≠ none → a.sessions.sessions sd ≠ none) :
    r.2.sessions.currentConversation sd ≠ none → r.2.sessions.sessions sd ≠ none := by
  cases h with
  | login => intro _; rw [SessionManager.login_sessions_self]; simp
  | logout => intro hc; exact absurd (SessionManager.logout_currentConversation_self ..) hc
  | openConversation hs =>
    intro _
    show a.sessions.sessions sd ≠ none
    rw [hs]
    simp
  | group hs =>
    unfold GroupCommand.created
    split
    · exact ha
    · intro _
      show a.sessions.sessions sd ≠ none
      rw [hs]
      simp
  | _ => exact ha

end

/-! ## The response to one read -/

variable {hasher : Text → Nat}

/-- A read either parses to no command, and then changes nothing, or has one of
its command's outcomes. -/
theorem handle_cases (hasher : Text → Nat) (env : Env) (sd : Int) (data : Text) (a : App) :
    (CommandFactory.create env.junk (inputOf data) = none ∧
        handle hasher env sd data a = (bytes "ERROR Unknown command\n", a)) ∨
      ∃ cmd, CommandFactory.create env.junk (inputOf data) = some cmd ∧
        Effect hasher env sd a cmd (handle hasher env sd data a) := by
  cases hc : CommandFactory.create env.junk (inputOf data) with
  | none => exact Or.inl ⟨rfl, handle_of_none hasher env sd a hc⟩
  | some cmd =>
    refine Or.inr ⟨cmd, rfl, ?_⟩
    rw [handle_of_some hasher env sd a hc]
    exact execute_effect hasher env sd a cmd

theorem handle_frame (hasher : Text → Nat) (env : Env) (sd : Int) (data : Text) (a : App)
    {sd' : Int} (hne : sd' ≠ sd) :
    (handle hasher env sd data a).2.sessions.sessions sd' = a.sessions.sessions sd' ∧
      (handle hasher env sd data a).2.sessions.currentConversation sd' =
        a.sessions.currentConversation sd' := by
  rcases handle_cases hasher env sd data a with ⟨_, h⟩ | ⟨cmd, _, h⟩
  · rw [h]
    exact ⟨rfl, rfl⟩
  · exact h.frame hne

/-- **The rule for the handlers' state**: a property of it that holds at the start, and
that every listed outcome of a well-formed command and every disconnect keep, holds after
every run. `Q` is what the run's commands assume of their environments. -/
theorem app_invariant {serverSocket : Int} {Q : Env → Prop} {I : App → Prop} (h0 : I App.init)
    (hlogout : ∀ a sd, I a → I { a with sessions := a.sessions.logout sd })
    (hcmd : ∀ {env sd a cmd r}, Effect hasher env sd a cmd r → cmd.WellFormed → Q env → I a → I r.2)
    {h : History LoopState Event} {s : LoopState} (hr : (machine hasher serverSocket).Run h s)
    (hQ : ∀ x ∈ h, ∀ i env data, x.event = .recv i env data → Q env) : I s.app := by
  refine hr.invariant (P := fun x => ∀ i env data, x.event = .recv i env data → Q env)
    (I := fun s => I s.app) h0 ?_ hQ
  intro s e hI _ hq
  cases e with
  | accept fd => exact hI
  | hangup i => exact hlogout s.app (s.clientSocket i) hI
  | recv i env data =>
    show I (handle hasher env (s.clientSocket i) data s.app).2
    rcases handle_cases hasher env (s.clientSocket i) data s.app with ⟨_, h⟩ | ⟨cmd, hcreate, h⟩
    · rw [h]
      exact hI
    · exact hcmd h (create_wellFormed hcreate (nul_not_mem_inputOf data)) (hq i env data rfl) hI

/-! ## The invariant -/

/-- Used slots hold open, watched descriptors, each in one slot only; no other
descriptor has a session, and none an open conversation without a session. -/
structure Tracked (s : LoopState) : Prop where
  watched : s.masterSet = s.opened
  slots : ∀ i, s.clientSocket i ≠ 0 → 0 < s.clientSocket i ∧ s.clientSocket i ∈ s.opened
  distinct : ∀ i j, s.clientSocket i ≠ 0 → s.clientSocket i = s.clientSocket j → i = j
  session : ∀ sd, s.app.sessions.sessions sd ≠ none → ∃ i, s.clientSocket i = sd ∧ sd ≠ 0
  conversation : ∀ sd, s.app.sessions.currentConversation sd ≠ none →
    s.app.sessions.sessions sd ≠ none

theorem tracked_init (serverSocket : Int) : Tracked (LoopState.init serverSocket) where
  watched := rfl
  slots _ h := absurd rfl h
  distinct _ _ h := absurd rfl h
  session _ h := absurd rfl h
  conversation _ h := absurd rfl h

/-- A free slot is empty. -/
theorem freeSlot_eq_some {cs : Slot → Int} {i : Slot} (h : freeSlot cs = some i) : cs i = 0 := by
  unfold freeSlot at h
  have := List.find?_some h
  simpa using this

/-- The slot table after an accept: the new descriptor in a formerly empty slot,
or the old table when there is none. -/
theorem acceptFd_slots (s : LoopState) (fd : Int) :
    (∃ i, s.clientSocket i = 0 ∧
        (s.acceptFd fd).clientSocket = Function.update s.clientSocket i fd) ∨
      (s.acceptFd fd).clientSocket = s.clientSocket := by
  unfold LoopState.acceptFd
  cases hf : freeSlot s.clientSocket with
  | none => exact Or.inr rfl
  | some i => exact Or.inl ⟨i, freeSlot_eq_some hf, rfl⟩

/-- An accept leaves every used slot as it was. -/
theorem acceptFd_slot_of_ne {s : LoopState} (fd : Int) {i : Slot} (h : s.clientSocket i ≠ 0) :
    (s.acceptFd fd).clientSocket i = s.clientSocket i := by
  rcases acceptFd_slots s fd with ⟨j, hj, hcs⟩ | hcs
  · have hij : i ≠ j := by
      rintro rfl
      exact h hj
    rw [hcs, Function.update_of_ne hij]
  · rw [hcs]

/-- A slot used after an accept was used before or holds the new descriptor. -/
theorem acceptFd_slot_cases {s : LoopState} {fd : Int} {i : Slot}
    (h : (s.acceptFd fd).clientSocket i ≠ 0) :
    (s.acceptFd fd).clientSocket i = fd ∨
      (s.clientSocket i ≠ 0 ∧ (s.acceptFd fd).clientSocket i = s.clientSocket i) := by
  by_cases hi : s.clientSocket i = 0
  · rcases acceptFd_slots s fd with ⟨j, _, hcs⟩ | hcs
    · by_cases hij : i = j
      · left
        rw [hcs, hij, Function.update_self]
      · rw [hcs, Function.update_of_ne hij] at h
        exact absurd hi h
    · rw [hcs] at h
      exact absurd hi h
  · exact Or.inr ⟨hi, acceptFd_slot_of_ne fd hi⟩

theorem tracked_accept {s : LoopState} {fd : Int} (ht : Tracked s) (hpos : 0 < fd)
    (hnew : fd ∉ s.opened) : Tracked (s.acceptFd fd) where
  watched := congrArg (insert fd) ht.watched
  slots i hi := by
    rcases acceptFd_slot_cases hi with hfd | ⟨hold, heq⟩
    · rw [hfd]
      exact ⟨hpos, Finset.mem_insert_self ..⟩
    · rw [heq]
      exact ⟨(ht.slots i hold).1, Finset.mem_insert_of_mem (ht.slots i hold).2⟩
  distinct i j hi hij := by
    have hj : (s.acceptFd fd).clientSocket j ≠ 0 := hij ▸ hi
    -- a descriptor that is not open is in no slot
    have hfresh : ∀ k, s.clientSocket k ≠ 0 → s.clientSocket k ≠ fd :=
      fun k hk he => hnew (he ▸ (ht.slots k hk).2)
    rcases acceptFd_slots s fd with ⟨k, hk, hcs⟩ | hcs
    · rw [hcs] at hi hj hij
      by_cases hik : i = k
      · by_cases hjk : j = k
        · rw [hik, hjk]
        · rw [hik, Function.update_self, Function.update_of_ne hjk] at hij
          rw [Function.update_of_ne hjk] at hj
          exact absurd hij.symm (hfresh j hj)
      · rw [Function.update_of_ne hik] at hi hij
        by_cases hjk : j = k
        · rw [hjk, Function.update_self] at hij
          exact absurd hij (hfresh i hi)
        · rw [Function.update_of_ne hjk] at hij
          exact ht.distinct i j hi hij
    · rw [hcs] at hi hij
      exact ht.distinct i j hi hij
  session sd hsd := by
    obtain ⟨i, hi, hne⟩ := ht.session sd hsd
    exact ⟨i, (acceptFd_slot_of_ne fd (hi ▸ hne)).trans hi, hne⟩
  conversation := ht.conversation

theorem tracked_hangup {s : LoopState} {i : Slot} (ht : Tracked s) (hi : 0 < s.clientSocket i) :
    Tracked (s.hangupSlot i) := by
  have hslot : ∀ j, (s.hangupSlot i).clientSocket j ≠ 0 →
      j ≠ i ∧ (s.hangupSlot i).clientSocket j = s.clientSocket j := by
    intro j hj
    have hji : j ≠ i := by
      rintro rfl
      exact hj (Function.update_self ..)
    exact ⟨hji, Function.update_of_ne hji ..⟩
  refine ⟨congrArg (Finset.erase · (s.clientSocket i)) ht.watched, ?_, ?_, ?_, ?_⟩
  · intro j hj
    obtain ⟨hji, heq⟩ := hslot j hj
    rw [heq] at hj ⊢
    refine ⟨(ht.slots j hj).1, Finset.mem_erase.mpr ⟨?_, (ht.slots j hj).2⟩⟩
    exact fun he => hji (ht.distinct j i hj he)
  · intro j k hj hjk
    have hk : (s.hangupSlot i).clientSocket k ≠ 0 := hjk ▸ hj
    rw [(hslot j hj).2, (hslot k hk).2] at hjk
    rw [(hslot j hj).2] at hj
    exact ht.distinct j k hj hjk
  · intro sd hsd
    have hne : sd ≠ s.clientSocket i := by
      rintro rfl
      exact hsd (SessionManager.logout_sessions_self ..)
    rw [show (s.hangupSlot i).app.sessions.sessions sd = s.app.sessions.sessions sd from
      SessionManager.logout_sessions_ne hne] at hsd
    obtain ⟨j, hj, h0⟩ := ht.session sd hsd
    have hji : j ≠ i := by
      rintro rfl
      exact hne hj.symm
    exact ⟨j, (Function.update_of_ne hji ..).trans hj, h0⟩
  · intro sd hsd
    have hne : sd ≠ s.clientSocket i := by
      rintro rfl
      exact hsd (SessionManager.logout_currentConversation_self ..)
    show (s.app.sessions.logout (s.clientSocket i)).sessions sd ≠ none
    rw [SessionManager.logout_sessions_ne hne]
    apply ht.conversation
    rw [← SessionManager.logout_currentConversation_ne hne]
    exact hsd

theorem tracked_recv {s : LoopState} {i : Slot} {env : Env} {data : Text} (ht : Tracked s)
    (hi : 0 < s.clientSocket i) : Tracked (s.recvSlot hasher i env data) where
  watched := ht.watched
  slots := ht.slots
  distinct := ht.distinct
  session sd hsd := by
    by_cases hsdi : sd = s.clientSocket i
    · exact ⟨i, hsdi.symm, by omega⟩
    · apply ht.session
      rw [← (handle_frame hasher env (s.clientSocket i) data s.app hsdi).1]
      exact hsd
  conversation sd hsd := by
    by_cases hsdi : sd = s.clientSocket i
    · subst hsdi
      rcases handle_cases hasher env (s.clientSocket i) data s.app with ⟨_, h⟩ | ⟨cmd, _, h⟩
      · simp only [LoopState.recvSlot, h] at hsd ⊢
        exact ht.conversation _ hsd
      · exact h.conversation (ht.conversation _) hsd
    · have hf := handle_frame hasher env (s.clientSocket i) data s.app hsdi
      simp only [LoopState.recvSlot, hf.1, hf.2] at hsd ⊢
      exact ht.conversation sd hsd

theorem Tracked.step {s : LoopState} {e : Event} (ht : Tracked s) (hg : admits s e) :
    Tracked (next hasher s e) := by
  cases e with
  | accept fd => exact tracked_accept ht hg.1 hg.2
  | hangup i => exact tracked_hangup ht hg.1
  | recv i env data => exact tracked_recv ht hg.1.1

/-- **Descriptors and sessions are tracked in every reachable state**, whatever
statements fail. -/
theorem tracked_run {serverSocket : Int} {h : History LoopState Event} {s : LoopState}
    (hr : (machine hasher serverSocket).Run h s) : Tracked s :=
  hr.invariant (P := fun _ => True) (tracked_init serverSocket) (fun _ _ ht hg _ => ht.step hg)
    fun _ _ => trivial

end SocialNetwork.Server
