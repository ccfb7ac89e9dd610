import SocialNetwork.Client.NetworkClient
import SocialNetwork.Server.Replies

/-!
# Calls and responses

`Exchange` is one connection on which `sendCommand` is called again and again. The server
reads each command in one chunk and answers it; TCP hands the bytes of the answers to
`recv` in pieces of any size.

Nothing in the protocol says where a response ends, and `sendCommand` takes what one `recv`
gives it. So a call returns the response to its own command as long as every `recv` takes
all that waits (`Whole`), and from the first that does not the calls and the responses are
out of step for good: `paired_iff`.
-/

namespace SocialNetwork.Client

open SocialNetwork.Lib SocialNetwork.Server

variable {hasher : Text → Nat} {serverSocket : Int} {i : Slot} {server : LoopState}

/-! ## The machine -/

/-- `unread` are the commands sent that the server has not read, oldest first; `awaiting`
says that a call is in `recv`. -/
structure Exchange where
  link : Link
  unread : List Text
  awaiting : Bool

/-- Nothing is under way. -/
def Exchange.quiet (server : LoopState) : Exchange := ⟨⟨server, true, [], []⟩, [], false⟩

inductive ExchangeEvent
  /-- `sendCommand(cmd)` is called and sends. -/
  | call (cmd : Text)
  /-- The server reads the oldest unread command. -/
  | read (env : Env)
  /-- `recv` returns `n` bytes, and the call returns with them. -/
  | recv (n : Nat)
  /-- The server does something else. -/
  | server (e : Event)

namespace Exchange

/-- The size of the next chunk. -/
def chunk (d : Exchange) : Nat := (d.unread.headD []).length

/-- What can happen: calls are made one after the other, a command fits one read of the
server, and a receipt its buffer. -/
def admits (i : Slot) (d : Exchange) : ExchangeEvent → Prop
  | .call cmd => d.awaiting = false ∧ (fullCmd cmd).length ≤ bufferSize - 1
  | .read env => d.unread ≠ [] ∧ Server.admits d.link.server (d.link.readEvent i env d.chunk)
  | .recv n => d.awaiting = true ∧ 0 < n ∧ n ≤ d.link.down.length ∧ n ≤ recvSize
  | .server e => slotOf e ≠ some i ∧ Server.admits d.link.server e

instance (i : Slot) (d : Exchange) (e : ExchangeEvent) : Decidable (d.admits i e) := by
  unfold admits
  split
  · infer_instance
  · infer_instance
  · infer_instance
  · infer_instance

def next (hasher : Text → Nat) (i : Slot) (d : Exchange) : ExchangeEvent → Exchange
  | .call cmd => ⟨d.link.send cmd, d.unread ++ [fullCmd cmd], true⟩
  | .read env => { d with link := d.link.read hasher i env d.chunk, unread := d.unread.tail }
  | .recv n => { d with link := d.link.receive n, awaiting := false }
  | .server e => { d with link := d.link.elsewhere hasher e }

end Exchange

/-- The connection on slot `i`, from the state `server` on. -/
def exchangeMachine (hasher : Text → Nat) (i : Slot) (server : LoopState) :
    Machine Exchange ExchangeEvent where
  init := .quiet server
  guard := Exchange.admits i
  next := Exchange.next hasher i

instance (hasher : Text → Nat) (i : Slot) (server : LoopState) :
    ∀ d e, Decidable ((exchangeMachine hasher i server).guard d e) :=
  fun d e => inferInstanceAs (Decidable (d.admits i e))

/-! ## What is claimed and what it takes -/

/-- The command a step sends. -/
def commandSent (x : Step Exchange ExchangeEvent) : Option Text :=
  match x.event with
  | .call cmd => some (fullCmd cmd)
  | _ => none

/-- The bytes the server reads in a step. -/
def chunkRead (x : Step Exchange ExchangeEvent) : Option Text :=
  match x.event with
  | .read _ => some (x.pre.link.up.take x.pre.chunk)
  | _ => none

/-- The complete response the server produces in a step. -/
def responseSent (hasher : Text → Nat) (i : Slot) (x : Step Exchange ExchangeEvent) :
    Option Text :=
  match x.event with
  | .read env => some (x.pre.link.response hasher i env x.pre.chunk)
  | _ => none

/-- What a call returns in a step. -/
def callReturned (x : Step Exchange ExchangeEvent) : Option Text :=
  match x.event with
  | .recv n => some (x.pre.link.received n)
  | _ => none

/-- The server reads the commands one by one as they were sent, the `k`-th call returns the
`k`-th response, and a call that has not returned can go on. -/
structure Paired (hasher : Text → Nat) (i : Slot) (h : History Exchange ExchangeEvent)
    (d : Exchange) : Prop where
  reads : observed chunkRead h <+: observed commandSent h
  returns : observed callReturned h <+: observed (responseSent hasher i) h
  answered : d.awaiting = true → d.unread ≠ [] ∨ d.link.down ≠ []

/-- A receipt takes all that was sent and not received. -/
def Whole (x : Step Exchange ExchangeEvent) : Prop :=
  match x.event with
  | .recv n => n = x.pre.link.down.length
  | _ => True

instance (x : Step Exchange ExchangeEvent) : Decidable (Whole x) := by
  unfold Whole
  split
  · infer_instance
  · infer_instance

/-- `CURRENT_TIMESTAMP` has its format at this event. -/
def ExchangeEvent.Timed : ExchangeEvent → Prop
  | .read env => IsTimestamp env.now
  | .server e => e.Timed
  | _ => True

@[simp] theorem ExchangeEvent.timed_call (cmd : Text) : (ExchangeEvent.call cmd).Timed := trivial

@[simp] theorem ExchangeEvent.timed_recv (n : Nat) : (ExchangeEvent.recv n).Timed := trivial

@[simp] theorem ExchangeEvent.timed_accept (fd : Int) : (ExchangeEvent.server (.accept fd)).Timed :=
  trivial

@[simp] theorem ExchangeEvent.timed_read_plain : (ExchangeEvent.read Env.plain).Timed :=
  (by decide : IsTimestamp Env.plain.now)

/-! ## What every run keeps -/

/-- The server is in a state it can be in, and has read a part of what was sent. -/
structure Traffic (hasher : Text → Nat) (serverSocket : Int) (h : History Exchange ExchangeEvent)
    (d : Exchange) : Prop where
  reachable : ∃ h', (machine hasher serverSocket).Run h' d.link.server ∧ ∀ x ∈ h', Timed x
  up : d.link.up = d.unread.flatten
  reads : observed commandSent h = observed chunkRead h ++ d.unread
  answered : d.awaiting = true → d.unread ≠ [] ∨ d.link.down ≠ []

/-- The oldest unread command is what the server reads next. -/
theorem Traffic.chunk_eq {h : History Exchange ExchangeEvent} {d : Exchange}
    (ht : Traffic hasher serverSocket h d) {c : Text} {unread : List Text}
    (hd : d.unread = c :: unread) :
    d.link.up.take d.chunk = c ∧ d.link.up.drop d.chunk = unread.flatten := by
  unfold Exchange.chunk
  rw [ht.up, hd]
  exact ⟨List.take_left, List.drop_left⟩

/-- The response to it can be sent. -/
theorem Traffic.sendable {h : History Exchange ExchangeEvent} {d : Exchange}
    (ht : Traffic hasher serverSocket h d) (env : Env) :
    Sendable (d.link.response hasher i env d.chunk) := by
  obtain ⟨h', hr, htimed⟩ := ht.reachable
  exact handle_sendable hr htimed env _ _

/-- One step keeps it. -/
theorem Traffic.step {h : History Exchange ExchangeEvent} {d : Exchange} {e : ExchangeEvent}
    (ht : Traffic hasher serverSocket h d) (hg : d.admits i e) (htimed : e.Timed) :
    Traffic hasher serverSocket (⟨d, e⟩ :: h) (d.next hasher i e) := by
  obtain ⟨h', hr, hold⟩ := ht.reachable
  cases e with
  | call cmd =>
    refine ⟨ht.reachable, ?_, ?_, fun _ => Or.inl (by simp [Exchange.next])⟩
    · show d.link.up ++ fullCmd cmd = (d.unread ++ [fullCmd cmd]).flatten
      rw [ht.up, List.flatten_append, List.flatten_singleton]
    · rw [observed_some (f := commandSent) rfl, observed_none (f := chunkRead) rfl, ht.reads]
      exact List.append_assoc ..
  | read env =>
    obtain ⟨c, unread, hd⟩ := List.exists_cons_of_ne_nil hg.1
    obtain ⟨hchunk, hrest⟩ := ht.chunk_eq hd
    have htail : d.unread.tail = unread := by rw [hd, List.tail_cons]
    refine ⟨⟨_, hr.step _ hg.2, List.forall_mem_cons.mpr ⟨htimed, hold⟩⟩, ?_, ?_, fun _ => ?_⟩
    · show d.link.up.drop d.chunk = d.unread.tail.flatten
      rw [hrest, htail]
    · rw [observed_none (f := commandSent) rfl, observed_some (f := chunkRead) rfl, ht.reads, hd,
        hchunk, List.append_assoc]
      show _ = _ ++ ([c] ++ d.unread.tail)
      rw [htail]
      rfl
    · exact Or.inr (List.append_ne_nil_of_right_ne_nil _ (ht.sendable env).1)
  | recv n =>
    refine ⟨ht.reachable, ht.up, ?_, fun hwait => by cases hwait⟩
    rw [observed_none (f := commandSent) rfl, observed_none (f := chunkRead) rfl]
    exact ht.reads
  | server e =>
    refine ⟨⟨_, hr.step e hg.2, List.forall_mem_cons.mpr ⟨htimed, hold⟩⟩, ht.up, ?_, ht.answered⟩
    rw [observed_none (f := commandSent) rfl, observed_none (f := chunkRead) rfl]
    exact ht.reads

/-! ## In step or out of step -/

/-- Where a connection can be whose receipts were all whole: between two calls, with a
command that the server has not read, or with the whole response on its way. -/
inductive InTurn (hasher : Text → Nat) (i : Slot) (h : History Exchange ExchangeEvent)
    (d : Exchange) : Prop
  | idle (hwait : d.awaiting = false) (hunread : d.unread = []) (hdown : d.link.down = [])
      (hsame : observed callReturned h = observed (responseSent hasher i) h) : InTurn hasher i h d
  | asked {c : Text} (hwait : d.awaiting = true) (hunread : d.unread = [c])
      (hdown : d.link.down = [])
      (hsame : observed callReturned h = observed (responseSent hasher i) h) : InTurn hasher i h d
  | answered {r : Text} (hwait : d.awaiting = true) (hunread : d.unread = [])
      (hdown : d.link.down = r) (hr : NulFree r)
      (hone : observed (responseSent hasher i) h = observed callReturned h ++ [r]) :
      InTurn hasher i h d

/-- A buffer with the whole response is the response. -/
theorem bufferText_eq {r : Text} (h : NulFree r) : bufferText r = r := by
  unfold bufferText
  rw [List.takeWhile_eq_self_iff]
  intro b hb
  rw [bne_iff_ne]
  exact fun heq => h (heq ▸ hb)

/-- A part of it is not. -/
theorem bufferText_take_ne {r : Text} {n : Nat} (h : n < r.length) : bufferText (r.take n) ≠ r := by
  intro heq
  have hle : (bufferText (r.take n)).length ≤ (r.take n).length :=
    (List.takeWhile_sublist _).length_le
  rw [heq, List.length_take] at hle
  omega

/-- **One step of a connection in turn**: it stays so unless a receipt leaves something. -/
theorem InTurn.step {h : History Exchange ExchangeEvent} {d : Exchange} {e : ExchangeEvent}
    (hin : InTurn hasher i h d) (ht : Traffic hasher serverSocket h d) (hg : d.admits i e) :
    (Whole ⟨d, e⟩ ∧ InTurn hasher i (⟨d, e⟩ :: h) (d.next hasher i e)) ∨
      (¬ Whole ⟨d, e⟩ ∧ Diverged (observed callReturned (⟨d, e⟩ :: h))
        (observed (responseSent hasher i) (⟨d, e⟩ :: h))) := by
  cases e with
  | call cmd =>
    refine Or.inl ⟨trivial, ?_⟩
    cases hin with
    | idle hwait hunread hdown hsame =>
      refine .asked (c := fullCmd cmd) rfl ?_ hdown ?_
      · show d.unread ++ [fullCmd cmd] = [fullCmd cmd]
        rw [hunread, List.nil_append]
      · rw [observed_none (f := callReturned) rfl, observed_none (f := responseSent hasher i) rfl]
        exact hsame
    | asked hwait _ _ _ => exact absurd (hg.1.symm.trans hwait) (by decide)
    | answered hwait _ _ _ _ => exact absurd (hg.1.symm.trans hwait) (by decide)
  | read env =>
    refine Or.inl ⟨trivial, ?_⟩
    cases hin with
    | idle _ hunread _ _ => exact absurd hunread hg.1
    | asked hwait hunread hdown hsame =>
      refine .answered (r := d.link.response hasher i env d.chunk) hwait ?_ ?_
        (ht.sendable env).2 ?_
      · show d.unread.tail = []
        rw [hunread, List.tail_cons]
      · show d.link.down ++ d.link.response hasher i env d.chunk = _
        rw [hdown, List.nil_append]
      · rw [observed_none (f := callReturned) rfl, observed_some (f := responseSent hasher i) rfl,
          hsame]
    | answered _ hunread _ _ _ => exact absurd hunread hg.1
  | recv n =>
    cases hin with
    | idle hwait _ _ _ => exact absurd (hwait.symm.trans hg.1) (by decide)
    | asked _ _ hdown _ =>
      have hle := hg.2.2.1
      rw [hdown, List.length_nil] at hle
      exact absurd hg.2.1 (by omega)
    | @answered r hwait hunread hdown hr hone =>
      by_cases hwhole : n = d.link.down.length
      · refine Or.inl ⟨hwhole, .idle rfl hunread ?_ ?_⟩
        · show d.link.down.drop n = []
          rw [hwhole, List.drop_length]
        · rw [observed_some (f := callReturned) rfl, observed_none (f := responseSent hasher i) rfl,
            hone]
          show _ ++ [bufferText (d.link.down.take n)] = _
          rw [hwhole, List.take_length, hdown, bufferText_eq hr]
      · -- the rest of the response stays for the next call
        refine Or.inr ⟨hwhole, observed callReturned h, d.link.received n, r, ?_, ?_, ?_⟩
        · have hle := hg.2.2.1
          unfold Link.received
          rw [hdown] at hle hwhole ⊢
          exact bufferText_take_ne (by omega)
        · rw [observed_some (f := callReturned) rfl]
        · rw [observed_none (f := responseSent hasher i) rfl, hone]
  | server e =>
    refine Or.inl ⟨trivial, ?_⟩
    have hret : observed callReturned (⟨d, .server e⟩ :: h) = observed callReturned h :=
      observed_none rfl h
    have hsent : observed (responseSent hasher i) (⟨d, .server e⟩ :: h) =
        observed (responseSent hasher i) h := observed_none rfl h
    cases hin with
    | idle hwait hunread hdown hsame => exact .idle hwait hunread hdown (by rw [hret, hsent, hsame])
    | asked hwait hunread hdown hsame =>
      exact .asked hwait hunread hdown (by rw [hret, hsent, hsame])
    | answered hwait hunread hdown hr hone =>
      exact .answered hwait hunread hdown hr (by rw [hret, hsent, hone])

theorem InTurn.returns {h : History Exchange ExchangeEvent} {d : Exchange}
    (hin : InTurn hasher i h d) :
    observed callReturned h <+: observed (responseSent hasher i) h := by
  cases hin with
  | idle _ _ _ hsame => rw [hsame]
  | asked _ _ _ hsame => rw [hsame]
  | answered _ _ _ _ hone =>
    rw [hone]
    exact List.prefix_append ..

/-- **A run is in turn as long as its receipts are whole**, and out of step for good after
the first that is not. -/
theorem inTurn_run {h : History Exchange ExchangeEvent} {d : Exchange}
    (hr₀ : ∃ h₀, (machine hasher serverSocket).Run h₀ server ∧ ∀ x ∈ h₀, Timed x)
    (hr : (exchangeMachine hasher i server).Run h d) (ht : ∀ x ∈ h, x.event.Timed) :
    Traffic hasher serverSocket h d ∧
      (((∀ x ∈ h, Whole x) ∧ InTurn hasher i h d) ∨
        ((¬ ∀ x ∈ h, Whole x) ∧
          Diverged (observed callReturned h) (observed (responseSent hasher i) h))) := by
  refine hr.invariant_history (P := fun x => x.event.Timed)
    (I := fun h d => Traffic hasher serverSocket h d ∧
      (((∀ x ∈ h, Whole x) ∧ InTurn hasher i h d) ∨
        ((¬ ∀ x ∈ h, Whole x) ∧
          Diverged (observed callReturned h) (observed (responseSent hasher i) h)))) ?_ ?_ ht
  · exact ⟨⟨hr₀, rfl, rfl, fun hwait => by cases hwait⟩,
      Or.inl ⟨List.forall_mem_nil _, .idle rfl rfl rfl rfl⟩⟩
  · intro h d e _ _ hI hg htimed
    obtain ⟨htraffic, hcase⟩ := hI
    refine ⟨htraffic.step hg htimed, ?_⟩
    rw [List.forall_mem_cons]
    rcases hcase with ⟨hwhole, hin⟩ | ⟨hnot, hdiv⟩
    · rcases hin.step htraffic hg with ⟨hx, hin⟩ | ⟨hx, hdiv⟩
      · exact Or.inl ⟨⟨hx, hwhole⟩, hin⟩
      · exact Or.inr ⟨fun hall => hx hall.1, hdiv⟩
    · exact Or.inr ⟨fun hall => hnot hall.2,
        hdiv.mono (observed_mono _ _ h) (observed_mono _ _ h)⟩

/-- **Calls and responses stay paired if and only if every receipt is whole.** For every
state of the server, every sequence of calls, every interleaving with the other clients and
every segmentation of the responses: the `k`-th call returns the complete response to the
`k`-th command, as long as no `recv` of the run leaves anything behind. -/
theorem paired_iff {h₀ : History LoopState Event} {h : History Exchange ExchangeEvent}
    {d : Exchange} (hr₀ : (machine hasher serverSocket).Run h₀ server) (ht₀ : ∀ x ∈ h₀, Timed x)
    (hr : (exchangeMachine hasher i server).Run h d) (ht : ∀ x ∈ h, x.event.Timed) :
    Paired hasher i h d ↔ ∀ x ∈ h, Whole x := by
  obtain ⟨htraffic, hcase⟩ := inTurn_run ⟨h₀, hr₀, ht₀⟩ hr ht
  constructor
  · intro hp
    rcases hcase with ⟨hwhole, _⟩ | ⟨_, hdiv⟩
    · exact hwhole
    · exact absurd hp.returns hdiv.not_prefix
  · intro hall
    rcases hcase with ⟨_, hin⟩ | ⟨hnot, _⟩
    · refine ⟨?_, hin.returns, htraffic.answered⟩
      rw [htraffic.reads]
      exact List.prefix_append ..
    · exact absurd hall hnot

/-- Two calls, with another client connecting in between; both responses arrive whole. -/
def wholeEvents : List ExchangeEvent :=
  [.server (.accept 4), .call (bytes "list_posts"), .server (.accept 5), .read Env.plain,
    .recv 12, .call (bytes "chats"), .read Env.plain, .recv 23]

theorem paired_iff_whole :
    ∃ h d, (exchangeMachine List.length 0 (LoopState.init 3)).Run h d ∧
      observed callReturned h = [bytes "OK No posts\n", bytes "ERROR Not authenticated"] ∧
      Paired List.length 0 h d := by
  have hevents : ∀ e ∈ wholeEvents, e.Timed := by simp [wholeEvents]
  obtain ⟨⟨h, d⟩, _, hrun, htimed, hreturned, hwhole⟩ := Machine.Run.replay_exists
    (M := exchangeMachine List.length 0 (LoopState.init 3))
    (p := fun r => observed callReturned r.1 =
      [bytes "OK No posts\n", bytes "ERROR Not authenticated"] ∧ ∀ x ∈ r.1, Whole x)
    hevents (by decide)
  have hinit : (machine List.length 3).Run [] (LoopState.init 3) := .init
  exact ⟨h, d, hrun, hreturned,
    (paired_iff hinit (List.forall_mem_nil _) hrun htimed).mpr hwhole⟩

/-- The response of 12 bytes arrives in two pieces. -/
def splitEvents : List ExchangeEvent :=
  [.server (.accept 4), .call (bytes "list_posts"), .read Env.plain, .recv 2]

/-- The calls do not always return the responses to their commands. -/
theorem not_paired :
    ¬ ∀ (hasher : Text → Nat) (serverSocket : Int) (i : Slot) (server : LoopState)
      (h₀ : History LoopState Event) (h : History Exchange ExchangeEvent) (d : Exchange),
      (machine hasher serverSocket).Run h₀ server → (∀ x ∈ h₀, Timed x) →
        (exchangeMachine hasher i server).Run h d → (∀ x ∈ h, x.event.Timed) →
          Paired hasher i h d := by
  intro hall
  have hevents : ∀ e ∈ splitEvents, e.Timed := by simp [splitEvents]
  obtain ⟨⟨h, d⟩, _, hrun, htimed, hreturned, hsent⟩ := Machine.Run.replay_exists
    (M := exchangeMachine List.length 0 (LoopState.init 3))
    (p := fun r => observed callReturned r.1 = [bytes "OK"] ∧
      observed (responseSent List.length 0) r.1 = [bytes "OK No posts\n"])
    hevents (by decide)
  have hp := hall _ 3 _ _ [] h d .init (List.forall_mem_nil _) hrun htimed
  have hreturns := hp.returns
  rw [hreturned, hsent] at hreturns
  exact absurd hreturns (by decide)

end SocialNetwork.Client
