import SocialNetwork.Server.Descriptors

/-!
# Which connections the loop serves

`select` watches the descriptors of `master_set`, and the loop serves those it finds in
`client_socket`. An accepted descriptor always goes into the set, but into the table only
if a slot is free. `connections_tracked_iff` says of every run that the two are in step
exactly as long as no accept has found the table full: a descriptor accepted then is
watched for good and never read from, nor closed.
-/

namespace SocialNetwork.Server

open SocialNetwork.Lib

variable {hasher : Text → Nat} {serverSocket : Int}

/-- The watched descriptors other than the listening socket are exactly the non-zero
entries of the slot table, each in one slot, and no other connection is open. -/
structure AllServed (s : LoopState) : Prop where
  served : ∀ fd, (fd ∈ s.masterSet ∧ fd ≠ s.serverSocket) ↔
    (fd ≠ 0 ∧ ∃ i, s.clientSocket i = fd)
  distinct : ∀ i j, s.clientSocket i ≠ 0 → s.clientSocket i = s.clientSocket j → i = j
  opened : ∀ fd ∈ s.opened, fd ≠ s.serverSocket → ∃ i, s.clientSocket i = fd

/-- Every slot is taken. -/
def Full (s : LoopState) : Prop := ∀ i, s.clientSocket i ≠ 0

instance (s : LoopState) : Decidable (Full s) :=
  inferInstanceAs (Decidable (∀ i, s.clientSocket i ≠ 0))

/-- An accept that finds no free slot. -/
def Overcrowds (x : Step LoopState Event) : Prop := (∃ fd, x.event = .accept fd) ∧ Full x.pre

theorem freeSlot_eq_none_iff {s : LoopState} : freeSlot s.clientSocket = none ↔ Full s := by
  unfold freeSlot Full
  rw [List.find?_eq_none]
  constructor
  · intro h i hi
    exact h i (List.mem_finRange i) (by simp [hi])
  · intro h i _ hi
    exact h i (by simpa using hi)

/-- With a free slot the new descriptor gets one. -/
theorem acceptFd_slot {s : LoopState} (fd : Int) (h : ¬ Full s) :
    ∃ i, s.clientSocket i = 0 ∧
      (s.acceptFd fd).clientSocket = Function.update s.clientSocket i fd := by
  unfold LoopState.acceptFd
  cases hf : freeSlot s.clientSocket with
  | none => exact absurd (freeSlot_eq_none_iff.mp hf) h
  | some i => exact ⟨i, freeSlot_eq_some hf, rfl⟩

/-- Without one the table stays as it is. -/
theorem acceptFd_full {s : LoopState} (fd : Int) (h : Full s) :
    (s.acceptFd fd).clientSocket = s.clientSocket := by
  unfold LoopState.acceptFd
  rw [freeSlot_eq_none_iff.mpr h]

/-! ## The listening socket -/

/-- The listening socket stays open and in no slot. -/
structure Listening (serverSocket : Int) (s : LoopState) : Prop where
  socket : s.serverSocket = serverSocket
  opened : serverSocket ∈ s.opened
  slots : ∀ i, s.clientSocket i ≠ 0 → s.clientSocket i ≠ serverSocket

theorem listening_run {h : History LoopState Event} {s : LoopState}
    (hr : (machine hasher serverSocket).Run h s) : Listening serverSocket s := by
  refine hr.invariant (P := fun _ => True) (I := Listening serverSocket) ?_ ?_ fun _ _ => trivial
  · exact ⟨rfl, Finset.mem_singleton_self _, fun _ h => absurd rfl h⟩
  intro s e hI hg _
  cases e with
  | accept fd =>
    refine ⟨hI.socket, Finset.mem_insert_of_mem hI.opened, fun i hi => ?_⟩
    rcases acceptFd_slot_cases hi with heq | ⟨hold, heq⟩
    · -- the new descriptor was not open, the listening one was
      intro hsrv
      exact hg.2 ((heq.symm.trans hsrv) ▸ hI.opened)
    · rw [show (machine hasher serverSocket).next s (.accept fd) = s.acceptFd fd from rfl, heq]
      exact hI.slots i hold
  | hangup i =>
    have hne : s.clientSocket i ≠ serverSocket := hI.slots i (by have := hg.1; omega)
    refine ⟨hI.socket, Finset.mem_erase.mpr ⟨Ne.symm hne, hI.opened⟩, fun j hj => ?_⟩
    show Function.update s.clientSocket i 0 j ≠ serverSocket
    by_cases hji : j = i
    · subst hji
      exact absurd (Function.update_self ..) hj
    · rw [Function.update_of_ne hji]
      refine hI.slots j fun h0 => hj ?_
      exact (Function.update_of_ne hji ..).trans h0
  | recv i env data => exact ⟨hI.socket, hI.opened, hI.slots⟩

/-! ## Served or lost -/

/-- Every watched descriptor but the listening one is in a slot. -/
def Served (s : LoopState) : Prop :=
  ∀ fd ∈ s.masterSet, fd ≠ s.serverSocket → fd ≠ 0 ∧ ∃ i, s.clientSocket i = fd

/-- The descriptor is watched and in no slot. -/
structure Lost (fd : Int) (s : LoopState) : Prop where
  watched : fd ∈ s.masterSet
  connection : fd ≠ s.serverSocket
  unserved : ∀ i, s.clientSocket i ≠ fd

/-- The slots serve what is watched as long as every accept finds a free one. -/
theorem Served.step {s : LoopState} {e : Event} (hI : Served s) (hg : admits s e)
    (hfree : ¬ Overcrowds ⟨s, e⟩) : Served (next hasher s e) := by
  cases e with
  | accept fd =>
    obtain ⟨i, hi, hcs⟩ := acceptFd_slot fd fun hfull => hfree ⟨⟨fd, rfl⟩, hfull⟩
    intro fd' hmem hne
    show fd' ≠ 0 ∧ ∃ j, (s.acceptFd fd).clientSocket j = fd'
    rw [hcs]
    rcases Finset.mem_insert.mp hmem with rfl | hold
    · exact ⟨by have := hg.1; omega, i, Function.update_self ..⟩
    · obtain ⟨h0, j, hj⟩ := hI fd' hold hne
      have hji : j ≠ i := by
        intro heq
        rw [heq, hi] at hj
        exact h0 hj.symm
      exact ⟨h0, j, (Function.update_of_ne hji ..).trans hj⟩
  | hangup i =>
    intro fd' hmem hne
    obtain ⟨hfd, hold⟩ := Finset.mem_erase.mp hmem
    obtain ⟨h0, j, hj⟩ := hI fd' hold hne
    have hji : j ≠ i := by
      intro heq
      exact hfd (hj.symm.trans (congrArg s.clientSocket heq))
    exact ⟨h0, j, (Function.update_of_ne hji ..).trans hj⟩
  | recv i env data => exact hI

/-- A descriptor accepted into a full table is lost. -/
theorem lost_of_full {s : LoopState} {fd : Int} (ht : Tracked s) (hl : Listening serverSocket s)
    (hg : admits s (.accept fd)) (hfull : Full s) : Lost fd (s.acceptFd fd) where
  watched := Finset.mem_insert_self ..
  connection hsrv := hg.2 (hsrv ▸ hl.socket ▸ hl.opened)
  unserved i := by
    rw [acceptFd_full fd hfull]
    intro heq
    exact hg.2 (heq ▸ (ht.slots i (hfull i)).2)

/-- **A lost descriptor stays lost**: it is in no slot, so it is never closed, and being
open it is never accepted again. -/
theorem Lost.step {s : LoopState} {e : Event} {fd : Int} (hl : Lost fd s) (ht : Tracked s)
    (h0 : fd ≠ 0) (hg : admits s e) : Lost fd (next hasher s e) := by
  cases e with
  | accept fd' =>
    have hne : fd ≠ fd' := by
      intro heq
      exact hg.2 (heq ▸ ht.watched ▸ hl.watched)
    refine ⟨Finset.mem_insert_of_mem hl.watched, hl.connection, fun i hi => ?_⟩
    have hused : (s.acceptFd fd').clientSocket i ≠ 0 := fun hz => h0 (hi.symm.trans hz)
    rcases acceptFd_slot_cases hused with heq | ⟨_, heq⟩
    · exact hne (hi.symm.trans heq)
    · exact hl.unserved i (heq.symm.trans hi)
  | hangup i =>
    refine ⟨Finset.mem_erase.mpr ⟨(hl.unserved i).symm, hl.watched⟩, hl.connection,
      fun j hj => ?_⟩
    by_cases hji : j = i
    · subst hji
      exact h0 (hj.symm.trans (Function.update_self ..))
    · exact hl.unserved j ((Function.update_of_ne hji ..).symm.trans hj)
  | recv i env data => exact ⟨hl.watched, hl.connection, hl.unserved⟩

/-- After any run the table serves everything watched, or some accept overcrowded it and
a descriptor is lost. -/
theorem served_or_lost {h : History LoopState Event} {s : LoopState}
    (hr : (machine hasher serverSocket).Run h s) :
    ((∀ x ∈ h, ¬ Overcrowds x) → Served s) ∧
      ((∃ x ∈ h, Overcrowds x) → ∃ fd, fd ≠ 0 ∧ Lost fd s) := by
  refine hr.invariant_history (P := fun _ => True)
    (I := fun h s => ((∀ x ∈ h, ¬ Overcrowds x) → Served s) ∧
      ((∃ x ∈ h, Overcrowds x) → ∃ fd, fd ≠ 0 ∧ Lost fd s)) ?_ ?_ fun _ _ => trivial
  · refine ⟨fun _ fd hfd hne => absurd (Finset.mem_singleton.mp hfd) hne, ?_⟩
    rintro ⟨x, hx, _⟩
    cases hx
  · intro h s e hr _ ⟨ihServed, ihLost⟩ hg _
    have ht := tracked_run hr
    refine ⟨fun hno => ?_, fun ⟨x, hx, hover⟩ => ?_⟩
    · exact (ihServed fun x hx => hno x (List.mem_cons_of_mem _ hx)).step hg
        (hno _ (List.mem_cons_self ..))
    · rcases List.mem_cons.mp hx with rfl | hx
      · obtain ⟨⟨fd, rfl⟩, hfull⟩ := hover
        exact ⟨fd, by have := hg.1; omega, lost_of_full ht (listening_run hr) hg hfull⟩
      · obtain ⟨fd, h0, hlost⟩ := ihLost ⟨x, hx, hover⟩
        exact ⟨fd, h0, hlost.step ht h0 hg⟩

theorem allServed_of_served {s : LoopState} (ht : Tracked s) (hl : Listening serverSocket s)
    (hs : Served s) : AllServed s where
  served fd := by
    constructor
    · intro ⟨hmem, hne⟩
      exact hs fd hmem hne
    · rintro ⟨h0, i, rfl⟩
      refine ⟨?_, ?_⟩
      · rw [ht.watched]
        exact (ht.slots i h0).2
      · rw [hl.socket]
        exact hl.slots i h0
  distinct := ht.distinct
  opened fd hfd hne := (hs fd (by rw [ht.watched]; exact hfd) hne).2

/-- **The set and the table are in step exactly in the states before any accept found
all slots taken.** -/
theorem connections_tracked_iff {h : History LoopState Event} {s : LoopState}
    (hr : (machine hasher serverSocket).Run h s) :
    AllServed s ↔ ∀ x ∈ h, ¬ Overcrowds x := by
  obtain ⟨hserved, hlost⟩ := served_or_lost hr
  constructor
  · intro hall x hx hover
    obtain ⟨fd, _, hfd⟩ := hlost ⟨x, hx, hover⟩
    obtain ⟨_, i, hi⟩ := (hall.served fd).mp ⟨hfd.watched, hfd.connection⟩
    exact hfd.unserved i hi
  · intro hno
    exact allServed_of_served (tracked_run hr) (listening_run hr) (hserved hno)

/-- One client connects, another one does, the first one leaves. -/
def comeAndGoEvents : List Event := [.accept 4, .accept 5, .hangup 0]

theorem connections_tracked_iff_leave :
    ∃ h s, (machine List.length 3).Run h s ∧ h.length = 3 ∧ AllServed s := by
  obtain ⟨h, s, _, hrun, _, hlen, hroom⟩ := runEvents_exists List.length 3 comeAndGoEvents
    (p := fun h _ => h.length = 3 ∧ ∀ x ∈ h, ¬ Full x.pre)
    (by simp [comeAndGoEvents]) (by decide)
  exact ⟨h, s, hrun, hlen, (connections_tracked_iff hrun).mpr fun x hx hover =>
    hroom x hx hover.2⟩

/-- One client more than there are slots. -/
def crowdEvents : List Event := (List.range (maxClients + 1)).map fun n => .accept (4 + n)

/-- Not every accepted client is in a slot: the one after `maxClients` is watched only. -/
theorem connection_not_tracked :
    ¬ ∀ (hasher : Text → Nat) (serverSocket : Int) (h : History LoopState Event) (s : LoopState),
      (machine hasher serverSocket).Run h s → AllServed s := by
  intro hall
  obtain ⟨h, s, _, hrun, _, hmem, hsrv, hslots⟩ := runEvents_exists List.length 3 crowdEvents
    (p := fun _ s => (34 : Int) ∈ s.masterSet ∧ 34 ≠ s.serverSocket ∧
      ∀ i, s.clientSocket i ≠ 34)
    (by simp [crowdEvents]) (by decide +kernel)
  obtain ⟨_, i, hi⟩ := ((hall _ _ h s hrun).served 34).mp ⟨hmem, hsrv⟩
  exact hslots i hi

end SocialNetwork.Server
