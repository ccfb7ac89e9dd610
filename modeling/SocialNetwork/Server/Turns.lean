import SocialNetwork.Client.NetworkClient
import SocialNetwork.Lib.Turns
import SocialNetwork.Server.Descriptors

/-!
# The select loop takes turns

`pass` is the body of `while (true)` as written, and `loop` the machine whose steps are whole
passes. A pass serves the slots that were ready when `select` returned, each once and in the order
of the slots, after the connection it may accept (`pass_events`). Serving one slot does not make
another one ready or take its turn away: a hang-up empties its own slot only, and a connection
accepted in the pass is not in the set that `select` reported.

Three things end the process in the middle of a pass: an `accept` that fails (`error_exit`), a
`read` that fails, and an answer to a client that is gone (both by the SIGPIPE of `send`). The
slots behind are then not served, and there is no further pass.

So as long as the process lives, the loop is a fair scheduler (`served_in_turn`): a client that is
ready in every pass is served in every pass, after at most thirty other events, and no other client
is served twice without it being served in between.

Mirroring notes:
- A `select` that fails is logged and tried again; the pass does nothing, as one does whose
  `readSet` is empty.
- `max_sd` comes from the slots, so a descriptor without a slot is looked at only while a slot
  holds a larger one. `readSet` may be any set of watched descriptors.
-/

namespace SocialNetwork.Server

open SocialNetwork.Lib
open SocialNetwork.Client (slotOf)

variable {hasher : Text → Nat} {serverSocket : Int}

/-! ## The loop body -/

/-- What one `read` returned: nothing more to read, an error, or bytes. `answered` tells whether
the client is still there for the `send` that follows. -/
inductive Read
  | eof
  | failed (env : Env)
  | data (env : Env) (bytes : Text) (answered : Bool)

/-- The event a slot's read amounts to. -/
def Read.event (i : Slot) : Read → Event
  | .eof => .hangup i
  | .failed env => .recv i env []
  | .data env bytes _ => .recv i env bytes

/-- The process survives the read and its answer. -/
def Read.survived : Read → Bool
  | .eof => true
  | .failed _ => false
  | .data _ _ answered => answered

/-- A read that brings bytes fits the buffer. -/
def Read.fits : Read → Bool
  | .data _ bytes _ => decide (bytes.length ≤ bufferSize - 1)
  | _ => true

/-- What `select` and the calls after it returned in one pass. -/
structure Activity where
  readSet : Finset Int
  newSocket : Int
  reads : Slot → Read

/-- The process in its loop: what `main` keeps, and whether it is still there. -/
structure Process where
  main : LoopState
  alive : Bool

/-- `if (FD_ISSET(server_socket, &read_set)) …` -/
def acceptPart (act : Activity) (s : LoopState) : Process :=
  if s.serverSocket ∈ act.readSet then
    -- `error_exit("accept")`
    if act.newSocket < 0 then ⟨s, false⟩ else ⟨s.acceptFd act.newSocket, true⟩
  else ⟨s, true⟩

/-- The body of the loop over the slots. -/
def servePart (hasher : Text → Nat) (act : Activity) (p : Process) (i : Slot) : Process :=
  if p.alive = true ∧ 0 < p.main.clientSocket i ∧ p.main.clientSocket i ∈ act.readSet then
    ⟨next hasher p.main ((act.reads i).event i), (act.reads i).survived⟩
  else p

/-- One pass of `while (true)`. -/
def pass (hasher : Text → Nat) (act : Activity) (s : LoopState) : Process :=
  (List.finRange maxClients).foldl (servePart hasher act) (acceptPart act s)

/-- What the kernel promises about a pass from `s`: only watched descriptors are
reported, an accepted descriptor is new, reads fit the buffer. -/
structure Activity.Valid (act : Activity) (s : LoopState) : Prop where
  reported : act.readSet ⊆ s.masterSet
  fresh : s.serverSocket ∈ act.readSet → ¬ act.newSocket < 0 →
    0 < act.newSocket ∧ act.newSocket ∉ s.opened
  fits : ∀ i, (act.reads i).fits = true

instance (act : Activity) (s : LoopState) : Decidable (act.Valid s) :=
  decidable_of_iff (act.readSet ⊆ s.masterSet ∧
      (s.serverSocket ∈ act.readSet → ¬ act.newSocket < 0 →
        0 < act.newSocket ∧ act.newSocket ∉ s.opened) ∧
      ∀ i, (act.reads i).fits = true)
    ⟨fun h => ⟨h.1, h.2.1, h.2.2⟩, fun h => ⟨h.reported, h.fresh, h.fits⟩⟩

/-- The loop as a machine of passes. -/
def loop (hasher : Text → Nat) (serverSocket : Int) : Machine Process Activity where
  init := ⟨LoopState.init serverSocket, true⟩
  guard p act := p.alive = true ∧ act.Valid p.main
  next p act := pass hasher act p.main

instance (p : Process) (act : Activity) : Decidable ((loop hasher serverSocket).guard p act) :=
  inferInstanceAs (Decidable (p.alive = true ∧ act.Valid p.main))

theorem loop_post (x : Step Process Activity) :
    (loop hasher serverSocket).post x = pass hasher x.event x.pre.main := by
  simp only [Machine.post, loop]

/-! ## What happens in a pass -/

/-- `sd > 0 && FD_ISSET(sd, &read_set)` for the descriptor in slot `i`. -/
def Activity.ready (act : Activity) (s : LoopState) (i : Slot) : Bool :=
  decide (0 < s.clientSocket i ∧ s.clientSocket i ∈ act.readSet)

/-- The turns of the slots `l`, up to the one the process dies in. -/
def Activity.turns (act : Activity) : List Slot → List Event
  | [] => []
  | i :: l => (act.reads i).event i :: if (act.reads i).survived then act.turns l else []

/-- What happens in a pass from `s`. -/
def Activity.events (act : Activity) (s : LoopState) : List Event :=
  let served := act.turns ((List.finRange maxClients).filter (act.ready s))
  if s.serverSocket ∈ act.readSet then
    if act.newSocket < 0 then [] else .accept act.newSocket :: served
  else served

/-- Nothing in a pass from `s` ends the process. -/
structure Activity.Survived (act : Activity) (s : LoopState) : Prop where
  accepted : s.serverSocket ∈ act.readSet → ¬ act.newSocket < 0
  served : ∀ i, act.ready s i = true → (act.reads i).survived = true

/-- The events of a pass of a run. -/
def roundOf (x : Step Process Activity) : List Event := x.event.events x.pre.main

/-- Nobody is served by a process that is gone. -/
theorem serve_dead (act : Activity) (l : List Slot) (s : LoopState) :
    l.foldl (servePart hasher act) ⟨s, false⟩ = ⟨s, false⟩ := by
  induction l with
  | nil => rfl
  | cons i l ih =>
    rw [List.foldl_cons]
    have hnot : servePart hasher act ⟨s, false⟩ i = ⟨s, false⟩ :=
      if_neg fun h => Bool.false_ne_true h.1
    rw [hnot]
    exact ih

theorem slotOf_event (i : Slot) (r : Read) : slotOf (r.event i) = some i := by
  cases r <;> rfl

/-- Serving a slot leaves the others alone. -/
theorem serve_slot_ne (s : LoopState) {i j : Slot} (r : Read) (h : j ≠ i) :
    (next hasher s (r.event i)).clientSocket j = s.clientSocket j := by
  cases r with
  | eof => exact Function.update_of_ne h ..
  | failed env => rfl
  | data env bytes answered => rfl

section

variable {act : Activity} {h : History LoopState Event} {s : LoopState}

/-- A used slot is watched (`Tracked`), so its event is admitted whatever was served before. -/
theorem serve_admits (hfits : ∀ i, (act.reads i).fits = true)
    (hr : (machine hasher serverSocket).Run h s) {i : Slot} (hi : 0 < s.clientSocket i) :
    admits s ((act.reads i).event i) := by
  have ht := tracked_run hr
  have hwatched : s.clientSocket i ∈ s.masterSet := ht.watched ▸ (ht.slots i (by omega)).2
  have hfit := hfits i
  cases hread : act.reads i with
  | eof => exact ⟨hi, hwatched⟩
  | failed env => exact ⟨⟨hi, hwatched⟩, Nat.zero_le _⟩
  | data env bytes answered =>
    rw [hread] at hfit
    exact ⟨⟨hi, hwatched⟩, of_decide_eq_true hfit⟩

/-- **The loop over the slots serves those that are ready when it starts**, as long as the
process lives. -/
theorem serve_events (hfits : ∀ i, (act.reads i).fits = true) (l : List Slot) (hl : l.Nodup)
    (hr : (machine hasher serverSocket).Run h s) :
    ∃ new, (machine hasher serverSocket).Run (new ++ h)
        (l.foldl (servePart hasher act) ⟨s, true⟩).main ∧
      new.reverse.map (·.event) = act.turns (l.filter (act.ready s)) ∧
      ((l.foldl (servePart hasher act) ⟨s, true⟩).alive = true →
        ∀ i ∈ l, act.ready s i = true → (act.reads i).survived = true) := by
  induction l generalizing h s with
  | nil => exact ⟨[], hr, rfl, fun _ i hi => absurd hi List.not_mem_nil⟩
  | cons i l ih =>
    obtain ⟨hi, hl⟩ := List.nodup_cons.mp hl
    rw [List.foldl_cons]
    by_cases hready : 0 < s.clientSocket i ∧ s.clientSocket i ∈ act.readSet
    · have hrun : (machine hasher serverSocket).Run (⟨s, (act.reads i).event i⟩ :: h)
          (next hasher s ((act.reads i).event i)) := hr.step _ (serve_admits hfits hr hready.1)
      have hserve : servePart hasher act ⟨s, true⟩ i =
          ⟨next hasher s ((act.reads i).event i), (act.reads i).survived⟩ := if_pos ⟨rfl, hready⟩
      have hpos : act.ready s i = true := decide_eq_true hready
      rw [hserve, List.filter_cons_of_pos hpos]
      cases hsurvived : (act.reads i).survived with
      | false =>
        -- the process dies: the rest of the slots is left alone
        rw [serve_dead]
        refine ⟨[⟨s, (act.reads i).event i⟩], hrun, ?_, fun halive => by cases halive⟩
        unfold Activity.turns
        rw [hsurvived]
        rfl
      | true =>
        obtain ⟨new, hnew, hevents, halive⟩ := ih hl hrun
        -- the rest is as ready as it was
        have hsame : ∀ j ∈ l, act.ready (next hasher s ((act.reads i).event i)) j =
            act.ready s j := by
          intro j hj
          have hji : j ≠ i := fun heq => hi (heq ▸ hj)
          unfold Activity.ready
          rw [serve_slot_ne s _ hji]
        refine ⟨new ++ [⟨s, (act.reads i).event i⟩], by rw [List.append_assoc]; exact hnew, ?_, ?_⟩
        · unfold Activity.turns
          rw [hsurvived, if_pos rfl, ← List.filter_congr hsame, ← hevents, List.reverse_append,
            List.map_append]
          rfl
        · intro hstill j hj hjready
          rcases List.mem_cons.mp hj with rfl | hj
          · exact hsurvived
          · exact halive hstill j hj ((hsame j hj).trans hjready)
    · have hserve : servePart hasher act ⟨s, true⟩ i = ⟨s, true⟩ := if_neg fun h => hready h.2
      have hneg : act.ready s i = false := decide_eq_false hready
      obtain ⟨new, hnew, hevents, halive⟩ := ih hl hr
      rw [hserve, List.filter_cons_of_neg (by rw [hneg]; exact Bool.false_ne_true)]
      refine ⟨new, hnew, hevents, fun hstill j hj hjready => ?_⟩
      rcases List.mem_cons.mp hj with rfl | hj
      · rw [hneg] at hjready
        cases hjready
      · exact halive hstill j hj hjready

/-- A connection accepted in the pass is not ready in it. -/
theorem ready_accept (hv : act.Valid s) (ht : Tracked s) (hready : s.serverSocket ∈ act.readSet)
    (haccept : ¬ act.newSocket < 0) (i : Slot) :
    act.ready (s.acceptFd act.newSocket) i = act.ready s i := by
  obtain ⟨hpos, hfresh⟩ := hv.fresh hready haccept
  have hnot : act.newSocket ∉ act.readSet := by
    intro hin
    exact hfresh (ht.watched ▸ hv.reported hin)
  unfold Activity.ready
  rcases acceptFd_slots s act.newSocket with ⟨k, hk, hslots⟩ | hslots
  · rw [hslots]
    by_cases hik : i = k
    · subst hik
      rw [Function.update_self, hk]
      simp [hnot]
    · rw [Function.update_of_ne hik]
  · rw [hslots]

/-- **What a pass does**: it may accept, and then serves the ready slots in their order, until the
process dies. -/
theorem pass_events (hr : (machine hasher serverSocket).Run h s) (hv : act.Valid s) :
    ∃ new, (machine hasher serverSocket).Run (new ++ h) (pass hasher act s).main ∧
      new.reverse.map (·.event) = act.events s ∧
      ((pass hasher act s).alive = true → act.Survived s) := by
  unfold pass acceptPart Activity.events
  dsimp only
  split
  next hready =>
    split
    next haccept =>
      rw [serve_dead]
      exact ⟨[], hr, rfl, fun halive => by cases halive⟩
    next haccept =>
      obtain ⟨new, hnew, hevents, halive⟩ := serve_events hv.fits (List.finRange maxClients)
        (List.nodup_finRange _)
        (hr.step (Event.accept act.newSocket) (hv.fresh hready haccept))
      have hsame := ready_accept hv (tracked_run hr) hready haccept
      refine ⟨new ++ [⟨s, .accept act.newSocket⟩], by rw [List.append_assoc]; exact hnew, ?_, ?_⟩
      · rw [List.reverse_append, List.map_append, hevents]
        exact congrArg (fun l => Event.accept act.newSocket :: act.turns l)
          (List.filter_congr fun i _ => hsame i)
      · exact fun hstill => ⟨fun _ => haccept, fun i hi =>
          halive hstill i (List.mem_finRange i) ((hsame i).trans hi)⟩
  next hready =>
    obtain ⟨new, hnew, hevents, halive⟩ := serve_events hv.fits (List.finRange maxClients)
      (List.nodup_finRange _) hr
    exact ⟨new, hnew, hevents, fun hstill =>
      ⟨fun hin => absurd hin hready, fun i hi => halive hstill i (List.mem_finRange i) hi⟩⟩

end

/-! ## The events of a pass -/

/-- The turns are those of the first slots. -/
theorem turns_first (act : Activity) (l : List Slot) :
    act.turns l <+: l.map fun i => (act.reads i).event i := by
  induction l with
  | nil => exact List.prefix_rfl
  | cons i l ih =>
    unfold Activity.turns
    rw [List.map_cons, List.cons_prefix_cons]
    refine ⟨rfl, ?_⟩
    split
    · exact ih
    · exact List.nil_prefix

/-- Every slot has its turn if the process survives them. -/
theorem turns_survived {act : Activity} {l : List Slot}
    (h : ∀ i ∈ l, (act.reads i).survived = true) :
    act.turns l = l.map fun i => (act.reads i).event i := by
  induction l with
  | nil => rfl
  | cons i l ih =>
    unfold Activity.turns
    rw [if_pos (h i (List.mem_cons_self ..)), ih fun j hj => h j (List.mem_cons_of_mem _ hj),
      List.map_cons]

/-- The turns come in the order of the slots. -/
theorem orderly_turns (act : Activity) (s : LoopState) :
    Orderly slotOf (act.turns ((List.finRange maxClients).filter (act.ready s))) := by
  refine List.Pairwise.sublist (turns_first act _).sublist ?_
  rw [List.pairwise_map]
  refine ((List.pairwise_lt_finRange maxClients).filter _).imp fun hlt m n hm hn => ?_
  rw [slotOf_event, Option.some.injEq] at hm hn
  rw [← hm, ← hn]
  exact hlt

/-- A pass has one turn for each ready slot, in their order. -/
theorem orderly_events (act : Activity) (s : LoopState) : Orderly slotOf (act.events s) := by
  unfold Activity.events
  dsimp only
  split
  · split
    · exact List.Pairwise.nil
    · -- the accept is nobody's turn
      refine List.pairwise_cons.mpr ⟨fun y _ m n hm => ?_, orderly_turns act s⟩
      cases hm
  · exact orderly_turns act s

/-- The turn of a slot among those of other slots. -/
theorem filter_turns (act : Activity) {l : List Slot} (hl : l.Nodup) {i : Slot} (hi : i ∈ l) :
    (l.map fun k => (act.reads k).event k).filter (fun e => slotOf e = some i) =
      [(act.reads i).event i] := by
  have hfilter : (l.map fun k => (act.reads k).event k).filter (fun e => slotOf e = some i) =
      (l.filter (· = i)).map fun k => (act.reads k).event k := by
    rw [List.filter_map]
    refine congrArg _ (List.filter_congr fun k _ => ?_)
    rw [Function.comp, slotOf_event]
    simp only [Option.some.injEq]
  have hone : l.filter (· = i) = [i] := by
    rw [List.filter_eq i, List.count_eq_one_of_mem hl hi]
    rfl
  rw [hfilter, hone]
  rfl

/-- **The turn of a ready slot** in a pass that the process survives. -/
theorem filter_events {act : Activity} {s : LoopState} (h : act.Survived s) {i : Slot}
    (hready : act.ready s i = true) :
    (act.events s).filter (fun e => slotOf e = some i) = [(act.reads i).event i] := by
  have hserved : (act.turns ((List.finRange maxClients).filter (act.ready s))).filter
      (fun e => slotOf e = some i) = [(act.reads i).event i] := by
    rw [turns_survived fun k hk => h.served k (List.mem_filter.mp hk).2]
    exact filter_turns act ((List.nodup_finRange _).filter _)
      (List.mem_filter.mpr ⟨List.mem_finRange i, hready⟩)
  unfold Activity.events
  dsimp only
  split
  next haccept =>
    rw [if_neg (h.accepted haccept), List.filter_cons_of_neg (by simp [slotOf])]
    exact hserved
  next => exact hserved

/-- A pass is short. -/
theorem length_events_le (act : Activity) (s : LoopState) :
    (act.events s).length ≤ maxClients + 1 := by
  have hserved := List.length_filter_le (act.ready s) (List.finRange maxClients)
  have hturns := (turns_first act ((List.finRange maxClients).filter (act.ready s))).length_le
  rw [List.length_map] at hturns
  rw [List.length_finRange] at hserved
  unfold Activity.events
  dsimp only
  split
  · split
    · exact Nat.zero_le _
    · rw [List.length_cons]
      omega
  · omega

/-! ## A run of passes -/

section

variable {newer older : History Process Activity} {p p₀ : Process}

/-- The passes of a run, one after the other. -/
theorem passes_events {old : History LoopState Event}
    (hold : (machine hasher serverSocket).Run old p₀.main)
    (hr : (loop hasher serverSocket).Run (newer ++ older) p)
    (hr₀ : (loop hasher serverSocket).Run older p₀) :
    ∃ new, (machine hasher serverSocket).Run (new ++ old) p.main ∧
      new.reverse.map (·.event) = (newer.reverse.map roundOf).flatten ∧
      (p.alive = true → ∀ x ∈ newer, x.event.Survived x.pre.main) := by
  induction newer generalizing p with
  | nil =>
    rw [Machine.Run.unique hr₀ hr] at hold
    refine ⟨[], hold, ?_, fun _ x hx => absurd hx List.not_mem_nil⟩
    rw [List.reverse_nil, List.reverse_nil, List.map_nil, List.map_nil, List.flatten_nil]
  | cons x newer ih =>
    obtain ⟨hr', ⟨hthen, hg⟩, hs⟩ := Machine.Run.of_cons hr
    obtain ⟨new, hnew, hevents, hsurvived⟩ := ih hr'
    obtain ⟨turns, hturns, hround, halive⟩ := pass_events hnew hg
    rw [loop_post] at hs
    refine ⟨turns ++ new, by rw [List.append_assoc, hs]; exact hturns, ?_, ?_⟩
    · rw [List.reverse_append, List.map_append, hevents, hround, List.reverse_cons, List.map_append,
        List.flatten_append]
      simp [roundOf]
    · intro hstill y hy
      rcases List.mem_cons.mp hy with rfl | hy
      · exact halive (hs ▸ hstill)
      · exact hsurvived hthen y hy

theorem loop_run (hr : (loop hasher serverSocket).Run older p) :
    ∃ h, (machine hasher serverSocket).Run h p.main ∧
      h.reverse.map (·.event) = (older.reverse.map roundOf).flatten := by
  have hr' : (loop hasher serverSocket).Run (older ++ []) p := by rwa [List.append_nil]
  obtain ⟨h, hrun, hevents, _⟩ := passes_events .init hr' .init
  rw [List.append_nil] at hrun
  exact ⟨h, hrun, hevents⟩

/-- **The loop is a fair scheduler while it lives.** Over any stretch of passes that the process
survives and in which the client in slot `j` is ready each time, the loop is a run of the event
machine in which every pass serves `j` exactly once, within at most `maxClients + 1` events, and
between any two turns of another client there is one of `j`. -/
theorem served_in_turn (hr : (loop hasher serverSocket).Run (newer ++ older) p)
    (hr₀ : (loop hasher serverSocket).Run older p₀) (halive : p.alive = true) {j : Slot}
    (hready : ∀ x ∈ newer, x.event.ready x.pre.main j = true) :
    ∃ new old, (machine hasher serverSocket).Run (new ++ old) p.main ∧
      (machine hasher serverSocket).Run old p₀.main ∧
      new.reverse.map (·.event) = (newer.reverse.map roundOf).flatten ∧
      (∀ x ∈ newer, (roundOf x).length ≤ maxClients + 1 ∧
        (roundOf x).filter (fun e => slotOf e = some j) = [(x.event.reads j).event j]) ∧
      ∀ a e b e' c i, i ≠ j → new.reverse.map (·.event) = a ++ e :: (b ++ e' :: c) →
        slotOf e = some i → slotOf e' = some i → ∃ z ∈ b, slotOf z = some j := by
  obtain ⟨old, hold, _⟩ := loop_run hr₀
  obtain ⟨new, hnew, hevents, hsurvived⟩ := passes_events hold hr hr₀
  have hturn : ∀ x ∈ newer, (roundOf x).filter (fun e => slotOf e = some j) =
      [(x.event.reads j).event j] :=
    fun x hx => filter_events (hsurvived halive x hx) (hready x hx)
  refine ⟨new, old, hnew, hold, hevents, fun x hx => ⟨?_, hturn x hx⟩, ?_⟩
  · exact length_events_le x.event x.pre.main
  · intro a e b e' c i hij hsplit he he'
    rw [hevents] at hsplit
    refine turn_between ?_ hij ?_ hsplit he he'
    · intro r hr
      obtain ⟨x, _, rfl⟩ := List.mem_map.mp hr
      exact orderly_events x.event x.pre.main
    · intro r hr
      obtain ⟨x, hx, rfl⟩ := List.mem_map.mp hr
      have hin : (x.event.reads j).event j ∈ (roundOf x).filter fun e => slotOf e = some j := by
        rw [hturn x (List.mem_reverse.mp hx)]
        exact List.mem_singleton_self _
      exact ⟨_, (List.mem_filter.mp hin).1, slotOf_event j _⟩

end

/-- Two clients connect and then both write. -/
def twoWriters : List Activity :=
  [⟨{3}, 4, fun _ => .eof⟩, ⟨{3}, 5, fun _ => .eof⟩,
    ⟨{4, 5}, 0, fun _ => .data Env.plain (bytes "show\n") true⟩]

theorem served_in_turn_two :
    ∃ (x : Step Process Activity) (older : History Process Activity) (p : Process),
      (loop List.length 3).Run (x :: older) p ∧ p.alive = true ∧
      x.event.ready x.pre.main 1 = true ∧
      ∃ new old, (machine List.length 3).Run (new ++ old) p.main ∧
        new.reverse.map (·.event) = roundOf x := by
  obtain ⟨⟨h, p⟩, _, hrun, _, hshape⟩ := Machine.Run.replay_exists (M := loop List.length 3)
    (Q := fun _ => True)
    (p := fun r => (r.2.alive && r.1.head?.any (fun x => x.event.ready x.pre.main 1)) = true)
    (fun act (_ : act ∈ twoWriters) => trivial) (by decide +kernel)
  obtain ⟨halive, hready⟩ := Bool.and_eq_true_iff.mp hshape
  cases h with
  | nil => cases hready
  | cons x older =>
    obtain ⟨hr₀, _, _⟩ := Machine.Run.of_cons hrun
    have hrun' : (loop List.length 3).Run ([x] ++ older) p := hrun
    obtain ⟨new, old, hnew, _, hevents, _⟩ := served_in_turn hrun' hr₀ halive
      (List.forall_mem_singleton.mpr hready)
    refine ⟨x, older, p, hrun, halive, hready, new, old, hnew, ?_⟩
    rw [hevents]
    exact List.append_nil _

end SocialNetwork.Server
