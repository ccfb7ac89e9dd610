import SocialNetwork.Network.Hidden

/-!
# What is said in a room is heard there only

As long as statements succeed and counters have room, the messages of rooms that a user is
never in have no influence on anything the user gets to see: a run from which any of them are
left out answers all requests of the user as before (`unheard`). What `reads_confidential` says
of two states is so kept up by whole runs, in which the others go on to act on what they have
read.
-/

namespace SocialNetwork.Server

open SocialNetwork.Lib

namespace Network

variable {n : Network} {d : Deed}

/-- What is said in the rooms. -/
def talks (rooms : Set Int) : Set Cell := {k | ∃ c ∈ rooms, k = .talk c}

/-- The request reads the messages of a room: its seat is there. -/
theorem seated_of_reads_talk {c : Int} (h : n.Reads d (.talk c)) :
    ∃ sd now cmd s, d = .request sd now cmd ∧ n.seat sd = some s ∧ s.room = some c ∧
      ∀ k, n.Writes d k → k = .talk c := by
  cases h with
  | sendTalk hs hc =>
    refine ⟨_, _, _, _, rfl, hs, hc, fun k hk => ?_⟩
    cases hk with
    | send hs' hc' =>
      rw [hs, Option.some.injEq] at hs'
      subst hs'
      rw [hc, Option.some.injEq] at hc'
      rw [hc']
  | showTalk hs hc =>
    refine ⟨_, _, _, _, rfl, hs, hc, fun k hk => ?_⟩
    cases hk

/-- A request either leaves the talk of the rooms alone or changes nothing else. -/
theorem talks_kind (rooms : Set Int) (n : Network) (d : Deed) :
    n.Open (talks rooms) d ∨ n.Hidden (talks rooms) d := by
  by_cases h : ∃ c ∈ rooms, n.Reads d (.talk c)
  · obtain ⟨c, hc, hreads⟩ := h
    obtain ⟨_, _, _, _, _, _, _, hwrites⟩ := seated_of_reads_talk hreads
    exact Or.inr fun k hk => ⟨c, hc, hwrites k hk⟩
  · refine Or.inl fun k hk hin => ?_
    obtain ⟨c, hc, rfl⟩ := hin
    exact h ⟨c, hc, hk⟩

theorem Extends.inside {n' : Network} (h : n.Extends n') {c : Int} {u : Text}
    (hin : n.rooms.Inside c u) : n'.rooms.Inside c u := by
  obtain ⟨m, hm, hu⟩ := hin
  obtain ⟨m', hm', hsub⟩ := h.rooms c m hm
  exact ⟨m', hm', hsub hu⟩

end Network

variable {hasher : Text → Nat} {serverSocket serverSocket' : Int}

/-- What a step of a run finds is below what the run ends with. -/
theorem pre_le {h : History LoopState Event} {s : LoopState}
    (hr : (machine hasher serverSocket).Run h s) (hsound : ∀ x ∈ h, SoundStep x)
    (hsp : Spacious s.app.db) : ∀ x ∈ h, x.pre.app.network ≤ s.app.network := by
  intro x hx
  have hroom := (spacious_run hr hsp x hx).1
  have hrun := network_run hr hsound hsp
  obtain ⟨newer, older, rfl⟩ := List.append_of_mem hx
  have hold := network_run hr.at_step.1
    (fun y hy => hsound y (List.mem_append_right _ (List.mem_cons_of_mem _ hy))) hroom
  rw [List.append_cons, List.map_append] at hrun
  exact Network.later_le hrun hold

/-- The user of a step that has a room open is in it at the end. -/
theorem inside_of_seat {h : History LoopState Event} {s : LoopState}
    (hr : (machine hasher serverSocket).Run h s) (hsound : ∀ x ∈ h, SoundStep x)
    (hsp : Spacious s.app.db) {x : Step LoopState Event} (hx : x ∈ h) {sd : Int} {p : Seat}
    {c : Int} (hs : x.pre.app.network.seat sd = some p) (hc : p.room = some c) :
    s.app.network.rooms.Inside c p.user := by
  have hrep := (regular_run hr hsound hsp x hx).represented
  obtain ⟨huser, hroom⟩ := seat_eq_some hs
  obtain ⟨u, hu, hmember⟩ := hrep.joined sd c (hroom.trans hc)
  rw [huser, Option.some.injEq] at hu
  subst hu
  exact (pre_le hr hsound hsp x hx).inside ((inside_iff hrep.resolved).mpr hmember)

/-- Who issues a request sits at its seat. -/
theorem user_of_issuer {x : Step LoopState Event} {v : Text} {sd : Int} {now : Text}
    {cmd : Command} {p : Seat} (hissuer : issuerOf x = some v)
    (hdeed : deedOf x = .request sd now cmd) (hs : x.pre.app.network.seat sd = some p) :
    p.user = v := by
  obtain ⟨i, env, data, hevent, hsd, _, _⟩ := deedOf_request hdeed
  have hsd' : sdOf x = sd := by
    unfold sdOf
    rw [hevent]
    exact hsd
  unfold issuerOf at hissuer
  rw [hsd', (seat_eq_some hs).1, Option.some.injEq] at hissuer
  exact hissuer

/-- **Messages a user is not meant to read have no influence on what the user gets to see**,
however the others act on them. -/
theorem unheard {v : Text} {keep : Step LoopState Event → Bool}
    {h h' : History LoopState Event} {s s' : LoopState}
    (hr : (machine hasher serverSocket).Run h s) (hr' : (machine hasher serverSocket').Run h' s')
    (hsound : ∀ x ∈ h, SoundStep x) (hsound' : ∀ x ∈ h', SoundStep x)
    (hsp : Spacious s.app.db) (hsp' : Spacious s'.app.db)
    (hkeep : ∀ x ∈ h, keep x = false → ∃ sd now content p c,
      deedOf x = .request sd now (.send content) ∧ x.pre.app.network.seat sd = some p ∧
        p.room = some c ∧ ¬ s.app.network.rooms.Inside c v)
    (hdeeds : (h.filter keep).map deedOf = h'.map deedOf) :
    (∀ c, s.app.network.rooms.Inside c v → s.app.network.talk c = s'.app.network.talk c) ∧
      s.app.network = { s'.app.network with talk := s.app.network.talk } ∧
      List.Forall₂ (fun x x' => issuerOf x = some v → AnsweredAlike hasher x x')
        (h.filter keep) h' := by
  let rooms : Set Int := {c | ¬ s.app.network.rooms.Inside c v}
  have hheads : ∀ k ∈ Network.talks rooms, ¬ k.IsHead := by
    intro k hk hhead
    obtain ⟨c, _, rfl⟩ := hk
    exact hhead
  have hclass : ∀ x ∈ h, Classified hasher (Network.talks rooms) keep x := by
    intro x hx
    refine ⟨regular_run hr hsound hsp x hx, Network.talks_kind _ _ _, fun hdrop => ?_⟩
    obtain ⟨sd, now, content, p, c, hdeed, hs, hc, hout⟩ := hkeep x hx hdrop
    intro k hk
    have hreads : x.pre.app.network.Reads (deedOf x) (.talk c) := hdeed ▸ .sendTalk hs hc
    obtain ⟨_, _, _, _, _, _, _, hwrites⟩ := Network.seated_of_reads_talk hreads
    exact ⟨c, hout, hwrites k hk⟩
  obtain ⟨hag, hall⟩ := hidden_run hheads hr hr' hclass (regular_run hr' hsound' hsp') hdeeds
  refine ⟨fun c hin => ?_, Network.cells.ext fun k => ?_, ?_⟩
  · refine hag (.talk c) fun hhidden => ?_
    obtain ⟨c', hout, heq⟩ := hhidden
    cases heq
    exact hout hin
  · by_cases hk : k ∈ Network.talks Set.univ
    · obtain ⟨c, _, rfl⟩ := hk
      exact rfl
    · have hsame := hag k fun hin => hk (by
        obtain ⟨c, _, rfl⟩ := hin
        exact ⟨c, Set.mem_univ c, rfl⟩)
      cases k with
      | talk c => exact absurd ⟨c, Set.mem_univ c, rfl⟩ hk
      | _ => exact hsame
  · have hmem : ∀ x ∈ h.filter keep, x ∈ h := fun x hx => List.mem_of_mem_filter hx
    refine ((List.forall₂_and_left _ _).mpr ⟨hmem, hall⟩).imp fun x x' hx hissuer => hx.2 ?_
    -- a room whose talk the user reads is one the user is in at the end
    intro k hk hhidden
    obtain ⟨c, hout, rfl⟩ := hhidden
    obtain ⟨sd, now, cmd, p, hdeed, hs, hc, _⟩ := Network.seated_of_reads_talk hk
    have hin := inside_of_seat hr hsound hsp hx.1 hs hc
    rw [user_of_issuer hissuer hdeed hs] at hin
    exact hout hin

/-- `a` writes to `b`, or does not, and `c` looks at the feed. -/
def whisperEvents (whispers : Bool) : List Event :=
  [.accept 4, .accept 5, .line 0 "register a p a@x normal private\n",
    .line 0 "register b q b@x normal private\n", .line 0 "register c r c@x normal private\n",
    .line 0 "login a p\n", .line 1 "login c r\n", .line 0 "chat b\n", .line 0 "open 1\n"] ++
  (if whispers then [.line 0 "send psst\n"] else []) ++ [.line 1 "list_posts\n"]

/-- What is asked for but to pass on a message, the last first. -/
def whisperDeeds : List Network.Deed :=
  [.request 5 Env.plain.now .listPosts, .request 4 Env.plain.now (.open 1),
    .request 4 Env.plain.now (.chat (bytes "b")),
    .request 5 Env.plain.now (.login (bytes "c") (bytes "r")),
    .request 4 Env.plain.now (.login (bytes "a") (bytes "p")),
    .request 4 Env.plain.now (.register (bytes "c") (bytes "r") (bytes "c@x") (bytes "normal")
      (bytes "private")),
    .request 4 Env.plain.now (.register (bytes "b") (bytes "q") (bytes "b@x") (bytes "normal")
      (bytes "private")),
    .request 4 Env.plain.now (.register (bytes "a") (bytes "p") (bytes "a@x") (bytes "normal")
      (bytes "private")), .nothing, .nothing]

/-- The message of `a`. -/
def isWhisper (x : Step LoopState Event) : Bool :=
  deedOf x == .request 4 Env.plain.now (.send (bytes "psst"))

theorem unheard_whisper :
    ∃ h s h' s', (machine List.length 3).Run h s ∧ (machine List.length 3).Run h' s' ∧
      s.app.db.messages.rows.length = 1 ∧ s'.app.db.messages.rows.length = 0 ∧
      List.Forall₂ (fun x x' => issuerOf x = some (bytes "c") → AnsweredAlike List.length x x')
        (h.filter fun x => !isWhisper x) h' := by
  obtain ⟨h, s, _, hrun, hsound, hdeeds, hwhisper, hout, hmessages, hsp⟩ :=
    runEvents_exists List.length 3 (whisperEvents true)
      (p := fun h s => (h.filter fun x => !isWhisper x).map deedOf = whisperDeeds ∧
        (∀ x ∈ h, isWhisper x = true → x.pre.app.sessions.sessions 4 = some (bytes "a") ∧
          x.pre.app.sessions.currentConversation 4 = some 1) ∧
        ¬ Member s.app.db 1 (bytes "c") ∧ s.app.db.messages.rows.length = 1 ∧
        Spacious s.app.db)
      (by simp [whisperEvents]) (by decide)
  obtain ⟨h', s', _, hrun', hsound', hdeeds', hmessages', hsp'⟩ :=
    runEvents_exists List.length 3 (whisperEvents false)
      (p := fun h s => h.map deedOf = whisperDeeds ∧ s.app.db.messages.rows.length = 0 ∧
        Spacious s.app.db)
      (by simp [whisperEvents]) (by decide)
  have hkeep : ∀ x ∈ h, (!isWhisper x) = false → ∃ sd now content p c,
      deedOf x = .request sd now (.send content) ∧ x.pre.app.network.seat sd = some p ∧
        p.room = some c ∧ ¬ s.app.network.rooms.Inside c (bytes "c") := by
    intro x hx hdrop
    have hw : isWhisper x = true := by simpa using hdrop
    obtain ⟨hsession, hroom⟩ := hwhisper x hx hw
    exact ⟨4, _, _, _, 1, beq_iff_eq.mp hw, seat_of_session hsession, hroom,
      fun hin => hout (member_of_inside hin)⟩
  exact ⟨h, s, h', s', hrun, hrun', hmessages, hmessages',
    (unheard hrun hrun' hsound hsound' hsp hsp' hkeep (hdeeds.trans hdeeds'.symm)).2.2⟩

end SocialNetwork.Server
