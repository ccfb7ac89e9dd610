import SocialNetwork.Network.Growth

/-!
# What nobody notices

Let some cells of the network be hidden. A request is `Open` if it reads none of them, and
`Hidden` if it writes nothing else. If every request of a run is one or the other, hidden ones
can be left out at will: outside the hidden cells the network stays the same, and every open
request is answered as before (`hidden_run`).
-/

namespace SocialNetwork.Server

open SocialNetwork.Lib

namespace Network

/-- The deed changes hidden cells only. -/
def Hidden (n : Network) (hidden : Set Cell) (d : Deed) : Prop := ∀ k, n.Writes d k → k ∈ hidden

/-- The deed looks at no hidden cell. -/
def Open (n : Network) (hidden : Set Cell) (d : Deed) : Prop := ∀ k, n.Reads d k → k ∉ hidden

variable {hidden : Set Cell} {n t : Network} {d : Deed}

/-- As long as seats and the number of the newest room are not hidden, networks that agree on
the rest agree on which deeds are. -/
theorem Hidden.congr (hheads : ∀ k ∈ hidden, ¬ k.IsHead) (hag : cells.Agree hiddenᶜ n t)
    (h : n.Hidden hidden d) : t.Hidden hidden d := by
  intro k hk
  refine h k (writes_of_agree (fun k hhead _ _ => (Same.equiv k).symm (hag k ?_)) hk)
  exact fun hin => hheads k hin hhead

theorem agree_dropped (digest : Text → Text) (hag : cells.Agree hiddenᶜ n t)
    (h : n.Hidden hidden d) : cells.Agree hiddenᶜ (n.next digest d) t :=
  ((next_local digest n d).hidden h).symm.trans hag

theorem agree_kept (digest : Text → Text) (hheads : ∀ k ∈ hidden, ¬ k.IsHead)
    (hag : cells.Agree hiddenᶜ n t) (h : n.Open hidden d ∨ n.Hidden hidden d) :
    cells.Agree hiddenᶜ (n.next digest d) (t.next digest d) := by
  rcases h with hopen | hhidden
  · exact (next_local digest n d).seen hag hopen
  · exact (agree_dropped digest hag hhidden).trans
      ((next_local digest t d).hidden (hhidden.congr hheads hag))

end Network

variable {hasher : Text → Nat} {serverSocket serverSocket' : Int}

/-- A step of the server that is open or hidden, and is left out only if it is hidden. -/
structure Classified (hasher : Text → Nat) (hidden : Set Network.Cell)
    (keep : Step LoopState Event → Bool) (x : Step LoopState Event) : Prop where
  regular : Regular hasher x
  kind : x.pre.app.network.Open hidden (deedOf x) ∨ x.pre.app.network.Hidden hidden (deedOf x)
  dropped : keep x = false → x.pre.app.network.Hidden hidden (deedOf x)

section

variable {hidden : Set Network.Cell} {keep : Step LoopState Event → Bool}

theorem Classified.agree_kept {x x' : Step LoopState Event}
    (hheads : ∀ k ∈ hidden, ¬ k.IsHead) (hx : Classified hasher hidden keep x)
    (hx' : Regular hasher x') (hdeed : deedOf x = deedOf x')
    (hag : Network.cells.Agree hiddenᶜ x.pre.app.network x'.pre.app.network) :
    Network.cells.Agree hiddenᶜ (next hasher x.pre x.event).app.network
      (next hasher x'.pre x'.event).app.network := by
  rw [hx.regular.refines, hx'.refines, ← hdeed]
  exact Network.agree_kept _ hheads hag hx.kind

theorem Classified.agree_dropped {x : Step LoopState Event} {t : LoopState}
    (hx : Classified hasher hidden keep x) (hkeep : keep x = false)
    (hag : Network.cells.Agree hiddenᶜ x.pre.app.network t.app.network) :
    Network.cells.Agree hiddenᶜ (next hasher x.pre x.event).app.network t.app.network := by
  rw [hx.regular.refines]
  exact Network.agree_dropped _ hag (hx.dropped hkeep)

/-- **Hidden requests can be left out.** -/
theorem hidden_run (hheads : ∀ k ∈ hidden, ¬ k.IsHead) {h h' : History LoopState Event}
    {s s' : LoopState} (hr : (machine hasher serverSocket).Run h s)
    (hr' : (machine hasher serverSocket').Run h' s')
    (hclass : ∀ x ∈ h, Classified hasher hidden keep x) (hreg' : ∀ x ∈ h', Regular hasher x)
    (hdeeds : (h.filter keep).map deedOf = h'.map deedOf) :
    Network.cells.Agree hiddenᶜ s.app.network s'.app.network ∧
      List.Forall₂ (fun x x' => x.pre.app.network.Open hidden (deedOf x) →
        AnsweredAlike hasher x x') (h.filter keep) h' := by
  rw [← List.append_nil h] at hr
  rw [← List.append_nil h'] at hr'
  obtain ⟨hag, hall⟩ := Machine.Run.lockstep (M := machine hasher serverSocket)
    (N := machine hasher serverSocket')
    (R := fun s s' : LoopState => Network.cells.Agree hiddenᶜ s.app.network s'.app.network) keep
    (Classified.agree_kept hheads) Classified.agree_dropped .init .init (.refl _ _) hr hr'
    hclass hreg' (forall₂_of_map_eq hdeeds)
  refine ⟨hag, hall.imp fun x x' hx hopen => ?_⟩
  obtain ⟨hx, hx', hdeed, hag⟩ := hx
  exact .of_agree hx.regular hx' hdeed fun k hk => hag k (hopen k hk)

end

/-! ## Friendship and messaging -/

/-- The commands that change how users stand to each other, or show it. -/
def Command.isSocial : Command → Bool
  | .friendRequest _ | .acceptFriend _ | .setFriendType _ _ => true
  | .listFriends | .listFriendRequests | .listPosts => true
  | _ => false

namespace Network

variable {n : Network} {d : Deed} {sd : Int} {now : Text} {cmd : Command}

/-- How users stand to each other. -/
def ties : Set Cell := {k | ∃ q, k = .tie q}

theorem hidden_of_isSocial (h : cmd.isSocial = true) : n.Hidden ties (.request sd now cmd) := by
  intro k hk
  cases hk with
  | friendRequest => exact ⟨_, rfl⟩
  | acceptAsked => exact ⟨_, rfl⟩
  | acceptBack => exact ⟨_, rfl⟩
  | setFriendType => exact ⟨_, rfl⟩
  | _ => cases h

theorem open_of_not_isSocial (h : ∀ sd now cmd, d = .request sd now cmd → cmd.isSocial = false) :
    n.Open ties d := by
  intro k hk hin
  obtain ⟨q, rfl⟩ := hin
  cases hk with
  | _ => cases h _ _ _ rfl

theorem ties_kind (n : Network) (d : Deed) : n.Open ties d ∨ n.Hidden ties d := by
  cases d with
  | request sd now cmd =>
    cases h : cmd.isSocial with
    | true => exact Or.inr (hidden_of_isSocial h)
    | false =>
      refine Or.inl (open_of_not_isSocial fun sd' now' cmd' heq => ?_)
      cases heq
      exact h
  | leave sd => exact Or.inl (open_of_not_isSocial fun _ _ _ heq => by cases heq)
  | nothing => exact Or.inl (open_of_not_isSocial fun _ _ _ heq => by cases heq)

end Network

/-- **Friendship has no part in messaging**: whatever commands about friends are left out of a
run, accounts, posts, rooms, messages and sessions stay as they are, and every command but those
about friends and the feed is answered as before. -/
theorem messaging_ignores_friendship {keep : Step LoopState Event → Bool}
    {h h' : History LoopState Event} {s s' : LoopState}
    (hr : (machine hasher serverSocket).Run h s) (hr' : (machine hasher serverSocket').Run h' s')
    (hsound : ∀ x ∈ h, SoundStep x) (hsound' : ∀ x ∈ h', SoundStep x)
    (hsp : Spacious s.app.db) (hsp' : Spacious s'.app.db)
    (hkeep : ∀ x ∈ h, keep x = false →
      ∃ sd now cmd, deedOf x = .request sd now cmd ∧ cmd.isSocial = true)
    (hdeeds : (h.filter keep).map deedOf = h'.map deedOf) :
    s.app.network = { s'.app.network with tie := s.app.network.tie } ∧
      List.Forall₂ (fun x x' => (∀ sd now cmd, deedOf x = .request sd now cmd →
        cmd.isSocial = false) → AnsweredAlike hasher x x') (h.filter keep) h' := by
  have hheads : ∀ k ∈ Network.ties, ¬ k.IsHead := by
    intro k hk hhead
    obtain ⟨q, rfl⟩ := hk
    exact hhead
  have hclass : ∀ x ∈ h, Classified hasher Network.ties keep x := by
    intro x hx
    refine ⟨regular_run hr hsound hsp x hx, Network.ties_kind _ _, fun hdrop => ?_⟩
    obtain ⟨sd, now, cmd, hcmd, hsocial⟩ := hkeep x hx hdrop
    rw [hcmd]
    exact Network.hidden_of_isSocial hsocial
  obtain ⟨hag, hall⟩ := hidden_run hheads hr hr' hclass (regular_run hr' hsound' hsp') hdeeds
  refine ⟨Network.cells.ext fun k => ?_, hall.imp fun x x' hx hnot =>
    hx (Network.open_of_not_isSocial hnot)⟩
  by_cases hk : k ∈ Network.ties
  · obtain ⟨q, rfl⟩ := hk
    exact rfl
  · have hsame := hag k hk
    cases k with
    | tie q => exact absurd ⟨q, rfl⟩ hk
    | _ => exact hsame

/-- The step is not about friends. -/
def isUnsocial (x : Step LoopState Event) : Bool :=
  match deedOf x with
  | .request _ _ cmd => !cmd.isSocial
  | _ => true

theorem social_of_not_isUnsocial {x : Step LoopState Event} (h : isUnsocial x = false) :
    ∃ sd now cmd, deedOf x = .request sd now cmd ∧ cmd.isSocial = true := by
  unfold isUnsocial at h
  split at h
  next sd now cmd hcmd => exact ⟨sd, now, cmd, hcmd, by simpa using h⟩
  next => cases h

/-- `a` writes to `b`, after asking for friendship or without. -/
def befriendingEvents (asks : Bool) : List Event :=
  [.accept 4, .line 0 "register a p a@x normal private\n",
    .line 0 "register b q b@x normal private\n", .line 0 "login a p\n"] ++
  (if asks then [.line 0 "add_friend b\n"] else []) ++
  [.line 0 "chat b\n", .line 0 "open 1\n", .line 0 "send hi\n"]

/-- What is asked for but for friendship, the last first. -/
def befriendingDeeds : List Network.Deed :=
  [.request 4 Env.plain.now (.send (bytes "hi")), .request 4 Env.plain.now (.open 1),
    .request 4 Env.plain.now (.chat (bytes "b")),
    .request 4 Env.plain.now (.login (bytes "a") (bytes "p")),
    .request 4 Env.plain.now (.register (bytes "b") (bytes "q") (bytes "b@x") (bytes "normal")
      (bytes "private")),
    .request 4 Env.plain.now (.register (bytes "a") (bytes "p") (bytes "a@x") (bytes "normal")
      (bytes "private")), .nothing]

theorem messaging_ignores_friendship_chat :
    ∃ h s h' s', (machine List.length 3).Run h s ∧ (machine List.length 3).Run h' s' ∧
      s.app.db.friends.rows.length = 1 ∧ s'.app.db.friends.rows.length = 0 ∧
      s.app.db.messages.rows.length = 1 ∧
      s.app.network = { s'.app.network with tie := s.app.network.tie } := by
  obtain ⟨h, s, _, hrun, hsound, hdeeds, hfriends, hmessages, hsp⟩ :=
    runEvents_exists List.length 3 (befriendingEvents true)
      (p := fun h s => (h.filter isUnsocial).map deedOf = befriendingDeeds ∧
        s.app.db.friends.rows.length = 1 ∧ s.app.db.messages.rows.length = 1 ∧
        Spacious s.app.db)
      (by simp [befriendingEvents]) (by decide)
  obtain ⟨h', s', _, hrun', hsound', hdeeds', hfriends', hsp'⟩ :=
    runEvents_exists List.length 3 (befriendingEvents false)
      (p := fun h s => h.map deedOf = befriendingDeeds ∧ s.app.db.friends.rows.length = 0 ∧
        Spacious s.app.db)
      (by simp [befriendingEvents]) (by decide)
  exact ⟨h, s, h', s', hrun, hrun', hfriends, hfriends', hmessages,
    (messaging_ignores_friendship hrun hrun' hsound hsound' hsp hsp'
      (fun _ _ => social_of_not_isUnsocial) (hdeeds.trans hdeeds'.symm)).1⟩

end SocialNetwork.Server
