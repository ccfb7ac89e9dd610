import SocialNetwork.Messaging.Membership

/-!
# Where participants come from

`Invited h c w` is a chain of invitations in the history `h` that leads from the
participant `w` of the conversation `c` back to the `chat` or `group` that created
`c`. `participant_provenance` finds one for every participant of every reachable
state, by translating the provenance of the rooms model back into steps.

It takes a run in which the inserts of participants fail on constraints only. Otherwise a
creator can be missing in the own group, which is open all the same, and whoever is added
from there comes from nobody (`participant_without_provenance`).
-/

namespace SocialNetwork.Server

open SocialNetwork.Lib

variable {hasher : Text → Nat} {serverSocket : Int}

/-- The users a `chat` or `group` names. -/
def namedBy (x : Step LoopState Event) : List Text :=
  match commandOf x with
  | some (.chat v) => [v]
  | some (.group users) => users
  | _ => []

/-- The step is the `chat` or `group` of a logged-in user that created `c`. -/
structure Creates (hasher : Text → Nat) (x : Step LoopState Event) (c : Int) : Prop where
  command : (∃ v, commandOf x = some (.chat v)) ∨ ∃ users, commandOf x = some (.group users)
  issuer : issuerOf x ≠ none
  fresh : ¬ Exists x.pre.app.db c
  created : Exists (next hasher x.pre x.event).app.db c

/-- `w` created `c` or was named by its creator, or was added by an earlier
participant who had `c` open. -/
inductive Invited (hasher : Text → Nat) : History LoopState Event → Int → Text → Prop
  | creation (newer : History LoopState Event) {older : History LoopState Event}
      {x : Step LoopState Event} {c : Int} {w : Text} (hx : Creates hasher x c)
      (hw : issuerOf x = some w ∨ w ∈ namedBy x) : Invited hasher (newer ++ x :: older) c w
  | addition (newer : History LoopState Event) {older : History LoopState Event}
      {x : Step LoopState Event} {c : Int} {host w : Text}
      (hcmd : commandOf x = some (.add w)) (hok : repliedOk hasher x = true)
      (hs : issuerOf x = some host) (hc : currentOf x = some c)
      (hm : Member x.pre.app.db c host) (hhost : Invited hasher older c host) :
      Invited hasher (newer ++ x :: older) c w

/-! ## From room events to steps -/

/-- An inserted conversation is a new one. -/
theorem exists_of_inserts {x : Step LoopState Event} (h : insertsConversation hasher x = true) :
    Exists (next hasher x.pre x.event).app.db (x.pre.app.db.conversations.seq + 1) := by
  unfold insertsConversation at h
  rw [decide_eq_true_eq] at h
  rcases step_write hasher x with ⟨_, _, hdb⟩ | ⟨i, env, data, cmd, reply, _, _, _, hw⟩
  · rw [hdb] at h
    omega
  · rcases hw.conversations with hsame | ⟨names, id, hcreated⟩
    · rw [hsame] at h
      omega
    · unfold Exists
      rw [hcreated.conversations]
      exact ⟨_, List.mem_append_right _ (List.mem_singleton_self _), rfl⟩

/-- A creation of a room is a step that creates the conversation for its founders. -/
theorem creates_of_roomEvent {x : Step LoopState Event} {c : Int} {founders : Set Text}
    (h : roomEvent hasher x = .create c founders) :
    Creates hasher x c ∧ ∀ w ∈ founders, issuerOf x = some w ∨ w ∈ namedBy x := by
  unfold roomEvent at h
  split at h
  next v u hcmd hs =>
    split at h
    next hins =>
      cases h
      refine ⟨⟨Or.inl ⟨v, hcmd⟩, by rw [hs]; simp, not_exists_next _, exists_of_inserts hins⟩, ?_⟩
      intro w hw
      rcases List.mem_cons.mp hw with rfl | hw
      · exact Or.inl hs
      · right
        unfold namedBy
        rw [hcmd]
        exact hw
    next => cases h
  next users u hcmd hs =>
    split at h
    next hins =>
      cases h
      refine ⟨⟨Or.inr ⟨users, hcmd⟩, by rw [hs]; simp, not_exists_next _,
        exists_of_inserts hins⟩, ?_⟩
      intro w hw
      rcases List.mem_append.mp hw with hw | hw
      · right
        unfold namedBy
        rw [hcmd]
        exact hw
      · rw [List.mem_singleton.mp hw]
        exact Or.inl hs
    next => cases h
  next =>
    split at h
    · split at h <;> cases h
    · cases h
  next => cases h

/-- An invitation is an OK `add` on the open conversation. -/
theorem add_of_roomEvent {x : Step LoopState Event} {c : Int} {host w : Text}
    (h : roomEvent hasher x = .invite c host w) :
    commandOf x = some (.add w) ∧ repliedOk hasher x = true ∧ issuerOf x = some host ∧
      currentOf x = some c := by
  unfold roomEvent at h
  split at h
  next => split at h <;> cases h
  next => split at h <;> cases h
  next w' u hcmd hs =>
    split at h
    next c' hcur =>
      split at h
      next hok =>
        cases h
        exact ⟨hcmd, hok, hs, hcur⟩
      next => cases h
    next => cases h
  next => cases h

/-- The chain of invitations of the rooms, step by step. -/
theorem invited_of_provenance {log : List (RoomEvent Int Text)} {c : Int} {w : Text}
    (hp : Rooms.Provenance log c w) :
    ∀ {h : History LoopState Event} {s : LoopState}, h.map (roomEvent hasher) = log →
      (machine hasher serverSocket).Run h s → (∀ x ∈ h, JoinStep x) →
      FewConversations s.app.db → Invited hasher h c w := by
  induction hp with
  | founder newer ha =>
    intro h s hlog _ _ _
    obtain ⟨hnewer, hrest, rfl, _, hx⟩ := List.map_eq_append_iff.mp hlog
    obtain ⟨x, older, rfl, hevent, _⟩ := List.map_eq_cons_iff.mp hx
    obtain ⟨hcreates, hfounders⟩ := creates_of_roomEvent hevent
    exact .creation hnewer hcreates (hfounders _ ha)
  | guest newer hin hhost ih =>
    intro h s hlog hr hj hf
    obtain ⟨hnewer, hrest, rfl, _, hx⟩ := List.map_eq_append_iff.mp hlog
    obtain ⟨x, older, rfl, hevent, holder⟩ := List.map_eq_cons_iff.mp hx
    obtain ⟨hcmd, hok, hs, hcur⟩ := add_of_roomEvent hevent
    obtain ⟨hrx, _⟩ := hr.at_step
    have hjolder : ∀ y ∈ older, JoinStep y := fun y hy =>
      hj y (List.mem_append_right _ (List.mem_cons_of_mem _ hy))
    have hfx : FewConversations x.pre.app.db := by
      rw [List.append_cons] at hr
      exact few_earlier hr hrx hf
    have hrooms := (rooms_run hrx hjolder hfx).2.1
    rw [← holder, ← hrooms] at hin
    exact .addition hnewer hcmd hok hs hcur (member_of_inside hin) (ih holder hrx hjolder hfx)

/-- **Provenance of membership.** In every reachable state with few conversations,
every participant of a conversation created it, was named by its creator, or was
added by an earlier participant who had it open, and so on back to the creation. -/
theorem participant_provenance {h : History LoopState Event} {s : LoopState}
    (hr : (machine hasher serverSocket).Run h s) (hj : ∀ x ∈ h, JoinStep x)
    (hf : FewConversations s.app.db) {c : Int} {w : Text} (hm : Member s.app.db c w) :
    Invited hasher h c w := by
  obtain ⟨hvalid, hrooms, hres⟩ := rooms_run hr hj hf
  have hinside : (Rooms.after (h.map (roomEvent hasher))).Inside c w := by
    rw [← hrooms]
    exact ⟨_, rooms_of_exists (hres _ hm), hm⟩
  exact invited_of_provenance (Rooms.provenance hvalid hinside) rfl hr hj hf

/-- A member of a group opens it and adds a third user. -/
def invitationEvents : List Event :=
  [.accept 4, .accept 5, .line 0 "register a p a@x normal public\n",
    .line 0 "register b p b@x normal public\n", .line 0 "register c p c@x normal public\n",
    .line 0 "login a p\n", .line 1 "login b p\n", .line 0 "group b\n", .line 1 "open 1\n",
    .line 1 "add c\n"]

theorem participant_provenance_added :
    ∃ r, runEvents List.length 3 invitationEvents = some r ∧
      Invited List.length r.1 1 (bytes "c") := by
  obtain ⟨h, s, hr, hrun, hsound, hone, hm⟩ := runEvents_exists List.length 3 invitationEvents
    (p := fun _ s => s.app.db.conversations.rows.length = 1 ∧
      (⟨1, bytes "c"⟩ : ParticipantRow) ∈ s.app.db.participants.rows)
    (by simp [invitationEvents]) (by decide)
  have hf : FewConversations s.app.db := by
    unfold FewConversations
    omega
  exact ⟨(h, s), hr, participant_provenance hrun (fun x hx => (hsound x hx).join) hf hm⟩

/-- The last link of a chain of invitations. -/
theorem Invited.last {h : History LoopState Event} {c : Int} {w : Text}
    (hi : Invited hasher h c w) :
    (∃ x ∈ h, issuerOf x = some w ∨ w ∈ namedBy x) ∨
      ∃ x ∈ h, ∃ host, commandOf x = some (.add w) ∧ issuerOf x = some host ∧
        Member x.pre.app.db c host := by
  cases hi with
  | creation newer hx hw => exact Or.inl ⟨_, by simp, hw⟩
  | addition newer hcmd hok hs hc hm hhost => exact Or.inr ⟨_, by simp, _, hcmd, hs, hm⟩

/-- `a` adds `c` to a group that `a` is not in. -/
def strangerEvents : List Event := tornGroupEvents ++ [.line 0 "add c\n"]

/-- **Without the assumption there is no provenance.** -/
theorem participant_without_provenance :
    ¬ ∀ {h : History LoopState Event} {s : LoopState}, (machine List.length 3).Run h s →
      FewConversations s.app.db → ∀ {c : Int} {w : Text}, Member s.app.db c w →
        Invited List.length h c w := by
  intro hall
  obtain ⟨⟨h, s⟩, _, hrun, _, hone, hm, hnobody, hstranger⟩ :=
    Machine.Run.replay_exists (M := machine List.length 3)
      (Q := fun _ => True)
      (p := fun r => r.2.app.db.conversations.rows.length = 1 ∧ Member r.2.app.db 1 (bytes "c") ∧
        (∀ x ∈ r.1, issuerOf x ≠ some (bytes "c") ∧ bytes "c" ∉ namedBy x) ∧
        ∀ x ∈ r.1, commandOf x = some (.add (bytes "c")) →
          issuerOf x = some (bytes "a") ∧ ¬ Member x.pre.app.db 1 (bytes "a"))
      (fun e (_ : e ∈ strangerEvents) => trivial) (by decide)
  have hf : FewConversations s.app.db := by
    unfold FewConversations
    dsimp only at hone
    omega
  rcases (hall hrun hf hm).last with ⟨x, hx, hissuer | hnamed⟩ | ⟨x, hx, host, hcmd, hs, hhost⟩
  · exact (hnobody x hx).1 hissuer
  · exact (hnobody x hx).2 hnamed
  · obtain ⟨ha, hout⟩ := hstranger x hx hcmd
    rw [ha, Option.some.injEq] at hs
    exact hout (hs ▸ hhost)

end SocialNetwork.Server
