import SocialNetwork.Messaging.Membership

/-!
# Where conversation ids come from

Conversation ids enter the participants, the messages and the session maps by different
ways, some of them unchecked. `Numbered` says that none of them is made up: each is the
`int` that some row id handed out so far reads as (`Issued`). It holds in every run,
whatever statements fail (`numbered_run`), and while there are few conversations it
means that the conversation exists (`Issued.exists`).
-/

namespace SocialNetwork.Server

open SocialNetwork.Lib

variable {hasher : Text → Nat} {serverSocket : Int}

/-- `c` is a row id of `conversations` as an `int` reads it. -/
def Issued (db : Db) (c : Int) : Prop :=
  ∃ k, 1 ≤ k ∧ k ≤ db.conversations.seq ∧ c = narrow k

/-- Every conversation id in the tables and in the session maps was issued, and every
row id up to the largest is a conversation's. -/
structure Numbered (a : App) : Prop where
  conversations : ∀ k, 1 ≤ k → k ≤ a.db.conversations.seq → Exists a.db k
  participants : ∀ r ∈ a.db.participants.rows, Issued a.db r.conversationId
  messages : ∀ m ∈ a.db.messages.rows, Issued a.db m.conversationId
  current : ∀ sd c, a.sessions.currentConversation sd = some c → Issued a.db c

theorem Issued.mono {db db' : Db} {c : Int} (h : Issued db c)
    (hseq : db.conversations.seq ≤ db'.conversations.seq) : Issued db' c := by
  obtain ⟨k, hlow, hhigh, hc⟩ := h
  exact ⟨k, hlow, Int.le_trans hhigh hseq, hc⟩

/-- The next row id is not among the issued ids. -/
theorem not_issued_next (db : Db) : ¬ Issued db (db.conversations.seq + 1) := by
  rintro ⟨k, hlow, hhigh, hc⟩
  by_cases hfit : k ≤ intMax
  · rw [narrow_of_fits ⟨by unfold intMin; omega, hfit⟩] at hc
    omega
  · -- a narrowed id is an `int`, and the next one is larger than any
    have hle : narrow k < 2147483648 := Int.bmod_lt (by omega)
    unfold intMax at hfit
    omega

section

variable {env : Env} {db db' : Db} {names : List Text} {id : Int}

theorem Created.issued (h : Created env db names id db') : Issued db' id := by
  refine ⟨db.conversations.seq + 1, ?_, ?_, h.id_eq⟩
  · have := db.conversations.nonneg
    omega
  · rw [h.seq_eq]

theorem Created.seq_le (h : Created env db names id db') :
    db.conversations.seq ≤ db'.conversations.seq := by
  rw [h.seq_eq]
  omega

theorem exists_of_fewer (hc : Counted db) (hf : FewConversations db) :
    db.conversations.seq ≤ intMax := by
  unfold Counted at hc
  unfold FewConversations at hf
  unfold intMax
  omega

end

/-- **While there are few conversations, issued ids are conversations.** -/
theorem Issued.exists {a : App} {c : Int} (h : Issued a.db c) (hn : Numbered a)
    (hc : Counted a.db) (hf : FewConversations a.db) : Exists a.db c := by
  obtain ⟨k, hlow, hhigh, rfl⟩ := h
  have hmax := exists_of_fewer hc hf
  rw [narrow_of_fits ⟨by unfold intMin; omega, by omega⟩]
  exact hn.conversations k hlow hhigh

/-! ## One command -/

section

variable {env : Env} {sd : Int} {a : App} {cmd : Command} {r : Text × App}

/-- The database part: what is written carries issued ids. -/
theorem Write.numbered {db db' : Db} {issuer : Option Text} {current : Option Int} {reply : Text}
    (h : Write hasher env db issuer current cmd reply db')
    (hconv : ∀ k, 1 ≤ k → k ≤ db.conversations.seq → Exists db k)
    (hpart : ∀ r ∈ db.participants.rows, Issued db r.conversationId)
    (hmsg : ∀ m ∈ db.messages.rows, Issued db m.conversationId)
    (hcur : ∀ c, current = some c → Issued db c) :
    db.conversations.seq ≤ db'.conversations.seq ∧
      (∀ k, 1 ≤ k → k ≤ db'.conversations.seq → Exists db' k) ∧
      (∀ r ∈ db'.participants.rows, Issued db' r.conversationId) ∧
      (∀ m ∈ db'.messages.rows, Issued db' m.conversationId) := by
  have hcreated : ∀ {names id}, Created env db names id db' →
      db.conversations.seq ≤ db'.conversations.seq ∧
        (∀ k, 1 ≤ k → k ≤ db'.conversations.seq → Exists db' k) ∧
        (∀ r ∈ db'.participants.rows, Issued db' r.conversationId) ∧
        (∀ m ∈ db'.messages.rows, Issued db' m.conversationId) := by
    intro names id hc
    refine ⟨hc.seq_le, fun k hlow hhigh => ?_, fun r hr => ?_, fun m hm => ?_⟩
    · rw [hc.exists_iff]
      rw [hc.seq_eq] at hhigh
      by_cases hk : k ≤ db.conversations.seq
      · exact Or.inl (hconv k hlow hk)
      · exact Or.inr (by omega)
    · rcases hc.attached.mem_cases hr with hold | ⟨heq, _⟩
      · exact (hpart r hold).mono hc.seq_le
      · rw [heq]
        exact hc.issued
    · rw [hc.messages] at hm
      exact (hmsg m hm).mono hc.seq_le
  cases h with
  | chat _ _ _ _ hc => exact hcreated hc
  | group _ _ hc => exact hcreated hc
  | @send u content c t _ hc _ ht =>
    refine ⟨Int.le_refl _, hconv, hpart, fun m hm => ?_⟩
    rcases mem_inserted ht hm with hold | rfl
    · exact hmsg m hold
    · exact hcur c hc
  | @add u w c t _ hc _ hattached _ =>
    refine ⟨Int.le_refl _, hconv, fun r hr => ?_, hmsg⟩
    rcases hattached.mem_cases hr with hold | ⟨heq, _⟩
    · exact hpart r hold
    · rw [heq]
      exact hcur c hc
  | _ => exact ⟨Int.le_refl _, hconv, hpart, hmsg⟩

/-- What a command opens on its own socket has an issued id. -/
theorem Effect.current_issued (h : Effect hasher env sd a cmd r) (hn : Numbered a)
    (hseq : a.db.conversations.seq ≤ r.2.db.conversations.seq) {c : Int}
    (hc : r.2.sessions.currentConversation sd = some c) : Issued r.2.db c := by
  have hkeep : a.sessions.currentConversation sd = some c → Issued r.2.db c :=
    fun hold => (hn.current sd c hold).mono hseq
  cases h with
  | logout =>
    rw [show (a.sessions.logout sd).currentConversation sd = none from
      SessionManager.logout_currentConversation_self ..] at hc
    cases hc
  | @openConversation u c' _ hmem =>
    rw [show (a.sessions.openConversation sd c').currentConversation sd = some c' from
      SessionManager.openConversation_currentConversation_self .., Option.some.injEq] at hc
    subst hc
    exact hn.participants _ (isParticipant_true hmem)
  | @group u users id db _ _ hcreate =>
    unfold GroupCommand.created at hc hkeep ⊢
    rcases createGroupConversation_cases hcreate with ⟨rfl, rfl⟩ | hcreated
    · exact hkeep hc
    · split at hc
      next hid =>
        rw [if_pos hid] at hkeep ⊢
        exact hkeep hc
      next hid =>
        rw [if_neg hid]
        rw [show (a.sessions.openConversation sd id).currentConversation sd = some id from
          SessionManager.openConversation_currentConversation_self .., Option.some.injEq] at hc
        subst hc
        exact hcreated.issued
  | _ => exact hkeep hc

/-- One command keeps the invariant. -/
theorem Effect.numbered (h : Effect hasher env sd a cmd r) (hn : Numbered a) : Numbered r.2 := by
  obtain ⟨hseq, hconv, hpart, hmsg⟩ :=
    h.write.numbered hn.conversations hn.participants hn.messages (hn.current sd)
  refine ⟨hconv, hpart, hmsg, fun sd' c hc => ?_⟩
  by_cases hsd : sd' = sd
  · subst hsd
    exact h.current_issued hn hseq hc
  · rw [(h.frame hsd).2] at hc
    exact (hn.current sd' c hc).mono hseq

end

/-- **No conversation id is made up**, in any run. -/
theorem numbered_run {h : History LoopState Event} {s : LoopState}
    (hr : (machine hasher serverSocket).Run h s) : Numbered s.app := by
  refine app_invariant (Q := fun _ => True) ?_ (fun a sd hI => ?_)
    (fun h _ _ hI => h.numbered hI) hr fun _ _ _ _ _ _ => trivial
  · refine ⟨fun k hlow hhigh => ?_, fun r hr => ?_, fun m hm => ?_, fun sd c hc => ?_⟩
    · have hhigh : k ≤ 0 := hhigh
      omega
    · cases hr
    · cases hm
    · cases hc
  · refine ⟨hI.conversations, hI.participants, hI.messages, fun sd' c hc => ?_⟩
    exact hI.current sd' c (SessionManager.currentConversation_of_logout hc).2

end SocialNetwork.Server
