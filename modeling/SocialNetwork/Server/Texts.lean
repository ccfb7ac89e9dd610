import SocialNetwork.Server.Integrity

/-!
# The texts in the database

`Legible` is what the replies that print stored texts rely on: names are words, contents
have no newline, neither has a NUL, and times are `CURRENT_TIMESTAMP`s. Texts are stored as
they were parsed and never edited, so one write of a well-formed command keeps it
(`Write.legible`), and it holds in every run (`legible_run`). The authors and senders are
covered through `Grounded`: they are registered.
-/

namespace SocialNetwork.Server

open SocialNetwork.Lib

variable {hasher : Text → Nat} {serverSocket : Int}

/-- `YYYY-MM-DD HH:MM:SS`. -/
def IsTimestamp (t : Text) : Prop :=
  t.map (fun b => if isDigit b then 48 else b) = bytes "0000-00-00 00:00:00"

instance (t : Text) : Decidable (IsTimestamp t) :=
  inferInstanceAs (Decidable (_ = bytes "0000-00-00 00:00:00"))

/-- `CURRENT_TIMESTAMP` has its format at this event. -/
def Event.Timed : Event → Prop
  | .recv _ env _ => IsTimestamp env.now
  | _ => True

@[simp] theorem Event.timed_accept (fd : Int) : (Event.accept fd).Timed := trivial

@[simp] theorem Event.timed_line (i : Slot) (text : String) : (Event.line i text).Timed :=
  (by decide : IsTimestamp Env.plain.now)

/-- `CURRENT_TIMESTAMP` had its format when this step was taken. -/
def Timed (x : Step LoopState Event) : Prop := x.event.Timed

theorem Timed.env {x : Step LoopState Event} (h : Timed x) {i : Slot} {env : Env} {data : Text}
    (he : x.event = .recv i env data) : IsTimestamp env.now := by
  unfold Timed at h
  rw [he] at h
  exact h

structure Legible (db : Db) : Prop where
  names : ∀ row ∈ db.users.rows, IsWord row.username
  posts : ∀ p ∈ db.posts.rows, IsTimestamp p.createdAt ∧ IsContent p.content
  messages : ∀ m ∈ db.messages.rows, IsContent m.content

theorem IsTimestamp.length {t : Text} (h : IsTimestamp t) : t.length = 19 := by
  have hlen := congrArg List.length h
  rw [List.length_map] at hlen
  exact hlen

/-- Only digits, hyphens, colons and a blank occur in a time. -/
theorem IsTimestamp.not_mem {t : Text} (h : IsTimestamp t) {b : UInt8} (hb : isDigit b = false)
    (hnot : b ∉ bytes "0000-00-00 00:00:00") : b ∉ t := by
  intro hin
  refine hnot (h ▸ List.mem_map.mpr ⟨b, hin, ?_⟩)
  rw [hb]
  rfl

theorem IsTimestamp.isContent {t : Text} (h : IsTimestamp t) : IsContent t := by
  intro b hb
  refine ⟨fun heq => ?_, fun heq => ?_⟩
  · exact h.not_mem (by decide : isDigit 10 = false) (by decide) (heq ▸ hb)
  · exact h.not_mem (by decide : isDigit 0 = false) (by decide) (heq ▸ hb)

theorem IsContent.append {a b : Text} (ha : IsContent a) (hb : IsContent b) :
    IsContent (a ++ b) := by
  intro x hx
  rcases List.mem_append.mp hx with hx | hx
  · exact ha x hx
  · exact hb x hx

instance (t : Text) : Decidable (IsContent t) := List.decidableBAll (fun b => b ≠ 10 ∧ b ≠ 0) t

/-- A word is in particular the content of a line. -/
theorem IsWord.isContent {w : Text} (h : IsWord w) : IsContent w := by
  intro b hb
  refine ⟨fun heq => ?_, (h b hb).2⟩
  exact h.not_mem (by decide : isSpace 10 = true) (heq ▸ hb)

section

variable {env : Env} {db db' : Db} {issuer : Option Text} {current : Option Int} {cmd : Command}
  {reply : Text}

/-- **One write of a well-formed command keeps the texts legible.** -/
theorem Write.legible (h : Write hasher env db issuer current cmd reply db') (hw : cmd.WellFormed)
    (hnow : IsTimestamp env.now) (hl : Legible db) : Legible db' := by
  cases h with
  | @register u p e r v shown t _ _ _ _ _ ht _ =>
    refine ⟨fun row hrow => ?_, hl.posts, hl.messages⟩
    obtain ⟨row₀, hrow₀, rfl⟩ := mem_updated ht hrow
    rw [shownRow_username]
    rcases mem_inserted rfl hrow₀ with hold | rfl
    · exact hl.names row₀ hold
    · exact hw.1
  | @setVisibility u v row shown t _ _ _ _ _ ht _ =>
    refine ⟨fun row' hrow' => ?_, hl.posts, hl.messages⟩
    obtain ⟨row₀, hrow₀, rfl⟩ := mem_updated ht hrow'
    rw [shownRow_username]
    exact hl.names row₀ hrow₀
  | createPost _ _ _ ht _ =>
    refine ⟨hl.names, fun p hp => ?_, hl.messages⟩
    rcases mem_inserted ht hp with hold | rfl
    · exact hl.posts p hold
    · exact ⟨hnow, hw⟩
  | send _ _ _ ht _ =>
    refine ⟨hl.names, hl.posts, fun m hm => ?_⟩
    rcases mem_inserted ht hm with hold | rfl
    · exact hl.messages m hold
    · exact hw.1
  | chat _ _ _ _ hcreated =>
    exact ⟨hcreated.users ▸ hl.names, hcreated.posts ▸ hl.posts, hcreated.messages ▸ hl.messages⟩
  | group _ _ hcreated =>
    exact ⟨hcreated.users ▸ hl.names, hcreated.posts ▸ hl.posts, hcreated.messages ▸ hl.messages⟩
  | _ => exact ⟨hl.names, hl.posts, hl.messages⟩

end

/-- **Texts are legible in every reachable state.** -/
theorem legible_run {h : History LoopState Event} {s : LoopState}
    (hr : (machine hasher serverSocket).Run h s) (ht : ∀ x ∈ h, Timed x) : Legible s.app.db := by
  refine app_invariant (Q := fun env => IsTimestamp env.now) (I := fun a => Legible a.db) ?_
    (fun _ _ hI => hI) (fun h hw hnow hI => h.write.legible hw hnow hI) hr
    fun x hx i env data he => (ht x hx).env he
  exact ⟨List.forall_mem_nil _, List.forall_mem_nil _, List.forall_mem_nil _⟩

/-- Registered names are words, and not empty. Unlike `Legible` this needs nothing of the
clock. -/
def Named (db : Db) : Prop := ∀ row ∈ db.users.rows, row.username ≠ [] ∧ IsWord row.username

theorem Write.named {env : Env} {db db' : Db} {issuer : Option Text} {current : Option Int}
    {cmd : Command} {reply : Text} (h : Write hasher env db issuer current cmd reply db')
    (hw : cmd.WellFormed) (hn : Named db) : Named db' := by
  cases h with
  | @register u p e r v shown t hu _ _ _ _ ht _ =>
    intro row hrow
    obtain ⟨row₀, hrow₀, rfl⟩ := mem_updated ht hrow
    rw [shownRow_username]
    rcases mem_inserted rfl hrow₀ with hold | rfl
    · exact hn row₀ hold
    · exact ⟨hu, hw.1⟩
  | @setVisibility u v row shown t _ _ _ _ _ ht _ =>
    intro row' hrow'
    obtain ⟨row₀, hrow₀, rfl⟩ := mem_updated ht hrow'
    rw [shownRow_username]
    exact hn row₀ hrow₀
  | chat _ _ _ _ hcreated =>
    unfold Named
    rw [hcreated.users]
    exact hn
  | group _ _ hcreated =>
    unfold Named
    rw [hcreated.users]
    exact hn
  | _ => exact hn

theorem named_run {h : History LoopState Event} {s : LoopState}
    (hr : (machine hasher serverSocket).Run h s) : Named s.app.db :=
  app_invariant (Q := fun _ => True) (I := fun a => Named a.db) (List.forall_mem_nil _)
    (fun _ _ hI => hI) (fun h hw _ hI => h.write.named hw hI) hr fun _ _ _ _ _ _ => trivial

theorem Named.registered {db : Db} (hn : Named db) {u : Text} (h : Registered db u) :
    u ≠ [] ∧ IsWord u := by
  obtain ⟨row, hrow, rfl⟩ := h
  exact hn row hrow

/-- The name of a registered user is a word. -/
theorem Legible.word {db : Db} (hl : Legible db) {u : Text} (h : Registered db u) : IsWord u := by
  obtain ⟨row, hrow, rfl⟩ := h
  exact hl.names row hrow

end SocialNetwork.Server
