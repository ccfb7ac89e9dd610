import SocialNetwork.Client.ConversationList
import SocialNetwork.Client.Pairing

/-!
# When the conversation-list parser throws

Once a line has both brackets `loadConversations` trusts it: there must be a number where it
expects one, and a byte after the closing bracket. `Tolerated` are the lines that pass. A
response of `chats` that arrives whole has only such lines, but one that is cut right after
an id does not (`load_prefix_iff`), and an exception ends the program.
-/

namespace SocialNetwork.Client

open SocialNetwork.Lib SocialNetwork.Server

/-! ## One line -/

/-- The lines without one of the brackets are skipped. Of the others, the first bracket of
each kind counts: between them, or after the opening one if they are reversed, an `int` must
begin, and something must follow the closing one. -/
inductive Tolerated : Text → Prop
  | noLeft {line : Text} (h : 91 ∉ line) : Tolerated line
  | noRight {line : Text} (h : 93 ∉ line) : Tolerated line
  | bracketed {pre id rest : Text} {b : UInt8} (hpre : 91 ∉ pre ∧ 93 ∉ pre) (hid : 93 ∉ id)
      (hnumber : StartsWithInt id) : Tolerated (pre ++ 91 :: (id ++ 93 :: b :: rest))
  | reversed {pre mid rest : Text} (hpre : 91 ∉ pre ∧ 93 ∉ pre) (hmid : 91 ∉ mid)
      (hnumber : StartsWithInt rest) : Tolerated (pre ++ 93 :: (mid ++ 91 :: rest))

theorem parseLine_of_not_mem {line : Text} (h : 91 ∉ line ∨ 93 ∉ line) :
    parseLine line = .skipped := by
  unfold parseLine
  split
  · rfl
  · rcases h with h | h
    · rw [List.idxOf?_eq_none_iff.mpr h]
    · rw [List.idxOf?_eq_none_iff.mpr h]
      split <;> simp_all

/-- What the two calls of a line with brackets need. -/
theorem stoi_thrown_iff {s : Text} {p : Int → Parsed} (hp : ∀ n, p n ≠ .thrown) :
    (match stoi s with
      | none => Parsed.thrown
      | some n => p n) = .thrown ↔ ¬ StartsWithInt s := by
  rw [← stoi_isSome_iff]
  cases stoi s with
  | none => simp
  | some n => simp [hp n]

/-- **The parser gets through a line** exactly if it is tolerated. -/
theorem parseLine_thrown_iff {line : Text} : parseLine line = .thrown ↔ ¬ Tolerated line := by
  constructor
  · intro hthrown htol
    cases htol with
    | noLeft h =>
      rw [parseLine_of_not_mem (Or.inl h)] at hthrown
      cases hthrown
    | noRight h =>
      rw [parseLine_of_not_mem (Or.inr h)] at hthrown
      cases hthrown
    | bracketed hpre hid hnumber =>
      rw [parseLine_bracketed _ hpre hid] at hthrown
      exact (stoi_thrown_iff (fun n => by simp)).mp hthrown hnumber
    | reversed hpre hmid hnumber =>
      rw [parseLine_reversed _ hpre hmid] at hthrown
      exact (stoi_thrown_iff (fun n => by simp)).mp hthrown hnumber
  · intro hnot
    have hleft : 91 ∈ line := not_not.mp fun h => hnot (.noLeft h)
    have hright : 93 ∈ line := not_not.mp fun h => hnot (.noRight h)
    obtain ⟨pre, tail, rfl, hpre⟩ := List.eq_append_cons_of_mem hleft
    by_cases hin : 93 ∈ pre
    · -- the closing bracket comes first
      obtain ⟨pre, mid, rfl, hpre'⟩ := List.eq_append_cons_of_mem hin
      rw [List.mem_append, List.mem_cons, not_or, not_or] at hpre
      rw [List.append_assoc, List.cons_append] at hnot ⊢
      have hpres : 91 ∉ pre ∧ 93 ∉ pre := ⟨hpre.1, hpre'⟩
      rw [parseLine_reversed _ hpres hpre.2.2]
      exact (stoi_thrown_iff (fun n => by simp)).mpr fun hnumber =>
        hnot (.reversed hpres hpre.2.2 hnumber)
    · rw [List.mem_append, List.mem_cons] at hright
      obtain ⟨id, rest, rfl, hid⟩ := List.eq_append_cons_of_mem
        ((hright.resolve_left hin).resolve_left (by decide))
      rw [parseLine_bracketed _ ⟨hpre, hin⟩ hid]
      cases rest with
      | nil => cases stoi id <;> rfl
      | cons b rest =>
        exact (stoi_thrown_iff (fun n => by simp)).mpr fun hnumber =>
          hnot (.bracketed ⟨hpre, hin⟩ hid hnumber)

/-! ## Whole responses -/

theorem loadLines_eq_none_iff {ls : List Text} :
    loadLines ls = none ↔ ∃ line ∈ ls, parseLine line = .thrown := by
  induction ls with
  | nil => simp [loadLines]
  | cons line ls ih =>
    rw [List.exists_mem_cons_iff, ← ih, loadLines]
    cases parseLine line with
    | skipped => simp
    | item i => simp
    | thrown => simp

theorem loadConversations_eq_none_iff {response : Text} :
    loadConversations response = none ↔ ∃ line ∈ lines response, ¬ Tolerated line := by
  unfold loadConversations
  rw [loadLines_eq_none_iff]
  exact exists_congr fun line => and_congr_right fun _ => parseLine_thrown_iff

/-- Some lines and then, on the last one, an id in brackets and nothing else. -/
def EndsAfterId (t : Text) : Prop :=
  ∃ (whole : List Text) (c : Int), (∀ l ∈ whole, 10 ∉ l) ∧
    t = unlines 10 whole ++ (bytes "[" ++ intText c ++ bytes "]")

/-- The last line of such a text has no byte after the bracket. -/
theorem loadConversations_endsAfterId {t : Text} (h : EndsAfterId t) :
    loadConversations t = none := by
  obtain ⟨whole, c, hwhole, rfl⟩ := h
  have hline : bytes "[" ++ intText c ++ bytes "]" = [] ++ 91 :: (intText c ++ 93 :: []) := rfl
  have hthrown : parseLine (bytes "[" ++ intText c ++ bytes "]") = .thrown := by
    rw [hline, parseLine_bracketed _ (by simp) (not_mem_intText (by decide) (by decide) c)]
    cases stoi (intText c) <;> rfl
  have hlast : lines (bytes "[" ++ intText c ++ bytes "]") =
      [bytes "[" ++ intText c ++ bytes "]"] := by
    refine lines_of_not_mem ?_ (by simp [hline])
    simp only [List.mem_append, not_or]
    exact ⟨⟨by decide, not_mem_intText (by decide) (by decide) c⟩, by decide⟩
  unfold loadConversations
  rw [lines_unlines_append _ hwhole, hlast, loadLines_eq_none_iff]
  exact ⟨_, List.mem_append_right _ (List.mem_singleton_self _), hthrown⟩

/-- **Where a line of the response can be cut**: only right after the id is wrong. -/
theorem parseLine_part {env : Env} {db : Db} {x : Int × Nat} (hx : intMin ≤ x.1 ∧ x.1 ≤ intMax)
    {part : Text} (h : part <+: chatsBody env db x) :
    parseLine part ≠ .thrown ∨ part = bytes "[" ++ intText x.1 ++ bytes "]" := by
  have hskip : ∀ {t : Text}, 93 ∉ t → parseLine t ≠ .thrown := by
    intro t ht
    rw [parseLine_of_not_mem (Or.inr ht)]
    simp
  have hid : (93 : UInt8) ∉ intText x.1 := not_mem_intText (by decide) (by decide) _
  have hopen : 93 ∉ (91 :: intText x.1 : Text) := by
    rw [List.mem_cons, not_or]
    exact ⟨by decide, hid⟩
  have hbody : chatsBody env db x = (91 :: intText x.1) ++ 93 :: 32 :: listedNames env db x := by
    show [91] ++ intText x.1 ++ [93, 32] ++ _ = _
    simp only [List.append_assoc, List.cons_append, List.nil_append]
  rw [hbody] at h
  rcases prefix_append_cases h with hpart | ⟨r, hr, rfl⟩
  · exact Or.inl (hskip fun hin => hopen (hpart.subset hin))
  · rcases List.prefix_cons_iff.mp hr with rfl | ⟨r, rfl, hrest⟩
    · rw [List.append_nil]
      exact Or.inl (hskip hopen)
    · rcases List.prefix_cons_iff.mp hrest with rfl | ⟨names, rfl, _⟩
      · exact Or.inr rfl
      · -- the blank is there
        left
        show parseLine ([] ++ 91 :: (intText x.1 ++ 93 :: 32 :: names)) ≠ _
        rw [parseLine_bracketed _ (by simp) hid, stoi_printed hx]
        simp

section

variable {hasher : Text → Nat} {serverSocket : Int} {h : History LoopState Event} {s : LoopState}

/-- **A response of `chats` that is cut anywhere is safe** unless it is cut right after an
id. -/
theorem load_prefix_iff (hr : (machine hasher serverSocket).Run h s) {env : Env} {sd : Int}
    {t : Text} (ht : t <+: ChatsCommand.execute env sd s.app) :
    loadConversations t = none ↔ EndsAfterId t := by
  refine ⟨fun hnone => ?_, loadConversations_endsAfterId⟩
  have hliteral : ∀ {r : Text}, (∀ t' ∈ r.inits, loadConversations t' ≠ none) → ¬ t <+: r :=
    fun hall hpre => hall t ((List.mem_inits _ _).mpr hpre) hnone
  unfold ChatsCommand.execute at ht
  split at ht
  next => exact (hliteral (by decide) ht).elim
  next =>
    dsimp only at ht
    split at ht
    next => exact (hliteral (by decide) ht).elim
    next =>
      rw [chats_lines_eq] at ht
      obtain ⟨whole, part, hwhole, rfl, hpart⟩ := prefix_unlines ht
      have hwhole10 : ∀ l ∈ whole, 10 ∉ l := by
        intro l hl
        obtain ⟨x, _, rfl⟩ := List.mem_map.mp (hwhole l hl)
        exact chatsBody_line hr x
      unfold loadConversations at hnone
      rw [lines_unlines_append _ hwhole10, loadLines_eq_none_iff] at hnone
      obtain ⟨line, hline, hthrown⟩ := hnone
      rcases List.mem_append.mp hline with hline | hline
      · -- a whole line is an item
        obtain ⟨x, hx, rfl⟩ := List.mem_map.mp (hwhole line hline)
        rw [chatsBody,
          parseLine_chats (getUserConversations_fits (List.fst_mem_of_mem_zipIdx hx))] at hthrown
        cases hthrown
      · rcases hpart with rfl | ⟨l, hl, hpre⟩
        · cases hline
        · obtain ⟨x, hx, rfl⟩ := List.mem_map.mp hl
          have hne : part ≠ [] := by
            rintro rfl
            cases hline
          rw [lines_of_not_mem (fun hin => chatsBody_line hr x (hpre.subset hin)) hne,
            List.mem_singleton] at hline
          subst hline
          rcases parseLine_part (getUserConversations_fits (List.fst_mem_of_mem_zipIdx hx)) hpre
            with hsafe | heq
          · exact (hsafe hthrown).elim
          · exact ⟨whole, x.1, hwhole10, by rw [heq]⟩

end

/-- **When the conversation-list parser throws.** On any byte string it ends without an
exception if and only if every line is tolerated. Of the starts of the responses to `chats`, in
every reachable state, exactly those that end right after an id make it throw. -/
theorem list_parser_safe_iff (response : Text) :
    (loadConversations response ≠ none ↔ ∀ line ∈ lines response, Tolerated line) ∧
      ∀ (hasher : Text → Nat) (serverSocket : Int) (h : History LoopState Event) (s : LoopState)
        (env : Env) (sd : Int), (machine hasher serverSocket).Run h s →
          response <+: ChatsCommand.execute env sd s.app →
            (loadConversations response ≠ none ↔ ¬ EndsAfterId response) := by
  constructor
  · rw [Ne, loadConversations_eq_none_iff]
    simp only [not_exists, not_and, not_not]
  · intro _ _ _ _ _ _ hr ht
    exact not_congr (load_prefix_iff hr ht)

/-- A user alone in a group. -/
def loneEvents : List Event :=
  [.accept 4, .line 0 "register a p a@x normal public\n", .line 0 "login a p\n",
    .line 0 "group a\n"]

theorem list_parser_safe_iff_lone :
    ∃ h s, (machine List.length 3).Run h s ∧
      ChatsCommand.execute Env.plain 4 s.app = bytes "[1] a\n" ∧
      loadConversations (bytes "[1] ") ≠ none ∧
      ¬ ∀ line ∈ lines (bytes "[1]"), Tolerated line := by
  obtain ⟨h, s, _, hrun, _, hchats⟩ := runEvents_exists List.length 3 loneEvents
    (p := fun _ s => ChatsCommand.execute Env.plain 4 s.app = bytes "[1] a\n")
    (by simp [loneEvents]) (by decide)
  have hopen : ¬ ∀ line ∈ lines (bytes "[1]"), Tolerated line := fun htol =>
    absurd ((list_parser_safe_iff _).1.mpr htol) (by decide)
  refine ⟨h, s, hrun, hchats, ?_, hopen⟩
  have hpre : bytes "[1] " <+: ChatsCommand.execute Env.plain 4 s.app := hchats ▸ by decide
  refine ((list_parser_safe_iff _).2 List.length 3 h s Env.plain 4 hrun hpre).mpr fun hends => ?_
  exact absurd (loadConversations_endsAfterId hends) (by decide)

/-- The same on one connection, with the response to `chats` cut after three bytes. -/
def cutEvents : List ExchangeEvent :=
  [.server (.accept 4), .call (bytes "register a p a@x normal public"), .read Env.plain,
    .recv 19, .call (bytes "login a p"), .read Env.plain, .recv 20, .call (bytes "group a"),
    .read Env.plain, .recv 37, .call (bytes "chats"), .read Env.plain, .recv 3]

/-- **The parser throws on what `sendCommand` can return.** -/
theorem list_parser_throws :
    ¬ ∀ (hasher : Text → Nat) (serverSocket : Int) (i : Slot) (server : LoopState)
      (h₀ : History LoopState Event) (h : History Exchange ExchangeEvent) (d : Exchange),
      (machine hasher serverSocket).Run h₀ server → (exchangeMachine hasher i server).Run h d →
        ∀ r ∈ observed callReturned h, loadConversations r ≠ none := by
  intro hall
  have hevents : ∀ e ∈ cutEvents, e.Timed := by simp [cutEvents]
  obtain ⟨⟨h, d⟩, _, hrun, _, hreturned⟩ := Machine.Run.replay_exists
    (M := exchangeMachine List.length 0 (LoopState.init 3))
    (p := fun r => bytes "[1]" ∈ observed callReturned r.1) hevents (by decide)
  exact hall _ 3 0 _ [] h d .init hrun _ hreturned (by decide)

end SocialNetwork.Client
