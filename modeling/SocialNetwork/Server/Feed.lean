import SocialNetwork.Lib.Decimal
import SocialNetwork.Lib.Lines
import SocialNetwork.Server.Texts

/-!
# Feeds and histories read back

`list_posts` and `show` print stored texts without any escaping. `decodeFeed` and
`decodeHistory` are parsers of the two responses: they cut at the newlines and each line at
its blanks and brackets. The brackets that names and contents may contain do no harm: a
time has a fixed length, the name after it ends at the first blank, and the content is the
rest of the line. So a response has one reading (`responses_determine_items`), because the
texts are legible.
-/

namespace SocialNetwork.Server

open SocialNetwork.Lib

variable {hasher : Text → Nat} {serverSocket : Int}

/-! ## One line -/

/-- A post as the queries return it. -/
structure GenuinePost (p : Post) : Prop where
  time : IsTimestamp p.createdAt
  author : IsWord p.author
  visibility : intMin ≤ p.visibility ∧ p.visibility ≤ intMax
  content : IsContent p.content

/-- A sender and a content as the queries return them. -/
structure GenuineItem (m : Text × Text) : Prop where
  sender : IsWord m.1
  content : IsContent m.2

/-- A line of the feed without its newline. -/
def postBody (p : Post) : Text :=
  bytes "[" ++ p.createdAt ++ bytes "] " ++ p.author ++ bytes " (" ++ intText p.visibility
    ++ bytes "): " ++ p.content

/-- A line of a history without its newline. -/
def itemBody (m : Text × Text) : Text := bytes "[" ++ m.1 ++ bytes "] " ++ m.2

/-- `[<19 bytes>] <up to a blank> (<up to a bracket>): <the rest>`. -/
def decodePost (line : Text) : Option Post :=
  let named := line.drop 22
  let shown := (named.dropWhile (· != 32)).drop 2
  (stoi (shown.takeWhile (· != 41))).map fun visibility =>
    { author := named.takeWhile (· != 32)
      content := (shown.dropWhile (· != 41)).drop 3
      visibility := visibility
      createdAt := (line.drop 1).take 19 }

/-- `[<up to the bracket before a blank>] <the rest>`. -/
def decodeItem (line : Text) : Text × Text :=
  (((line.takeWhile (· != 32)).drop 1).dropLast, (line.dropWhile (· != 32)).drop 1)

example : decodePost (bytes "[2024-01-01 00:00:00] a](0): (1): x] y (2): z") =
    some ⟨bytes "a](0):", bytes "x] y (2): z", 1, bytes "2024-01-01 00:00:00"⟩ := by decide

theorem not_blank_of_isWord {w : Text} (h : IsWord w) : ∀ b ∈ w, (b != 32) = true := by
  intro b hb
  rw [bne_iff_ne]
  intro heq
  exact h.not_mem (by decide : isSpace 32 = true) (heq ▸ hb)

/-- **The line of a post decodes to the post.** -/
theorem decodePost_body {p : Post} (h : GenuinePost p) : decodePost (postBody p) = some p := by
  -- the line, cut where the parser cuts it
  have hbody : postBody p = 91 :: (p.createdAt ++ [93, 32] ++
      (p.author ++ 32 :: 40 :: (intText p.visibility ++ 41 :: 58 :: 32 :: p.content))) := by
    show [91] ++ p.createdAt ++ [93, 32] ++ p.author ++ [32, 40] ++ intText p.visibility ++
      [41, 58, 32] ++ p.content = _
    simp only [List.append_assoc, List.cons_append, List.nil_append]
  have hlen := h.time.length
  have hnamed : (postBody p).drop 22 =
      p.author ++ 32 :: 40 :: (intText p.visibility ++ 41 :: 58 :: 32 :: p.content) := by
    rw [hbody, List.drop_succ_cons]
    apply List.drop_left'
    rw [List.length_append, hlen]
    rfl
  have htime : ((postBody p).drop 1).take 19 = p.createdAt := by
    rw [hbody, List.drop_succ_cons, List.drop_zero, List.append_assoc]
    exact List.take_left' hlen
  have hdigits : ∀ b ∈ intText p.visibility, (b != 41) = true := by
    intro b hb
    rw [bne_iff_ne]
    rintro rfl
    exact not_mem_intText (by decide) (by decide) _ hb
  have hstoi : stoi (intText p.visibility) = some p.visibility := stoi_printed h.visibility
  have hauthor : ((postBody p).drop 22).takeWhile (· != 32) = p.author := by
    rw [hnamed]
    exact takeWhile_append_stop (not_blank_of_isWord h.author) (by intro b hb; cases hb; rfl)
  have hshown : (((postBody p).drop 22).dropWhile (· != 32)).drop 2 =
      intText p.visibility ++ 41 :: 58 :: 32 :: p.content := by
    rw [hnamed, dropWhile_append_stop (not_blank_of_isWord h.author)
      (by intro b hb; cases hb; rfl)]
    rfl
  have hstop : ∀ b ∈ (41 :: 58 :: 32 :: p.content : Text).head?, (b != 41) = false := by
    intro b hb
    cases hb
    rfl
  simp only [decodePost, hauthor, hshown, htime, takeWhile_append_stop hdigits hstop,
    dropWhile_append_stop hdigits hstop, hstoi]
  rfl

/-- **The line of a message decodes to its sender and content.** -/
theorem decodeItem_body {m : Text × Text} (h : GenuineItem m) : decodeItem (itemBody m) = m := by
  have hbody : itemBody m = (91 :: (m.1 ++ [93])) ++ 32 :: m.2 := by
    show [91] ++ m.1 ++ [93, 32] ++ m.2 = _
    simp only [List.append_assoc, List.cons_append, List.nil_append]
  have hhead : ∀ b ∈ (91 :: (m.1 ++ [93]) : Text), (b != 32) = true := by
    intro b hb
    rcases List.mem_cons.mp hb with rfl | hb
    · rfl
    · rcases List.mem_append.mp hb with hb | hb
      · exact not_blank_of_isWord h.sender b hb
      · rw [List.mem_singleton.mp hb]
        rfl
  unfold decodeItem
  rw [hbody, takeWhile_append_stop hhead (by intro b hb; cases hb; rfl),
    dropWhile_append_stop hhead (by intro b hb; cases hb; rfl), List.drop_succ_cons,
    List.drop_zero, List.dropLast_concat]
  rfl

/-! ## Whole responses -/

theorem isContent_intText (n : Int) : IsContent (intText n) := by
  intro b hb
  refine ⟨?_, ?_⟩ <;>
  · rintro rfl
    exact not_mem_intText (by decide) (by decide) n hb

theorem isContent_postBody {p : Post} (h : GenuinePost p) : IsContent (postBody p) := by
  unfold postBody
  refine .append (.append (.append (.append (.append (.append (.append ?_ ?_) ?_) ?_) ?_) ?_) ?_) ?_
  · decide
  · exact h.time.isContent
  · decide
  · exact h.author.isContent
  · decide
  · exact isContent_intText _
  · decide
  · exact h.content

theorem isContent_itemBody {m : Text × Text} (h : GenuineItem m) : IsContent (itemBody m) := by
  unfold itemBody
  refine .append (.append (.append ?_ ?_) ?_) ?_
  · decide
  · exact h.sender.isContent
  · decide
  · exact h.content

/-- The lines of contents are found again. -/
theorem splitOn_lines {ls : List Text} (h : ∀ l ∈ ls, IsContent l) :
    (unlines 10 ls).splitOn 10 = ls ++ [[]] :=
  splitOn_unlines fun l hl hin => (h l hl 10 hin).1 rfl

/-- What `list_posts` makes of the posts. -/
def feedText (posts : List Post) : Text :=
  if posts.isEmpty then bytes "OK No posts\n"
  else bytes "OK Posts:\n" ++ posts.flatMap ListPostsCommand.line

/-- What `show` makes of the messages, if there are any. -/
def historyText (items : List (Text × Text)) : Text := unlines 10 (items.map itemBody)

/-- The lines after the header, decoded. -/
def decodeFeed (response : Text) : List (Option Post) :=
  ((response.splitOn 10).drop 1).dropLast.map decodePost

/-- The lines, decoded. A response that is not a history has no complete line. -/
def decodeHistory (response : Text) : List (Text × Text) :=
  (response.splitOn 10).dropLast.map decodeItem

theorem feedText_eq_unlines {posts : List Post} (hne : posts ≠ []) :
    feedText posts = unlines 10 (bytes "OK Posts:" :: posts.map postBody) := by
  unfold feedText
  rw [if_neg (by rw [List.isEmpty_iff]; exact hne), unlines_cons]
  unfold unlines
  rw [List.flatMap_map]
  rfl

/-- **A feed decodes to its posts**, one line each. -/
theorem decodeFeed_feedText {posts : List Post} (h : ∀ p ∈ posts, GenuinePost p) :
    decodeFeed (feedText posts) = posts.map some := by
  by_cases hnil : posts = []
  · subst hnil
    decide
  · have hlines : ∀ l ∈ bytes "OK Posts:" :: posts.map postBody, IsContent l := by
      intro l hl
      rcases List.mem_cons.mp hl with rfl | hl
      · decide
      · obtain ⟨p, hp, rfl⟩ := List.mem_map.mp hl
        exact isContent_postBody (h p hp)
    unfold decodeFeed
    rw [feedText_eq_unlines hnil, splitOn_lines hlines, List.cons_append, List.drop_succ_cons,
      List.drop_zero, List.dropLast_concat, List.map_map]
    refine List.map_congr_left fun p hp => ?_
    rw [Function.comp_apply, decodePost_body (h p hp)]

/-- **A history decodes to its messages**, one line each. -/
theorem decodeHistory_historyText {items : List (Text × Text)} (h : ∀ m ∈ items, GenuineItem m) :
    decodeHistory (historyText items) = items := by
  have hlines : ∀ l ∈ items.map itemBody, IsContent l := by
    intro l hl
    obtain ⟨m, hm, rfl⟩ := List.mem_map.mp hl
    exact isContent_itemBody (h m hm)
  unfold decodeHistory historyText
  rw [splitOn_lines hlines, List.dropLast_concat, List.map_map]
  conv_rhs => rw [← List.map_id items]
  exact List.map_congr_left fun m hm => decodeItem_body (h m hm)

/-! ## What the queries return is genuine -/

section

variable {env : Env} {sd : Int} {a : App}

/-- The local `messages` of `ShowCommand::execute`, empty where it does not get there. -/
def ShowCommand.messages (env : Env) (sd : Int) (a : App) : List Message :=
  if a.sessions.isAuthenticated sd && a.sessions.getCurrentConversation sd != -1 then
    Database.getMessages env a.db (a.sessions.getCurrentConversation sd)
  else []

theorem genuine_readPost (hl : Legible a.db) (hg : Grounded a.db) {r : PostRow}
    (hr : r ∈ a.db.posts.rows) : GenuinePost (Database.readPost r) where
  time := (hl.posts r hr).1
  author := hl.word (hg.authors r hr)
  visibility := narrow_fits _
  content := (hl.posts r hr).2

theorem posts_genuine (hl : Legible a.db) (hg : Grounded a.db) :
    ∀ p ∈ ListPostsCommand.posts env sd a, GenuinePost p := by
  have hquery : ∀ {st i q}, ∀ p ∈ (Database.newestFirst
      (select env st i (a.db.posts.rows.filter q))).map Database.readPost, GenuinePost p := by
    intro st i q p hp
    obtain ⟨r, hr, rfl⟩ := List.mem_map.mp hp
    have hrow := mem_of_mem_select (mem_orderBy.mp hr)
    exact genuine_readPost hl hg (List.mem_filter.mp hrow).1
  unfold ListPostsCommand.posts
  split
  · exact hquery
  · exact hquery

theorem messages_genuine (hl : Legible a.db) (hg : Grounded a.db) :
    ∀ m ∈ ShowCommand.messages env sd a, GenuineItem (m.sender, m.content) := by
  unfold ShowCommand.messages
  split
  next =>
    intro m hm
    obtain ⟨r, hr, rfl⟩ := List.mem_map.mp hm
    have hrow := (List.mem_filter.mp (mem_of_mem_select (mem_orderBy.mp hr))).1
    exact ⟨hl.word (hg.senders r hrow).1, hl.messages r hrow⟩
  next => exact List.forall_mem_nil _

theorem list_posts_eq (env : Env) (sd : Int) (a : App) :
    ListPostsCommand.execute env sd a = feedText (ListPostsCommand.posts env sd a) := rfl

/-- A response of `show` that is a history, or one without a newline. -/
theorem show_cases (env : Env) (sd : Int) (a : App) :
    ShowCommand.execute env sd a =
        historyText ((ShowCommand.messages env sd a).map fun m => (m.sender, m.content)) ∨
      (ShowCommand.messages env sd a = [] ∧ 10 ∉ ShowCommand.execute env sd a) := by
  unfold ShowCommand.execute ShowCommand.messages
  cases hauth : a.sessions.isAuthenticated sd with
  | false =>
    refine Or.inr ⟨rfl, ?_⟩
    rw [if_pos (by decide : (!false) = true)]
    decide
  | true =>
    rw [if_neg (by decide)]
    dsimp only
    by_cases hc : a.sessions.getCurrentConversation sd = -1
    · rw [if_pos hc]
      refine Or.inr ⟨if_neg ?_, by decide⟩
      rw [hc]
      decide
    · have hopen : (true && a.sessions.getCurrentConversation sd != -1) = true := by
        rw [Bool.true_and, bne_iff_ne]
        exact hc
      rw [if_pos hopen, if_neg hc]
      split
      next hnil => exact Or.inr ⟨List.isEmpty_iff.mp hnil, by decide⟩
      next =>
        left
        unfold historyText unlines
        rw [List.map_map, List.flatMap_map]
        rfl

end

/-- **Feeds and histories have one reading.** In every reachable state, for every client,
the response of `list_posts` decodes line by line to the posts of the query and the
response of `show` to the senders and contents of the query, and no other genuine items
make the same response. -/
theorem responses_determine_items {h : History LoopState Event} {s : LoopState}
    (hr : (machine hasher serverSocket).Run h s) (ht : ∀ x ∈ h, Timed x) (env : Env) (sd : Int) :
    (decodeFeed (ListPostsCommand.execute env sd s.app) =
        (ListPostsCommand.posts env sd s.app).map some ∧
      ∀ posts, (∀ p ∈ posts, GenuinePost p) →
        feedText posts = ListPostsCommand.execute env sd s.app →
          posts = ListPostsCommand.posts env sd s.app) ∧
    (decodeHistory (ShowCommand.execute env sd s.app) =
        (ShowCommand.messages env sd s.app).map (fun m => (m.sender, m.content)) ∧
      ∀ items, (∀ m ∈ items, GenuineItem m) →
        historyText items = ShowCommand.execute env sd s.app →
          items = (ShowCommand.messages env sd s.app).map fun m => (m.sender, m.content)) := by
  have hl := legible_run hr ht
  have hg := (grounded_run hr).1
  have hfeed : decodeFeed (ListPostsCommand.execute env sd s.app) =
      (ListPostsCommand.posts env sd s.app).map some := by
    rw [list_posts_eq]
    exact decodeFeed_feedText (posts_genuine hl hg)
  have hhistory : decodeHistory (ShowCommand.execute env sd s.app) =
      (ShowCommand.messages env sd s.app).map (fun m => (m.sender, m.content)) := by
    rcases show_cases env sd s.app with heq | ⟨hnil, hnone⟩
    · rw [heq]
      refine decodeHistory_historyText fun m hm => ?_
      obtain ⟨m', hm', rfl⟩ := List.mem_map.mp hm
      exact messages_genuine hl hg m' hm'
    · unfold decodeHistory
      rw [List.splitOn_eq_singleton hnone, hnil]
      rfl
  refine ⟨⟨hfeed, fun posts hposts heq => ?_⟩, hhistory, fun items hitems heq => ?_⟩
  · rw [← heq, decodeFeed_feedText hposts] at hfeed
    exact List.map_injective_iff.mpr (Option.some_injective _) hfeed
  · rw [← heq, decodeHistory_historyText hitems] at hhistory
    exact hhistory

/-- A user whose name and texts look like lines of a feed. -/
def forgingEvents : List Event :=
  [.accept 4, .line 0 "register ](0): p a@x normal public\n",
    .line 0 "register b p b@x normal public\n", .line 0 "login ](0): p\n",
    .line 0 "create_post 0 [2024-01-01 00:00:00] b (0): hi\n", .line 0 "create_post 1 hi\n",
    .line 0 "group b\n", .line 0 "send [b] hi\n"]

theorem responses_determine_items_forging :
    ∃ h s, (machine List.length 3).Run h s ∧
      (ListPostsCommand.posts Env.plain 4 s.app).length = 2 ∧
      (ShowCommand.messages Env.plain 4 s.app).length = 1 ∧
      decodeFeed (ListPostsCommand.execute Env.plain 4 s.app) =
        (ListPostsCommand.posts Env.plain 4 s.app).map some ∧
      decodeHistory (ShowCommand.execute Env.plain 4 s.app) =
        (ShowCommand.messages Env.plain 4 s.app).map (fun m => (m.sender, m.content)) := by
  have hevents : ∀ e ∈ forgingEvents, e.Timed := by simp [forgingEvents]
  obtain ⟨⟨h, s⟩, _, hrun, htimed, hposts, hmessages⟩ := Machine.Run.replay_exists
    (M := machine List.length 3)
    (p := fun r => (ListPostsCommand.posts Env.plain 4 r.2.app).length = 2 ∧
      (ShowCommand.messages Env.plain 4 r.2.app).length = 1)
    hevents (by decide)
  obtain ⟨⟨hfeed, _⟩, hhistory, _⟩ := responses_determine_items hrun htimed Env.plain 4
  exact ⟨h, s, hrun, hposts, hmessages, hfeed, hhistory⟩

end SocialNetwork.Server
