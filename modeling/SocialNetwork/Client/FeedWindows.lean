import SocialNetwork.Server.Feed

/-!
# The feed windows

`MainWindow` and `GuestPostsWindow` each decode the response of `list_posts` in their own
way. The guest window looks at the start of the response and drops the header, and shows
every feed as it is (`loadPublicPosts_feedText`). The main window takes the text `No posts`
for the empty feed wherever it occurs. Users control only the contents of their posts, as a
name has no blank in it (`infix_postBody_iff`), so the main window shows the feed if and only
if no post listed has that text in its content (`feed_windows_iff`).

Mirroring notes:
- Labels and items are modelled by their texts, as bytes.
- `split`, `startsWith` and `trimmed` work on the characters of a `QString`; the bytes 10, 79
  and 75 are characters of their own in UTF-8.
-/

namespace SocialNetwork.Client

open SocialNetwork.Lib SocialNetwork.Server

/-! ## The two decoders -/

/-- What a feed window shows: posts, the notice that there are none, or that it failed. -/
inductive FeedView
  | posts (entries : List Text)
  | empty
  | failed
  deriving DecidableEq, Repr

def noPosts : Text := bytes "No posts"

/-- `loadPosts`, after the response. -/
def MainWindow.loadPosts (response : Text) : FeedView :=
  if contains noPosts response then .empty
  else .posts ((lines response).tail.filter (!·.isEmpty))

/-- The characters `QChar::isSpace` holds of, in UTF-8: up to U+0020, up to U+1680, of the
U+2000 block, and U+3000. -/
def spaces : List Text :=
  [[9], [10], [11], [12], [13], [32],
    [194, 133], [194, 160], [225, 154, 128],
    [226, 128, 128], [226, 128, 129], [226, 128, 130], [226, 128, 131], [226, 128, 132],
    [226, 128, 133], [226, 128, 134], [226, 128, 135], [226, 128, 136], [226, 128, 137],
    [226, 128, 138], [226, 128, 168], [226, 128, 169], [226, 128, 175], [226, 129, 159],
    [227, 128, 128]]

/-- The bytes are white space, if `start` are the first bytes of a character. -/
def isBlankFrom (start : Text) : Text → Bool
  | [] => start.isEmpty
  | b :: rest =>
    if start ++ [b] ∈ spaces then isBlankFrom [] rest
    else if spaces.any fun c => (start ++ [b]).isPrefixOf c then isBlankFrom (start ++ [b]) rest
    else false

/-- `trimmed().isEmpty()`. -/
def isBlank (line : Text) : Bool := isBlankFrom [] line

/-- `loadPublicPosts`, after the response. -/
def GuestPostsWindow.loadPublicPosts (response : Text) : FeedView :=
  if !(bytes "OK").isPrefixOf response then .failed
  else
    let entries := ((response.splitOn 10).drop 1).filter (!isBlank ·)
    if entries.isEmpty then .empty else .posts entries

/-- What a window should show of a feed. -/
def feedView (posts : List Post) : FeedView :=
  if posts.isEmpty then .empty else .posts (posts.map postBody)

/-! ## The lines of a feed -/

theorem isBlank_postBody (p : Post) : isBlank (postBody p) = false := by
  show isBlankFrom [] (91 :: _) = false
  rw [isBlankFrom, if_neg (by decide), if_neg (by decide)]

section

variable {posts : List Post}

/-- The lines of a feed that is not empty, its header first. -/
theorem lines_of_feed (h : ∀ p ∈ posts, GenuinePost p) :
    ∀ l ∈ bytes "OK Posts:" :: posts.map postBody, 10 ∉ l := by
  intro l hl hin
  rcases List.mem_cons.mp hl with rfl | hl
  · exact absurd hin (by decide)
  · obtain ⟨p, hp, rfl⟩ := List.mem_map.mp hl
    exact (isContent_postBody (h p hp) 10 hin).1 rfl

/-- **The guest window shows the feed.** -/
theorem loadPublicPosts_feedText (h : ∀ p ∈ posts, GenuinePost p) :
    GuestPostsWindow.loadPublicPosts (feedText posts) = feedView posts := by
  by_cases hnil : posts = []
  · subst hnil
    decide
  · have hok : (bytes "OK").isPrefixOf (feedText posts) = true := by
      rw [feedText_eq_unlines hnil]
      rfl
    have hentries : (((feedText posts).splitOn 10).drop 1).filter (!isBlank ·) =
        posts.map postBody := by
      rw [feedText_eq_unlines hnil, splitOn_unlines (lines_of_feed h), List.cons_append,
        List.drop_succ_cons, List.drop_zero, List.filter_append, List.filter_eq_self.mpr]
      · exact List.append_nil _
      · intro l hl
        obtain ⟨p, _, rfl⟩ := List.mem_map.mp hl
        rw [isBlank_postBody]
        rfl
    unfold GuestPostsWindow.loadPublicPosts feedView
    rw [hok, if_neg (by decide)]
    dsimp only
    rw [hentries, List.isEmpty_map]

/-- Only a content can have the text in it: the brackets cut the line, and the author has no
blank. -/
theorem infix_postBody_iff {p : Post} (h : GenuinePost p) :
    noPosts <:+: postBody p ↔ noPosts <:+: p.content := by
  have hbody : postBody p = [] ++ 91 :: (p.createdAt ++ 93 :: (32 :: (p.author ++ [32]) ++ 40 ::
      (intText p.visibility ++ 41 :: ([] ++ 58 :: 32 :: p.content)))) := by
    show [91] ++ p.createdAt ++ [93, 32] ++ p.author ++ [32, 40] ++ intText p.visibility ++
      [41, 58, 32] ++ p.content = _
    simp only [List.append_assoc, List.cons_append, List.nil_append]
  have hnone : ∀ {b : UInt8} {t : Text}, b ∈ noPosts → b ∉ t → ¬ noPosts <:+: t :=
    fun hb hnot hin => hnot (hin.subset hb)
  have htime : ¬ noPosts <:+: p.createdAt :=
    hnone (by decide) (h.time.not_mem (by decide : isDigit 78 = false) (by decide))
  have hnumber : ¬ noPosts <:+: intText p.visibility :=
    hnone (by decide : (78 : UInt8) ∈ _) (not_mem_intText (by decide) (by decide) _)
  -- the text neither starts nor ends with a blank, and has one inside
  have hauthor : ¬ noPosts <:+: 32 :: (p.author ++ [32]) := by
    rw [List.infix_cons_iff, List.infix_concat_iff]
    rintro (⟨t, ht⟩ | ⟨t, ht⟩ | hin)
    · cases ht
    · have hlast := congrArg List.getLast? ht
      rw [List.getLast?_append_of_ne_nil _ (by decide), List.getLast?_concat] at hlast
      cases hlast
    · exact h.author.not_mem (by decide : isSpace 32 = true) (hin.subset (by decide))
  have hstart : noPosts <:+: 32 :: p.content ↔ noPosts <:+: p.content := by
    rw [List.infix_cons_iff]
    refine or_iff_right ?_
    rintro ⟨t, ht⟩
    cases ht
  have hnil : ¬ noPosts <:+: [] := by decide
  rw [hbody, infix_append_cons_iff (by decide), infix_append_cons_iff (by decide),
    infix_append_cons_iff (by decide), infix_append_cons_iff (by decide),
    infix_append_cons_iff (by decide), hstart]
  simp only [hnil, htime, hauthor, hnumber, false_or]

/-- **The main window shows the feed if and only if no content says that there are no
posts.** -/
theorem loadPosts_feedText_iff (h : ∀ p ∈ posts, GenuinePost p) :
    MainWindow.loadPosts (feedText posts) = feedView posts ↔
      ∀ p ∈ posts, contains noPosts p.content = false := by
  by_cases hnil : posts = []
  · subst hnil
    exact iff_of_true (by decide) (List.forall_mem_nil _)
  · have hcontains : contains noPosts (feedText posts) = true ↔
        ∃ p ∈ posts, contains noPosts p.content = true := by
      rw [contains_iff, feedText_eq_unlines hnil, infix_unlines_iff (by decide) (by decide),
        List.exists_mem_cons_iff, or_iff_right (by decide)]
      constructor
      · rintro ⟨l, hl, hin⟩
        obtain ⟨p, hp, rfl⟩ := List.mem_map.mp hl
        exact ⟨p, hp, contains_iff.mpr ((infix_postBody_iff (h p hp)).mp hin)⟩
      · rintro ⟨p, hp, hin⟩
        exact ⟨postBody p, List.mem_map_of_mem hp,
          (infix_postBody_iff (h p hp)).mpr (contains_iff.mp hin)⟩
    have hentries : (lines (feedText posts)).tail.filter (!·.isEmpty) = posts.map postBody := by
      rw [feedText_eq_unlines hnil, lines_unlines_tail (by decide)]
      intro l hl
      refine ⟨?_, lines_of_feed h l (List.mem_cons_of_mem _ hl)⟩
      obtain ⟨p, _, rfl⟩ := List.mem_map.mp hl
      exact List.cons_ne_nil _ _
    have hview : feedView posts = .posts (posts.map postBody) := by
      unfold feedView
      rw [if_neg (by rw [List.isEmpty_iff]; exact hnil)]
    unfold MainWindow.loadPosts
    rw [hview, hentries]
    split
    next hin =>
      refine iff_of_false (by simp) fun hnone => ?_
      obtain ⟨p, hp, hp'⟩ := hcontains.mp hin
      rw [hnone p hp] at hp'
      cases hp'
    next hnot =>
      refine iff_of_true rfl fun p hp => ?_
      rw [← Bool.not_eq_true]
      exact fun hp' => hnot (hcontains.mpr ⟨p, hp, hp'⟩)

end

/-! ## The responses of the server -/

section

variable {hasher : Text → Nat} {serverSocket : Int}

/-- **The feed windows show exactly the feed if and only if no listed post has the text
`No posts` in its content.** In every reachable state and for every client, logged in or not,
both windows make one entry of each line after the header, in order, and show the notice for
an empty feed only; without the condition the guest window still does, so the windows
agree exactly then. -/
theorem feed_windows_iff {h : History LoopState Event} {s : LoopState}
    (hr : (machine hasher serverSocket).Run h s) (ht : ∀ x ∈ h, Timed x) (env : Env) (sd : Int) :
    GuestPostsWindow.loadPublicPosts (ListPostsCommand.execute env sd s.app) =
        feedView (ListPostsCommand.posts env sd s.app) ∧
      (MainWindow.loadPosts (ListPostsCommand.execute env sd s.app) =
          feedView (ListPostsCommand.posts env sd s.app) ↔
        ∀ p ∈ ListPostsCommand.posts env sd s.app, contains noPosts p.content = false) ∧
      (MainWindow.loadPosts (ListPostsCommand.execute env sd s.app) =
          GuestPostsWindow.loadPublicPosts (ListPostsCommand.execute env sd s.app) ↔
        ∀ p ∈ ListPostsCommand.posts env sd s.app, contains noPosts p.content = false) := by
  have hgenuine := @posts_genuine env sd s.app (legible_run hr ht) (grounded_run hr).1
  have hguest := loadPublicPosts_feedText hgenuine
  have hmain := loadPosts_feedText_iff hgenuine
  rw [list_posts_eq, hguest]
  exact ⟨rfl, hmain, hmain⟩

/-- A post that comes close to the text. -/
def nearlyEvents : List Event :=
  [.accept 4, .line 0 "register a p a@x normal public\n", .line 0 "login a p\n",
    .line 0 "create_post 0 No  posts\n", .line 0 "create_post 0 no posts\n"]

theorem feed_windows_iff_nearly :
    ∃ h s, (machine List.length 3).Run h s ∧
      (ListPostsCommand.posts Env.plain 4 s.app).length = 2 ∧
      MainWindow.loadPosts (ListPostsCommand.execute Env.plain 4 s.app) =
        feedView (ListPostsCommand.posts Env.plain 4 s.app) := by
  have hevents : ∀ e ∈ nearlyEvents, e.Timed := by simp [nearlyEvents]
  obtain ⟨⟨h, s⟩, _, hrun, htimed, hposts, hclean⟩ := Machine.Run.replay_exists
    (M := machine List.length 3)
    (p := fun r => (ListPostsCommand.posts Env.plain 4 r.2.app).length = 2 ∧
      ∀ p ∈ ListPostsCommand.posts Env.plain 4 r.2.app, contains noPosts p.content = false)
    hevents (by decide)
  obtain ⟨_, hmain, _⟩ := feed_windows_iff hrun htimed Env.plain 4
  exact ⟨h, s, hrun, hposts, hmain.mpr hclean⟩

/-- A post that says that there are none. -/
def noneEvents : List Event :=
  [.accept 4, .line 0 "register a p a@x normal public\n", .line 0 "login a p\n",
    .line 0 "create_post 0 No posts today\n"]

/-- **The feed windows do not show every feed**: one content hides it in the main window. -/
theorem feed_hidden :
    ¬ ∀ (hasher : Text → Nat) (serverSocket : Int) (h : History LoopState Event) (s : LoopState)
      (env : Env) (sd : Int), (machine hasher serverSocket).Run h s → (∀ x ∈ h, Timed x) →
        MainWindow.loadPosts (ListPostsCommand.execute env sd s.app) =
            feedView (ListPostsCommand.posts env sd s.app) ∧
          GuestPostsWindow.loadPublicPosts (ListPostsCommand.execute env sd s.app) =
            feedView (ListPostsCommand.posts env sd s.app) := by
  intro hall
  have hevents : ∀ e ∈ noneEvents, e.Timed := by simp [noneEvents]
  obtain ⟨⟨h, s⟩, _, hrun, htimed, hhidden⟩ := Machine.Run.replay_exists
    (M := machine List.length 3)
    (p := fun r => MainWindow.loadPosts (ListPostsCommand.execute Env.plain 4 r.2.app) ≠
      feedView (ListPostsCommand.posts Env.plain 4 r.2.app))
    hevents (by decide)
  exact hhidden (hall _ _ h s Env.plain 4 hrun htimed).1

end

end SocialNetwork.Client
