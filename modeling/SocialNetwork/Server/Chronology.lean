import SocialNetwork.Messaging.Delivery
import SocialNetwork.Server.Feed

/-!
# The order of histories and feeds

Both are sorted by a `CURRENT_TIMESTAMP` column alone, whose resolution is one second.
The clock does not go back (`Clocked`), so the rows lie in their tables in the order of
their times (`chronicle_run`), and a sort by time keeps that order up to ties. SQLite may
return ties in any order, so what `show` and `list_posts` print is in the order of the
steps exactly if rows of the same second look the same (`histories_in_order_iff`).
-/

namespace SocialNetwork.Server

open SocialNetwork.Lib

variable {hasher : Text → Nat} {serverSocket : Int}

/-- `CURRENT_TIMESTAMP` at a step. -/
def stampOf (x : Step LoopState Event) : Option Text :=
  match x.event with
  | .recv _ env _ => some env.now
  | _ => none

theorem stampOf_recv {x : Step LoopState Event} {i : Slot} {env : Env} {data : Text}
    (he : x.event = .recv i env data) : stampOf x = some env.now := by
  unfold stampOf
  rw [he]

/-- The clock did not go back during the run. -/
def Clocked (h : History LoopState Event) : Prop :=
  (h.filterMap stampOf).Pairwise fun later earlier => textLe earlier later = true

instance (h : History LoopState Event) : Decidable (Clocked h) :=
  inferInstanceAs (Decidable (List.Pairwise _ _))

/-- The post a step creates: that of an OK `create_post` by the user logged in on its
descriptor. -/
def createdBy (hasher : Text → Nat) (x : Step LoopState Event) : Option Post :=
  match commandOf x with
  | some (.createPost visibility content) =>
    if repliedOk hasher x then do
      let u ← issuerOf x
      let now ← stampOf x
      some ⟨u, content, visibility, now⟩
    else none
  | _ => none

/-- The client on `sd` may see the post. -/
def mayShow (a : App) (sd : Int) (p : Post) : Bool :=
  match a.sessions.sessions sd with
  | some v => Database.visibleTo a.db v ⟨0, p.author, p.content, p.visibility, p.createdAt⟩
  | none => p.visibility == 0

/-! ## One step -/

/-- **A step that creates a post adds its row, and no other step touches the table.** -/
theorem step_posts (hasher : Text → Nat) (x : Step LoopState Event) :
    (createdBy hasher x = none ∧
        (next hasher x.pre x.event).app.db.posts.rows = x.pre.app.db.posts.rows) ∨
      ∃ p id, createdBy hasher x = some p ∧ stampOf x = some p.createdAt ∧
        columnInt p.visibility = p.visibility ∧
        (next hasher x.pre x.event).app.db.posts.rows = x.pre.app.db.posts.rows ++
          [⟨id, p.author, p.content, p.visibility, p.createdAt⟩] := by
  rcases step_write hasher x with ⟨hcmd, _, hdb⟩ | ⟨i, env, data, cmd, reply, he, hcmd, hreply, hw⟩
  · left
    unfold createdBy
    rw [hcmd, hdb]
    exact ⟨rfl, rfl⟩
  · have hok := repliedOk_of_reply hreply
    have hstamp := stampOf_recv he
    unfold createdBy
    rw [hcmd]
    generalize (next hasher x.pre x.event).app.db = db' at hw ⊢
    cases hw with
    | unchanged h =>
      refine Or.inl ⟨?_, rfl⟩
      cases cmd with
      | createPost visibility content =>
        simp only [hok, not_isOk_of_unchanged h rfl]
        rfl
      | _ => rfl
    | @createPost u content vis t hs hc hrange ht hseq =>
      have hcreated : repliedOk hasher x = true := hok.trans rfl
      refine Or.inr ⟨⟨u, content, vis, env.now⟩, _, ?_, hstamp, ?_, ht⟩
      · simp only [hcreated, hs, hstamp]
        rfl
      · show narrow vis = vis
        refine narrow_of_fits ?_
        unfold intMin intMax
        omega
    | chat _ _ _ _ hcreated => exact Or.inl ⟨rfl, congrArg (·.rows) hcreated.posts⟩
    | group _ _ hcreated => exact Or.inl ⟨rfl, congrArg (·.rows) hcreated.posts⟩
    | _ => exact Or.inl ⟨rfl, rfl⟩

/-- A step leaves the messages alone or adds one with its own time. -/
theorem step_sentAt (hasher : Text → Nat) (x : Step LoopState Event) :
    (next hasher x.pre x.event).app.db.messages.rows = x.pre.app.db.messages.rows ∨
      ∃ m, stampOf x = some m.sentAt ∧
        (next hasher x.pre x.event).app.db.messages.rows = x.pre.app.db.messages.rows ++ [m] := by
  rcases step_write hasher x with ⟨_, _, hdb⟩ | ⟨i, env, data, cmd, reply, he, _, _, hw⟩
  · exact Or.inl (congrArg (·.messages.rows) hdb)
  · have hstamp := stampOf_recv he
    generalize (next hasher x.pre x.event).app.db = db' at hw ⊢
    cases hw with
    | send _ _ _ ht => exact Or.inr ⟨_, hstamp, ht⟩
    | chat _ _ _ _ hcreated => exact Or.inl (congrArg (·.rows) hcreated.messages)
    | group _ _ hcreated => exact Or.inl (congrArg (·.rows) hcreated.messages)
    | _ => exact Or.inl rfl

/-- `send` refuses the number that means no open conversation. -/
theorem sentBy_ne {x : Step LoopState Event} {e : Entry} (h : sentBy hasher x = some e) :
    e.conversationId ≠ -1 := by
  unfold sentBy at h
  split at h
  next content hcmd =>
    split at h
    next hok =>
      obtain ⟨c, hc, h⟩ := Option.bind_eq_some_iff.mp h
      obtain ⟨u, hu, h⟩ := Option.bind_eq_some_iff.mp h
      cases h
      intro hnone
      have hopen : x.pre.app.sessions.getCurrentConversation (sdOf x) = -1 := by
        unfold SessionManager.getCurrentConversation
        rw [show x.pre.app.sessions.currentConversation (sdOf x) = some c from hc]
        exact hnone
      obtain ⟨i, env, data, _, hreply, _⟩ := step_execute hasher hcmd
      rw [repliedOk_of_reply hreply] at hok
      unfold execute SendCommand.execute at hok
      rw [(SessionManager.sessions_eq_some hu).1, hopen] at hok
      cases hok
    next => cases h
  next => cases h

/-! ## The tables are chronicles -/

/-- The rows lie in the order of their times, all of which the clock has shown. -/
structure Chronicle {ρ : Type} (time : ρ → Text) (h : History LoopState Event) (rows : List ρ) :
    Prop where
  shown : ∀ r ∈ rows, time r ∈ h.filterMap stampOf
  ordered : rows.Pairwise fun a b => textLe (time a) (time b) = true

/-- A step keeps a chronicle if it adds at most one row, with its own time. -/
theorem Chronicle.step {ρ : Type} {time : ρ → Text} {h : History LoopState Event}
    {rows rows' : List ρ} (hc : Chronicle time h rows) {x : Step LoopState Event}
    (hclock : Clocked (x :: h))
    (hstep : rows' = rows ∨ ∃ r, stampOf x = some (time r) ∧ rows' = rows ++ [r]) :
    Chronicle time (x :: h) rows' := by
  have hold : ∀ r ∈ rows, time r ∈ (x :: h).filterMap stampOf := fun r hr =>
    (List.sublist_cons_self x h).filterMap stampOf |>.subset (hc.shown r hr)
  rcases hstep with rfl | ⟨r, hr, rfl⟩
  · exact ⟨hold, hc.ordered⟩
  · unfold Clocked at hclock
    rw [List.filterMap_cons_some hr, List.pairwise_cons] at hclock
    constructor
    · intro a ha
      rcases List.mem_append.mp ha with ha | ha
      · exact hold a ha
      · rw [List.mem_singleton.mp ha, List.filterMap_cons_some hr]
        exact List.mem_cons_self ..
    · rw [List.pairwise_append]
      refine ⟨hc.ordered, List.pairwise_singleton .., fun a ha b hb => ?_⟩
      rw [List.mem_singleton.mp hb]
      exact hclock.1 _ (hc.shown a ha)

theorem Clocked.tail {x : Step LoopState Event} {h : History LoopState Event}
    (hclock : Clocked (x :: h)) : Clocked h :=
  hclock.sublist ((List.sublist_cons_self x h).filterMap stampOf)

/-- **Messages and posts lie in the order of their times.** -/
theorem chronicle_run {h : History LoopState Event} {s : LoopState}
    (hr : (machine hasher serverSocket).Run h s) (hclock : Clocked h) :
    Chronicle (·.sentAt) h s.app.db.messages.rows ∧
      Chronicle (·.createdAt) h s.app.db.posts.rows := by
  induction hr with
  | init =>
    exact ⟨⟨List.forall_mem_nil _, List.Pairwise.nil⟩, ⟨List.forall_mem_nil _, List.Pairwise.nil⟩⟩
  | @step h s e _ _ ih =>
    obtain ⟨hmessages, hposts⟩ := ih hclock.tail
    refine ⟨hmessages.step hclock (step_sentAt hasher ⟨s, e⟩), hposts.step hclock ?_⟩
    rcases step_posts hasher ⟨s, e⟩ with ⟨_, hsame⟩ | ⟨p, id, _, hstamp, _, hadd⟩
    · exact Or.inl hsame
    · exact Or.inr ⟨_, hstamp, hadd⟩

/-- **The posts are the OK `create_post`s**, oldest first. -/
theorem posts_run {h : History LoopState Event} {s : LoopState}
    (hr : (machine hasher serverSocket).Run h s) :
    s.app.db.posts.rows.map Database.readPost = (h.filterMap (createdBy hasher)).reverse ∧
      ∀ r ∈ s.app.db.posts.rows, columnInt r.visibility = r.visibility := by
  induction hr with
  | init => exact ⟨rfl, List.forall_mem_nil _⟩
  | @step h s e _ _ ih =>
    rw [List.filterMap_cons]
    show (next hasher s e).app.db.posts.rows.map _ = _ ∧
      ∀ r ∈ (next hasher s e).app.db.posts.rows, _
    rcases step_posts hasher ⟨s, e⟩ with ⟨hnone, hsame⟩ | ⟨p, id, hsome, _, hvis, hadd⟩
    · rw [hsame, hnone]
      exact ih
    · rw [hadd, hsome, List.map_append, ih.1, List.reverse_cons]
      refine ⟨?_, fun r hr => ?_⟩
      · show _ ++ [Post.mk p.author p.content (columnInt p.visibility) p.createdAt] = _
        rw [hvis]
      · rcases List.mem_append.mp hr with hr | hr
        · exact ih.2 r hr
        · rw [List.mem_singleton.mp hr]
          exact hvis

/-! ## What is listed -/

/-- A sound environment may choose any order. -/
theorem forall_sound_iff {st : Stmt} {i : Nat} {p : Shuffle → Prop} :
    (∀ env : Env, env.Sound → p (env.order st i)) ↔ ∀ σ, p σ := by
  constructor
  · intro h σ
    exact h { Env.plain with order := fun _ _ => σ } Env.plain_sound
  · intro h env _
    exact h _

/-- A sort by time leaves a chronicle as it is, for every order of ties, exactly if rows
of the same second look the same. -/
theorem oldest_first_iff {ρ β : Type} {time : ρ → Text} {rows : List ρ}
    (h : rows.Pairwise fun a b => textLe (time a) (time b) = true) (f : ρ → β) :
    (∀ σ, (orderBy (fun a b => textLe (time a) (time b)) (arrange σ rows)).map f = rows.map f) ↔
      ∀ a ∈ rows, ∀ b ∈ rows, time a = time b → f a = f b := by
  rw [@orderBy_map_eq_iff ρ β (fun a b => textLe (time a) (time b)) rows rows
    (fun a b => textLe_total _ _) (fun _ _ _ => textLe_trans) h (List.Perm.refl _) f]
  refine forall₄_congr fun a _ b _ => ⟨fun hties heq => ?_, fun hties hab hba => ?_⟩
  · exact hties (heq ▸ textLe_refl _) (heq ▸ textLe_refl _)
  · exact hties (textLe_antisymm hab hba)

/-- The same for the latest rows first. -/
theorem newest_first_iff {ρ β : Type} {time : ρ → Text} {rows : List ρ}
    (h : rows.Pairwise fun a b => textLe (time a) (time b) = true) (f : ρ → β) :
    (∀ σ, (orderBy (fun a b => textLe (time b) (time a)) (arrange σ rows)).map f =
        (rows.map f).reverse) ↔
      ∀ a ∈ rows, ∀ b ∈ rows, time a = time b → f a = f b := by
  have hrev : rows.reverse.Pairwise fun a b => textLe (time b) (time a) = true :=
    List.pairwise_reverse.mpr h
  rw [← List.map_reverse, @orderBy_map_eq_iff ρ β (fun a b => textLe (time b) (time a)) rows.reverse
    rows (fun a b => textLe_total _ _) (fun _ _ _ h h' => textLe_trans h' h) hrev
    (List.reverse_perm _).symm f]
  simp only [List.mem_reverse]
  refine forall₄_congr fun a _ b _ => ⟨fun hties heq => ?_, fun hties hba hab => ?_⟩
  · exact hties (heq ▸ textLe_refl _) (heq ▸ textLe_refl _)
  · exact hties (textLe_antisymm hab hba)

/-- `show` lists the messages of the open conversation; nothing is filed under the number
that means none. -/
theorem listed_messages {h : History LoopState Event} {s : LoopState}
    (hr : (machine hasher serverSocket).Run h s) {sd : Int} {u : Text} {c : Int}
    (hs : s.app.sessions.sessions sd = some u)
    (hc : s.app.sessions.currentConversation sd = some c) {env : Env} (he : env.Sound) :
    (ShowCommand.messages env sd s.app).map Message.entry =
      (Database.oldestFirst (arrange (env.order .getMessages 0) (messagesOf s.app.db c))).map
        MessageRow.entry := by
  have hopen : s.app.sessions.getCurrentConversation sd = c := by
    unfold SessionManager.getCurrentConversation
    rw [hc]
    rfl
  unfold ShowCommand.messages
  rw [(SessionManager.sessions_eq_some hs).1, hopen, Bool.true_and]
  split
  next =>
    unfold Database.getMessages
    rw [select_sound he, List.map_map]
    refine List.map_congr_left fun r hrow => ?_
    have hrc := (List.mem_filter.mp (mem_arrange.mp (mem_orderBy.mp hrow))).2
    show Entry.mk c _ _ = Entry.mk r.conversationId _ _
    rw [beq_iff_eq.mp hrc]
    rfl
  next hnone =>
    rw [bne_iff_ne, not_not] at hnone
    have hempty : messagesOf s.app.db c = [] := by
      have hrun := messages_run hr c
      unfold sendsInto at hrun
      rw [List.filter_eq_nil_iff.mpr, List.reverse_nil, List.map_eq_nil_iff] at hrun
      · exact hrun
      · intro e he hec
        obtain ⟨x, _, hx⟩ := List.mem_filterMap.mp he
        exact sentBy_ne hx ((beq_iff_eq.mp hec).trans hnone)
    rw [hempty]
    rfl

/-- `list_posts` shows the posts created that may be shown. -/
theorem listed_posts {h : History LoopState Event} {s : LoopState}
    (hr : (machine hasher serverSocket).Run h s) (sd : Int) :
    ∃ (st : Stmt) (rows : List PostRow), rows.Sublist s.app.db.posts.rows ∧
      rows.map Database.readPost =
        ((h.filterMap (createdBy hasher)).filter (mayShow s.app sd)).reverse ∧
      ∀ env : Env, env.Sound → ListPostsCommand.posts env sd s.app =
        (Database.newestFirst (arrange (env.order st 0) rows)).map Database.readPost := by
  obtain ⟨hrows, hvis⟩ := posts_run hr
  -- the posts shown, as rows of the table
  have hread : (s.app.db.posts.rows.filter fun r => mayShow s.app sd (Database.readPost r)).map
      Database.readPost = ((h.filterMap (createdBy hasher)).filter (mayShow s.app sd)).reverse := by
    rw [← List.filter_reverse, ← hrows, List.filter_map]
    rfl
  unfold ListPostsCommand.posts
  cases hs : s.app.sessions.sessions sd with
  | none =>
    rw [SessionManager.isAuthenticated_eq_false hs]
    have hfilter : (s.app.db.posts.rows.filter fun r => r.visibility == 0) =
        s.app.db.posts.rows.filter fun r => mayShow s.app sd (Database.readPost r) := by
      refine List.filter_congr fun r hr => ?_
      unfold mayShow
      rw [hs]
      show _ = (columnInt r.visibility == 0)
      rw [hvis r hr]
    refine ⟨.getPublicPosts, _, List.filter_sublist, hread, fun env he => ?_⟩
    show Database.getPublicPosts env s.app.db = _
    unfold Database.getPublicPosts
    rw [select_sound he, hfilter]
  | some v =>
    obtain ⟨hauth, hname⟩ := SessionManager.sessions_eq_some hs
    rw [hauth, hname]
    have hfilter : s.app.db.posts.rows.filter (Database.visibleTo s.app.db v) =
        s.app.db.posts.rows.filter fun r => mayShow s.app sd (Database.readPost r) := by
      refine List.filter_congr fun r hr => ?_
      unfold mayShow
      rw [hs]
      show _ = Database.visibleTo s.app.db v ⟨0, _, _, columnInt r.visibility, _⟩
      rw [hvis r hr]
      rfl
    refine ⟨.getVisiblePosts, _, List.filter_sublist, hread, fun env he => ?_⟩
    show Database.getVisiblePosts env s.app.db v = _
    unfold Database.getVisiblePosts
    rw [select_sound he, hfilter]

/-- **Histories and feeds are in the order of the steps exactly if rows of one second look
the same.** In every run whose clock does not go back: `show` lists the messages of the open
conversation in the order of their sends, for every order SQLite may choose, if and only if
no two of them with different texts or senders have the same time; and `list_posts` lists
the later post first if and only if no two different posts it shows have the same time. -/
theorem histories_in_order_iff {h : History LoopState Event} {s : LoopState}
    (hr : (machine hasher serverSocket).Run h s) (hclock : Clocked h) (sd : Int) :
    (∀ u c, s.app.sessions.sessions sd = some u →
      s.app.sessions.currentConversation sd = some c →
      ((∀ env : Env, env.Sound →
          (ShowCommand.messages env sd s.app).map Message.entry =
            (sendsInto hasher h c).reverse) ↔
        ∀ m ∈ messagesOf s.app.db c, ∀ m' ∈ messagesOf s.app.db c,
          m.sentAt = m'.sentAt → m.entry = m'.entry)) ∧
    ((∀ env : Env, env.Sound →
        ListPostsCommand.posts env sd s.app =
          (h.filterMap (createdBy hasher)).filter (mayShow s.app sd)) ↔
      ∀ p ∈ (h.filterMap (createdBy hasher)).filter (mayShow s.app sd),
        ∀ q ∈ (h.filterMap (createdBy hasher)).filter (mayShow s.app sd),
          p.createdAt = q.createdAt → p = q) := by
  obtain ⟨hmessages, hposts⟩ := chronicle_run hr hclock
  constructor
  · intro u c hs hc
    have hsorted : (messagesOf s.app.db c).Pairwise fun a b => textLe a.sentAt b.sentAt = true :=
      hmessages.ordered.filter _
    rw [← oldest_first_iff hsorted MessageRow.entry, ← messages_run hr c,
      ← @forall_sound_iff .getMessages 0]
    refine forall₂_congr fun env he => ?_
    rw [listed_messages hr hs hc he]
    rfl
  · obtain ⟨st, rows, hsub, hrows, hlisted⟩ := listed_posts hr sd
    have hiff := newest_first_iff (hposts.ordered.sublist hsub) Database.readPost
    rw [hrows, List.reverse_reverse, ← @forall_sound_iff st 0] at hiff
    have hmem : ∀ p, p ∈ (h.filterMap (createdBy hasher)).filter (mayShow s.app sd) ↔
        ∃ r ∈ rows, Database.readPost r = p := by
      intro p
      rw [← List.mem_reverse, ← hrows, List.mem_map]
    refine Iff.trans (forall₂_congr fun env he => ?_)
      (hiff.trans ⟨fun hties => ?_, fun hties => ?_⟩)
    · rw [hlisted env he]
      rfl
    · intro p hp q hq heq
      obtain ⟨a, ha, rfl⟩ := (hmem p).mp hp
      obtain ⟨b, hb, rfl⟩ := (hmem q).mp hq
      exact hties a ha b hb heq
    · intro a ha b hb heq
      exact hties _ ((hmem _).mpr ⟨a, ha, rfl⟩) _ ((hmem _).mpr ⟨b, hb, rfl⟩) heq

/-- A client line that arrives at a given time. -/
def Event.lineAt (i : Slot) (now text : String) : Event :=
  .recv i { Env.plain with now := bytes now } (bytes text)

/-- A member of a group who sends and posts twice, at the given times. -/
def twiceEvents (first second : String) : List Event :=
  [.accept 4, .lineAt 0 first "register a p a@x normal public\n",
    .lineAt 0 first "register b p b@x normal public\n", .lineAt 0 first "login a p\n",
    .lineAt 0 first "group b\n", .lineAt 0 first "send one\n",
    .lineAt 0 first "create_post 0 one\n", .lineAt 0 second "send two\n",
    .lineAt 0 second "create_post 0 two\n"]

theorem twiceEvents_sound (first second : String) : ∀ e ∈ twiceEvents first second, e.Sound := by
  have hline : ∀ i now text, (Event.lineAt i now text).Sound := fun _ _ _ => Env.plain_sound
  simp [twiceEvents, hline]

theorem histories_in_order_iff_apart :
    ∃ h s, (machine List.length 3).Run h s ∧ Clocked h ∧
      sendsInto List.length h 1 = [⟨1, bytes "a", bytes "two"⟩, ⟨1, bytes "a", bytes "one"⟩] ∧
      ∀ env : Env, env.Sound →
        (ShowCommand.messages env 4 s.app).map Message.entry =
          [⟨1, bytes "a", bytes "one"⟩, ⟨1, bytes "a", bytes "two"⟩] := by
  obtain ⟨h, s, _, hrun, _, hclock, hs, hc, hsends, hties⟩ := runEvents_exists List.length 3
    (twiceEvents "2024-01-01 00:00:00" "2024-01-01 00:00:01")
    (p := fun h s => Clocked h ∧ s.app.sessions.sessions 4 = some (bytes "a") ∧
      s.app.sessions.currentConversation 4 = some 1 ∧
      sendsInto List.length h 1 = [⟨1, bytes "a", bytes "two"⟩, ⟨1, bytes "a", bytes "one"⟩] ∧
      ∀ m ∈ messagesOf s.app.db 1, ∀ m' ∈ messagesOf s.app.db 1,
        m.sentAt = m'.sentAt → m.entry = m'.entry)
    (twiceEvents_sound _ _) (by decide)
  refine ⟨h, s, hrun, hclock, hsends, fun env he => ?_⟩
  rw [((histories_in_order_iff hrun hclock 4).1 _ _ hs hc).mpr hties env he, hsends]
  rfl

/-- SQLite returns the later of two rows first. -/
def Env.lastFirst : Env := { Env.plain with order := fun _ _ _ => 1 }

/-- **Two messages, and two posts, of one second are listed in the wrong order.** -/
theorem histories_not_in_order :
    ∃ h s, (machine List.length 3).Run h s ∧ Clocked h ∧ (∀ x ∈ h, SoundStep x) ∧
      s.app.sessions.sessions 4 = some (bytes "a") ∧
      s.app.sessions.currentConversation 4 = some 1 ∧ Env.lastFirst.Sound ∧ Env.plain.Sound ∧
      (sendsInto List.length h 1).reverse =
        [⟨1, bytes "a", bytes "one"⟩, ⟨1, bytes "a", bytes "two"⟩] ∧
      (ShowCommand.messages Env.lastFirst 4 s.app).map Message.entry =
        [⟨1, bytes "a", bytes "two"⟩, ⟨1, bytes "a", bytes "one"⟩] ∧
      ((h.filterMap (createdBy List.length)).filter (mayShow s.app 4)).map (·.content) =
        [bytes "two", bytes "one"] ∧
      (ListPostsCommand.posts Env.plain 4 s.app).map (·.content) =
        [bytes "one", bytes "two"] := by
  obtain ⟨h, s, _, hrun, hsound, hclock, hs, hc, hsends, hshown, hposts, hlisted⟩ :=
    runEvents_exists List.length 3 (twiceEvents "2024-01-01 00:00:00" "2024-01-01 00:00:00")
      (p := fun h s => Clocked h ∧ s.app.sessions.sessions 4 = some (bytes "a") ∧
        s.app.sessions.currentConversation 4 = some 1 ∧
        (sendsInto List.length h 1).reverse =
          [⟨1, bytes "a", bytes "one"⟩, ⟨1, bytes "a", bytes "two"⟩] ∧
        (ShowCommand.messages Env.lastFirst 4 s.app).map Message.entry =
          [⟨1, bytes "a", bytes "two"⟩, ⟨1, bytes "a", bytes "one"⟩] ∧
        ((h.filterMap (createdBy List.length)).filter (mayShow s.app 4)).map (·.content) =
          [bytes "two", bytes "one"] ∧
        (ListPostsCommand.posts Env.plain 4 s.app).map (·.content) =
          [bytes "one", bytes "two"])
      (twiceEvents_sound _ _) (by decide)
  exact ⟨h, s, hrun, hclock, hsound, hs, hc, Env.plain_sound, Env.plain_sound, hsends, hshown,
    hposts, hlisted⟩

end SocialNetwork.Server
