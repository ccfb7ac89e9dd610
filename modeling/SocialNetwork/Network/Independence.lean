import SocialNetwork.Network.Footprints
import SocialNetwork.Network.Runs

/-!
# Independent requests can come in any order

Two runs of the server, whose statements succeed and whose counters have room, and whose
requests differ in the order of two neighbours that do not interfere, end with the same network,
and answer all requests alike (`reordered_runs`): what the clients of two slots get does not
depend on the order in which one pass of the loop serves them.
-/

namespace SocialNetwork.Server

open SocialNetwork.Lib

/-! ## Runs that differ in the order of two requests -/

/-- What two steps make of the network before them. -/
theorem network_of_two {hasher : Text → Nat} {serverSocket : Int}
    {older : History LoopState Event} {x y : Step LoopState Event} {s : LoopState}
    (hr : (machine hasher serverSocket).Run (x :: y :: older) s) (hx : Regular hasher x)
    (hy : Regular hasher y) :
    x.pre.app.network = y.pre.app.network.next (Database.Hashpassword hasher) (deedOf y) ∧
      s.app.network = x.pre.app.network.next (Database.Hashpassword hasher) (deedOf x) := by
  have hpre : x.pre = next hasher y.pre y.event := hr.of_cons.1.of_cons.2.2
  have hlast : s = next hasher x.pre x.event := hr.of_cons.2.2
  exact ⟨(congrArg (·.app.network) hpre).trans hy.refines,
    (congrArg (·.app.network) hlast).trans hx.refines⟩

/-- A step answers as it would have done before a deed that it does not interfere with. -/
theorem AnsweredAlike.of_free {hasher : Text → Nat} {x x' : Step LoopState Event}
    {e : Network.Deed} (hx : Regular hasher x) (hx' : Regular hasher x')
    (hdeed : deedOf x = deedOf x')
    (hpre : x'.pre.app.network = x.pre.app.network.next (Database.Hashpassword hasher) e)
    (hfree : ¬ x.pre.app.network.Interfere (deedOf x) e) : AnsweredAlike hasher x x' := by
  refine .of_agree hx hx' hdeed ?_
  rw [hpre]
  exact (Network.next_local _ _ e).keeps fun _ hk => Network.not_writes_of_free hfree hk

theorem AnsweredAlike.symm {hasher : Text → Nat} {x x' : Step LoopState Event}
    (h : AnsweredAlike hasher x x') : AnsweredAlike hasher x' x where
  deed := h.deed.symm
  granted sd now cmd hcmd hread := (h.granted sd now cmd (h.deed.trans hcmd) hread).symm
  shown sd now cmd hcmd hread := (h.shown sd now cmd (h.deed.trans hcmd) hread).symm

/-- **Two neighbouring requests that do not interfere can come in either order**: the runs
store the same network, and answer every request alike. -/
theorem reordered_runs {hasher : Text → Nat} {serverSocket serverSocket' : Int}
    {newer newer' older older' : History LoopState Event} {x y x' y' : Step LoopState Event}
    {s s' : LoopState} (hr : (machine hasher serverSocket).Run (newer ++ x :: y :: older) s)
    (hr' : (machine hasher serverSocket').Run (newer' ++ y' :: x' :: older') s')
    (hsound : ∀ z ∈ newer ++ x :: y :: older, SoundStep z)
    (hsound' : ∀ z ∈ newer' ++ y' :: x' :: older', SoundStep z) (hsp : Spacious s.app.db)
    (hsp' : Spacious s'.app.db) (hnewer : newer.map deedOf = newer'.map deedOf)
    (hx : deedOf x = deedOf x') (hy : deedOf y = deedOf y')
    (holder : older.map deedOf = older'.map deedOf)
    (hfree : ¬ y.pre.app.network.Interfere (deedOf x) (deedOf y)) :
    s.app.network = s'.app.network ∧ List.Forall₂ (SameStep hasher) newer newer' ∧
      AnsweredAlike hasher x x' ∧ AnsweredAlike hasher y y' ∧
      List.Forall₂ (SameStep hasher) older older' := by
  obtain ⟨s₁, hr₁⟩ := hr.earlier
  obtain ⟨s₁', hr₁'⟩ := hr'.earlier
  have hsound₁ : ∀ z ∈ x :: y :: older, SoundStep z := fun z hz =>
    hsound z (List.mem_append_right _ hz)
  have hsound₁' : ∀ z ∈ y' :: x' :: older', SoundStep z := fun z hz =>
    hsound' z (List.mem_append_right _ hz)
  have hsp₁ := spacious_earlier hr hr₁ hsp
  have hsp₁' := spacious_earlier hr' hr₁' hsp'
  have hreg := regular_run hr₁ hsound₁ hsp₁
  have hreg' := regular_run hr₁' hsound₁' hsp₁'
  -- before the two requests
  have hr₀ := hr₁.of_cons.1.of_cons.1
  have hr₀' := hr₁'.of_cons.1.of_cons.1
  have hsp₀ : Spacious y.pre.app.db := (spacious_run hr₁ hsp₁ y (by simp)).1
  have hsp₀' : Spacious x'.pre.app.db := (spacious_run hr₁' hsp₁' x' (by simp)).1
  rw [← List.append_nil older] at hr₀
  rw [← List.append_nil older'] at hr₀'
  obtain ⟨hsame, hold⟩ := alike_after hr₀ hr₀' .init .init
    (fun z hz => hsound₁ z (by rw [List.append_nil] at hz; simp [hz]))
    (fun z hz => hsound₁' z (by rw [List.append_nil] at hz; simp [hz])) hsp₀ hsp₀' rfl holder
  -- after them
  obtain ⟨hxpre, hs₁⟩ := network_of_two hr₁ (hreg x (by simp)) (hreg y (by simp))
  obtain ⟨hypre', hs₁'⟩ := network_of_two hr₁' (hreg' y' (by simp)) (hreg' x' (by simp))
  have hboth : s₁.app.network = s₁'.app.network := by
    rw [hs₁, hxpre, hs₁', hypre', ← hx, ← hy, ← hsame]
    exact Network.next_comm _ hfree
  obtain ⟨hlast, hnew⟩ := alike_after hr hr' hr₁ hr₁' hsound hsound' hsp hsp' hboth hnewer
  -- each of them is answered as if it had come first
  refine ⟨hlast, hnew, ?_, ?_, hold⟩
  · refine AnsweredAlike.symm ?_
    refine .of_free (e := deedOf y) (hreg' x' (by simp)) (hreg x (by simp)) hx.symm ?_ ?_
    · rw [hxpre, hsame]
    · rwa [← hsame, ← hx]
  · refine .of_free (e := deedOf x) (hreg y (by simp)) (hreg' y' (by simp)) hy ?_ ?_
    · rw [hypre', hsame, hx]
    · exact fun h => hfree h.symm

/-- The steps that two neighbours of a mapped list come from. -/
theorem exists_of_map_eq_append {α β : Type} {f : α → β} {l : List α} {newer older : List β}
    {a b : β} (h : l.map f = newer ++ a :: b :: older) :
    ∃ l₁ x y l₂, l = l₁ ++ x :: y :: l₂ ∧ l₁.map f = newer ∧ f x = a ∧ f y = b ∧
      l₂.map f = older := by
  obtain ⟨l₁, l₂, rfl, hnewer, htail⟩ := List.map_eq_append_iff.mp h
  obtain ⟨x, l₂, rfl, hx, htail⟩ := List.map_eq_cons_iff.mp htail
  obtain ⟨y, l₂, rfl, hy, holder⟩ := List.map_eq_cons_iff.mp htail
  exact ⟨l₁, x, y, l₂, rfl, hnewer, hx, hy, holder⟩

/-- `a` posts and `b` asks `a` for friendship, in this order or the other one, and `a`
accepts. -/
def eitherOrderEvents (postFirst : Bool) : List Event :=
  [.accept 4, .accept 5, .line 0 "register a p a@x normal private\n",
    .line 0 "register b q b@x normal private\n", .line 0 "login a p\n", .line 1 "login b q\n"] ++
  (if postFirst then [.line 0 "create_post 0 hi\n", .line 1 "add_friend a\n"]
    else [.line 1 "add_friend a\n", .line 0 "create_post 0 hi\n"]) ++
  [.line 0 "accept_friend b\n"]

/-- What they ask for before, the last first. -/
def beforeDeeds : List Network.Deed :=
  [.request 5 Env.plain.now (.login (bytes "b") (bytes "q")),
    .request 4 Env.plain.now (.login (bytes "a") (bytes "p")),
    .request 4 Env.plain.now (.register (bytes "b") (bytes "q") (bytes "b@x") (bytes "normal")
      (bytes "private")),
    .request 4 Env.plain.now (.register (bytes "a") (bytes "p") (bytes "a@x") (bytes "normal")
      (bytes "private")), .nothing, .nothing]

theorem reordered_runs_post :
    ∃ h s h' s', (machine List.length 3).Run h s ∧ (machine List.length 3).Run h' s' ∧
      s.app.db.posts.rows.length = 1 ∧ s.app.db.friends.rows.length = 2 ∧
      h.map deedOf ≠ h'.map deedOf ∧ s.app.network = s'.app.network := by
  obtain ⟨h, s, _, hrun, hsound, hdeeds, hposts, hfriends, hsp⟩ :=
    runEvents_exists List.length 3 (eitherOrderEvents true)
      (p := fun h s => h.map deedOf =
        [.request 4 Env.plain.now (.acceptFriend (bytes "b"))] ++
          .request 5 Env.plain.now (.friendRequest (bytes "a")) ::
          .request 4 Env.plain.now (.createPost 0 (bytes "hi")) :: beforeDeeds ∧
        s.app.db.posts.rows.length = 1 ∧ s.app.db.friends.rows.length = 2 ∧ Spacious s.app.db)
      (by simp [eitherOrderEvents]) (by decide)
  obtain ⟨h', s', _, hrun', hsound', hdeeds', hsp'⟩ :=
    runEvents_exists List.length 3 (eitherOrderEvents false)
      (p := fun h s => h.map deedOf =
        [.request 4 Env.plain.now (.acceptFriend (bytes "b"))] ++
          .request 4 Env.plain.now (.createPost 0 (bytes "hi")) ::
          .request 5 Env.plain.now (.friendRequest (bytes "a")) :: beforeDeeds ∧
        Spacious s.app.db)
      (by simp [eitherOrderEvents]) (by decide)
  have hne : h.map deedOf ≠ h'.map deedOf := by
    rw [hdeeds, hdeeds']
    decide
  obtain ⟨newer, x, y, older, rfl, hnewer, hx, hy, holder⟩ := exists_of_map_eq_append hdeeds
  obtain ⟨newer', y', x', older', rfl, hnewer', hy', hx', holder'⟩ :=
    exists_of_map_eq_append hdeeds'
  have hfree : ¬ y.pre.app.network.Interfere (deedOf x) (deedOf y) := by
    rw [hx, hy]
    exact fun h => Network.free_of_post_of_friendRequest h.symm
  exact ⟨_, s, _, s', hrun, hrun', hposts, hfriends, hne,
    (reordered_runs hrun hrun' hsound hsound' hsp hsp' (hnewer.trans hnewer'.symm)
      (hx.trans hx'.symm) (hy.trans hy'.symm) (holder.trans holder'.symm) hfree).1⟩

end SocialNetwork.Server
