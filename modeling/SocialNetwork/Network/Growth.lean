import Mathlib.Order.Basic
import SocialNetwork.Network.Runs

/-!
# Nothing is ever taken back

Networks are ordered by what they hold: `n ≤ n'` if every account of `n` is one of `n'` under
the same digest, email and role, no tie has become weaker, and posts, rooms and what was said
in them have only been added to. Every deed goes up in this order (`next_le`), so a network is
below all its later states (`later_le`), and with it what the tables represent, where statements
succeed and counters have room (`nothing_taken_back`): no sequence of requests unfriends anybody,
takes a post or a message back, or removes a member of a room.
-/

namespace SocialNetwork.Server

open SocialNetwork.Lib

namespace Network

/-- `n'` holds all that `n` holds. The visibility of a profile and the kind of a friend are
settings, not holdings. -/
structure Extends (n n' : Network) : Prop where
  profiles : ∀ u p, n.profile u = some p → ∃ v, n'.profile u = some { p with visibility := v }
  ties : ∀ q t, n.tie q = some t → ∃ t', n'.tie q = some t' ∧ (t' = .asked → t = .asked)
  posts : n.posts <+: n'.posts
  rooms : ∀ c m, n.rooms c = some m → ∃ m', n'.rooms c = some m' ∧ m ⊆ m'
  since : ∀ c t, n.since c = some t → n'.since c = some t
  talk : ∀ c, n.talk c <+: n'.talk c

instance : Preorder Network where
  le := Extends
  le_refl n :=
    { profiles := fun _ p hp => ⟨p.visibility, hp⟩
      ties := fun _ t ht => ⟨t, ht, id⟩
      posts := List.prefix_refl _
      rooms := fun _ m hm => ⟨m, hm, subset_rfl⟩
      since := fun _ _ ht => ht
      talk := fun _ => List.prefix_refl _ }
  le_trans n₁ n₂ n₃ h₁ h₂ :=
    { profiles := fun u p hp => by
        obtain ⟨v, hv⟩ := h₁.profiles u p hp
        obtain ⟨v', hv'⟩ := h₂.profiles u _ hv
        exact ⟨v', hv'⟩
      ties := fun q t ht => by
        obtain ⟨t', ht', hasked⟩ := h₁.ties q t ht
        obtain ⟨t'', ht'', hasked'⟩ := h₂.ties q t' ht'
        exact ⟨t'', ht'', hasked ∘ hasked'⟩
      posts := h₁.posts.trans h₂.posts
      rooms := fun c m hm => by
        obtain ⟨m', hm', hsub⟩ := h₁.rooms c m hm
        obtain ⟨m'', hm'', hsub'⟩ := h₂.rooms c m' hm'
        exact ⟨m'', hm'', hsub.trans hsub'⟩
      since := fun c t ht => h₂.since c t (h₁.since c t ht)
      talk := fun c => (h₁.talk c).trans (h₂.talk c) }

/-- Rooms have the numbers handed out so far. -/
def Housed (n : Network) : Prop :=
  (∀ c m, n.rooms c = some m → c ≤ n.newest) ∧ ∀ c t, n.since c = some t → c ≤ n.newest

/-! ## What each change adds -/

section

variable {n : Network}

theorem le_sit (sd : Int) (s : Option Seat) : n ≤ n.sit sd s :=
  { le_refl n with }

theorem le_publish (p : Post) : n ≤ n.publish p :=
  { le_refl n with posts := List.prefix_append .. }

theorem le_say (c : Int) (r : Remark) : n ≤ n.say c r :=
  { le_refl n with
    talk := fun c' => by
      unfold say
      dsimp only
      by_cases hc : c' = c
      · rw [hc, Function.update_self]
        exact List.prefix_append ..
      · rw [Function.update_of_ne hc] }

/-- A new account, or other settings of an old one. -/
theorem le_enrol {u : Text} {p : Profile}
    (h : ∀ q, n.profile u = some q → ∃ v, p = { q with visibility := v }) : n ≤ n.enrol u p :=
  { le_refl n with
    profiles := fun w q hq => by
      unfold enrol
      dsimp only
      by_cases hw : w = u
      · subst hw
        obtain ⟨v, rfl⟩ := h q hq
        exact ⟨v, Function.update_self ..⟩
      · exact ⟨q.visibility, (Function.update_of_ne hw ..).trans hq⟩ }

/-- A first tie, or one that is no weaker. -/
theorem le_bind {u v : Text} {t : Tie}
    (h : ∀ t₀, n.tie (u, v) = some t₀ → t = .asked → t₀ = .asked) : n ≤ n.bind u v t :=
  { le_refl n with
    ties := fun q t₀ ht₀ => by
      unfold bind
      dsimp only
      by_cases hq : q = (u, v)
      · subst hq
        exact ⟨t, Function.update_self .., h t₀ ht₀⟩
      · exact ⟨t₀, (Function.update_of_ne hq ..).trans ht₀, id⟩ }

theorem le_reciprocate (u v : Text) : n ≤ n.reciprocate u v := by
  unfold reciprocate
  cases h : n.tie (u, v) with
  | none => exact le_bind fun t₀ ht₀ => by rw [h] at ht₀; cases ht₀
  | some t => exact le_refl n

theorem le_found (h : n.Housed) (founders : Set Text) (now : Text) : n ≤ n.found founders now :=
  { le_refl n with
    rooms := fun c m hm => by
      have hle := h.1 c m hm
      have hne : c ≠ n.newest + 1 := by omega
      exact ⟨m, (Function.update_of_ne hne ..).trans hm, subset_rfl⟩
    since := fun c t ht => by
      have hle := h.2 c t ht
      have hne : c ≠ n.newest + 1 := by omega
      exact (Function.update_of_ne hne ..).trans ht }

theorem le_invite (c : Int) (host guest : Text) : n ≤ n.invite c host guest :=
  { le_refl n with
    rooms := fun c' m hm => by
      by_cases hc : c' = c
      · subst hc
        refine ⟨insert guest m, ?_, Set.subset_insert guest m⟩
        exact (Function.update_self ..).trans (by rw [hm]; rfl)
      · exact ⟨m, (Function.update_of_ne hc ..).trans hm, subset_rfl⟩ }

theorem Housed.found (h : n.Housed) (founders : Set Text) (now : Text) :
    (n.found founders now).Housed := by
  constructor
  · intro c m hm
    show c ≤ n.newest + 1
    by_cases hc : c = n.newest + 1
    · omega
    · have hle := h.1 c m ((Function.update_of_ne hc ..).symm.trans hm)
      omega
  · intro c t ht
    show c ≤ n.newest + 1
    by_cases hc : c = n.newest + 1
    · omega
    · have hle := h.2 c t ((Function.update_of_ne hc ..).symm.trans ht)
      omega

theorem Housed.invite (h : n.Housed) (c : Int) (host guest : Text) :
    (n.invite c host guest).Housed := by
  refine ⟨fun c' m hm => ?_, h.2⟩
  · show c' ≤ n.newest
    by_cases hc : c' = c
    · subst hc
      unfold Network.invite Rooms.apply at hm
      dsimp only at hm
      rw [Function.update_self] at hm
      obtain ⟨m₀, hm₀, _⟩ := Option.map_eq_some_iff.mp hm
      exact h.1 c' m₀ hm₀
    · exact h.1 c' m ((Function.update_of_ne hc ..).symm.trans hm)

theorem Housed.reciprocate (h : n.Housed) (u v : Text) : (n.reciprocate u v).Housed := by
  unfold Network.reciprocate
  split
  · exact h
  · exact h

end

/-! ## Every deed adds -/

variable {digest : Text → Text}

theorem Grants.le {n n' : Network} {now : Text} {sd : Int} {cmd : Command}
    (h : n.Grants digest now sd cmd n') (hn : n.Housed) : n ≤ n' ∧ n'.Housed := by
  cases h with
  | login => exact ⟨le_sit .., hn⟩
  | logout => exact ⟨le_sit .., hn⟩
  | register _ _ _ _ _ hname =>
    refine ⟨le_enrol fun q hq => ?_, hn⟩
    rw [hname] at hq
    cases hq
  | @setProfileVisibility s v a _ _ ha =>
    refine ⟨le_enrol fun q hq => ⟨v, ?_⟩, hn⟩
    rw [Option.some.inj (ha.symm.trans hq)]
  | friendRequest _ _ _ hfree =>
    refine ⟨le_bind fun t ht => ?_, hn⟩
    rw [hfree] at ht
    cases ht
  | @acceptFriend s v _ _ =>
    refine ⟨le_trans (le_bind fun t ht hfriend => ?_) (le_reciprocate ..),
      Housed.reciprocate (n := n.bind v s.user (.friend 0)) hn s.user v⟩
    cases hfriend
  | setFriendType =>
    refine ⟨le_bind fun _ _ hfriend => ?_, hn⟩
    cases hfriend
  | createPost => exact ⟨le_publish _, hn⟩
  | chat => exact ⟨le_found hn _ _, hn.found _ _⟩
  | «open» => exact ⟨le_sit .., hn⟩
  | send => exact ⟨le_say .., hn⟩
  | group => exact ⟨le_trans (le_found hn _ _) (le_sit ..), hn.found _ now⟩
  | add => exact ⟨le_invite .., hn.invite _ _ _⟩

/-- **Every deed goes up.** -/
theorem next_le {n : Network} (hn : n.Housed) (d : Deed) :
    n ≤ n.next digest d ∧ (n.next digest d).Housed := by
  cases d with
  | request sd now cmd =>
    by_cases h : ∃ n', n.Grants digest now sd cmd n'
    · obtain ⟨n', h⟩ := h
      rw [next_granted h]
      exact h.le hn
    · rw [next_refused fun n' hn' => h ⟨n', hn'⟩]
      exact ⟨le_refl n, hn⟩
  | leave sd => exact ⟨le_sit .., hn⟩
  | nothing => exact ⟨le_refl n, hn⟩

theorem housed_run {h : History Network Deed} {n : Network} (hr : (machine digest).Run h n) :
    n.Housed :=
  hr.invariant (P := fun _ => True) ⟨(fun _ _ hm => by cases hm), fun _ _ ht => by cases ht⟩
    (fun _ d hn _ _ => (next_le hn d).2) fun _ _ => trivial

/-- **A network is below all its later states.** -/
theorem later_le {newer older : History Network Deed} {n n₀ : Network}
    (hr : (machine digest).Run (newer ++ older) n) (hr₀ : (machine digest).Run older n₀) :
    n₀ ≤ n := by
  have hlater := Machine.Run.later (P := fun _ => True)
    (R := fun n n' : Network => n.Housed → n ≤ n' ∧ n'.Housed)
    (fun n hn => ⟨le_refl n, hn⟩)
    (fun hab hbc ha => ⟨le_trans (hab ha).1 (hbc (hab ha).2).1, (hbc (hab ha).2).2⟩)
    (fun n d _ _ hn => next_le hn d) hr hr₀ fun _ _ => trivial
  exact (hlater (housed_run hr₀)).1

end Network

/-- **Nothing is ever taken back**: what the tables represent at one moment of a run is below
what they represent at any later one. -/
theorem nothing_taken_back {hasher : Text → Nat} {serverSocket : Int}
    {newer older : History LoopState Event} {s s₀ : LoopState}
    (hr : (machine hasher serverSocket).Run (newer ++ older) s)
    (hr₀ : (machine hasher serverSocket).Run older s₀) (hsound : ∀ x ∈ newer ++ older, SoundStep x)
    (hsp : Spacious s.app.db) : s₀.app.network ≤ s.app.network := by
  have hsp₀ := spacious_earlier hr hr₀ hsp
  have hrun := network_run hr hsound hsp
  rw [List.map_append] at hrun
  exact Network.later_le hrun
    (network_run hr₀ (fun x hx => hsound x (List.mem_append_right _ hx)) hsp₀)

theorem nothing_taken_back_acquainted :
    ∃ x older s, (machine List.length 3).Run (x :: older) s ∧
      x.pre.app.db.messages.rows.length = 0 ∧ s.app.db.messages.rows.length = 1 ∧
      x.pre.app.network ≤ s.app.network := by
  obtain ⟨h, s, _, hrun, hsound, hbefore, hafter, hsp⟩ :=
    runEvents_exists List.length 3 acquaintedEvents
      (p := fun h s => h.head?.map (·.pre.app.db.messages.rows.length) = some 0 ∧
        s.app.db.messages.rows.length = 1 ∧ Spacious s.app.db)
      (by simp [acquaintedEvents]) (by decide)
  cases h with
  | nil => cases hbefore
  | cons x older =>
    have hrun' : (machine List.length 3).Run ([x] ++ older) s := hrun
    exact ⟨x, older, s, hrun, Option.some.inj hbefore, hafter,
      nothing_taken_back hrun' hrun.of_cons.1 hsound hsp⟩

end SocialNetwork.Server
