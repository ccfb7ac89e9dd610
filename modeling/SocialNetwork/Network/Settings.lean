import SocialNetwork.Network.Runs

/-!
# Roles and profile visibilities decide nothing

Every account has a role and a profile visibility, and `set_visibility` changes the
latter. No rule and no query looks at either: of two runs in which the accounts have other roles
and visibilities, and in which profiles are shown or hidden at will, every request is answered
alike (`settings_decide_nothing`), as long as the statements succeed and the counters have room.
-/

namespace SocialNetwork.Server

open SocialNetwork.Lib

/-- What of a profile decides anything. -/
def Profile.account (p : Profile) : Text × Text := (p.digest, p.email)

/-- The same accounts, under whatever roles and visibilities. -/
def SameAccounts (p q : Text → Option Profile) : Prop :=
  ∀ u, (p u).map Profile.account = (q u).map Profile.account

theorem SameAccounts.symm {p q : Text → Option Profile} (h : SameAccounts p q) :
    SameAccounts q p := fun u => (h u).symm

theorem SameAccounts.none {p q : Text → Option Profile} (h : SameAccounts p q) {u : Text}
    (hu : p u = none) : q u = none := by
  rw [← Option.map_eq_none_iff (f := Profile.account), ← h u, hu]
  rfl

theorem SameAccounts.some {p q : Text → Option Profile} (h : SameAccounts p q) {u : Text}
    {a : Profile} (hu : p u = some a) : ∃ b, q u = Option.some b ∧ a.account = b.account := by
  have heq := h u
  rw [hu] at heq
  obtain ⟨b, hb, hab⟩ := Option.map_eq_some_iff.mp heq.symm
  exact ⟨b, hb, hab.symm⟩

theorem SameAccounts.update {p q : Text → Option Profile} (h : SameAccounts p q) (u : Text)
    {a b : Profile} (hab : a.account = b.account) :
    SameAccounts (Function.update p u (Option.some a)) (Function.update q u (Option.some b)) := by
  intro w
  by_cases hw : w = u
  · subst hw
    rw [Function.update_self, Function.update_self]
    exact congrArg Option.some hab
  · rw [Function.update_of_ne hw, Function.update_of_ne hw]
    exact h w

def IsRole (r : Text) : Prop := r = bytes "normal" ∨ r = bytes "admin"

def IsVisibility (v : Text) : Prop := v = bytes "public" ∨ v = bytes "private"

/-- The same command but for the role and the visibility it asks for, which exist. -/
inductive Command.Resets : Command → Command → Prop
  | same (cmd : Command) : Resets cmd cmd
  | register {u p e r v r' v' : Text} (hr : IsRole r) (hv : IsVisibility v) (hr' : IsRole r')
      (hv' : IsVisibility v') : Resets (.register u p e r v) (.register u p e r' v')
  | setProfileVisibility {v v' : Text} (hv : IsVisibility v) (hv' : IsVisibility v') :
      Resets (.setProfileVisibility v) (.setProfileVisibility v')

theorem Command.Resets.symm {cmd cmd' : Command} (h : cmd.Resets cmd') : cmd'.Resets cmd := by
  cases h with
  | same => exact .same cmd
  | register hr hv hr' hv' => exact .register hr' hv' hr hv
  | setProfileVisibility hv hv' => exact .setProfileVisibility hv' hv

namespace Network

variable {digest : Text → Text} {now : Text} {n n₁ : Network} {sd : Int} {cmd cmd' : Command}
  {q : Text → Option Profile}

theorem reciprocate_profile (n : Network) (u v : Text) :
    (n.reciprocate u v).profile = n.profile := by
  unfold reciprocate
  split
  · rfl
  · rfl

theorem reciprocate_with (n : Network) (q : Text → Option Profile) (u v : Text) :
    ({ n with profile := q } : Network).reciprocate u v =
      { n.reciprocate u v with profile := q } := by
  unfold reciprocate
  dsimp only
  split
  · rfl
  · rfl

/-- **A rule does not look at roles and visibilities.** -/
theorem Grants.resets (h : n.Grants digest now sd cmd n₁) (hq : SameAccounts n.profile q)
    (hcmd : cmd.Resets cmd') :
    ∃ q₁, ({ n with profile := q } : Network).Grants digest now sd cmd'
      { n₁ with profile := q₁ } ∧ SameAccounts n₁.profile q₁ := by
  cases h with
  | login hu hp hfree ha hdigest =>
    cases hcmd
    obtain ⟨b, hb, hab⟩ := hq.some ha
    exact ⟨q, .login hu hp hfree hb ((congrArg Prod.fst hab).symm.trans hdigest), hq⟩
  | logout hs =>
    cases hcmd
    exact ⟨q, .logout hs, hq⟩
  | @register u p e r v hu hp he hr hv hname hemail =>
    have hfree : ∀ w b, q w = some b → b.email ≠ e := by
      intro w b hb
      obtain ⟨a, ha, hab⟩ := hq.symm.some hb
      have hmail : b.email = a.email := congrArg Prod.snd hab
      rw [hmail]
      exact hemail w a ha
    cases hcmd with
    | same => exact ⟨_, .register hu hp he hr hv (hq.none hname) hfree, hq.update u rfl⟩
    | register _ _ hr' hv' =>
      exact ⟨_, .register hu hp he hr' hv' (hq.none hname) hfree, hq.update u rfl⟩
  | @setProfileVisibility s v a hs hv ha =>
    obtain ⟨b, hb, hab⟩ := hq.some ha
    cases hcmd with
    | same => exact ⟨_, .setProfileVisibility hs hv hb, hq.update s.user hab⟩
    | setProfileVisibility _ hv' =>
      exact ⟨_, .setProfileVisibility hs hv' hb, hq.update s.user hab⟩
  | friendRequest hs hne ha hfree =>
    cases hcmd
    obtain ⟨b, hb, _⟩ := hq.some ha
    exact ⟨q, .friendRequest hs hne hb hfree, hq⟩
  | @acceptFriend s v hs hasked =>
    cases hcmd
    refine ⟨q, ?_, ?_⟩
    · rw [← reciprocate_with]
      exact .acceptFriend hs hasked
    · rw [reciprocate_profile]
      exact hq
  | setFriendType hs hrange hfriend =>
    cases hcmd
    exact ⟨q, .setFriendType hs hrange hfriend, hq⟩
  | createPost hs hc hrange =>
    cases hcmd
    exact ⟨q, .createPost hs hc hrange, hq⟩
  | chat hs hne ha =>
    cases hcmd
    obtain ⟨b, hb, _⟩ := hq.some ha
    exact ⟨q, .chat hs hne hb, hq⟩
  | «open» hs hc =>
    cases hcmd
    exact ⟨q, .open hs hc, hq⟩
  | send hs hc hin =>
    cases hcmd
    exact ⟨q, .send hs hc hin, hq⟩
  | group hs hne hknown =>
    cases hcmd
    exact ⟨q, .group hs hne fun w hw hnone => hknown w hw (hq.symm.none hnone), hq⟩
  | add hs hc ha =>
    cases hcmd
    obtain ⟨b, hb, _⟩ := hq.some ha
    exact ⟨q, .add hs hc hb, hq⟩

/-- The same network but for roles and visibilities. -/
structure Resets (n t : Network) : Prop where
  accounts : SameAccounts n.profile t.profile
  rest : t = { n with profile := t.profile }

theorem Resets.symm {t : Network} (h : n.Resets t) : t.Resets n where
  accounts := h.accounts.symm
  rest := by rw [h.rest]

theorem Resets.of_grants {t : Network} (h : n.Resets t) (hcmd : cmd.Resets cmd')
    (hn : n.Grants digest now sd cmd n₁) :
    ∃ t₁, t.Grants digest now sd cmd' t₁ ∧ n₁.Resets t₁ := by
  obtain ⟨q₁, hgrants, hq₁⟩ := hn.resets h.accounts hcmd
  rw [← h.rest] at hgrants
  exact ⟨_, hgrants, hq₁, rfl⟩

theorem Resets.grants_iff {t : Network} (h : n.Resets t) (hcmd : cmd.Resets cmd') :
    (∃ n₁, n.Grants digest now sd cmd n₁) ↔ ∃ t₁, t.Grants digest now sd cmd' t₁ := by
  constructor
  · intro hn
    obtain ⟨n₁, hn⟩ := hn
    obtain ⟨t₁, ht, _⟩ := h.of_grants hcmd hn
    exact ⟨t₁, ht⟩
  · intro ht
    obtain ⟨t₁, ht⟩ := ht
    obtain ⟨n₁, hn, _⟩ := h.symm.of_grants hcmd.symm ht
    exact ⟨n₁, hn⟩

/-- The same deed but for the role and the visibility it asks for. -/
inductive Deed.Resets : Deed → Deed → Prop
  | request {sd : Int} {now : Text} {cmd cmd' : Command} (h : cmd.Resets cmd') :
      Resets (.request sd now cmd) (.request sd now cmd')
  | leave {sd : Int} : Resets (.leave sd) (.leave sd)
  | nothing : Resets .nothing .nothing

theorem Deed.Resets.exists_cmd {d : Deed} (h : (Deed.request sd now cmd).Resets d) :
    ∃ cmd', d = .request sd now cmd' ∧ cmd.Resets cmd' := by
  cases h with
  | request hcmd => exact ⟨_, rfl, hcmd⟩

theorem Resets.next {t : Network} {d d' : Deed} (digest : Text → Text) (h : n.Resets t)
    (hd : d.Resets d') : (n.next digest d).Resets (t.next digest d') := by
  cases hd with
  | @request sd now cmd cmd' hcmd =>
    by_cases hgrant : ∃ n₁, n.Grants digest now sd cmd n₁
    · obtain ⟨n₁, hn⟩ := hgrant
      obtain ⟨t₁, ht, hreset⟩ := h.of_grants hcmd hn
      rw [next_granted hn, next_granted ht]
      exact hreset
    · have hgrant' : ¬ ∃ t₁, t.Grants digest now sd cmd' t₁ := fun ht =>
        hgrant ((h.grants_iff hcmd).mpr ht)
      rw [next_refused fun n₁ hn => hgrant ⟨n₁, hn⟩, next_refused fun t₁ ht => hgrant' ⟨t₁, ht⟩]
      exact h
  | leave =>
    obtain ⟨haccounts, hrest⟩ := h
    exact ⟨haccounts, by rw [hrest]; rfl⟩
  | nothing => exact h

/-- To show or hide a profile resets the network. -/
theorem Resets.setProfileVisibility {t : Network} {v : Text} (digest : Text → Text)
    (h : n.Resets t) : (n.next digest (.request sd now (.setProfileVisibility v))).Resets t := by
  by_cases hgrant : ∃ n₁, n.Grants digest now sd (.setProfileVisibility v) n₁
  · obtain ⟨n₁, hn⟩ := hgrant
    rw [next_granted hn]
    cases hn with
    | @setProfileVisibility s v a hs hv ha =>
      refine ⟨fun w => ?_, h.rest⟩
      rw [← h.accounts w]
      by_cases hw : w = s.user
      · subst hw
        show (Function.update n.profile s.user (some { a with visibility := v }) s.user).map
          Profile.account = _
        rw [Function.update_self, ha]
        rfl
      · exact congrArg (Option.map Profile.account) (Function.update_of_ne hw ..)
  · rw [next_refused fun n₁ hn => hgrant ⟨n₁, hn⟩]
    exact h

/-- No query looks at a profile. -/
theorem not_reads_profile (hread : cmd.isRead = true) {k : Cell}
    (hk : n.Reads (.request sd now cmd) k) (u : Text) : k ≠ .profile u := by
  intro heq
  subst heq
  cases hk with
  | _ => cases hread

theorem Resets.same {t : Network} (h : n.Resets t) {k : Cell} (hk : ∀ u, k ≠ .profile u) :
    Same k n t := by
  rw [h.rest]
  cases k with
  | profile u => exact absurd rfl (hk u)
  | _ => rfl

end Network

/-! ## Runs that differ in settings -/

variable {hasher : Text → Nat} {serverSocket serverSocket' : Int}

/-- The step asks to show or to hide a profile. -/
def setsVisibility (x : Step LoopState Event) : Bool :=
  match deedOf x with
  | .request _ _ (.setProfileVisibility _) => true
  | _ => false

theorem deedOf_setsVisibility {x : Step LoopState Event} (h : setsVisibility x = true) :
    ∃ sd now v, deedOf x = .request sd now (.setProfileVisibility v) := by
  unfold setsVisibility at h
  split at h
  next sd now v hcmd => exact ⟨sd, now, v, hcmd⟩
  next => cases h

/-- The step is answered alike: what is granted in one is granted in the other, and the same
query shows the same. -/
structure RepliesAlike (hasher : Text → Nat) (x x' : Step LoopState Event) : Prop where
  deed : (deedOf x).Resets (deedOf x')
  granted : ∀ sd now cmd, deedOf x = .request sd now cmd → cmd.isRead = false →
    repliedOk hasher x = repliedOk hasher x'
  shown : ∀ sd now cmd, deedOf x = .request sd now cmd → cmd.isRead = true →
    answersOf hasher x = answersOf hasher x'

theorem Command.Resets.eq_of_isRead {cmd cmd' : Command} (h : cmd.Resets cmd')
    (hread : cmd.isRead = true) : cmd' = cmd := by
  cases h with
  | same => rfl
  | register => cases hread
  | setProfileVisibility => cases hread

theorem Command.Resets.isRead {cmd cmd' : Command} (h : cmd.Resets cmd') :
    cmd'.isRead = cmd.isRead := by
  cases h with
  | _ => rfl

theorem RepliesAlike.of_resets {x x' : Step LoopState Event} (hx : Regular hasher x)
    (hx' : Regular hasher x') (hdeed : (deedOf x).Resets (deedOf x'))
    (hpre : x.pre.app.network.Resets x'.pre.app.network) : RepliesAlike hasher x x' where
  deed := hdeed
  granted sd now cmd hcmd hread := by
    rw [hcmd] at hdeed
    obtain ⟨cmd', hcmd', hreset⟩ := hdeed.exists_cmd
    rw [Bool.eq_iff_iff, hx.truthful sd now cmd hcmd hread,
      hx'.truthful sd now cmd' hcmd' (hreset.isRead.trans hread)]
    exact hpre.grants_iff hreset
  shown sd now cmd hcmd hread := by
    rw [hcmd] at hdeed
    obtain ⟨cmd', hcmd', hreset⟩ := hdeed.exists_cmd
    rw [hreset.eq_of_isRead hread] at hcmd'
    exact answersOf_agree hx.sound hx'.sound hx.represented hx'.represented hcmd hcmd' hread
      fun k hk => hpre.same (Network.not_reads_profile hread hk)

/-- **Roles and profile visibilities decide nothing**: if the accounts of a run get other ones,
and profiles are shown or hidden at other times, every other request is answered alike. -/
theorem settings_decide_nothing {keep : Step LoopState Event → Bool}
    {h h' : History LoopState Event} {s s' : LoopState}
    (hr : (machine hasher serverSocket).Run h s) (hr' : (machine hasher serverSocket').Run h' s')
    (hsound : ∀ x ∈ h, SoundStep x) (hsound' : ∀ x ∈ h', SoundStep x)
    (hsp : Spacious s.app.db) (hsp' : Spacious s'.app.db)
    (hkeep : ∀ x ∈ h, keep x = false → setsVisibility x = true)
    (hdeeds : List.Forall₂ (fun x x' => (deedOf x).Resets (deedOf x')) (h.filter keep) h') :
    s.app.network.Resets s'.app.network ∧
      List.Forall₂ (RepliesAlike hasher) (h.filter keep) h' := by
  have hreg : ∀ x ∈ h, Regular hasher x ∧ (keep x = false → setsVisibility x = true) :=
    fun x hx => ⟨regular_run hr hsound hsp x hx, hkeep x hx⟩
  have hreg' := regular_run hr' hsound' hsp'
  have hkept : ∀ {x x' : Step LoopState Event},
      Regular hasher x ∧ (keep x = false → setsVisibility x = true) → Regular hasher x' →
      (deedOf x).Resets (deedOf x') → x.pre.app.network.Resets x'.pre.app.network →
      (next hasher x.pre x.event).app.network.Resets
        (next hasher x'.pre x'.event).app.network := by
    intro x x' hx hx' hdeed hpre
    rw [hx.1.refines, hx'.refines]
    exact hpre.next _ hdeed
  have hdropped : ∀ {x : Step LoopState Event} {t : LoopState},
      Regular hasher x ∧ (keep x = false → setsVisibility x = true) → keep x = false →
      x.pre.app.network.Resets t.app.network →
      (next hasher x.pre x.event).app.network.Resets t.app.network := by
    intro x t hx hdrop hpre
    obtain ⟨sd, now, v, hdeed⟩ := deedOf_setsVisibility (hx.2 hdrop)
    rw [hx.1.refines, hdeed]
    exact hpre.setProfileVisibility _
  rw [← List.append_nil h] at hr
  rw [← List.append_nil h'] at hr'
  obtain ⟨hlast, hall⟩ := Machine.Run.lockstep (M := machine hasher serverSocket)
    (N := machine hasher serverSocket')
    (R := fun s s' : LoopState => s.app.network.Resets s'.app.network) keep hkept hdropped
    .init .init ⟨fun _ => rfl, rfl⟩ hr hr' hreg hreg' hdeeds
  refine ⟨hlast, hall.imp fun x x' hx => ?_⟩
  obtain ⟨⟨hx, _⟩, hx', hdeed, hpre⟩ := hx
  exact .of_resets hx hx' hdeed hpre

/-- `a` registers as a normal user, hidden at first, or as an admin, and posts. -/
def settingEvents (admin : Bool) : List Event :=
  [.accept 4] ++
  (if admin then [.line 0 "register a p a@x admin public\n", .line 0 "login a p\n"]
    else [.line 0 "register a p a@x normal private\n", .line 0 "login a p\n",
      .line 0 "set_visibility public\n"]) ++
  [.line 0 "create_post 0 hi\n", .line 0 "list_posts\n"]

/-- What is asked for but to show or hide the profile, the last first. -/
def settingDeeds (role visibility : Text) : List Network.Deed :=
  [.request 4 Env.plain.now .listPosts, .request 4 Env.plain.now (.createPost 0 (bytes "hi")),
    .request 4 Env.plain.now (.login (bytes "a") (bytes "p")),
    .request 4 Env.plain.now (.register (bytes "a") (bytes "p") (bytes "a@x") role visibility),
    .nothing]

theorem settingDeeds_resets {r v r' v' : Text} (hr : IsRole r) (hv : IsVisibility v)
    (hr' : IsRole r') (hv' : IsVisibility v') :
    List.Forall₂ Network.Deed.Resets (settingDeeds r v) (settingDeeds r' v') :=
  .cons (.request (.same _)) (.cons (.request (.same _)) (.cons (.request (.same _))
    (.cons (.request (.register hr hv hr' hv')) (.cons .nothing .nil))))

theorem settings_decide_nothing_admin :
    ∃ h s h' s', (machine List.length 3).Run h s ∧ (machine List.length 3).Run h' s' ∧
      s.app.db.users.rows.map (·.userType) = [bytes "normal"] ∧
      s'.app.db.users.rows.map (·.userType) = [bytes "admin"] ∧
      List.Forall₂ (RepliesAlike List.length) (h.filter fun x => !setsVisibility x) h' := by
  obtain ⟨h, s, _, hrun, hsound, hdeeds, hrole, hsp⟩ :=
    runEvents_exists List.length 3 (settingEvents false)
      (p := fun h s => (h.filter fun x => !setsVisibility x).map deedOf =
          settingDeeds (bytes "normal") (bytes "private") ∧
        s.app.db.users.rows.map (·.userType) = [bytes "normal"] ∧ Spacious s.app.db)
      (by simp [settingEvents]) (by decide)
  obtain ⟨h', s', _, hrun', hsound', hdeeds', hrole', hsp'⟩ :=
    runEvents_exists List.length 3 (settingEvents true)
      (p := fun h s => h.map deedOf = settingDeeds (bytes "admin") (bytes "public") ∧
        s.app.db.users.rows.map (·.userType) = [bytes "admin"] ∧ Spacious s.app.db)
      (by simp [settingEvents]) (by decide)
  have hresets := settingDeeds_resets (r := bytes "normal") (v := bytes "private") (Or.inl rfl)
    (Or.inr rfl) (Or.inr rfl) (Or.inl rfl)
  rw [← hdeeds, ← hdeeds', List.forall₂_map_left_iff, List.forall₂_map_right_iff] at hresets
  exact ⟨h, s, h', s', hrun, hrun', hrole, hrole',
    (settings_decide_nothing hrun hrun' hsound hsound' hsp hsp'
      (fun _ _ hdrop => by simpa using hdrop) hresets).2⟩

end SocialNetwork.Server
