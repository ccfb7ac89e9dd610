import SocialNetwork.Lib.Footprint
import SocialNetwork.Network.Model

/-!
# What each request looks at, and what it changes

`Reads` and `Writes` give the footprint of a deed in a network: the profiles, ties, rooms,
conversations and seats its rule or its query looks at, and those it changes. A rule depends on
nothing but what the deed reads (`Grants.transfer`) and changes nothing but what it writes
(`Grants.frame`). Two deeds `Interfere` if one writes what the other one reads; all others
commute (`next_comm`), and each is granted after the other one exactly if it is granted before
it (`granted_after`).
-/

namespace SocialNetwork.Server

open SocialNetwork.Lib

namespace Network

inductive Cell
  | profile (u : Text)
  | tie (q : Text × Text)
  | posts
  | room (c : Int)
  | since (c : Int)
  | newest
  | talk (c : Int)
  | seat (sd : Int)
  deriving DecidableEq

/-- The cells that decide which other ones a deed reads and writes. -/
def Cell.IsHead : Cell → Prop
  | .seat _ | .newest => True
  | _ => False

/-- Both networks hold the same in a cell. -/
def Same : Cell → Network → Network → Prop
  | .profile u, n, m => n.profile u = m.profile u
  | .tie q, n, m => n.tie q = m.tie q
  | .posts, n, m => n.posts = m.posts
  | .room c, n, m => n.rooms c = m.rooms c
  | .since c, n, m => n.since c = m.since c
  | .newest, n, m => n.newest = m.newest
  | .talk c, n, m => n.talk c = m.talk c
  | .seat sd, n, m => n.seat sd = m.seat sd

theorem Same.equiv (k : Cell) : Equivalence (Same k) := by
  cases k with
  | _ => exact ⟨fun _ => rfl, fun h => Eq.symm h, fun h h' => Eq.trans h h'⟩

/-- A network as its cells. -/
def cells : Cells Cell Network where
  same := Same
  equiv := Same.equiv
  ext {n m} h := by
    obtain ⟨profile, tie, posts, rooms, since, newest, talk, seat⟩ := n
    have hprofile : profile = m.profile := funext fun u => h (.profile u)
    have htie : tie = m.tie := funext fun q => h (.tie q)
    have hposts : posts = m.posts := h .posts
    have hrooms : rooms = m.rooms := funext fun c => h (.room c)
    have hsince : since = m.since := funext fun c => h (.since c)
    have hnewest : newest = m.newest := h .newest
    have htalk : talk = m.talk := funext fun c => h (.talk c)
    have hseat : seat = m.seat := funext fun sd => h (.seat sd)
    rw [hprofile, htie, hposts, hrooms, hsince, hnewest, htalk, hseat]

/-! ## Footprints -/

/-- The cells a deed looks at, a query included, and those it changes. -/
inductive Reads (n : Network) : Deed → Cell → Prop
  | seat {sd : Int} {now : Text} {cmd : Command} : Reads n (.request sd now cmd) (.seat sd)
  | leave {sd : Int} : Reads n (.leave sd) (.seat sd)
  | login {sd : Int} {now u p : Text} : Reads n (.request sd now (.login u p)) (.profile u)
  | register {sd : Int} {now u p e r v w : Text} :
      Reads n (.request sd now (.register u p e r v)) (.profile w)
  | setProfileVisibility {sd : Int} {now v : Text} {s : Seat} (hs : n.seat sd = some s) :
      Reads n (.request sd now (.setProfileVisibility v)) (.profile s.user)
  | friendTarget {sd : Int} {now v : Text} :
      Reads n (.request sd now (.friendRequest v)) (.profile v)
  | friendRequest {sd : Int} {now v : Text} {s : Seat} (hs : n.seat sd = some s) :
      Reads n (.request sd now (.friendRequest v)) (.tie (s.user, v))
  | acceptAsked {sd : Int} {now v : Text} {s : Seat} (hs : n.seat sd = some s) :
      Reads n (.request sd now (.acceptFriend v)) (.tie (v, s.user))
  | acceptBack {sd : Int} {now v : Text} {s : Seat} (hs : n.seat sd = some s) :
      Reads n (.request sd now (.acceptFriend v)) (.tie (s.user, v))
  | setFriendType {sd : Int} {now v : Text} {k : Int} {s : Seat} (hs : n.seat sd = some s) :
      Reads n (.request sd now (.setFriendType v k)) (.tie (s.user, v))
  | listFriends {sd : Int} {now w : Text} {s : Seat} (hs : n.seat sd = some s) :
      Reads n (.request sd now .listFriends) (.tie (s.user, w))
  | listFriendRequests {sd : Int} {now w : Text} {s : Seat} (hs : n.seat sd = some s) :
      Reads n (.request sd now .listFriendRequests) (.tie (w, s.user))
  | createPost {sd : Int} {now content : Text} {visibility : Int} :
      Reads n (.request sd now (.createPost visibility content)) .posts
  | listPosts {sd : Int} {now : Text} : Reads n (.request sd now .listPosts) .posts
  | listPostsTie {sd : Int} {now w : Text} {s : Seat} (hs : n.seat sd = some s) :
      Reads n (.request sd now .listPosts) (.tie (w, s.user))
  | chatPartner {sd : Int} {now v : Text} : Reads n (.request sd now (.chat v)) (.profile v)
  | chatNumber {sd : Int} {now v : Text} : Reads n (.request sd now (.chat v)) .newest
  | chatRoom {sd : Int} {now v : Text} :
      Reads n (.request sd now (.chat v)) (.room (n.newest + 1))
  | chatSince {sd : Int} {now v : Text} :
      Reads n (.request sd now (.chat v)) (.since (n.newest + 1))
  | chatsRoom {sd : Int} {now : Text} {s : Seat} {c : Int} (hs : n.seat sd = some s) :
      Reads n (.request sd now .chats) (.room c)
  | chatsSince {sd : Int} {now : Text} {s : Seat} {c : Int} (hs : n.seat sd = some s) :
      Reads n (.request sd now .chats) (.since c)
  | open {sd : Int} {now : Text} {c : Int} : Reads n (.request sd now (.open c)) (.room c)
  | sendRoom {sd : Int} {now content : Text} {s : Seat} {c : Int} (hs : n.seat sd = some s)
      (hc : s.room = some c) : Reads n (.request sd now (.send content)) (.room c)
  | sendTalk {sd : Int} {now content : Text} {s : Seat} {c : Int} (hs : n.seat sd = some s)
      (hc : s.room = some c) : Reads n (.request sd now (.send content)) (.talk c)
  | showTalk {sd : Int} {now : Text} {s : Seat} {c : Int} (hs : n.seat sd = some s)
      (hc : s.room = some c) : Reads n (.request sd now .show) (.talk c)
  | groupNames {sd : Int} {now w : Text} {users : List Text} {s : Seat}
      (hs : n.seat sd = some s) (hw : w ∈ users ++ [s.user]) :
      Reads n (.request sd now (.group users)) (.profile w)
  | groupNumber {sd : Int} {now : Text} {users : List Text} :
      Reads n (.request sd now (.group users)) .newest
  | groupRoom {sd : Int} {now : Text} {users : List Text} :
      Reads n (.request sd now (.group users)) (.room (n.newest + 1))
  | groupSince {sd : Int} {now : Text} {users : List Text} :
      Reads n (.request sd now (.group users)) (.since (n.newest + 1))
  | addGuest {sd : Int} {now w : Text} : Reads n (.request sd now (.add w)) (.profile w)
  | addRoom {sd : Int} {now w : Text} {s : Seat} {c : Int} (hs : n.seat sd = some s)
      (hc : s.room = some c) : Reads n (.request sd now (.add w)) (.room c)

/-- The cells a deed may change. -/
inductive Writes (n : Network) : Deed → Cell → Prop
  | leave {sd : Int} : Writes n (.leave sd) (.seat sd)
  | login {sd : Int} {now u p : Text} : Writes n (.request sd now (.login u p)) (.seat sd)
  | logout {sd : Int} {now : Text} : Writes n (.request sd now .logout) (.seat sd)
  | register {sd : Int} {now u p e r v : Text} :
      Writes n (.request sd now (.register u p e r v)) (.profile u)
  | setProfileVisibility {sd : Int} {now v : Text} {s : Seat} (hs : n.seat sd = some s) :
      Writes n (.request sd now (.setProfileVisibility v)) (.profile s.user)
  | friendRequest {sd : Int} {now v : Text} {s : Seat} (hs : n.seat sd = some s) :
      Writes n (.request sd now (.friendRequest v)) (.tie (s.user, v))
  | acceptAsked {sd : Int} {now v : Text} {s : Seat} (hs : n.seat sd = some s) :
      Writes n (.request sd now (.acceptFriend v)) (.tie (v, s.user))
  | acceptBack {sd : Int} {now v : Text} {s : Seat} (hs : n.seat sd = some s) :
      Writes n (.request sd now (.acceptFriend v)) (.tie (s.user, v))
  | setFriendType {sd : Int} {now v : Text} {k : Int} {s : Seat} (hs : n.seat sd = some s) :
      Writes n (.request sd now (.setFriendType v k)) (.tie (s.user, v))
  | createPost {sd : Int} {now content : Text} {visibility : Int} :
      Writes n (.request sd now (.createPost visibility content)) .posts
  | chatNumber {sd : Int} {now v : Text} : Writes n (.request sd now (.chat v)) .newest
  | chatRoom {sd : Int} {now v : Text} :
      Writes n (.request sd now (.chat v)) (.room (n.newest + 1))
  | chatSince {sd : Int} {now v : Text} :
      Writes n (.request sd now (.chat v)) (.since (n.newest + 1))
  | open {sd : Int} {now : Text} {c : Int} : Writes n (.request sd now (.open c)) (.seat sd)
  | send {sd : Int} {now content : Text} {s : Seat} {c : Int} (hs : n.seat sd = some s)
      (hc : s.room = some c) : Writes n (.request sd now (.send content)) (.talk c)
  | groupNumber {sd : Int} {now : Text} {users : List Text} :
      Writes n (.request sd now (.group users)) .newest
  | groupRoom {sd : Int} {now : Text} {users : List Text} :
      Writes n (.request sd now (.group users)) (.room (n.newest + 1))
  | groupSince {sd : Int} {now : Text} {users : List Text} :
      Writes n (.request sd now (.group users)) (.since (n.newest + 1))
  | group {sd : Int} {now : Text} {users : List Text} :
      Writes n (.request sd now (.group users)) (.seat sd)
  | add {sd : Int} {now w : Text} {s : Seat} {c : Int} (hs : n.seat sd = some s)
      (hc : s.room = some c) : Writes n (.request sd now (.add w)) (.room c)

/-- One of the deeds writes what the other one reads. -/
def Interfere (n : Network) (d e : Deed) : Prop :=
  (∃ k, n.Writes d k ∧ n.Reads e k) ∨ ∃ k, n.Writes e k ∧ n.Reads d k

variable {n t : Network} {d : Deed} {k : Cell}

theorem Writes.reads (h : n.Writes d k) : n.Reads d k := by
  cases h with
  | leave => exact .leave
  | login => exact .seat
  | logout => exact .seat
  | register => exact .register
  | setProfileVisibility hs => exact .setProfileVisibility hs
  | friendRequest hs => exact .friendRequest hs
  | acceptAsked hs => exact .acceptAsked hs
  | acceptBack hs => exact .acceptBack hs
  | setFriendType hs => exact .setFriendType hs
  | createPost => exact .createPost
  | chatNumber => exact .chatNumber
  | chatRoom => exact .chatRoom
  | chatSince => exact .chatSince
  | «open» => exact .seat
  | send hs hc => exact .sendTalk hs hc
  | groupNumber => exact .groupNumber
  | groupRoom => exact .groupRoom
  | groupSince => exact .groupSince
  | group => exact .seat
  | add hs hc => exact .addRoom hs hc

/-- Networks that agree on the heads a deed reads have the same footprint for it. -/
theorem reads_of_agree (hag : ∀ k, k.IsHead → n.Reads d k → t.Reads d k → Same k n t)
    (h : n.Reads d k) : t.Reads d k := by
  have hseat : ∀ {sd now cmd}, d = .request sd now cmd → t.seat sd = n.seat sd := by
    intro sd now cmd hd
    subst hd
    exact (hag (.seat _) trivial .seat .seat).symm
  cases h with
  | seat => exact .seat
  | leave => exact .leave
  | login => exact .login
  | register => exact .register
  | setProfileVisibility hs => exact .setProfileVisibility ((hseat rfl).trans hs)
  | friendTarget => exact .friendTarget
  | friendRequest hs => exact .friendRequest ((hseat rfl).trans hs)
  | acceptAsked hs => exact .acceptAsked ((hseat rfl).trans hs)
  | acceptBack hs => exact .acceptBack ((hseat rfl).trans hs)
  | setFriendType hs => exact .setFriendType ((hseat rfl).trans hs)
  | listFriends hs => exact .listFriends ((hseat rfl).trans hs)
  | listFriendRequests hs => exact .listFriendRequests ((hseat rfl).trans hs)
  | createPost => exact .createPost
  | listPosts => exact .listPosts
  | listPostsTie hs => exact .listPostsTie ((hseat rfl).trans hs)
  | chatPartner => exact .chatPartner
  | chatNumber => exact .chatNumber
  | chatRoom =>
    have hnewest : n.newest = t.newest := hag .newest trivial .chatNumber .chatNumber
    exact hnewest ▸ .chatRoom
  | chatSince =>
    have hnewest : n.newest = t.newest := hag .newest trivial .chatNumber .chatNumber
    exact hnewest ▸ .chatSince
  | chatsRoom hs => exact .chatsRoom ((hseat rfl).trans hs)
  | chatsSince hs => exact .chatsSince ((hseat rfl).trans hs)
  | «open» => exact .open
  | sendRoom hs hc => exact .sendRoom ((hseat rfl).trans hs) hc
  | sendTalk hs hc => exact .sendTalk ((hseat rfl).trans hs) hc
  | showTalk hs hc => exact .showTalk ((hseat rfl).trans hs) hc
  | groupNames hs hw => exact .groupNames ((hseat rfl).trans hs) hw
  | groupNumber => exact .groupNumber
  | groupRoom =>
    have hnewest : n.newest = t.newest := hag .newest trivial .groupNumber .groupNumber
    exact hnewest ▸ .groupRoom
  | groupSince =>
    have hnewest : n.newest = t.newest := hag .newest trivial .groupNumber .groupNumber
    exact hnewest ▸ .groupSince
  | addGuest => exact .addGuest
  | addRoom hs hc => exact .addRoom ((hseat rfl).trans hs) hc

theorem writes_of_agree (hag : ∀ k, k.IsHead → n.Reads d k → t.Reads d k → Same k n t)
    (h : n.Writes d k) : t.Writes d k := by
  have hseat : ∀ {sd now cmd}, d = .request sd now cmd → t.seat sd = n.seat sd := by
    intro sd now cmd hd
    subst hd
    exact (hag (.seat _) trivial .seat .seat).symm
  cases h with
  | leave => exact .leave
  | login => exact .login
  | logout => exact .logout
  | register => exact .register
  | setProfileVisibility hs => exact .setProfileVisibility ((hseat rfl).trans hs)
  | friendRequest hs => exact .friendRequest ((hseat rfl).trans hs)
  | acceptAsked hs => exact .acceptAsked ((hseat rfl).trans hs)
  | acceptBack hs => exact .acceptBack ((hseat rfl).trans hs)
  | setFriendType hs => exact .setFriendType ((hseat rfl).trans hs)
  | createPost => exact .createPost
  | chatNumber => exact .chatNumber
  | chatRoom =>
    have hnewest : n.newest = t.newest := hag .newest trivial .chatNumber .chatNumber
    exact hnewest ▸ .chatRoom
  | chatSince =>
    have hnewest : n.newest = t.newest := hag .newest trivial .chatNumber .chatNumber
    exact hnewest ▸ .chatSince
  | «open» => exact .open
  | send hs hc => exact .send ((hseat rfl).trans hs) hc
  | groupNumber => exact .groupNumber
  | groupRoom =>
    have hnewest : n.newest = t.newest := hag .newest trivial .groupNumber .groupNumber
    exact hnewest ▸ .groupRoom
  | groupSince =>
    have hnewest : n.newest = t.newest := hag .newest trivial .groupNumber .groupNumber
    exact hnewest ▸ .groupSince
  | group => exact .group
  | add hs hc => exact .add ((hseat rfl).trans hs) hc

/-! ## What each change touches -/

section

variable (n)

theorem same_sit (sd : Int) (s : Option Seat) (hk : k ≠ .seat sd) : Same k n (n.sit sd s) := by
  cases k with
  | seat sd' => exact (Function.update_of_ne (fun h => hk (congrArg Cell.seat h)) ..).symm
  | _ => rfl

theorem same_enrol (u : Text) (p : Profile) (hk : k ≠ .profile u) : Same k n (n.enrol u p) := by
  cases k with
  | profile u' => exact (Function.update_of_ne (fun h => hk (congrArg Cell.profile h)) ..).symm
  | _ => rfl

theorem same_bind (u v : Text) (t : Tie) (hk : k ≠ .tie (u, v)) : Same k n (n.bind u v t) := by
  cases k with
  | tie q => exact (Function.update_of_ne (fun h => hk (congrArg Cell.tie h)) ..).symm
  | _ => rfl

theorem same_reciprocate (u v : Text) (hk : k ≠ .tie (u, v)) : Same k n (n.reciprocate u v) := by
  unfold reciprocate
  split
  · exact same_bind n u v _ hk
  · exact (Same.equiv k).refl n

theorem same_publish (p : Post) (hk : k ≠ .posts) : Same k n (n.publish p) := by
  cases k with
  | posts => exact absurd rfl hk
  | _ => rfl

theorem same_found (founders : Set Text) (now : Text) (hk : k ≠ .newest)
    (hroom : k ≠ .room (n.newest + 1)) (hsince : k ≠ .since (n.newest + 1)) :
    Same k n (n.found founders now) := by
  cases k with
  | newest => exact absurd rfl hk
  | room c => exact (Function.update_of_ne (fun h => hroom (congrArg Cell.room h)) ..).symm
  | since c => exact (Function.update_of_ne (fun h => hsince (congrArg Cell.since h)) ..).symm
  | _ => rfl

theorem same_invite (c : Int) (host guest : Text) (hk : k ≠ .room c) :
    Same k n (n.invite c host guest) := by
  cases k with
  | room c' => exact (Function.update_of_ne (fun h => hk (congrArg Cell.room h)) ..).symm
  | _ => rfl

theorem same_say (c : Int) (r : Remark) (hk : k ≠ .talk c) : Same k n (n.say c r) := by
  cases k with
  | talk c' => exact (Function.update_of_ne (fun h => hk (congrArg Cell.talk h)) ..).symm
  | _ => rfl

end

/-! ## Changes made to networks that agree -/

section

theorem Same.update {α β : Type} [DecidableEq α] {f g : α → β} {x : α} (h : f x = g x) (y : α)
    (b : β) : Function.update f y b x = Function.update g y b x := by
  by_cases hxy : x = y
  · subst hxy
    rw [Function.update_self, Function.update_self]
  · rw [Function.update_of_ne hxy, Function.update_of_ne hxy, h]

theorem Same.sit (h : Same k n t) (sd : Int) (s : Option Seat) :
    Same k (n.sit sd s) (t.sit sd s) := by
  cases k with
  | seat => exact Same.update h sd s
  | _ => exact h

theorem Same.enrol (h : Same k n t) (u : Text) (p : Profile) :
    Same k (n.enrol u p) (t.enrol u p) := by
  cases k with
  | profile => exact Same.update h u (some p)
  | _ => exact h

theorem Same.bind (h : Same k n t) (u v : Text) (x : Tie) :
    Same k (n.bind u v x) (t.bind u v x) := by
  cases k with
  | tie => exact Same.update h (u, v) (some x)
  | _ => exact h

theorem Same.reciprocate (h : Same k n t) {u v : Text} (htie : n.tie (u, v) = t.tie (u, v)) :
    Same k (n.reciprocate u v) (t.reciprocate u v) := by
  unfold Network.reciprocate
  rw [htie]
  split
  · exact h.bind u v _
  · exact h

theorem Same.publish (h : Same k n t) (p : Post) : Same k (n.publish p) (t.publish p) := by
  cases k with
  | posts => exact congrArg (· ++ [p]) h
  | _ => exact h

theorem Same.found (h : Same k n t) (hnewest : n.newest = t.newest) (founders : Set Text)
    (now : Text) : Same k (n.found founders now) (t.found founders now) := by
  unfold Network.found Rooms.apply
  rw [hnewest]
  cases k with
  | room => exact Same.update h (t.newest + 1) (some founders)
  | since => exact Same.update h (t.newest + 1) (some now)
  | newest => rfl
  | _ => exact h

theorem Same.invite (h : Same k n t) {c : Int} (hroom : n.rooms c = t.rooms c)
    (host guest : Text) : Same k (n.invite c host guest) (t.invite c host guest) := by
  unfold Network.invite Rooms.apply
  dsimp only
  rw [hroom]
  cases k with
  | room => exact Same.update h c _
  | _ => exact h

theorem Same.say (h : Same k n t) {c : Int} (htalk : n.talk c = t.talk c) (r : Remark) :
    Same k (n.say c r) (t.say c r) := by
  unfold Network.say
  rw [htalk]
  cases k with
  | talk => exact Same.update h c _
  | _ => exact h

end

/-! ## Rules and footprints -/

variable {digest : Text → Text} {now : Text} {sd : Int} {cmd : Command}

/-- **A rule changes nothing outside what the deed writes.** -/
theorem Grants.frame {n' : Network} (h : n.Grants digest now sd cmd n')
    (hk : ¬ n.Writes (.request sd now cmd) k) : Same k n n' := by
  have hne : ∀ {k' : Cell}, n.Writes (.request sd now cmd) k' → k ≠ k' :=
    fun hw heq => hk (heq ▸ hw)
  cases h with
  | login => exact same_sit n _ _ (hne .login)
  | logout => exact same_sit n _ _ (hne .logout)
  | register => exact same_enrol n _ _ (hne .register)
  | setProfileVisibility hs => exact same_enrol n _ _ (hne (.setProfileVisibility hs))
  | friendRequest hs => exact same_bind n _ _ _ (hne (.friendRequest hs))
  | acceptFriend hs =>
    exact (Same.equiv k).trans (same_bind n _ _ _ (hne (.acceptAsked hs)))
      (same_reciprocate _ _ _ (hne (.acceptBack hs)))
  | setFriendType hs => exact same_bind n _ _ _ (hne (.setFriendType hs))
  | createPost => exact same_publish n _ (hne .createPost)
  | chat => exact same_found n _ _ (hne .chatNumber) (hne .chatRoom) (hne .chatSince)
  | «open» => exact same_sit n _ _ (hne .open)
  | send hs hc => exact same_say n _ _ (hne (.send hs hc))
  | group =>
    exact (Same.equiv k).trans
      (same_found n _ _ (hne .groupNumber) (hne .groupRoom) (hne .groupSince))
      (same_sit _ _ _ (hne .group))
  | add hs hc => exact same_invite n _ _ _ (hne (.add hs hc))

/-- **A rule depends on nothing but what the deed reads**: a network that agrees on it grants
the request as well, and writes the same. -/
theorem Grants.transfer {n' : Network} (h : n.Grants digest now sd cmd n')
    (hag : ∀ k, n.Reads (.request sd now cmd) k → Same k n t) :
    ∃ t', t.Grants digest now sd cmd t' ∧
      ∀ k, n.Writes (.request sd now cmd) k → Same k n' t' := by
  have hseat : t.seat sd = n.seat sd := (hag _ .seat).symm
  have hwrite : ∀ k, n.Writes (.request sd now cmd) k → Same k n t := fun k hk => hag k hk.reads
  cases h with
  | @login u p a hu hp hfree ha hdigest =>
    have hprofile : n.profile u = t.profile u := hag (.profile u) .login
    exact ⟨_, .login hu hp (hseat.trans hfree) (hprofile.symm.trans ha) hdigest,
      fun k hk => (hwrite k hk).sit ..⟩
  | logout hs => exact ⟨_, .logout (hseat.trans hs), fun k hk => (hwrite k hk).sit ..⟩
  | @register u p e r v hu hp he hr hv hname hemail =>
    have hprofile : ∀ w, n.profile w = t.profile w := fun w => hag (.profile w) .register
    exact ⟨_, .register hu hp he hr hv ((hprofile u).symm.trans hname)
      fun w a hw => hemail w a ((hprofile w).trans hw), fun k hk => (hwrite k hk).enrol ..⟩
  | @setProfileVisibility s v a hs hv ha =>
    have hprofile : n.profile s.user = t.profile s.user :=
      hag (.profile s.user) (.setProfileVisibility hs)
    exact ⟨_, .setProfileVisibility (hseat.trans hs) hv (hprofile.symm.trans ha),
      fun k hk => (hwrite k hk).enrol ..⟩
  | @friendRequest s v a hs hne ha hfree =>
    have hprofile : n.profile v = t.profile v := hag (.profile v) .friendTarget
    have htie : n.tie (s.user, v) = t.tie (s.user, v) := hag (.tie _) (.friendRequest hs)
    exact ⟨_, .friendRequest (hseat.trans hs) hne (hprofile.symm.trans ha)
      (htie.symm.trans hfree), fun k hk => (hwrite k hk).bind ..⟩
  | @acceptFriend s v hs hasked =>
    have hasked' : n.tie (v, s.user) = t.tie (v, s.user) := hag (.tie _) (.acceptAsked hs)
    have hback : Same (.tie (s.user, v)) n t := hag _ (.acceptBack hs)
    exact ⟨_, .acceptFriend (hseat.trans hs) (hasked'.symm.trans hasked),
      fun k hk => ((hwrite k hk).bind ..).reciprocate (hback.bind ..)⟩
  | @setFriendType s v old new hs hrange hfriend =>
    have htie : n.tie (s.user, v) = t.tie (s.user, v) := hag (.tie _) (.setFriendType hs)
    exact ⟨_, .setFriendType (hseat.trans hs) hrange (htie.symm.trans hfriend),
      fun k hk => (hwrite k hk).bind ..⟩
  | createPost hs hc hrange =>
    exact ⟨_, .createPost (hseat.trans hs) hc hrange, fun k hk => (hwrite k hk).publish _⟩
  | @chat s v a hs hne ha =>
    have hprofile : n.profile v = t.profile v := hag (.profile v) .chatPartner
    exact ⟨_, .chat (hseat.trans hs) hne (hprofile.symm.trans ha),
      fun k hk => (hwrite k hk).found (hag .newest .chatNumber) ..⟩
  | @«open» s c hs hc =>
    have hroom : n.rooms c = t.rooms c := hag (.room c) .open
    obtain ⟨m, hm, hin⟩ := hc
    exact ⟨_, .open (hseat.trans hs) ⟨m, hroom.symm.trans hm, hin⟩,
      fun k hk => (hwrite k hk).sit ..⟩
  | @send s c content hs hc hin =>
    have hroom : n.rooms c = t.rooms c := hag (.room c) (.sendRoom hs hc)
    obtain ⟨m, hm, hin⟩ := hin
    exact ⟨_, .send (hseat.trans hs) hc ⟨m, hroom.symm.trans hm, hin⟩,
      fun k hk => (hwrite k hk).say (hag (.talk c) (.sendTalk hs hc)) _⟩
  | @group s users hs hne hknown =>
    have hprofile : ∀ w ∈ users ++ [s.user], n.profile w = t.profile w :=
      fun w hw => hag (.profile w) (.groupNames hs hw)
    have hnewest : n.newest = t.newest := hag .newest .groupNumber
    refine ⟨_, .group (hseat.trans hs) hne fun w hw => hprofile w hw ▸ hknown w hw,
      fun k hk => ?_⟩
    rw [← hnewest]
    exact ((hwrite k hk).found hnewest ..).sit ..
  | @add s c w a hs hc ha =>
    have hprofile : n.profile w = t.profile w := hag (.profile w) .addGuest
    exact ⟨_, .add (hseat.trans hs) hc (hprofile.symm.trans ha),
      fun k hk => (hwrite k hk).invite (hag (.room c) (.addRoom hs hc)) ..⟩

/-- To agree on what a deed reads is to agree on what it reads from either side. -/
theorem agree_swap (hag : cells.Agree {k | n.Reads d k} n t) : cells.Agree {k | t.Reads d k} t n :=
  fun k hk => (Same.equiv k).symm
    (hag k (reads_of_agree (fun k _ _ hk => (Same.equiv k).symm (hag k hk)) hk))

/-- Networks that agree on what a deed reads grant it alike. -/
theorem grants_congr (hag : cells.Agree {k | n.Reads (.request sd now cmd) k} n t) :
    (∃ n', n.Grants digest now sd cmd n') ↔ ∃ t', t.Grants digest now sd cmd t' := by
  constructor
  · intro ⟨n', hn⟩
    obtain ⟨t', ht, _⟩ := hn.transfer hag
    exact ⟨t', ht⟩
  · intro ⟨t', ht⟩
    obtain ⟨n', hn, _⟩ := ht.transfer (agree_swap hag)
    exact ⟨n', hn⟩

/-! ## Deeds that do not interfere -/

/-- **A deed depends on what it reads and touches what it writes.** -/
theorem next_local (digest : Text → Text) (n : Network) (d : Deed) :
    cells.Local (fun n => n.next digest d) n {k | n.Reads d k} {k | n.Writes d k} where
  frame t hag k hk := by
    have hkt : ¬ t.Writes d k := fun hw =>
      hk (writes_of_agree (fun k _ _ hk => (Same.equiv k).symm (hag k hk)) hw)
    cases d with
    | request sd now cmd =>
      by_cases hgrant : ∃ t', t.Grants digest now sd cmd t'
      · obtain ⟨t', ht⟩ := hgrant
        rw [next_granted ht]
        exact ht.frame hkt
      · rw [next_refused fun t' ht => hgrant ⟨t', ht⟩]
        exact (Same.equiv k).refl t
    | leave sd => exact same_sit t sd none fun hk => hkt (hk ▸ .leave)
    | nothing => exact (Same.equiv k).refl t
  result t hag k hk := by
    cases d with
    | request sd now cmd =>
      by_cases hgrant : ∃ n', n.Grants digest now sd cmd n'
      · obtain ⟨n', hn⟩ := hgrant
        obtain ⟨t', ht, hsame⟩ := hn.transfer hag
        rw [next_granted hn, next_granted ht]
        exact hsame k hk
      · have hgrant' : ¬ ∃ t', t.Grants digest now sd cmd t' := fun h =>
          hgrant ((grants_congr hag).mpr h)
        rw [next_refused fun n' hn => hgrant ⟨n', hn⟩, next_refused fun t' ht => hgrant' ⟨t', ht⟩]
        exact hag k hk.reads
    | leave sd =>
      have hsame : Same k n t := hag k hk.reads
      exact hsame.sit sd none
    | nothing => cases hk

variable {e : Deed}

theorem Interfere.symm (h : n.Interfere d e) : n.Interfere e d := Or.symm h

theorem not_writes_of_free (hfree : ¬ n.Interfere d e) (hk : n.Reads d k) : ¬ n.Writes e k :=
  fun hw => hfree (Or.inr ⟨k, hw, hk⟩)

/-- **Deeds that do not interfere commute.** -/
theorem next_comm (digest : Text → Text) (hfree : ¬ n.Interfere d e) :
    (n.next digest e).next digest d = (n.next digest d).next digest e := by
  have hsymm : ¬ n.Interfere e d := fun h => hfree h.symm
  exact Cells.commute (next_local digest n d) (next_local digest n e) (fun _ hk => hk.reads)
    (fun _ hk => not_writes_of_free hsymm hk) fun _ hk => not_writes_of_free hfree hk

/-- A request is granted after a deed that does not interfere exactly if it is before it. -/
theorem granted_after (hfree : ¬ n.Interfere (.request sd now cmd) e) :
    (∃ t, (n.next digest e).Grants digest now sd cmd t) ↔
      ∃ t, n.Grants digest now sd cmd t :=
  (grants_congr ((next_local digest n e).keeps fun _ hk => not_writes_of_free hfree hk)).symm

/-- A post and a request for friendship, of whomever, do not interfere. -/
theorem free_of_post_of_friendRequest {sd' : Int} {now' content v : Text} {visibility : Int} :
    ¬ n.Interfere (.request sd now (.createPost visibility content))
      (.request sd' now' (.friendRequest v)) := by
  intro h
  rcases h with ⟨k, hw, hr⟩ | ⟨k, hw, hr⟩
  · cases hw
    cases hr
  · cases hw
    cases hr

end Network

end SocialNetwork.Server
