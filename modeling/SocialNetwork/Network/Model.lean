import SocialNetwork.Lib.Rooms
import SocialNetwork.Lib.Transition
import SocialNetwork.Server.Database
import SocialNetwork.Server.CommandFactory

/-!
# What the service is for

The network in its own terms, without tables, rows or statements: the accounts, how users
stand to each other, what was posted, who is in which room and what was said there, and who
sits at which connection.

`Grants` gives, rule by rule, when a request is granted and what it makes of the network. A
request that no rule grants is refused and changes nothing; a query changes nothing either.
`Network.machine` is the network as it takes requests one after the other.
-/

namespace SocialNetwork.Server

open SocialNetwork.Lib

/-- What is kept of an account. -/
structure Profile where
  digest : Text
  email : Text
  role : Text
  visibility : Text

/-- How a user stands to another one: has asked for friendship, or takes them for a friend of
some kind. -/
inductive Tie
  | asked
  | friend (kind : Int)

/-- What was said in a room. -/
structure Remark where
  sender : Text
  content : Text
  time : Text

/-- Who sits at a connection, and in which room. -/
structure Seat where
  user : Text
  room : Option Int

structure Network where
  profile : Text → Option Profile
  tie : Text × Text → Option Tie
  posts : List Post
  rooms : Rooms Int Text
  /-- The time each room was founded at. -/
  since : Int → Option Text
  /-- The number of the room founded last. -/
  newest : Int
  talk : Int → List Remark
  seat : Int → Option Seat

namespace Network

/-- Nobody has an account. -/
def empty : Network where
  profile _ := none
  tie _ := none
  posts := []
  rooms _ := none
  since _ := none
  newest := 0
  talk _ := []
  seat _ := none

/-! ## What can be done to it -/

section

variable (n : Network)

def enrol (u : Text) (p : Profile) : Network :=
  { n with profile := Function.update n.profile u (some p) }

def bind (u v : Text) (t : Tie) : Network :=
  { n with tie := Function.update n.tie (u, v) (some t) }

/-- Where `u` has not asked for it yet, `u` takes `v` for a friend. -/
def reciprocate (u v : Text) : Network :=
  match n.tie (u, v) with
  | none => n.bind u v (.friend 0)
  | some _ => n

def publish (p : Post) : Network := { n with posts := n.posts ++ [p] }

/-- Found the next room. -/
def found (founders : Set Text) (now : Text) : Network :=
  { n with
    rooms := n.rooms.apply (.create (n.newest + 1) founders)
    since := Function.update n.since (n.newest + 1) (some now)
    newest := n.newest + 1 }

def invite (c : Int) (host guest : Text) : Network :=
  { n with rooms := n.rooms.apply (.invite c host guest) }

def say (c : Int) (r : Remark) : Network :=
  { n with talk := Function.update n.talk c (n.talk c ++ [r]) }

/-- Take a seat, or give it up. -/
def sit (sd : Int) (s : Option Seat) : Network :=
  { n with seat := Function.update n.seat sd s }

end

/-! ## Requests -/

/-- The requests that are granted, with what they make of the network. -/
inductive Grants (digest : Text → Text) (now : Text) (n : Network) (sd : Int) :
    Command → Network → Prop
  | login {u p : Text} {a : Profile} (hu : u ≠ []) (hp : p ≠ []) (hfree : n.seat sd = none)
      (ha : n.profile u = some a) (hdigest : a.digest = digest p) :
      Grants digest now n sd (.login u p) (n.sit sd (some ⟨u, none⟩))
  | logout {s : Seat} (hs : n.seat sd = some s) :
      Grants digest now n sd .logout (n.sit sd none)
  | register {u p e r v : Text} (hu : u ≠ []) (hp : p ≠ []) (he : e ≠ [])
      (hr : r = bytes "normal" ∨ r = bytes "admin")
      (hv : v = bytes "public" ∨ v = bytes "private")
      (hname : n.profile u = none) (hemail : ∀ w a, n.profile w = some a → a.email ≠ e) :
      Grants digest now n sd (.register u p e r v) (n.enrol u ⟨digest p, e, r, v⟩)
  | setProfileVisibility {s : Seat} {v : Text} {a : Profile} (hs : n.seat sd = some s)
      (hv : v = bytes "public" ∨ v = bytes "private") (ha : n.profile s.user = some a) :
      Grants digest now n sd (.setProfileVisibility v) (n.enrol s.user { a with visibility := v })
  | friendRequest {s : Seat} {v : Text} {a : Profile} (hs : n.seat sd = some s)
      (hne : s.user ≠ v) (ha : n.profile v = some a) (hfree : n.tie (s.user, v) = none) :
      Grants digest now n sd (.friendRequest v) (n.bind s.user v .asked)
  | acceptFriend {s : Seat} {v : Text} (hs : n.seat sd = some s)
      (hasked : n.tie (v, s.user) = some .asked) :
      Grants digest now n sd (.acceptFriend v)
        ((n.bind v s.user (.friend 0)).reciprocate s.user v)
  | setFriendType {s : Seat} {v : Text} {old new : Int} (hs : n.seat sd = some s)
      (hrange : 0 ≤ new ∧ new ≤ 2) (hfriend : n.tie (s.user, v) = some (.friend old)) :
      Grants digest now n sd (.setFriendType v new) (n.bind s.user v (.friend new))
  | createPost {s : Seat} {visibility : Int} {content : Text} (hs : n.seat sd = some s)
      (hc : content ≠ []) (hrange : 0 ≤ visibility ∧ visibility ≤ 2) :
      Grants digest now n sd (.createPost visibility content)
        (n.publish ⟨s.user, content, visibility, now⟩)
  | chat {s : Seat} {v : Text} {a : Profile} (hs : n.seat sd = some s) (hne : s.user ≠ v)
      (ha : n.profile v = some a) :
      Grants digest now n sd (.chat v) (n.found { w | w ∈ [s.user, v] } now)
  | open {s : Seat} {c : Int} (hs : n.seat sd = some s) (hc : n.rooms.Inside c s.user) :
      Grants digest now n sd (.open c) (n.sit sd (some ⟨s.user, some c⟩))
  | send {s : Seat} {c : Int} {content : Text} (hs : n.seat sd = some s)
      (hc : s.room = some c) (hin : n.rooms.Inside c s.user) :
      Grants digest now n sd (.send content) (n.say c ⟨s.user, content, now⟩)
  | group {s : Seat} {users : List Text} (hs : n.seat sd = some s) (hne : users ≠ [])
      (hknown : ∀ w ∈ users ++ [s.user], n.profile w ≠ none) :
      Grants digest now n sd (.group users)
        ((n.found { w | w ∈ users ++ [s.user] } now).sit sd
          (some ⟨s.user, some (n.newest + 1)⟩))
  | add {s : Seat} {c : Int} {w : Text} {a : Profile} (hs : n.seat sd = some s)
      (hc : s.room = some c) (ha : n.profile w = some a) :
      Grants digest now n sd (.add w) (n.invite c s.user w)

/-- A request is granted in one way. -/
theorem Grants.unique {digest : Text → Text} {now : Text} {n n₁ n₂ : Network} {sd : Int}
    {cmd : Command} (h₁ : n.Grants digest now sd cmd n₁) (h₂ : n.Grants digest now sd cmd n₂) :
    n₁ = n₂ := by
  have hseat : ∀ {s s' : Seat}, n.seat sd = some s → n.seat sd = some s' → s = s' :=
    fun hs hs' => Option.some.inj (hs.symm.trans hs')
  cases h₁ with
  | login => cases h₂; rfl
  | logout => cases h₂; rfl
  | register => cases h₂; rfl
  | setProfileVisibility hs _ ha =>
    cases h₂ with
    | setProfileVisibility hs' _ ha' =>
      cases hseat hs hs'
      rw [Option.some.inj (ha.symm.trans ha')]
  | friendRequest hs => cases h₂ with | friendRequest hs' => rw [hseat hs hs']
  | acceptFriend hs => cases h₂ with | acceptFriend hs' => rw [hseat hs hs']
  | setFriendType hs => cases h₂ with | setFriendType hs' => rw [hseat hs hs']
  | createPost hs => cases h₂ with | createPost hs' => rw [hseat hs hs']
  | chat hs => cases h₂ with | chat hs' => rw [hseat hs hs']
  | «open» hs => cases h₂ with | «open» hs' => rw [hseat hs hs']
  | send hs hc =>
    cases h₂ with
    | send hs' hc' =>
      cases hseat hs hs'
      rw [Option.some.inj (hc.symm.trans hc')]
  | group hs => cases h₂ with | group hs' => rw [hseat hs hs']
  | add hs hc =>
    cases h₂ with
    | add hs' hc' =>
      cases hseat hs hs'
      rw [Option.some.inj (hc.symm.trans hc')]

/-! ## The machine -/

/-- What happens to a network. -/
inductive Deed
  | request (sd : Int) (now : Text) (cmd : Command)
  | leave (sd : Int)
  | nothing
  deriving DecidableEq

open Classical in
/-- A request that is not granted changes nothing. -/
noncomputable def next (digest : Text → Text) (n : Network) : Deed → Network
  | .request sd now cmd =>
    if h : ∃ n', n.Grants digest now sd cmd n' then h.choose else n
  | .leave sd => n.sit sd none
  | .nothing => n

theorem next_granted {digest : Text → Text} {n n' : Network} {sd : Int} {now : Text}
    {cmd : Command} (h : n.Grants digest now sd cmd n') :
    n.next digest (.request sd now cmd) = n' := by
  have hex : ∃ n', n.Grants digest now sd cmd n' := ⟨n', h⟩
  exact (dif_pos hex).trans (hex.choose_spec.unique h)

theorem next_refused {digest : Text → Text} {n : Network} {sd : Int} {now : Text}
    {cmd : Command} (h : ∀ n', ¬ n.Grants digest now sd cmd n') :
    n.next digest (.request sd now cmd) = n :=
  dif_neg fun ⟨n', hn⟩ => h n' hn

/-- The network as it takes one request after the other, in any order. -/
noncomputable def machine (digest : Text → Text) : Machine Network Deed where
  init := empty
  guard _ _ := True
  next := next digest

end Network

end SocialNetwork.Server
