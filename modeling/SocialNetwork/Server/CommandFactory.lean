import SocialNetwork.Lib.Stream

/-!
# `CommandFactory::create`

A `Command` is an object of one of the command classes with its constructor
arguments. `create` parses an input line the way the factory does, extraction by
extraction: `none` is the null pointer. `junk` is the value of the uninitialised
`int` that `set_friend_type` and `create_post` may pass on when nothing could be
extracted into it.
-/

namespace SocialNetwork.Server

open SocialNetwork.Lib

inductive Command
  | login (username password : Text)
  | register (username password email role visibility : Text)
  | logout
  | setProfileVisibility (visibility : Text)
  | friendRequest (target : Text)
  | acceptFriend (source : Text)
  | listFriends
  | setFriendType (target : Text) (type : Int)
  | listFriendRequests
  | createPost (visibility : Int) (content : Text)
  | listPosts
  | chats
  | chat (otherUser : Text)
  | open (conversationId : Int)
  | send (content : Text)
  | show
  | group (users : List Text)
  | add (username : Text)
  deriving DecidableEq, Repr

namespace CommandFactory

/-- `if (!content.empty() && content[0] == ' ') content.erase(0, 1)`. -/
def dropBlank : Text → Text
  | 32 :: content => content
  | content => content

/-- A command that takes one word; `none` if the word is required and missing. -/
def oneWord (ss : IStream) (required : Bool) (mk : Text → Command) : Option Command :=
  let user := (ss.word []).1
  if required && user.isEmpty then none else some (mk user)

def create (junk : Int) (input : Text) : Option Command :=
  let (cmd, ss) := (IStream.ofText input).word []
  if cmd = bytes "login" then
    let (user, ss) := ss.word []
    let (pass, _) := ss.word []
    some (.login user pass)
  else if cmd = bytes "register" then
    let (user, ss) := ss.word []
    let (pass, ss) := ss.word []
    let (email, ss) := ss.word []
    let (role, ss) := ss.word []
    let (visibility, _) := ss.word []
    some (.register user pass email role visibility)
  else if cmd = bytes "logout" then some .logout
  else if cmd = bytes "set_visibility" then oneWord ss false .setProfileVisibility
  else if cmd = bytes "add_friend" then oneWord ss false .friendRequest
  else if cmd = bytes "accept_friend" then oneWord ss false .acceptFriend
  else if cmd = bytes "list_friends" then some .listFriends
  else if cmd = bytes "set_friend_type" then
    let (user, ss) := ss.word []
    -- `ss >> type` is not checked, so `junk` may come through
    let (type, _) := ss.int junk
    some (.setFriendType user type)
  else if cmd = bytes "list_friend_requests" then some .listFriendRequests
  else if cmd = bytes "create_post" then
    let (vis, ss) := ss.int junk
    -- the rest of the line starts right after the number
    let (content, _) := ss.getline
    some (.createPost vis (dropBlank content))
  else if cmd = bytes "list_posts" then some .listPosts
  else if cmd = bytes "chats" then some .chats
  else if cmd = bytes "chat" then oneWord ss true .chat
  else if cmd = bytes "open" then
    let (convId, ss) := ss.int junk
    -- `if (!ss)`: no digits, or a number that is no `int`
    if ss.fail then none else some (.open convId)
  else if cmd = bytes "send" then
    let (content, _) := ss.getline
    let content := dropBlank content
    if content.isEmpty then none else some (.send content)
  else if cmd = bytes "show" then some .show
  else if cmd = bytes "group" then
    let users := ss.words
    if users.isEmpty then none else some (.group users)
  else if cmd = bytes "add" then oneWord ss true .add
  else none

example : create 7 (bytes "create_post 1  two  words") =
    some (.createPost 1 (bytes " two  words")) := by decide
example : create 7 (bytes "set_friend_type bob") = some (.setFriendType (bytes "bob") 7) := by
  decide
example : create 7 (bytes "open x") = none := by decide

end CommandFactory

end SocialNetwork.Server
