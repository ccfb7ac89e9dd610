import SocialNetwork.Server.Loop

/-!
# What the parser lets through

Nothing else checks the texts that clients send, so what holds of stored names and
contents is what `CommandFactory::create` establishes. `Command.WellFormed` says it, one
line per command that carries texts, and `create_wellFormed` shows it of every command the
parser returns for a line without NUL: names and other words have no white space in them,
contents have no newline, and `group` has someone to name.

`create_makes` is the inversion of the parser: which keyword a command was made for, and which
extractions its arguments are.
-/

namespace SocialNetwork.Server

open SocialNetwork.Lib

/-- Neither white space nor NUL: one word for `ss >> word` and for a C string. -/
def IsWord (w : Text) : Prop := ∀ b ∈ w, isSpace b = false ∧ b ≠ 0

instance (w : Text) : Decidable (IsWord w) :=
  List.decidableBAll (fun b => isSpace b = false ∧ b ≠ 0) w

theorem IsWord.not_mem {w : Text} (hw : IsWord w) {b : UInt8} (hb : isSpace b = true) : b ∉ w := by
  intro hin
  rw [(hw b hin).1] at hb
  cases hb

/-- Neither newline nor NUL: the rest of one line. -/
def IsContent (content : Text) : Prop := ∀ b ∈ content, b ≠ 10 ∧ b ≠ 0

/-- The texts of the command are as the parser makes them. -/
def Command.WellFormed : Command → Prop
  | .login username password => IsWord username ∧ IsWord password
  | .register username password email role visibility =>
    IsWord username ∧ IsWord password ∧ IsWord email ∧ IsWord role ∧ IsWord visibility
  | .setProfileVisibility visibility => IsWord visibility
  | .friendRequest target => IsWord target
  | .acceptFriend source => IsWord source
  | .setFriendType target _ => IsWord target
  | .createPost _ content => IsContent content
  | .chat otherUser => IsWord otherUser ∧ otherUser ≠ []
  | .send content => IsContent content ∧ content ≠ []
  | .group users => users ≠ [] ∧ ∀ u ∈ users, IsWord u ∧ u ≠ []
  | .add username => IsWord username ∧ username ≠ []
  | _ => True

/-- A C string ends at its first NUL. -/
theorem nul_not_mem_inputOf (data : Text) : 0 ∉ inputOf data := by
  intro hmem
  unfold inputOf trimLineEnd at hmem
  rw [List.mem_reverse] at hmem
  have hin := List.mem_reverse.mp (List.dropWhile_subset _ hmem)
  have hne := List.mem_takeWhile_imp hin
  cases hne

section

variable {ss : IStream} {junk : Int} {cmd : Command}

/-- An extracted word of a stream without NUL. -/
theorem word_isWord (h0 : 0 ∉ ss.rest) : IsWord (ss.word []).1 := by
  intro b hb
  obtain ⟨hspace, hrest⟩ := IStream.mem_word hb
  exact ⟨hspace, fun heq => h0 (heq ▸ hrest)⟩

/-- The rest of the line, less one blank in front. -/
theorem getline_isContent (h0 : 0 ∉ ss.rest) :
    IsContent (CommandFactory.dropBlank ss.getline.1) := by
  have hdrop : ∀ t, CommandFactory.dropBlank t ⊆ t := by
    intro t
    unfold CommandFactory.dropBlank
    split
    next => exact List.subset_cons_self _ _
    next => exact fun _ hb => hb
  intro b hb
  obtain ⟨hne, hrest⟩ := IStream.mem_getline (hdrop _ hb)
  exact ⟨hne, fun heq => h0 (heq ▸ hrest)⟩

theorem oneWord_eq_some {required : Bool} {mk : Text → Command}
    (h : CommandFactory.oneWord ss required mk = some cmd) :
    cmd = mk (ss.word []).1 ∧ (required = true → (ss.word []).1 ≠ []) := by
  unfold CommandFactory.oneWord at h
  dsimp only at h
  split at h
  next => cases h
  next hsome =>
    rw [Option.some.injEq] at h
    refine ⟨h.symm, fun hreq hnil => hsome ?_⟩
    rw [hreq, hnil]
    rfl

/-- The commands `create` makes, by keyword and in the order of the source, of the stream behind
the keyword. -/
inductive CommandFactory.Makes (junk : Int) (ss : IStream) : Text → Command → Prop
  | login : Makes junk ss (bytes "login") (.login (ss.word []).1 ((ss.word []).2.word []).1)
  | register {ss₂ ss₃ ss₄ ss₅ : IStream} (h₂ : ss₂ = (ss.word []).2) (h₃ : ss₃ = (ss₂.word []).2)
      (h₄ : ss₄ = (ss₃.word []).2) (h₅ : ss₅ = (ss₄.word []).2) :
      Makes junk ss (bytes "register") (.register (ss.word []).1 (ss₂.word []).1 (ss₃.word []).1
        (ss₄.word []).1 (ss₅.word []).1)
  | logout : Makes junk ss (bytes "logout") .logout
  | setProfileVisibility : Makes junk ss (bytes "set_visibility")
      (.setProfileVisibility (ss.word []).1)
  | friendRequest : Makes junk ss (bytes "add_friend") (.friendRequest (ss.word []).1)
  | acceptFriend : Makes junk ss (bytes "accept_friend") (.acceptFriend (ss.word []).1)
  | listFriends : Makes junk ss (bytes "list_friends") .listFriends
  | setFriendType : Makes junk ss (bytes "set_friend_type")
      (.setFriendType (ss.word []).1 ((ss.word []).2.int junk).1)
  | listFriendRequests : Makes junk ss (bytes "list_friend_requests") .listFriendRequests
  | createPost : Makes junk ss (bytes "create_post")
      (.createPost (ss.int junk).1 (dropBlank (ss.int junk).2.getline.1))
  | listPosts : Makes junk ss (bytes "list_posts") .listPosts
  | chats : Makes junk ss (bytes "chats") .chats
  | chat (hne : (ss.word []).1 ≠ []) : Makes junk ss (bytes "chat") (.chat (ss.word []).1)
  | open : Makes junk ss (bytes "open") (.open (ss.int junk).1)
  | send (hne : dropBlank ss.getline.1 ≠ []) :
      Makes junk ss (bytes "send") (.send (dropBlank ss.getline.1))
  | show : Makes junk ss (bytes "show") .show
  | group (hne : ss.words ≠ []) : Makes junk ss (bytes "group") (.group ss.words)
  | add (hne : (ss.word []).1 ≠ []) : Makes junk ss (bytes "add") (.add (ss.word []).1)

/-- **What a line that makes a command looks like.** -/
theorem create_makes {input : Text} (h : CommandFactory.create junk input = some cmd) :
    CommandFactory.Makes junk ((IStream.ofText input).word []).2
      ((IStream.ofText input).word []).1 cmd := by
  unfold CommandFactory.create at h
  generalize (IStream.ofText input).word [] = read at h ⊢
  obtain ⟨keyword, ss⟩ := read
  dsimp only at h ⊢
  -- the keywords in the order of the source
  rcases ite_eq_iff.mp h with ⟨hkey, h⟩ | ⟨_, h⟩
  · cases h
    subst hkey
    exact .login
  rcases ite_eq_iff.mp h with ⟨hkey, h⟩ | ⟨_, h⟩
  · cases h
    subst hkey
    exact .register rfl rfl rfl rfl
  rcases ite_eq_iff.mp h with ⟨hkey, h⟩ | ⟨_, h⟩
  · cases h
    subst hkey
    exact .logout
  rcases ite_eq_iff.mp h with ⟨hkey, h⟩ | ⟨_, h⟩
  · obtain ⟨rfl, _⟩ := oneWord_eq_some h
    subst hkey
    exact .setProfileVisibility
  rcases ite_eq_iff.mp h with ⟨hkey, h⟩ | ⟨_, h⟩
  · obtain ⟨rfl, _⟩ := oneWord_eq_some h
    subst hkey
    exact .friendRequest
  rcases ite_eq_iff.mp h with ⟨hkey, h⟩ | ⟨_, h⟩
  · obtain ⟨rfl, _⟩ := oneWord_eq_some h
    subst hkey
    exact .acceptFriend
  rcases ite_eq_iff.mp h with ⟨hkey, h⟩ | ⟨_, h⟩
  · cases h
    subst hkey
    exact .listFriends
  rcases ite_eq_iff.mp h with ⟨hkey, h⟩ | ⟨_, h⟩
  · cases h
    subst hkey
    exact .setFriendType
  rcases ite_eq_iff.mp h with ⟨hkey, h⟩ | ⟨_, h⟩
  · cases h
    subst hkey
    exact .listFriendRequests
  rcases ite_eq_iff.mp h with ⟨hkey, h⟩ | ⟨_, h⟩
  · cases h
    subst hkey
    exact .createPost
  rcases ite_eq_iff.mp h with ⟨hkey, h⟩ | ⟨_, h⟩
  · cases h
    subst hkey
    exact .listPosts
  rcases ite_eq_iff.mp h with ⟨hkey, h⟩ | ⟨_, h⟩
  · cases h
    subst hkey
    exact .chats
  rcases ite_eq_iff.mp h with ⟨hkey, h⟩ | ⟨_, h⟩
  · obtain ⟨rfl, hne⟩ := oneWord_eq_some h
    subst hkey
    exact .chat (hne rfl)
  rcases ite_eq_iff.mp h with ⟨hkey, h⟩ | ⟨_, h⟩
  · rcases ite_eq_iff.mp h with ⟨_, h⟩ | ⟨_, h⟩
    · cases h
    · cases h
      subst hkey
      exact .open
  rcases ite_eq_iff.mp h with ⟨hkey, h⟩ | ⟨_, h⟩
  · rcases ite_eq_iff.mp h with ⟨_, h⟩ | ⟨hne, h⟩
    · cases h
    · cases h
      subst hkey
      exact .send fun hnil => hne (List.isEmpty_iff.mpr hnil)
  rcases ite_eq_iff.mp h with ⟨hkey, h⟩ | ⟨_, h⟩
  · cases h
    subst hkey
    exact .show
  rcases ite_eq_iff.mp h with ⟨hkey, h⟩ | ⟨_, h⟩
  · rcases ite_eq_iff.mp h with ⟨_, h⟩ | ⟨hne, h⟩
    · cases h
    · cases h
      subst hkey
      exact .group fun hnil => hne (List.isEmpty_iff.mpr hnil)
  rcases ite_eq_iff.mp h with ⟨hkey, h⟩ | ⟨_, h⟩
  · obtain ⟨rfl, hne⟩ := oneWord_eq_some h
    subst hkey
    exact .add (hne rfl)
  cases h

/-- **The parser's commands are well formed.** -/
theorem create_wellFormed {input : Text} (h : CommandFactory.create junk input = some cmd)
    (h0 : 0 ∉ input) : cmd.WellFormed := by
  have hmakes := create_makes h
  have hrest : ∀ {ss : IStream}, 0 ∉ ss.rest → 0 ∉ (ss.word []).2.rest :=
    fun h0 hin => h0 (IStream.word_rest _ _ hin)
  have hss : 0 ∉ ((IStream.ofText input).word []).2.rest := hrest h0
  generalize ((IStream.ofText input).word []).1 = keyword at hmakes
  generalize ((IStream.ofText input).word []).2 = ss at hmakes hss
  cases hmakes with
  | login => exact ⟨word_isWord hss, word_isWord (hrest hss)⟩
  | register h₂ h₃ h₄ h₅ =>
    subst h₂ h₃ h₄ h₅
    exact ⟨word_isWord hss, word_isWord (hrest hss), word_isWord (hrest (hrest hss)),
      word_isWord (hrest (hrest (hrest hss))), word_isWord (hrest (hrest (hrest (hrest hss))))⟩
  | setProfileVisibility | friendRequest | acceptFriend | setFriendType => exact word_isWord hss
  | createPost => exact getline_isContent fun hin => hss (IStream.int_rest _ _ hin)
  | chat hne | add hne => exact ⟨word_isWord hss, hne⟩
  | send hne => exact ⟨getline_isContent hss, hne⟩
  | group hne =>
    refine ⟨hne, fun u hu => ?_⟩
    obtain ⟨hnil, hmem⟩ := IStream.mem_words hu
    exact ⟨fun b hb => ⟨(hmem b hb).1, fun heq => hss (heq ▸ (hmem b hb).2)⟩, hnil⟩
  | logout | listFriends | listFriendRequests | listPosts | chats | «open» | «show» => trivial

/-- The commands of a run are well formed. -/
theorem commandOf_wellFormed {x : Step LoopState Event} (h : commandOf x = some cmd) :
    cmd.WellFormed := by
  obtain ⟨s, e⟩ := x
  cases e with
  | accept fd => cases h
  | hangup i => cases h
  | recv i env data => exact create_wellFormed h (nul_not_mem_inputOf data)

end

end SocialNetwork.Server
