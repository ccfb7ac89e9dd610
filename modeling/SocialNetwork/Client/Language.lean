import SocialNetwork.Client.Forms
import SocialNetwork.Friends.FriendType
import SocialNetwork.Server.Texts

/-!
# The command language

Which commands a client can make the server execute, and how to say each of them.
`commandLine` writes a command as a chunk of bytes. `Sayable` lists what the parser's
extractions can produce: words may be missing only at the end, numbers are `int`s, free
text is one line, a friend type without a friend is whatever the variable held.

The two agree in both directions. Every sayable command is parsed back from its line
(`create_line`), and whatever bytes arrive, the command made of them is sayable
(`create_sayable`); so `commandLine` is a normal form of what clients send, and
`said_iff` says exactly what they can ask for.

Mirroring notes:
- `inputOf` cuts carriage returns off the end of a chunk but not off a line inside it, so
  a text that ends in one needs a second line behind it (`kept`).
- The uninitialised `type` of `set_friend_type` is an `int`, whatever it holds.
- Chunks are of any length here. A `read` of the server brings at most 1023 bytes, so a command
  whose line is longer than that is sayable and never said.
-/

namespace SocialNetwork.Client

open SocialNetwork.Lib SocialNetwork.Server

/-! ## Words in a row -/

/-- Words, each after a blank. -/
def spaced (ws : List Text) : Text := ws.flatMap fun w => 32 :: w

/-- If a word is missing, so are those after it. -/
def MissingLast (ws : List Text) : Prop := ws.Pairwise fun a b => a = [] → b = []

instance (ws : List Text) : Decidable (MissingLast ws) :=
  inferInstanceAs (Decidable (ws.Pairwise fun a b => a = [] → b = []))

theorem spaced_cons (w : Text) (ws : List Text) : spaced (w :: ws) = 32 :: (w ++ spaced ws) := rfl

/-- Nothing or a blank follows a word. -/
theorem spaced_head (ws : List Text) : ∀ b ∈ (spaced ws).head?, isSpace b = true := by
  intro b hb
  cases ws with
  | nil => cases hb
  | cons w ws =>
    rw [spaced_cons, List.head?_cons, Option.mem_some_iff] at hb
    subst hb
    rfl

/-- The words that are there come back. -/
theorem tokens_spaced {ws : List Text} (hws : ∀ w ∈ ws, IsWord w) :
    tokens (spaced ws) = ws.filter (!·.isEmpty) := by
  induction ws with
  | nil => rfl
  | cons w ws ih =>
    have hrest := ih fun v hv => hws v (List.mem_cons_of_mem _ hv)
    rw [spaced_cons, tokens_space_cons (by decide)]
    by_cases hw : w = []
    · subst hw
      exact hrest
    · rw [tokens_append hw (fun b hb => (hws w (List.mem_cons_self ..) b hb).1) (spaced_head ws),
        hrest, List.filter_cons_of_pos (by simpa using hw)]

/-- A line of a keyword and words. -/
theorem tokens_line {keyword : Text} {ws : List Text} (hne : keyword ≠ []) (hk : IsWord keyword)
    (hws : ∀ w ∈ ws, IsWord w) :
    tokens (keyword ++ spaced ws) = keyword :: ws.filter (!·.isEmpty) := by
  rw [tokens_append hne (fun b hb => (hk b hb).1) (spaced_head ws), tokens_spaced hws]

/-- Leaving out the words that are missing does not move the others. -/
theorem getD_filter {ws : List Text} (h : MissingLast ws) (n : Nat) :
    (ws.filter (!·.isEmpty)).getD n [] = ws.getD n [] := by
  induction ws generalizing n with
  | nil => rfl
  | cons w ws ih =>
    obtain ⟨hw, hws⟩ := List.pairwise_cons.mp h
    by_cases hnil : w = []
    · have hall : ∀ v ∈ w :: ws, v = [] := by
        intro v hv
        rcases List.mem_cons.mp hv with rfl | hv
        · exact hnil
        · exact hw v hv hnil
      have hnone : (w :: ws).filter (!·.isEmpty) = [] :=
        List.filter_eq_nil_iff.mpr fun v hv => by rw [hall v hv]; decide
      rw [hnone, List.getD_nil, List.getD_eq_getElem?_getD]
      cases hget : (w :: ws)[n]? with
      | none => rfl
      | some v => exact (hall v (List.mem_of_getElem? hget)).symm
    · rw [List.filter_cons_of_pos (by simpa using hnil)]
      cases n with
      | zero => rfl
      | succ n => exact ih hws n

/-- Words taken one by one from a list without empty words: only the last can be missing. -/
theorem getD_nil_of_le {ws : List Text} (hws : ∀ w ∈ ws, w ≠ []) {m n : Nat} (hle : m ≤ n)
    (h : ws.getD m [] = []) : ws.getD n [] = [] := by
  rw [List.getD_eq_getElem?_getD] at h ⊢
  by_cases hm : m < ws.length
  · rw [List.getElem?_eq_getElem hm] at h
    exact absurd h (hws _ (List.getElem_mem hm))
  · rw [List.getElem?_eq_none (by omega)]
    rfl

theorem headD_eq_getD (ws : List Text) : ws.headD [] = ws.getD 0 [] := by cases ws <;> rfl

theorem getD_tail (ws : List Text) (n : Nat) : ws.tail.getD n [] = ws.getD (n + 1) [] := by
  cases ws <;> rfl

/-- The words of a text are not empty. -/
theorem ne_nil_of_mem_tokens {t w : Text} (hw : w ∈ tokens t) : w ≠ [] := by
  have hkept := (List.mem_filter.mp hw).2
  rintro rfl
  cases hkept

/-! ## Commands as lines -/

/-- The text, kept from `inputOf`, which cuts a carriage return at the end of a chunk. -/
def kept (content : Text) : Text :=
  if content.getLast? = some 13 then content ++ bytes "\n." else content

/-- A command as a client says it. -/
def commandLine : Command → Text
  | .login username password => bytes "login" ++ spaced [username, password]
  | .register username password email role visibility =>
    bytes "register" ++ spaced [username, password, email, role, visibility]
  | .logout => bytes "logout"
  | .setProfileVisibility visibility => bytes "set_visibility" ++ spaced [visibility]
  | .friendRequest target => bytes "add_friend" ++ spaced [target]
  | .acceptFriend source => bytes "accept_friend" ++ spaced [source]
  | .listFriends => bytes "list_friends"
  | .setFriendType target type =>
    -- the number would be taken for the friend
    bytes "set_friend_type" ++ spaced [target, if target = [] then [] else intText type]
  | .listFriendRequests => bytes "list_friend_requests"
  | .createPost visibility content => CreatePost.command visibility (kept content)
  | .listPosts => bytes "list_posts"
  | .chats => bytes "chats"
  | .chat otherUser => bytes "chat" ++ spaced [otherUser]
  | .open conversationId => bytes "open" ++ spaced [intText conversationId]
  | .send content => (Call.send (kept content)).command
  | .show => bytes "show"
  | .group users => bytes "group" ++ spaced users
  | .add username => bytes "add" ++ spaced [username]

/-- An `int`. -/
def IsInt (n : Int) : Prop := intMin ≤ n ∧ n ≤ intMax

instance (n : Int) : Decidable (IsInt n) := inferInstanceAs (Decidable (_ ∧ _))

/-- What the order of the extractions leaves of the words and numbers of a command. -/
def Ordered (junk : Int) : Command → Prop
  | .login username password => MissingLast [username, password]
  | .register username password email role visibility =>
    MissingLast [username, password, email, role, visibility]
  | .setFriendType target type => IsInt type ∧ (target = [] → type = junk)
  | .createPost visibility _ => IsInt visibility
  | .open conversationId => IsInt conversationId
  | _ => True

/-- The commands a client can say: their texts are as the parser makes them, and what is
missing is missing at the end. -/
def Sayable (junk : Int) (cmd : Command) : Prop := cmd.WellFormed ∧ Ordered junk cmd

/-! ## What a line says -/

section

variable {junk : Int} {input : Text} {ws : List Text}

theorem say_login (h : tokens input = bytes "login" :: ws) :
    CommandFactory.create junk input = some (.login (ws.getD 0 []) (ws.getD 1 [])) := by
  obtain ⟨ss, hword, hleft⟩ := IStream.word_ofText h
  unfold CommandFactory.create
  rw [hword]
  show some (Command.login (ss.word []).1 ((ss.word []).2.word []).1) = _
  simp only [IStream.word_fst, IStream.word_left, hleft, headD_eq_getD, getD_tail]

theorem say_register (h : tokens input = bytes "register" :: ws) :
    CommandFactory.create junk input = some (.register (ws.getD 0 []) (ws.getD 1 [])
      (ws.getD 2 []) (ws.getD 3 []) (ws.getD 4 [])) := by
  obtain ⟨ss, hword, hleft⟩ := IStream.word_ofText h
  unfold CommandFactory.create
  rw [hword]
  let ss₂ := (ss.word []).2
  let ss₃ := (ss₂.word []).2
  let ss₄ := (ss₃.word []).2
  show some (Command.register (ss.word []).1 (ss₂.word []).1 (ss₃.word []).1 (ss₄.word []).1
    ((ss₄.word []).2.word []).1) = _
  simp only [IStream.word_fst, IStream.word_left, hleft, ss₂, ss₃, ss₄, headD_eq_getD, getD_tail]

/-- A command of one word. -/
theorem oneWord_left {ss : IStream} {required : Bool} {mk : Text → Command} (hleft : ss.left = ws)
    (hreq : required = true → ws.getD 0 [] ≠ []) :
    CommandFactory.oneWord ss required mk = some (mk (ws.getD 0 [])) := by
  unfold CommandFactory.oneWord
  dsimp only
  rw [IStream.word_fst, hleft, headD_eq_getD, if_neg]
  rw [Bool.and_eq_true, List.isEmpty_iff]
  exact fun hboth => hreq hboth.1 hboth.2

/-- The keywords that take one word and need not get it. -/
theorem say_optional {keyword : Text} {mk : Text → Command}
    (hkey : (keyword, mk) ∈ [(bytes "set_visibility", Command.setProfileVisibility),
      (bytes "add_friend", .friendRequest), (bytes "accept_friend", .acceptFriend)])
    (h : tokens input = keyword :: ws) :
    CommandFactory.create junk input = some (mk (ws.getD 0 [])) := by
  obtain ⟨ss, hword, hleft⟩ := IStream.word_ofText h
  have hone := @oneWord_left ws ss false mk hleft fun hreq => by cases hreq
  rw [← hone]
  unfold CommandFactory.create
  rw [hword]
  simp only [List.mem_cons, Prod.mk.injEq, List.not_mem_nil, or_false] at hkey
  rcases hkey with ⟨rfl, rfl⟩ | ⟨rfl, rfl⟩ | ⟨rfl, rfl⟩ <;> rfl

/-- The keywords that need their word. -/
theorem say_required {keyword : Text} {mk : Text → Command}
    (hkey : (keyword, mk) ∈ [(bytes "chat", Command.chat), (bytes "add", .add)])
    (h : tokens input = keyword :: ws) (hne : ws.getD 0 [] ≠ []) :
    CommandFactory.create junk input = some (mk (ws.getD 0 [])) := by
  obtain ⟨ss, hword, hleft⟩ := IStream.word_ofText h
  have hone := @oneWord_left ws ss true mk hleft fun _ => hne
  rw [← hone]
  unfold CommandFactory.create
  rw [hword]
  simp only [List.mem_cons, Prod.mk.injEq, List.not_mem_nil, or_false] at hkey
  rcases hkey with ⟨rfl, rfl⟩ | ⟨rfl, rfl⟩ <;> rfl

theorem say_open {n : Int} (hn : IsInt n) :
    CommandFactory.create junk (bytes "open" ++ spaced [intText n]) = some (.open n) := by
  rw [spaced_cons]
  unfold CommandFactory.create
  rw [IStream.word_append _ _ (by decide) (by decide)]
  show (if ((IStream.mk (32 :: (intText n ++ [])) false false).int junk).2.fail then none
    else some (Command.open ((IStream.mk (32 :: (intText n ++ [])) false false).int junk).1)) = _
  rw [IStream.int_intText hn [] (by intro b hb; cases hb)]
  rfl

theorem say_group (h : tokens input = bytes "group" :: ws) (hne : ws ≠ []) :
    CommandFactory.create junk input = some (.group ws) := by
  obtain ⟨ss, hword, hleft⟩ := IStream.word_ofText h
  unfold CommandFactory.create
  rw [hword]
  show (if ss.words.isEmpty then none else some (Command.group ss.words)) = _
  rw [IStream.words_eq, hleft, if_neg (by simpa using hne)]

theorem say_send {text : Text} (hne : text.takeWhile (· != 10) ≠ []) :
    CommandFactory.create junk (Call.send text).command =
      some (.send (text.takeWhile (· != 10))) := by
  show CommandFactory.create junk (bytes "send" ++ 32 :: text) = _
  unfold CommandFactory.create
  rw [IStream.word_append _ _ (by decide) (by decide)]
  show (if (CommandFactory.dropBlank (IStream.mk (32 :: text) false false).getline.1).isEmpty then
      none
    else some (Command.send (CommandFactory.dropBlank
      (IStream.mk (32 :: text) false false).getline.1))) = _
  rw [getline_text, if_neg (by simpa using hne)]

end

/-! ## Every sayable command has its line -/

/-- The second line is not part of the text. -/
theorem takeWhile_kept {content : Text} (h : IsContent content) :
    (kept content).takeWhile (· != 10) = content := by
  have hline : ∀ b ∈ content, (b != 10) = true := by
    intro b hb
    rw [bne_iff_ne]
    exact (h b hb).1
  unfold kept
  split
  · refine takeWhile_append_stop hline fun b hb => ?_
    rw [show (bytes "\n.").head? = some 10 from rfl, Option.mem_some_iff] at hb
    subst hb
    rfl
  · rw [List.takeWhile_eq_self_iff]
    exact hline

section

variable {junk : Int} {w : Text}

theorem optional_line {keyword : Text} {mk : Text → Command}
    (hkey : (keyword, mk) ∈ [(bytes "set_visibility", Command.setProfileVisibility),
      (bytes "add_friend", .friendRequest), (bytes "accept_friend", .acceptFriend)])
    (hw : IsWord w) : CommandFactory.create junk (keyword ++ spaced [w]) = some (mk w) := by
  have hk : keyword ≠ [] ∧ IsWord keyword := by
    simp only [List.mem_cons, Prod.mk.injEq, List.not_mem_nil, or_false] at hkey
    rcases hkey with ⟨rfl, _⟩ | ⟨rfl, _⟩ | ⟨rfl, _⟩ <;> decide
  rw [say_optional hkey (tokens_line hk.1 hk.2 (List.forall_mem_singleton.mpr hw)),
    getD_filter (List.pairwise_singleton _ _)]
  rfl

theorem required_line {keyword : Text} {mk : Text → Command}
    (hkey : (keyword, mk) ∈ [(bytes "chat", Command.chat), (bytes "add", .add)])
    (hw : IsWord w ∧ w ≠ []) :
    CommandFactory.create junk (keyword ++ spaced [w]) = some (mk w) := by
  have hk : keyword ≠ [] ∧ IsWord keyword := by
    simp only [List.mem_cons, Prod.mk.injEq, List.not_mem_nil, or_false] at hkey
    rcases hkey with ⟨rfl, _⟩ | ⟨rfl, _⟩ <;> decide
  have hget := getD_filter (List.pairwise_singleton (fun a b : Text => a = [] → b = []) w) 0
  rw [say_required hkey (tokens_line hk.1 hk.2 (List.forall_mem_singleton.mpr hw.1)), hget]
  · rfl
  · rw [hget]
    exact hw.2

theorem isWord_intText (n : Int) : IsWord (intText n) := by
  intro b hb
  rcases mem_intText hb with rfl | hdigit
  · decide
  · refine ⟨isSpace_of_isDigit hdigit, ?_⟩
    rintro rfl
    cases hdigit

/-- A friend type comes with its friend, or not at all. -/
theorem friendType_line {n : Int} (hw : IsWord w) (hn : IsInt n) (hjunk : w = [] → n = junk) :
    CommandFactory.create junk (commandLine (.setFriendType w n)) = some (.setFriendType w n) := by
  have hline : ∀ x, IsWord x → tokens (bytes "set_friend_type" ++ spaced [w, x]) =
      bytes "set_friend_type" :: [w, x].filter (!·.isEmpty) := by
    intro x hx
    refine tokens_line (by decide) (by decide) fun v hv => ?_
    simp only [List.mem_cons, List.not_mem_nil, or_false] at hv
    rcases hv with rfl | rfl <;> assumption
  show CommandFactory.create junk
    (bytes "set_friend_type" ++ spaced [w, if w = [] then [] else intText n]) = _
  by_cases hnil : w = []
  · -- neither word is there
    subst hnil
    have htokens := hline [] hw
    rw [if_pos rfl, create_friendType junk (by rw [htokens]; rfl), hjunk rfl]
    unfold userArgument typeArgument
    rw [htokens]
    rfl
  · have htokens := hline (intText n) (isWord_intText n)
    have hkept : [w, intText n].filter (!·.isEmpty) = [w, intText n] := by
      obtain ⟨b, ds, heq, _⟩ := intText_cons n
      rw [List.filter_cons_of_pos (by simpa using hnil), List.filter_cons_of_pos (by simp [heq])]
      rfl
    rw [hkept] at htokens
    rw [if_neg hnil, create_friendType junk (by rw [htokens]; rfl)]
    unfold userArgument typeArgument
    rw [htokens]
    show some (Command.setFriendType w (numberOf (intText n))) = _
    rw [IStream.numberOf_intText hn]

end

/-- **Every sayable command is parsed back from its line.** -/
theorem create_line {junk : Int} {cmd : Command} (h : Sayable junk cmd) :
    CommandFactory.create junk (commandLine cmd) = some cmd := by
  obtain ⟨hwell, hord⟩ := h
  cases cmd with
  | login u p =>
    have hws : ∀ w ∈ [u, p], IsWord w := by
      simp only [List.forall_mem_cons]
      exact ⟨hwell.1, hwell.2, fun w hw => by cases hw⟩
    rw [commandLine, say_login (tokens_line (by decide) (by decide) hws),
      getD_filter hord, getD_filter hord]
    rfl
  | register u p e r v =>
    have hws : ∀ w ∈ [u, p, e, r, v], IsWord w := by
      simp only [List.forall_mem_cons]
      exact ⟨hwell.1, hwell.2.1, hwell.2.2.1, hwell.2.2.2.1, hwell.2.2.2.2, fun w hw => by cases hw⟩
    rw [commandLine, say_register (tokens_line (by decide) (by decide) hws)]
    simp only [getD_filter hord]
    rfl
  | logout => rfl
  | setProfileVisibility w =>
    exact optional_line (by simp) hwell
  | friendRequest w => exact optional_line (by simp) hwell
  | acceptFriend w => exact optional_line (by simp) hwell
  | listFriends => rfl
  | setFriendType u n => exact friendType_line hwell hord.1 hord.2
  | listFriendRequests => rfl
  | createPost v content =>
    rw [commandLine, create_createPost hord, takeWhile_kept hwell]
  | listPosts => rfl
  | chats => rfl
  | chat w => exact required_line (by simp) hwell
  | «open» n => exact say_open hord
  | send content =>
    rw [commandLine, say_send, takeWhile_kept hwell.1]
    rw [takeWhile_kept hwell.1]
    exact hwell.2
  | «show» => rfl
  | group us =>
    have hall : us.filter (!·.isEmpty) = us :=
      List.filter_eq_self.mpr fun u hu => by simpa using (hwell.2 u hu).2
    rw [commandLine, say_group _ hwell.1]
    rw [tokens_line (by decide) (by decide) fun u hu => (hwell.2 u hu).1, hall]
  | add w => exact required_line (by simp) hwell

/-! ## A line is an input -/

/-- What the server takes for its input as it is: no NUL, no line end to cut off. -/
def IsInput (t : Text) : Prop := 0 ∉ t ∧ ∀ b ∈ t.getLast?, isLineEnd b = false

theorem inputOf_of_isInput {t : Text} (h : IsInput t) : inputOf t = t := by
  rw [inputOf_of_nul h.1]
  show (t.reverse.dropWhile isLineEnd).reverse = t
  cases hrev : t.reverse with
  | nil => rw [List.reverse_eq_nil_iff.mp hrev]; rfl
  | cons b rest =>
    have hlast : t.getLast? = some b := by rw [← List.head?_reverse, hrev]; rfl
    rw [List.dropWhile_cons_of_neg (by simp [h.2 b hlast]), ← hrev, List.reverse_reverse]

/-- A keyword and words have blanks at most. -/
theorem isInput_words {keyword : Text} {ws : List Text} (hk : IsWord keyword)
    (hws : ∀ w ∈ ws, IsWord w) : IsInput (keyword ++ spaced ws) := by
  have hbyte : ∀ b ∈ keyword ++ spaced ws, b ≠ 0 ∧ isLineEnd b = false := by
    have hword : ∀ w, IsWord w → ∀ b ∈ w, b ≠ 0 ∧ isLineEnd b = false := fun w hw b hb =>
      ⟨(hw b hb).2, isLineEnd_of_not_isSpace (hw b hb).1⟩
    intro b hb
    rcases List.mem_append.mp hb with hb | hb
    · exact hword keyword hk b hb
    · obtain ⟨w, hw, hb⟩ := List.mem_flatMap.mp hb
      rcases List.mem_cons.mp hb with rfl | hb
      · decide
      · exact hword w (hws w hw) b hb
  exact ⟨fun h0 => (hbyte 0 h0).1 rfl, fun b hb => (hbyte b (List.mem_of_getLast? hb)).2⟩

theorem isInput_bare {keyword : Text} (hk : IsWord keyword) : IsInput keyword := by
  have hnone : ∀ w ∈ ([] : List Text), IsWord w := List.forall_mem_nil _
  have hwords := isInput_words hk hnone
  rwa [show spaced [] = [] from rfl, List.append_nil] at hwords

/-- Text at the end of a line, after a blank. -/
theorem isInput_kept {pre content : Text} (hpre : 0 ∉ pre) (h : IsContent content) :
    IsInput (pre ++ 32 :: kept content) := by
  have hkept : 0 ∉ kept content ∧ ∀ b ∈ (kept content).getLast?, isLineEnd b = false := by
    unfold kept
    split
    next hcr =>
      refine ⟨?_, ?_⟩
      · rw [List.mem_append, not_or]
        exact ⟨fun h0 => (h 0 h0).2 rfl, by decide⟩
      · intro b hb
        rw [List.getLast?_append_of_ne_nil _ (by decide),
          show (bytes "\n.").getLast? = some 46 from rfl, Option.mem_some_iff] at hb
        subst hb
        rfl
    next hcr =>
      refine ⟨fun h0 => (h 0 h0).2 rfl, fun b hb => ?_⟩
      unfold isLineEnd
      rw [Bool.or_eq_false_iff, beq_eq_false_iff_ne, beq_eq_false_iff_ne]
      refine ⟨(h b (List.mem_of_getLast? hb)).1, ?_⟩
      rintro rfl
      exact hcr hb
  refine ⟨?_, fun b hb => ?_⟩
  · rw [List.mem_append, List.mem_cons, not_or, not_or]
    exact ⟨hpre, by decide, hkept.1⟩
  · rw [List.getLast?_append_of_ne_nil _ (List.cons_ne_nil _ _), List.getLast?_cons,
      Option.mem_some_iff] at hb
    cases hlast : (kept content).getLast? with
    | none =>
      rw [hlast] at hb
      subst hb
      rfl
    | some c =>
      rw [hlast] at hb
      subst hb
      exact hkept.2 c hlast

/-- **The line of a sayable command is the server's input when it arrives in one read.** -/
theorem isInput_line {junk : Int} {cmd : Command} (h : Sayable junk cmd) :
    IsInput (commandLine cmd) := by
  obtain ⟨hwell, -⟩ := h
  have hone : ∀ {keyword w : Text}, IsWord keyword → IsWord w → IsInput (keyword ++ spaced [w]) :=
    fun hk hw => isInput_words hk (List.forall_mem_singleton.mpr hw)
  cases cmd with
  | login u p =>
    refine isInput_words (by decide) ?_
    simp only [List.forall_mem_cons]
    exact ⟨hwell.1, hwell.2, fun w hw => by cases hw⟩
  | register u p e r v =>
    refine isInput_words (by decide) ?_
    simp only [List.forall_mem_cons]
    exact ⟨hwell.1, hwell.2.1, hwell.2.2.1, hwell.2.2.2.1, hwell.2.2.2.2, fun w hw => by cases hw⟩
  | setProfileVisibility w => exact hone (by decide) hwell
  | friendRequest w => exact hone (by decide) hwell
  | acceptFriend w => exact hone (by decide) hwell
  | setFriendType u n =>
    refine isInput_words (by decide) ?_
    simp only [List.forall_mem_cons]
    refine ⟨hwell, ?_, fun w hw => by cases hw⟩
    split
    · decide
    · exact isWord_intText n
  | createPost v content =>
    show IsInput (bytes "create_post " ++ intText v ++ [32] ++ kept content)
    rw [List.append_assoc, List.singleton_append]
    refine isInput_kept ?_ hwell
    rw [List.mem_append, not_or]
    exact ⟨by decide, nul_not_mem_word (isWord_intText v)⟩
  | chat w => exact hone (by decide) hwell.1
  | «open» n => exact hone (by decide) (isWord_intText n)
  | send content => exact @isInput_kept (bytes "send") content (by decide) hwell.1
  | group us => exact isInput_words (by decide) fun u hu => (hwell.2 u hu).1
  | add w => exact hone (by decide) hwell.1
  | logout => exact isInput_bare (by decide)
  | listFriends => exact isInput_bare (by decide)
  | listFriendRequests => exact isInput_bare (by decide)
  | listPosts => exact isInput_bare (by decide)
  | chats => exact isInput_bare (by decide)
  | «show» => exact isInput_bare (by decide)

/-! ## Nothing else can be said -/

/-- An extracted number is an `int` if the variable held one. -/
theorem int_isInt {ss : IStream} {old : Int} (h : IsInt old) : IsInt (ss.int old).1 := by
  unfold IStream.int
  split
  next => exact h
  next => exact IStream.intValue_fits _ _

/-- The words a text starts with, as far as it has them. -/
theorem missingLast_getD {ws : List Text} (hws : ∀ w ∈ ws, w ≠ []) (n : Nat) :
    MissingLast ((List.range n).map fun i => ws.getD i []) := by
  unfold MissingLast
  rw [List.pairwise_map]
  exact List.pairwise_lt_range.imp fun hlt hnil => getD_nil_of_le hws hlt.le hnil

/-- Without a friend nothing is left for the number. -/
theorem friendType_ordered {junk : Int} (hjunk : IsInt junk) {ss : IStream}
    (hne : ∀ w ∈ ss.left, w ≠ []) :
    Ordered junk (.setFriendType (ss.word []).1 ((ss.word []).2.int junk).1) := by
  refine ⟨int_isInt hjunk, fun hnil => ?_⟩
  rw [IStream.word_fst, headD_eq_getD] at hnil
  have hempty : ss.left = [] := by
    cases hleft : ss.left with
    | nil => rfl
    | cons w ws =>
      rw [hleft] at hnil hne
      exact absurd hnil (hne w (List.mem_cons_self ..))
  rw [IStream.int_fst, IStream.word_left, hempty]
  rfl

/-- The order of the extractions. -/
theorem create_ordered {junk : Int} (hjunk : IsInt junk) {input : Text} {cmd : Command}
    (h : CommandFactory.create junk input = some cmd) : Ordered junk cmd := by
  have hmakes := create_makes h
  have hne : ∀ w ∈ ((IStream.ofText input).word []).2.left, w ≠ [] := by
    intro w hw
    rw [IStream.word_left, IStream.left_ofText] at hw
    exact ne_nil_of_mem_tokens (List.mem_of_mem_tail hw)
  generalize ((IStream.ofText input).word []).1 = keyword at hmakes
  generalize ((IStream.ofText input).word []).2 = ss at hmakes hne
  -- the words taken from the stream, in their order
  have hmissing := fun n => missingLast_getD hne n
  cases hmakes with
  | login =>
    show MissingLast [(ss.word []).1, ((ss.word []).2.word []).1]
    simp only [IStream.word_fst, IStream.word_left, headD_eq_getD, getD_tail]
    exact hmissing 2
  | @register ss₂ ss₃ ss₄ ss₅ h₂ h₃ h₄ h₅ =>
    show MissingLast [(ss.word []).1, (ss₂.word []).1, (ss₃.word []).1, (ss₄.word []).1,
      (ss₅.word []).1]
    simp only [h₂, h₃, h₄, h₅, IStream.word_fst, IStream.word_left, headD_eq_getD, getD_tail]
    exact hmissing 5
  | setFriendType => exact friendType_ordered hjunk hne
  | createPost | «open» => exact int_isInt hjunk
  | _ => trivial

/-- **Whatever bytes arrive, the command made of them is sayable.** -/
theorem create_sayable {junk : Int} (hjunk : IsInt junk) {input : Text} {cmd : Command}
    (h0 : 0 ∉ input) (h : CommandFactory.create junk input = some cmd) : Sayable junk cmd :=
  ⟨create_wellFormed h h0, create_ordered hjunk h⟩

/-- **What clients can say**, in chunks of any length (a `read` brings at most 1023 bytes). The
server can be made to execute a command exactly if it is sayable, and then its line does it. -/
theorem said_iff {junk : Int} (hjunk : IsInt junk) (cmd : Command) :
    ((∃ data, CommandFactory.create junk (inputOf data) = some cmd) ↔ Sayable junk cmd) ∧
      (Sayable junk cmd → CommandFactory.create junk (inputOf (commandLine cmd)) = some cmd) := by
  have hline : Sayable junk cmd →
      CommandFactory.create junk (inputOf (commandLine cmd)) = some cmd := by
    intro hsay
    rw [inputOf_of_isInput (isInput_line hsay)]
    exact create_line hsay
  refine ⟨⟨?_, fun hsay => ⟨_, hline hsay⟩⟩, hline⟩
  rintro ⟨data, hdata⟩
  exact create_sayable hjunk (nul_not_mem_inputOf data) hdata

/-- A message that ends in a carriage return can be said, in a chunk of two lines. -/
theorem said_iff_return :
    CommandFactory.create 7 (inputOf (bytes "send hi\r\n.")) = some (.send (bytes "hi\r")) := by
  have hsay : Sayable 7 (.send (bytes "hi\r")) :=
    ⟨⟨(by decide : IsContent (bytes "hi\r")), by decide⟩, trivial⟩
  exact (said_iff (by decide : IsInt 7) _).2 hsay

/-- A password cannot be sent without a name. -/
example : ¬Sayable 7 (.login [] (bytes "secret")) := by
  intro h
  have hmissing : MissingLast [[], bytes "secret"] := h.2
  revert hmissing
  decide

end SocialNetwork.Client
