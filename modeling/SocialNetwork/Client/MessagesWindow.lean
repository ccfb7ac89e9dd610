import SocialNetwork.Client.NetworkClient
import SocialNetwork.Lib.Decimal

/-!
# `MessagesWindow`

The state of the window, its parser of the `chats` response, and its slot functions.

A slot function blocks in `sendCommand` once or twice. It is therefore cut at these
calls: `Call` names every call the window makes, `start` is what a slot function does
before its first call, `resume` what it does with the response. The label texts are
modelled as bytes; fonts, layout and the input field, whose trimmed text `send` is given,
are left out.

Mirroring notes:
- `std::string::find` results go through an `int`; `-1` compares equal to `npos`.
- An exception in a slot function ends the program (`Phase.crashed`).
-/

namespace SocialNetwork.Client

open SocialNetwork.Lib SocialNetwork.Server

/-! ## The conversation list -/

/-- A `QListWidgetItem` with its `UserRole` data. -/
structure Item where
  displayText : Text
  conversationId : Int
  deriving DecidableEq, Repr

/-- What the parser makes of a line. -/
inductive Parsed
  | skipped
  | item (i : Item)
  | thrown
  deriving DecidableEq, Repr

/-- `line.substr(l + 1, r - l - 1)`: a negative length means up to the end. -/
def between (line : Text) (l r : Nat) : Text :=
  if l < r then (line.drop (l + 1)).take (r - l - 1) else line.drop (l + 1)

/-- The label of a conversation: private if the names have exactly one comma. -/
def displayText (users : Text) : Text :=
  if 1 + users.count 44 = 2 then bytes "💬 " ++ users else bytes "👥 Group\n" ++ users

/-- The body of the loop in `loadConversations`. -/
def parseLine (line : Text) : Parsed :=
  if line.isEmpty then .skipped
  else
    match line.idxOf? 91, line.idxOf? 93 with
    | some l, some r =>
      match stoi (between line l r) with
      -- `stoi` throws `invalid_argument` or `out_of_range`
      | none => .thrown
      | some conversationId =>
        -- `substr` throws `out_of_range` past the end
        if line.length < r + 2 then .thrown
        else .item ⟨displayText (line.drop (r + 2)), conversationId⟩
    | _, _ => .skipped

/-- The loop in `loadConversations`; `none` is an exception. -/
def loadLines : List Text → Option (List Item)
  | [] => some []
  | line :: rest =>
    match parseLine line with
    | .skipped => loadLines rest
    | .item i => (loadLines rest).map (i :: ·)
    | .thrown => none

/-- The items `loadConversations` makes of the response. -/
def loadConversations (response : Text) : Option (List Item) := loadLines (lines response)

/-! ## The window -/

structure MessagesWindow where
  conversationsList : List Item
  messagesView : List Text
  currentConversationId : Int

/-- The members when the constructor calls `loadConversations`. -/
def MessagesWindow.fresh : MessagesWindow := ⟨[], [], -1⟩

/-- The calls of `sendCommand`, by the function that makes them: `loadConversations`,
`onConversationClicked`, `loadMessages`, the two of `onSendClicked`, `onNewChatClicked`
and `onNewGroupClicked`. -/
inductive Call
  | chats
  | open (conversationId : Int)
  | load
  | send (text : Text)
  | reload
  | chat (user : Text)
  | group (users : Text)
  deriving DecidableEq, Repr

def Call.command : Call → Text
  | .chats => bytes "chats"
  | .open conversationId => bytes "open " ++ intText conversationId
  | .load => bytes "show"
  | .send text => bytes "send " ++ text
  | .reload => bytes "show"
  | .chat user => bytes "chat " ++ user
  | .group users => bytes "group " ++ users

/-- Where the window's code is. -/
inductive Phase
  | idle
  | calling (c : Call)
  | awaiting (c : Call)
  | crashed
  deriving DecidableEq, Repr

/-- What the user or the timer does: click the item in a row, send the trimmed text of the
input field, accept a dialog with a text, let the refresh timer expire. -/
inductive Action
  | click (row : Nat)
  | send (text : Text)
  | newChat (user : Text)
  | newGroup (users : Text)
  | timeout
  deriving DecidableEq, Repr

namespace MessagesWindow

variable (w : MessagesWindow)

/-- Where `loadMessages` gets to before its call. -/
def loadMessages : Phase := if w.currentConversationId = -1 then .idle else .calling .load

/-- A slot function up to its first call. -/
def start : Action → MessagesWindow × Phase
  | .click row =>
    match w.conversationsList[row]? with
    | none => (w, .idle)
    | some item =>
      ({ w with currentConversationId := item.conversationId },
        .calling (.open item.conversationId))
  | .send text => (w, if text.isEmpty then .idle else .calling (.send text))
  | .newChat user => (w, if user.isEmpty then .idle else .calling (.chat user))
  | .newGroup users => (w, if users.isEmpty then .idle else .calling (.group users))
  | .timeout => (w, w.loadMessages)

/-- A slot function from the return of a call to the next call, or to its end. -/
def resume (c : Call) (response : Text) : MessagesWindow × Phase :=
  match c with
  | .chats =>
    match loadConversations response with
    | none => ({ w with conversationsList := [] }, .crashed)
    | some items => ({ w with conversationsList := items }, .idle)
  | .open _ => (w, w.loadMessages)
  | .load => ({ w with messagesView := lines response }, .idle)
  | .send _ =>
    if contains (bytes "OK") response then (w, .calling .reload)
    else
      ({ w with messagesView := w.messagesView ++ [bytes "⚠️ Failed to send message"] }, .idle)
  | .reload => ({ w with messagesView := lines response }, .idle)
  | .chat _ => (w, .calling .chats)
  | .group _ => (w, .calling .chats)

end MessagesWindow

/-! ## What the slot functions do to the selection -/

/-- No command is under way, and none is about to be that opens a conversation. -/
def Phase.isQuiet : Phase → Bool
  | .idle => true
  | .calling (.open _) => false
  | .calling _ => true
  | .awaiting _ => false
  | .crashed => true

section

variable {w : MessagesWindow}

theorem loadMessages_quiet : w.loadMessages.isQuiet = true := by
  unfold MessagesWindow.loadMessages
  split
  · rfl
  · rfl

/-- **Only a click moves the selection**, and it goes on to tell the server. -/
theorem start_cases (a : Action) :
    (∃ row item, a = .click row ∧ w.conversationsList[row]? = some item ∧
        w.start a = ({ w with currentConversationId := item.conversationId },
          .calling (.open item.conversationId))) ∨
      ((w.start a).1 = w ∧ (w.start a).2.isQuiet = true) := by
  cases a with
  | click row =>
    cases hrow : w.conversationsList[row]? with
    | none =>
      right
      simp only [MessagesWindow.start, hrow]
      exact ⟨trivial, rfl⟩
    | some item =>
      left
      refine ⟨row, item, rfl, hrow, ?_⟩
      simp only [MessagesWindow.start, hrow]
  | timeout => exact Or.inr ⟨rfl, loadMessages_quiet⟩
  | _ =>
    right
    refine ⟨rfl, ?_⟩
    dsimp only [MessagesWindow.start]
    split
    · rfl
    · rfl

/-- **No response moves the selection.** -/
theorem resume_selection (c : Call) (response : Text) :
    (w.resume c response).1.currentConversationId = w.currentConversationId ∧
      (w.resume c response).2.isQuiet = true := by
  cases c with
  | chats =>
    dsimp only [MessagesWindow.resume]
    split
    · exact ⟨rfl, rfl⟩
    · exact ⟨rfl, rfl⟩
  | «open» conversationId => exact ⟨rfl, loadMessages_quiet⟩
  | send text =>
    dsimp only [MessagesWindow.resume]
    split
    · exact ⟨rfl, rfl⟩
    · exact ⟨rfl, rfl⟩
  | _ => exact ⟨rfl, rfl⟩

end

/-- `std::stoi` returns an `int`. -/
theorem stoi_fits {s : Text} {n : Int} (h : stoi s = some n) : intMin ≤ n ∧ n ≤ intMax := by
  unfold stoi at h
  dsimp only at h
  split at h
  next => cases h
  next =>
    rw [Option.some.injEq] at h
    subst h
    exact IStream.intValue_fits _ _

/-- The ids of the items are `int`s. -/
theorem loadLines_fits : ∀ {ls : List Text} {items : List Item}, loadLines ls = some items →
    ∀ i ∈ items, intMin ≤ i.conversationId ∧ i.conversationId ≤ intMax
  | [], items, h => by
    rw [loadLines, Option.some.injEq] at h
    subst h
    simp
  | line :: rest, items, h => by
    rw [loadLines] at h
    split at h
    next => exact loadLines_fits h
    next i hi =>
      obtain ⟨more, hmore, rfl⟩ := Option.map_eq_some_iff.mp h
      intro j hj
      rcases List.mem_cons.mp hj with rfl | hj
      · unfold parseLine at hi
        split at hi
        next => cases hi
        next =>
          split at hi
          next =>
            split at hi
            next => cases hi
            next n hn =>
              split at hi
              next => cases hi
              next =>
                rw [Parsed.item.injEq] at hi
                subst hi
                exact stoi_fits hn
          next => cases hi
      · exact loadLines_fits hmore j hj
    next => cases h

/-- A byte is found right after a text that does not contain it. -/
theorem idxOf?_append_cons {b : UInt8} (rest : Text) : ∀ {t : Text}, b ∉ t →
    (t ++ b :: rest).idxOf? b = some t.length
  | [], _ => by simp [List.idxOf?_cons]
  | a :: t, h => by
    rw [List.mem_cons, not_or] at h
    rw [List.cons_append, List.idxOf?_cons, if_neg (by simpa using Ne.symm h.1),
      idxOf?_append_cons rest h.2]
    rfl

/-- What follows a byte after a start. -/
theorem drop_after (pre : Text) (b : UInt8) (t : Text) (n : Nat) :
    (pre ++ b :: t).drop (pre.length + 1 + n) = t.drop n := by
  rw [Nat.add_assoc, List.drop_length_add_append, Nat.add_comm 1 n, List.drop_succ_cons]

/-- **A line whose brackets are in order**: the id is the number between them, and one byte
after them is dropped, which must be there. -/
theorem parseLine_bracketed {pre id : Text} (rest : Text) (hpre : 91 ∉ pre ∧ 93 ∉ pre)
    (hid : 93 ∉ id) :
    parseLine (pre ++ 91 :: (id ++ 93 :: rest)) =
      match stoi id with
      | none => .thrown
      | some n => if rest.isEmpty then .thrown else .item ⟨displayText (rest.drop 1), n⟩ := by
  have hleft : (pre ++ 91 :: (id ++ 93 :: rest)).idxOf? 91 = some pre.length :=
    idxOf?_append_cons _ hpre.1
  have hlength : (pre ++ 91 :: id).length = pre.length + 1 + id.length := by
    simp
    omega
  have hline : pre ++ 91 :: (id ++ 93 :: rest) = (pre ++ 91 :: id) ++ 93 :: rest := by simp
  have hright : (pre ++ 91 :: (id ++ 93 :: rest)).idxOf? 93 =
      some (pre.length + 1 + id.length) := by
    rw [hline, idxOf?_append_cons _ (by simp [hpre.2, hid]), hlength]
  have hbetween : between (pre ++ 91 :: (id ++ 93 :: rest)) pre.length
      (pre.length + 1 + id.length) = id := by
    unfold between
    rw [if_pos (by omega), drop_after pre 91 _ 0, List.drop_zero,
      show pre.length + 1 + id.length - pre.length - 1 = id.length by omega, List.take_left]
  have husers : (pre ++ 91 :: (id ++ 93 :: rest)).drop (pre.length + 1 + id.length + 2) =
      rest.drop 1 := by
    rw [hline, ← hlength]
    exact drop_after _ 93 rest 1
  unfold parseLine
  rw [hleft, hright, if_neg (by simp)]
  dsimp only
  rw [hbetween, husers]
  cases stoi id with
  | none => rfl
  | some n =>
    dsimp only
    cases rest with
    | nil =>
      rw [if_pos (by simp; omega)]
      rfl
    | cons b rest =>
      rw [if_neg (by simp; omega)]
      rfl

/-- **A line whose brackets are reversed**: the length of the number is negative, so it is
read from the rest of the line. -/
theorem parseLine_reversed {pre mid : Text} (rest : Text) (hpre : 91 ∉ pre ∧ 93 ∉ pre)
    (hmid : 91 ∉ mid) :
    parseLine (pre ++ 93 :: (mid ++ 91 :: rest)) =
      match stoi rest with
      | none => .thrown
      | some n => .item ⟨displayText ((mid ++ 91 :: rest).drop 1), n⟩ := by
  have hright : (pre ++ 93 :: (mid ++ 91 :: rest)).idxOf? 93 = some pre.length :=
    idxOf?_append_cons _ hpre.2
  have hlength : (pre ++ 93 :: mid).length = pre.length + 1 + mid.length := by
    simp
    omega
  have hline : pre ++ 93 :: (mid ++ 91 :: rest) = (pre ++ 93 :: mid) ++ 91 :: rest := by simp
  have hleft : (pre ++ 93 :: (mid ++ 91 :: rest)).idxOf? 91 =
      some (pre.length + 1 + mid.length) := by
    rw [hline, idxOf?_append_cons _ (by simp [hpre.1, hmid]), hlength]
  have hbetween : between (pre ++ 93 :: (mid ++ 91 :: rest)) (pre.length + 1 + mid.length)
      pre.length = rest := by
    unfold between
    rw [if_neg (by omega), hline, ← hlength]
    exact drop_after _ 91 rest 0
  have husers : (pre ++ 93 :: (mid ++ 91 :: rest)).drop (pre.length + 2) =
      (mid ++ 91 :: rest).drop 1 := drop_after pre 93 _ 1
  unfold parseLine
  rw [hleft, hright, if_neg (by simp)]
  dsimp only
  rw [hbetween, husers]
  cases stoi rest with
  | none => rfl
  | some n =>
    dsimp only
    rw [if_neg]
    rw [List.length_append, List.length_cons, List.length_append, List.length_cons]
    omega

/-- **The line the server writes for a conversation is shown under its id.** -/
theorem parseLine_chats {c : Int} (h : intMin ≤ c ∧ c ≤ intMax) (names : Text) :
    parseLine (bytes "[" ++ intText c ++ bytes "] " ++ names) =
      .item ⟨displayText names, c⟩ := by
  have hline : bytes "[" ++ intText c ++ bytes "] " ++ names =
      [] ++ 91 :: (intText c ++ 93 :: 32 :: names) := by
    simp [show bytes "[" = [91] from rfl, show bytes "] " = [93, 32] from rfl]
  rw [hline, parseLine_bracketed _ (by simp) (not_mem_intText (by decide) (by decide) c),
    stoi_printed h]
  rfl

/-! ## What the server makes of the calls -/

section

variable (junk : Int)

/-- The server's parser on a keyword, a blank and whatever the window put after it. -/
theorem create_keyword {w : Text} (hw : w.all isInner = true) (text : Text) :
    ∃ rest, CommandFactory.create junk (inputOf (fullCmd (w ++ bytes " " ++ text))) =
      CommandFactory.create junk (w ++ 32 :: rest) := by
  obtain ⟨rest, hrest⟩ := fullCmd_append (w ++ bytes " ") text
  refine ⟨inputOf rest, ?_⟩
  have hinner : ∀ b ∈ w ++ bytes " ", isInner b = true := by
    intro b hb
    rcases List.mem_append.mp hb with hb | hb
    · exact List.all_eq_true.mp hw b hb
    · rw [show bytes " " = [32] from rfl, List.mem_singleton] at hb
      subst hb
      rfl
  rw [hrest, inputOf_append hinner, List.append_assoc]
  rfl

theorem create_chats :
    CommandFactory.create junk (inputOf (fullCmd Call.chats.command)) = some .chats := rfl

theorem create_show :
    CommandFactory.create junk (inputOf (fullCmd Call.load.command)) = some .show := rfl

/-- **The id a click sends is the id the server opens.** -/
theorem create_open {id : Int} (h : intMin ≤ id ∧ id ≤ intMax) :
    CommandFactory.create junk (inputOf (fullCmd (Call.open id).command)) = some (.open id) := by
  have hinner : ∀ b ∈ bytes "open " ++ intText id, isInner b = true := by
    intro b hb
    rcases List.mem_append.mp hb with hb | hb
    · exact List.all_eq_true.mp (by decide : (bytes "open ").all isInner = true) b hb
    · rw [isInner_iff]
      refine ⟨?_, ?_, ?_⟩ <;>
      · intro heq
        subst heq
        exact not_mem_intText (by decide) (by decide) id hb
  have hlast : fullCmd (bytes "open " ++ intText id) = bytes "open " ++ intText id ++ [10] := by
    unfold fullCmd
    rw [if_neg]
    intro hlast
    have := hinner 10 (List.mem_of_getLast? hlast)
    cases this
  show CommandFactory.create junk (inputOf (fullCmd (bytes "open " ++ intText id))) = _
  rw [hlast, inputOf_append hinner, show inputOf [10] = [] from rfl,
    show bytes "open " ++ intText id ++ [] = bytes "open" ++ 32 :: (intText id ++ []) from
      List.append_assoc ..]
  unfold CommandFactory.create
  rw [IStream.word_append _ _ (by decide) (by decide)]
  show (if ((IStream.mk (32 :: (intText id ++ [])) false false).int junk).2.fail then none
    else some (Command.open ((IStream.mk (32 :: (intText id ++ [])) false false).int junk).1)) = _
  rw [IStream.int_intText h [] (by intro b hb; cases hb)]
  rfl

variable {junk} {cmd : Command}

/-- The text of a message is at worst no command; it never becomes another one. -/
theorem create_send {text : Text}
    (h : CommandFactory.create junk (inputOf (fullCmd (Call.send text).command)) = some cmd) :
    ∃ content, cmd = .send content := by
  obtain ⟨rest, hrest⟩ := create_keyword junk (by decide : (bytes "send").all isInner = true) text
  have hcreate : CommandFactory.create junk (bytes "send" ++ 32 :: rest) =
      if (CommandFactory.dropBlank (IStream.mk (32 :: rest) false false).getline.1).isEmpty then
        none
      else some (.send (CommandFactory.dropBlank
        (IStream.mk (32 :: rest) false false).getline.1)) := by
    unfold CommandFactory.create
    rw [IStream.word_append _ _ (by decide) (by decide)]
    rfl
  rw [show (Call.send text).command = bytes "send" ++ bytes " " ++ text from rfl, hrest,
    hcreate] at h
  split at h
  · cases h
  · exact ⟨_, (Option.some.inj h).symm⟩

theorem create_chat {user : Text}
    (h : CommandFactory.create junk (inputOf (fullCmd (Call.chat user).command)) = some cmd) :
    ∃ v, cmd = .chat v := by
  obtain ⟨rest, hrest⟩ := create_keyword junk (by decide : (bytes "chat").all isInner = true) user
  have hcreate : CommandFactory.create junk (bytes "chat" ++ 32 :: rest) =
      CommandFactory.oneWord ⟨32 :: rest, false, false⟩ true .chat := by
    unfold CommandFactory.create
    rw [IStream.word_append _ _ (by decide) (by decide)]
    rfl
  rw [show (Call.chat user).command = bytes "chat" ++ bytes " " ++ user from rfl, hrest,
    hcreate] at h
  unfold CommandFactory.oneWord at h
  dsimp only at h
  split at h
  · cases h
  · exact ⟨_, (Option.some.inj h).symm⟩

theorem create_group {users : Text}
    (h : CommandFactory.create junk (inputOf (fullCmd (Call.group users).command)) = some cmd) :
    ∃ us, cmd = .group us := by
  obtain ⟨rest, hrest⟩ := create_keyword junk (by decide : (bytes "group").all isInner = true) users
  have hcreate : CommandFactory.create junk (bytes "group" ++ 32 :: rest) =
      if (IStream.mk (32 :: rest) false false).words.isEmpty then none
      else some (.group (IStream.mk (32 :: rest) false false).words) := by
    unfold CommandFactory.create
    rw [IStream.word_append _ _ (by decide) (by decide)]
    rfl
  rw [show (Call.group users).command = bytes "group" ++ bytes " " ++ users from rfl, hrest,
    hcreate] at h
  split at h
  · cases h
  · exact ⟨_, (Option.some.inj h).symm⟩

end

end SocialNetwork.Client
