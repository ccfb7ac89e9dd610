import SocialNetwork.Client.MessagesWindow
import SocialNetwork.Server.Framing

/-!
# `CreatePost` and the texts the client sends

`create_post` and `send` carry free text at the end of their line, and both input fields
are `QTextEdit`s of several lines. The server's parser reads up to the first newline
(`create_createPost`, `create_send_text`), so a text arrives whole if and only if it has
one line: `free_text_survives_iff`. Blanks, carriage returns, digits and signs do no harm.
-/

namespace SocialNetwork.Client

open SocialNetwork.Lib SocialNetwork.Server

/-- The command of `CreatePost::sendPost`. -/
def CreatePost.command (vis : Int) (content : Text) : Text :=
  bytes "create_post " ++ intText vis ++ bytes " " ++ content

/-- What a text field holds after `trimmed()`, if it is sent: it neither starts nor ends with
white space. NUL is left out. -/
structure Submitted (text : Text) : Prop where
  ne_nil : text ≠ []
  first : ∀ b ∈ text.head?, isSpace b = false
  last : ∀ b ∈ text.getLast?, isSpace b = false
  nul : 0 ∉ text

instance (text : Text) : Decidable (Submitted text) :=
  have := Option.decidableForallMem (p := fun b => isSpace b = false) text.head?
  have := Option.decidableForallMem (p := fun b => isSpace b = false) text.getLast?
  decidable_of_iff (text ≠ [] ∧ (∀ b ∈ text.head?, isSpace b = false) ∧
      (∀ b ∈ text.getLast?, isSpace b = false) ∧ 0 ∉ text)
    ⟨fun h => ⟨h.1, h.2.1, h.2.2.1, h.2.2.2⟩, fun h => ⟨h.ne_nil, h.first, h.last, h.nul⟩⟩

/-- What the server makes of a command that arrives in one read. -/
def parsed (junk : Int) (cmd : Text) : Option Command :=
  CommandFactory.create junk (inputOf ((fullCmd cmd).take (bufferSize - 1)))

/-- The encoded command fits in one read of the server. -/
def FitsRead (cmd : Text) : Prop := (fullCmd cmd).length ≤ bufferSize - 1

instance (cmd : Text) : Decidable (FitsRead cmd) :=
  inferInstanceAs (Decidable ((fullCmd cmd).length ≤ bufferSize - 1))

/-- White space includes the line ends. -/
theorem isLineEnd_of_not_isSpace {b : UInt8} (h : isSpace b = false) : isLineEnd b = false := by
  unfold isLineEnd
  rw [Bool.or_eq_false_iff, beq_eq_false_iff_ne, beq_eq_false_iff_ne]
  refine ⟨?_, ?_⟩ <;>
  · rintro rfl
    cases h

/-- **A command that ends in a submitted text is the server's input.** -/
theorem inputOf_fullCmd {pre text : Text} (hpre : 0 ∉ pre) (h : Submitted text) :
    inputOf (fullCmd (pre ++ text)) = pre ++ text := by
  have hlast : ∀ b ∈ (pre ++ text).getLast?, isLineEnd b = false := by
    intro b hb
    rw [List.getLast?_append_of_ne_nil _ h.ne_nil] at hb
    exact isLineEnd_of_not_isSpace (h.last b hb)
  have hfull : fullCmd (pre ++ text) = pre ++ text ++ [10] := by
    unfold fullCmd
    rw [if_neg]
    intro h10
    cases hlast 10 h10
  have hnul : 0 ∉ pre ++ text ++ [10] := by
    simp only [List.mem_append, List.mem_singleton, not_or]
    exact ⟨⟨hpre, h.nul⟩, by decide⟩
  rw [hfull, inputOf_of_nul hnul, trimLineEnd_append hlast]

/-- The rest of the line after a blank is the text up to its first newline. -/
theorem getline_text {text : Text} :
    CommandFactory.dropBlank (IStream.mk (32 :: text) false false).getline.1 =
      text.takeWhile (· != 10) := by
  have hline : (IStream.mk (32 :: text) false false).getline.1 =
      32 :: text.takeWhile (· != 10) := by
    have hgood : (IStream.mk (32 :: text) false false).good = true := rfl
    unfold IStream.getline
    rw [if_pos hgood]
    dsimp only
    rw [List.takeWhile_cons_of_pos (by decide)]
    split <;> rfl
  rw [hline]
  rfl

theorem takeWhile_line_iff {text : Text} : text.takeWhile (· != 10) = text ↔ 10 ∉ text := by
  rw [List.takeWhile_eq_self_iff]
  constructor
  · intro h hin
    cases h 10 hin
  · intro h b hb
    rw [bne_iff_ne]
    exact fun heq => h (heq ▸ hb)

section

variable {junk : Int} {text : Text}

/-- **The parser takes a post's text up to its first newline.** -/
theorem create_createPost {vis : Int} (hvis : intMin ≤ vis ∧ vis ≤ intMax) :
    CommandFactory.create junk (CreatePost.command vis text) =
      some (.createPost vis (text.takeWhile (· != 10))) := by
  have hcmd : CreatePost.command vis text =
      bytes "create_post" ++ 32 :: (intText vis ++ 32 :: text) := by
    show bytes "create_post " ++ intText vis ++ [32] ++ text = _
    rw [show bytes "create_post " = bytes "create_post" ++ [32] from rfl]
    simp only [List.append_assoc, List.cons_append, List.nil_append]
  rw [hcmd]
  unfold CommandFactory.create
  rw [IStream.word_append _ _ (by decide) (by decide)]
  show some (Command.createPost
    ((IStream.mk (32 :: (intText vis ++ 32 :: text)) false false).int junk).1
    (CommandFactory.dropBlank
      ((IStream.mk (32 :: (intText vis ++ 32 :: text)) false false).int junk).2.getline.1)) = _
  rw [IStream.int_intText hvis (32 :: text) (by intro b hb; cases hb; rfl)]
  exact congrArg (fun content => some (Command.createPost vis content)) getline_text

/-- **The parser takes a message's text up to its first newline.** -/
theorem create_send_text (h : Submitted text) :
    CommandFactory.create junk (Call.send text).command =
      some (.send (text.takeWhile (· != 10))) := by
  have hne : (text.takeWhile (· != 10)).isEmpty = false := by
    cases text with
    | nil => exact absurd rfl h.ne_nil
    | cons b rest =>
      have hb := isLineEnd_of_not_isSpace (h.first b rfl)
      unfold isLineEnd at hb
      rw [Bool.or_eq_false_iff] at hb
      rw [List.takeWhile_cons_of_pos (by rw [bne, hb.1]; rfl)]
      rfl
  show CommandFactory.create junk (bytes "send" ++ 32 :: text) = _
  unfold CommandFactory.create
  rw [IStream.word_append _ _ (by decide) (by decide)]
  show (if (CommandFactory.dropBlank (IStream.mk (32 :: text) false false).getline.1).isEmpty then
      none
    else some (Command.send (CommandFactory.dropBlank
      (IStream.mk (32 :: text) false false).getline.1))) = _
  rw [getline_text, hne]
  rfl

end

/-- **Free text survives the wire if and only if it has no line break**, both as a post and
as a message. -/
theorem free_text_survives_iff {junk vis : Int} {text : Text} (hvis : vis = 0 ∨ vis = 1 ∨ vis = 2)
    (h : Submitted text) :
    (FitsRead (CreatePost.command vis text) →
      (parsed junk (CreatePost.command vis text) = some (.createPost vis text) ↔ 10 ∉ text)) ∧
    (FitsRead (Call.send text).command →
      (parsed junk (Call.send text).command = some (.send text) ↔ 10 ∉ text)) := by
  have hfits : intMin ≤ vis ∧ vis ≤ intMax := by
    unfold intMin intMax
    omega
  constructor
  · intro hread
    have hpre : 0 ∉ bytes "create_post " ++ intText vis ++ bytes " " := by
      rcases hvis with rfl | rfl | rfl <;> decide
    unfold parsed
    rw [List.take_of_length_le hread]
    unfold CreatePost.command
    rw [inputOf_fullCmd hpre h]
    show CommandFactory.create junk (CreatePost.command vis text) = _ ↔ _
    rw [create_createPost hfits, Option.some.injEq, Command.createPost.injEq, and_iff_right rfl]
    exact takeWhile_line_iff
  · intro hread
    unfold parsed
    rw [List.take_of_length_le hread]
    unfold Call.command
    rw [inputOf_fullCmd (by decide) h]
    show CommandFactory.create junk (Call.send text).command = _ ↔ _
    rw [create_send_text h, Option.some.injEq, Command.send.injEq]
    exact takeWhile_line_iff

theorem free_text_survives_iff_spaced :
    parsed 7 (CreatePost.command 2 (bytes "-1  two\r words")) =
        some (.createPost 2 (bytes "-1  two\r words")) ∧
      parsed 7 (Call.send (bytes "-1  two\r words")).command =
        some (.send (bytes "-1  two\r words")) := by
  obtain ⟨hpost, hsend⟩ := free_text_survives_iff
    (Or.inr (Or.inr rfl) : (2 : Int) = 0 ∨ (2 : Int) = 1 ∨ (2 : Int) = 2)
    (by decide : Submitted (bytes "-1  two\r words"))
  exact ⟨(hpost (by decide)).mpr (by decide), (hsend (by decide)).mpr (by decide)⟩

/-- Free text does not survive in general: what follows a line break is lost. -/
theorem free_text_cut :
    ¬ ∀ (junk vis : Int) (text : Text), vis = 0 ∨ vis = 1 ∨ vis = 2 → Submitted text →
      (FitsRead (CreatePost.command vis text) →
        parsed junk (CreatePost.command vis text) = some (.createPost vis text)) ∧
      (FitsRead (Call.send text).command →
        parsed junk (Call.send text).command = some (.send text)) := by
  intro hall
  have hcut : parsed 0 (CreatePost.command 0 (bytes "a\nb")) =
      some (.createPost 0 (bytes "a")) := by decide
  have hwhole := (hall 0 0 (bytes "a\nb") (Or.inl rfl) (by decide)).1 (by decide)
  rw [hcut] at hwhole
  exact absurd hwhole (by decide)

end SocialNetwork.Client
