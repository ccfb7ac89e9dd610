import SocialNetwork.Lib.Tokens
import SocialNetwork.Client.CreatePost

/-!
# `RegisterWindow` and `LoginWindow`

Both windows join their fields by blanks, without quoting, and the server splits the line at
its white space again. The windows check that no field is empty, not that it is one word, so
the fields arrive as entered if and only if each of them is (`forms_survive_iff`).
-/

namespace SocialNetwork.Client

open SocialNetwork.Lib SocialNetwork.Server

/-- What the register window accepts: three texts and two choices. -/
structure RegisterForm where
  username : Text
  password : Text
  email : Text
  role : Text
  visibility : Text
  filled : username ≠ [] ∧ password ≠ [] ∧ email ≠ []
  roleBox : role = bytes "normal" ∨ role = bytes "admin"
  visibilityBox : visibility = bytes "public" ∨ visibility = bytes "private"

/-- What the login window accepts. -/
structure LoginForm where
  username : Text
  password : Text
  filled : username ≠ [] ∧ password ≠ []

def RegisterWindow.command (f : RegisterForm) : Text :=
  bytes "register " ++ f.username ++ bytes " " ++ f.password ++ bytes " " ++ f.email ++ bytes " "
    ++ f.role ++ bytes " " ++ f.visibility

def LoginWindow.command (f : LoginForm) : Text :=
  bytes "login " ++ f.username ++ bytes " " ++ f.password

/-- The command the form stands for. -/
def RegisterForm.entered (f : RegisterForm) : Command :=
  .register f.username f.password f.email f.role f.visibility

def LoginForm.entered (f : LoginForm) : Command := .login f.username f.password

/-! ## How the server parses them -/

section

variable {input u p e r v : Text}

theorem create_register (junk : Int) (h : tokens input = [bytes "register", u, p, e, r, v]) :
    CommandFactory.create junk input = some (.register u p e r v) := by
  obtain ⟨ss, hword, hleft⟩ := IStream.word_ofText h
  unfold CommandFactory.create
  rw [hword]
  let ss₂ := (ss.word []).2
  let ss₃ := (ss₂.word []).2
  let ss₄ := (ss₃.word []).2
  show some (Command.register (ss.word []).1 (ss₂.word []).1 (ss₃.word []).1 (ss₄.word []).1
    ((ss₄.word []).2.word []).1) = _
  simp only [IStream.word_fst, IStream.word_left, hleft, ss₂, ss₃, ss₄]
  rfl

theorem create_login (junk : Int) (h : tokens input = [bytes "login", u, p]) :
    CommandFactory.create junk input = some (.login u p) := by
  obtain ⟨ss, hword, hleft⟩ := IStream.word_ofText h
  unfold CommandFactory.create
  rw [hword]
  show some (Command.login (ss.word []).1 ((ss.word []).2.word []).1) = _
  rw [IStream.word_fst, IStream.word_fst, IStream.word_left, hleft]
  rfl

end

/-! ## The round trip -/

/-- A word that is not empty is what a field may hold at the end of a command. -/
theorem submitted_of_isWord {w : Text} (hne : w ≠ []) (hw : IsWord w) : Submitted w where
  ne_nil := hne
  first := fun b hb => (hw b (List.mem_of_mem_head? hb)).1
  last := fun b hb => (hw b (List.mem_of_mem_getLast? hb)).1
  nul := fun h0 => (hw 0 h0).2 rfl

theorem nul_not_mem_word {w : Text} (hw : IsWord w) : 0 ∉ w := fun h0 => (hw 0 h0).2 rfl

theorem tokens_isWord {w : Text} (rest : Text) (hne : w ≠ []) (hw : IsWord w) :
    tokens (w ++ 32 :: rest) = w :: tokens rest :=
  tokens_blank rest hne fun b hb => (hw b hb).1

theorem tokens_lastWord {w : Text} (hne : w ≠ []) (hw : IsWord w) : tokens w = [w] :=
  tokens_word hne fun b hb => (hw b hb).1

/-- The texts the server gets are words, whatever was entered. -/
theorem wellFormed_of_parsed {junk : Int} {cmd : Text} {c : Command}
    (h : parsed junk cmd = some c) : c.WellFormed :=
  create_wellFormed h (nul_not_mem_inputOf _)

section

variable {junk : Int}

/-- A command that ends in a word is parsed as it was built. -/
theorem parsed_eq_create {pre w : Text} (hread : FitsRead (pre ++ w)) (h0 : 0 ∉ pre) (hne : w ≠ [])
    (hw : IsWord w) : parsed junk (pre ++ w) = CommandFactory.create junk (pre ++ w) := by
  unfold parsed
  rw [List.take_of_length_le hread, inputOf_fullCmd h0 (submitted_of_isWord hne hw)]

/-- **A login of two words arrives.** -/
theorem parsed_login {f : LoginForm} (hread : FitsRead (LoginWindow.command f))
    (hu : IsWord f.username) (hp : IsWord f.password) :
    parsed junk (LoginWindow.command f) = some f.entered := by
  unfold LoginWindow.command at *
  rw [parsed_eq_create hread _ f.filled.2 hp]
  · refine create_login junk ?_
    show tokens (bytes "login" ++ 32 :: f.username ++ [32] ++ f.password) = _
    simp only [List.append_assoc, List.cons_append, List.nil_append]
    rw [tokens_isWord _ (by decide) (by decide), tokens_isWord _ f.filled.1 hu,
      tokens_lastWord f.filled.2 hp]
  · simp only [List.mem_append, not_or]
    exact ⟨⟨by decide, nul_not_mem_word hu⟩, by decide⟩

/-- The choices of the register window are words. -/
theorem RegisterForm.boxes (f : RegisterForm) :
    (f.role ≠ [] ∧ IsWord f.role) ∧ (f.visibility ≠ [] ∧ IsWord f.visibility) := by
  obtain hr | hr := f.roleBox <;> obtain hv | hv := f.visibilityBox <;>
  · rw [hr, hv]
    decide

/-- **A registration whose three texts are words arrives.** -/
theorem parsed_register {f : RegisterForm} (hread : FitsRead (RegisterWindow.command f))
    (hu : IsWord f.username) (hp : IsWord f.password) (he : IsWord f.email) :
    parsed junk (RegisterWindow.command f) = some f.entered := by
  obtain ⟨⟨hrne, hr⟩, hvne, hv⟩ := f.boxes
  obtain ⟨hune, hpne, hene⟩ := f.filled
  unfold RegisterWindow.command at *
  rw [parsed_eq_create hread _ hvne hv]
  · refine create_register junk ?_
    show tokens (bytes "register" ++ 32 :: f.username ++ [32] ++ f.password ++ [32] ++ f.email ++
      [32] ++ f.role ++ [32] ++ f.visibility) = _
    simp only [List.append_assoc, List.cons_append, List.nil_append]
    rw [tokens_isWord _ (by decide) (by decide), tokens_isWord _ hune hu, tokens_isWord _ hpne hp,
      tokens_isWord _ hene he, tokens_isWord _ hrne hr, tokens_lastWord hvne hv]
  · simp only [List.mem_append, not_or]
    refine ⟨⟨⟨⟨⟨⟨⟨⟨by decide, nul_not_mem_word hu⟩, ?_⟩, nul_not_mem_word hp⟩, ?_⟩,
      nul_not_mem_word he⟩, ?_⟩, nul_not_mem_word hr⟩, ?_⟩ <;> decide

end

/-- **The fields arrive as entered if and only if each text is one word**: without blanks,
other white space and NUL. -/
theorem forms_survive_iff (junk : Int) :
    (∀ f : RegisterForm, FitsRead (RegisterWindow.command f) →
      (parsed junk (RegisterWindow.command f) = some f.entered ↔
        IsWord f.username ∧ IsWord f.password ∧ IsWord f.email)) ∧
    (∀ f : LoginForm, FitsRead (LoginWindow.command f) →
      (parsed junk (LoginWindow.command f) = some f.entered ↔
        IsWord f.username ∧ IsWord f.password)) := by
  constructor
  · intro f hread
    constructor
    · intro h
      obtain ⟨hu, hp, he, -, -⟩ := wellFormed_of_parsed h
      exact ⟨hu, hp, he⟩
    · rintro ⟨hu, hp, he⟩
      exact parsed_register hread hu hp he
  · intro f hread
    constructor
    · exact wellFormed_of_parsed
    · rintro ⟨hu, hp⟩
      exact parsed_login hread hu hp

/-- A login whose password has a blank in it. -/
def blankLogin : LoginForm where
  username := bytes "bob"
  password := bytes "p q"
  filled := by decide

/-- A registration of the same user. -/
def blankRegister : RegisterForm where
  username := bytes "bob"
  password := bytes "p"
  email := bytes "b@c d"
  role := bytes "normal"
  visibility := bytes "private"
  filled := by decide
  roleBox := by decide
  visibilityBox := by decide

theorem forms_survive_iff_blank :
    parsed 7 (RegisterWindow.command blankRegister) ≠ some blankRegister.entered ∧
      parsed 7 (bytes "login bob p+\"q") = some (.login (bytes "bob") (bytes "p+\"q")) := by
  obtain ⟨hregister, hlogin⟩ := forms_survive_iff 7
  constructor
  · intro h
    have hword := ((hregister blankRegister (by decide)).mp h).2.2
    exact absurd (hword 32 (by decide)).1 (by decide)
  · refine (hlogin ⟨bytes "bob", bytes "p+\"q", by decide⟩ (by decide)).mpr ?_
    decide

/-- Fields do not arrive as entered in general: of a password, what follows a blank is not
checked, and the words of an email become role and visibility. -/
theorem fields_shifted :
    ¬ ∀ junk : Int,
      (∀ f : RegisterForm, FitsRead (RegisterWindow.command f) →
        parsed junk (RegisterWindow.command f) = some f.entered) ∧
      (∀ f : LoginForm, FitsRead (LoginWindow.command f) →
        parsed junk (LoginWindow.command f) = some f.entered) := by
  intro hall
  have hcut : parsed 0 (LoginWindow.command blankLogin) =
      some (.login (bytes "bob") (bytes "p")) := by decide
  have hwhole := (hall 0).2 blankLogin (by decide)
  rw [hcut] at hwhole
  exact absurd hwhole (by decide)

example : parsed 0 (RegisterWindow.command blankRegister) =
    some (.register (bytes "bob") (bytes "p") (bytes "b@c") (bytes "d") (bytes "normal")) := by
  decide

end SocialNetwork.Client
