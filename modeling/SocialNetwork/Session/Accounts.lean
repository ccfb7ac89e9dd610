import SocialNetwork.Server.Completion

/-!
# Accounts

A registration is three statements: the insert of the row, a lookup of it by its
credentials, and an update of its visibility by the id read back. The row is found again by
its name and its email in every later state, with everything but the visibility as it was
inserted (`account_run`), and that decides every later `login` and `register`.

The visibility is another matter: the result of its update is ignored, and the id it looks
for has gone through an `int`. `Lands` says of one step that its update reaches the row it
is meant for and no other, unless that makes no difference, and `accounts_durable_iff` shows
that visibilities are what was asked for exactly as long as every step lands.
-/

namespace SocialNetwork.Server

open SocialNetwork.Lib

variable {hasher : Text → Nat} {serverSocket : Int}

/-- The update of the visibility of `row` to `v`, among the rows `base`, does what it is
meant to: it happens and finds `row` under the `int` its id was read into, or `row` has that
visibility already; and no other row that has that `int` as its id gets another visibility. -/
structure UpdateLands (written : Bool) (base : List UserRow) (row : UserRow) (v : Text) : Prop where
  own : row.profileVisibility = v ∨ (written = true ∧ columnInt row.userId = row.userId)
  others : written = true → ∀ r ∈ base, r.userId = columnInt row.userId → r ≠ row →
    r.profileVisibility = v

/-- The visibility update of an OK `register` or `set_visibility` does what it is meant to. -/
def Lands (hasher : Text → Nat) (x : Step LoopState Event) : Prop :=
  repliedOk hasher x = true → ∀ i env data, x.event = .recv i env data →
    match commandOf x with
    | some (.register u p e r v) =>
      UpdateLands (!env.fails .authenticateUser 0 && !env.fails .updateProfileVisibility 0)
        (x.pre.app.db.users.rows ++ [newUser hasher x.pre.app.db.users.seq u p e r])
        (newUser hasher x.pre.app.db.users.seq u p e r) v
    | some (.setProfileVisibility v) =>
      ∀ row ∈ x.pre.app.db.users.rows, issuerOf x = some row.username →
        UpdateLands (!env.fails .updateProfileVisibility 0) x.pre.app.db.users.rows row v
    | _ => True

/-- The visibility an OK `set_visibility` by `u` asks for. -/
def shownBy (hasher : Text → Nat) (u : Text) (x : Step LoopState Event) : Option Text :=
  match commandOf x with
  | some (.setProfileVisibility v) =>
    if repliedOk hasher x = true ∧ issuerOf x = some u then some v else none
  | _ => none

/-- The visibility a step asks for the account `u`: an OK `set_visibility` by `u`, or the OK
`register` of `u`. -/
def assignedBy (hasher : Text → Nat) (u : Text) (x : Step LoopState Event) : Option Text :=
  match commandOf x with
  | some (.register w _ _ _ v) => if repliedOk hasher x = true ∧ w = u then some v else none
  | _ => shownBy hasher u x

/-! ## What one step does to the users table -/

/-- The rows of `base` after the visibility of `row` was set to `v` by its id. -/
def setRows (written : Bool) (base : List UserRow) (row : UserRow) (v : Text) : List UserRow :=
  base.map (shownRow written (columnInt row.userId) v)

/-- Only `register` and `set_visibility` write users. -/
theorem Write.users_eq {env : Env} {db db' : Db} {issuer : Option Text} {current : Option Int}
    {cmd : Command} {reply : Text} (h : Write hasher env db issuer current cmd reply db')
    (hregister : ∀ u p e role v, cmd ≠ .register u p e role v)
    (hset : ∀ v, cmd ≠ .setProfileVisibility v) : db'.users = db.users := by
  cases h with
  | register => exact (hregister _ _ _ _ _ rfl).elim
  | setVisibility => exact (hset _ rfl).elim
  | chat _ _ _ _ hcreated => exact hcreated.users
  | group _ _ hcreated => exact hcreated.users
  | _ => rfl

/-- What an outcome does to the users table: nothing, or a visibility is set, of a row
inserted just before or of the row of the issuer. -/
theorem Effect.users {env : Env} {sd : Int} {a : App} {cmd : Command} {r : Text × App}
    (h : Effect hasher env sd a cmd r) :
    (r.2.db.users = a.db.users ∧ (isOk r.1 = true → ∀ u p e role v,
        cmd ≠ .register u p e role v ∧ cmd ≠ .setProfileVisibility v)) ∨
      (∃ u p e role v, cmd = .register u p e role v ∧ isOk r.1 = true ∧ u ≠ [] ∧
        (∀ row ∈ a.db.users.rows, row.username ≠ u ∧ row.email ≠ e) ∧
        r.2.db.users.seq = a.db.users.seq + 1 ∧
        r.2.db.users.rows =
          setRows (!env.fails .authenticateUser 0 && !env.fails .updateProfileVisibility 0)
            (a.db.users.rows ++ [newUser hasher a.db.users.seq u p e role])
            (newUser hasher a.db.users.seq u p e role) v) ∨
      ∃ row v, cmd = .setProfileVisibility v ∧ isOk r.1 = true ∧
        a.sessions.sessions sd = some row.username ∧ row ∈ a.db.users.rows ∧
        r.2.db.users.seq = a.db.users.seq ∧
        r.2.db.users.rows =
          setRows (!env.fails .updateProfileVisibility 0) a.db.users.rows row v := by
  have hw := h.write
  cases h with
  | idle hread =>
    refine Or.inl ⟨rfl, fun hok u p e role v => ⟨fun heq => ?_, fun heq => ?_⟩⟩
    · subst heq
      cases hread hok
    · subst heq
      cases hread hok
  | @register u p e role v db hu _ _ _ _ hreg =>
    obtain ⟨hfit, t₁, hrows, hseq, hdb₁⟩ := registerUser_true hreg
    have hin : newUser hasher a.db.users.seq u p e role ∈ db.users.rows := by
      rw [hdb₁, hrows]
      simp
    obtain ⟨t, ht, hseq', hdb⟩ := setVisibility_spec env db u p v hin rfl rfl
    refine Or.inr (Or.inl ⟨u, p, e, role, v, rfl, rfl, hu, hfit, ?_, ?_⟩)
    · show (RegisterCommand.setVisibility hasher env db u p v).users.seq = _
      rw [hdb]
      exact hseq'.trans (hdb₁ ▸ hseq)
    · show (RegisterCommand.setVisibility hasher env db u p v).users.rows = _
      rw [hdb]
      show t.rows = _
      rw [ht, hdb₁, hrows]
      rfl
  | @setProfileVisibility u v user hs _ huser =>
    obtain ⟨row, hrow, rfl, rfl⟩ := getUserByUsername_eq_some huser
    obtain ⟨t, ht, hseq, hdb⟩ := updateProfileVisibility_spec env a.db (columnInt row.userId) v
    refine Or.inr (Or.inr ⟨row, v, rfl, rfl, hs, hrow, ?_, ?_⟩)
    · show (Database.updateProfileVisibility env a.db (columnInt row.userId) v).2.users.seq = _
      rw [hdb]
      exact hseq
    · show (Database.updateProfileVisibility env a.db (columnInt row.userId) v).2.users.rows = _
      rw [hdb]
      exact ht
  | _ => exact Or.inl ⟨hw.users_eq nofun nofun, fun _ _ _ _ _ _ => ⟨nofun, nofun⟩⟩

/-- The step sets the visibility of `row`, one of the rows `base`, to `v`. -/
structure SetsVisibility (hasher : Text → Nat) (x : Step LoopState Event) (written : Bool)
    (base : List UserRow) (row : UserRow) (v : Text) : Prop where
  mem : row ∈ base
  name : ∀ r ∈ base, r.username = row.username → r = row
  assigned : ∀ u, assignedBy hasher u x = if row.username = u then some v else none
  rows : (next hasher x.pre x.event).app.db.users.rows = setRows written base row v
  lands : Lands hasher x ↔ UpdateLands written base row v

/-- A step whose command was not an OK `register` or `set_visibility` assigns no visibility,
and lands. -/
theorem unassigned_of_command {x : Step LoopState Event} {cmd : Command}
    (hcmd : commandOf x = some cmd)
    (hno : repliedOk hasher x = true → ∀ u p e role v,
      cmd ≠ .register u p e role v ∧ cmd ≠ .setProfileVisibility v) :
    (∀ u, assignedBy hasher u x = none) ∧ Lands hasher x := by
  unfold assignedBy shownBy Lands
  rw [hcmd]
  cases hok : repliedOk hasher x with
  | false =>
    refine ⟨fun u => ?_, nofun⟩
    cases cmd <;> simp
  | true =>
    have hno := hno hok
    cases cmd with
    | register u p e role v => exact ((hno u p e role v).1 rfl).elim
    | setProfileVisibility v => exact ((hno [] [] [] [] v).2 rfl).elim
    | _ => exact ⟨fun _ => rfl, fun _ _ _ _ _ => trivial⟩

/-- An OK `register` sets the visibility of the row it inserts, which is the only one of its
name: no row had that name. -/
theorem register_sets {s : LoopState} {i : Slot} {env : Env} {data u p e role v : Text}
    (hcmd : commandOf ⟨s, .recv i env data⟩ = some (.register u p e role v))
    (hok : repliedOk hasher ⟨s, .recv i env data⟩ = true)
    (hfresh : ∀ r ∈ s.app.db.users.rows, r.username ≠ u)
    (hrows : (next hasher s (.recv i env data)).app.db.users.rows =
      setRows (!env.fails .authenticateUser 0 && !env.fails .updateProfileVisibility 0)
        (s.app.db.users.rows ++ [newUser hasher s.app.db.users.seq u p e role])
        (newUser hasher s.app.db.users.seq u p e role) v) :
    SetsVisibility hasher ⟨s, .recv i env data⟩
      (!env.fails .authenticateUser 0 && !env.fails .updateProfileVisibility 0)
      (s.app.db.users.rows ++ [newUser hasher s.app.db.users.seq u p e role])
      (newUser hasher s.app.db.users.seq u p e role) v where
  mem := List.mem_append_right _ (List.mem_singleton_self _)
  name r hr hname := by
    rcases List.mem_append.mp hr with hr | hr
    · exact (hfresh r hr hname).elim
    · exact List.mem_singleton.mp hr
  assigned w := by
    unfold assignedBy
    rw [hcmd]
    by_cases huw : u = w
    · simp [hok, newUser, huw]
    · simp [newUser, huw]
  rows := hrows
  lands := by
    unfold Lands
    rw [hcmd]
    exact ⟨fun hl => hl hok i env data rfl, fun hl _ _ _ _ heq => by cases heq; exact hl⟩

/-- An OK `set_visibility` sets the visibility of the row of its issuer, which is the only
one of its name: the table says UNIQUE. -/
theorem setVisibility_sets {s : LoopState} {i : Slot} {env : Env} {data v : Text} {row : UserRow}
    (hcmd : commandOf ⟨s, .recv i env data⟩ = some (.setProfileVisibility v))
    (hok : repliedOk hasher ⟨s, .recv i env data⟩ = true)
    (hissuer : issuerOf ⟨s, .recv i env data⟩ = some row.username)
    (hrow : row ∈ s.app.db.users.rows)
    (hrows : (next hasher s (.recv i env data)).app.db.users.rows =
      setRows (!env.fails .updateProfileVisibility 0) s.app.db.users.rows row v) :
    SetsVisibility hasher ⟨s, .recv i env data⟩ (!env.fails .updateProfileVisibility 0)
      s.app.db.users.rows row v where
  mem := hrow
  name _ hr hname := eq_of_username hr hrow hname
  assigned w := by
    unfold assignedBy shownBy
    rw [hcmd, hissuer]
    simp [hok]
  rows := hrows
  lands := by
    unfold Lands
    rw [hcmd]
    constructor
    · exact fun hl => hl hok i env data rfl row hrow hissuer
    · intro hl _ _ _ _ heq r hr hr'
      cases heq
      rw [hissuer, Option.some.injEq] at hr'
      exact eq_of_username hr hrow hr'.symm ▸ hl

/-- **What one step does to the accounts**: nothing; or it registers one and sets its
visibility; or it sets the visibility of one that is there. -/
theorem step_users (hasher : Text → Nat) (x : Step LoopState Event) :
    ((next hasher x.pre x.event).app.db.users = x.pre.app.db.users ∧
        (∀ u, assignedBy hasher u x = none) ∧ Lands hasher x) ∨
      (∃ u p e role v written, commandOf x = some (.register u p e role v) ∧
        repliedOk hasher x = true ∧
        SetsVisibility hasher x written
          (x.pre.app.db.users.rows ++ [newUser hasher x.pre.app.db.users.seq u p e role])
          (newUser hasher x.pre.app.db.users.seq u p e role) v) ∨
      ∃ row v written, commandOf x = some (.setProfileVisibility v) ∧
        repliedOk hasher x = true ∧ issuerOf x = some row.username ∧
        SetsVisibility hasher x written x.pre.app.db.users.rows row v := by
  obtain ⟨s, e⟩ := x
  cases e with
  | accept fd => exact Or.inl ⟨rfl, fun _ => rfl, nofun⟩
  | hangup i => exact Or.inl ⟨rfl, fun _ => rfl, nofun⟩
  | recv i env data =>
    have hok : repliedOk hasher ⟨s, .recv i env data⟩ =
        isOk (handle hasher env (s.clientSocket i) data s.app).1 := rfl
    rcases handle_cases hasher env (s.clientSocket i) data s.app with ⟨hcmd, h⟩ | ⟨cmd, hcmd, h⟩
    · refine Or.inl ⟨?_, fun u => ?_, fun _ _ _ _ _ => ?_⟩
      · show (handle hasher env (s.clientSocket i) data s.app).2.db.users = s.app.db.users
        rw [h]
      · unfold assignedBy shownBy
        rw [show commandOf ⟨s, .recv i env data⟩ = none from hcmd]
      · rw [show commandOf ⟨s, .recv i env data⟩ = none from hcmd]
        trivial
    · have hcmd : commandOf ⟨s, .recv i env data⟩ = some cmd := hcmd
      rcases h.users with ⟨husers, hno⟩ | ⟨u, p, e, role, v, rfl, hisOk, _, hfit, _, hrows⟩ |
        ⟨row, v, rfl, hisOk, hissuer, hrow, _, hrows⟩
      · exact Or.inl ⟨husers, unassigned_of_command hcmd (hok ▸ hno)⟩
      · rw [hisOk] at hok
        exact Or.inr (Or.inl ⟨u, p, e, role, v, _, hcmd, hok,
          register_sets hcmd hok (fun r hr => (hfit r hr).1) hrows⟩)
      · rw [hisOk] at hok
        exact Or.inr (Or.inr ⟨row, v, _, hcmd, hok, hissuer,
          setVisibility_sets hcmd hok hissuer hrow hrows⟩)

/-! ## Rows stay -/

theorem mem_setRows {written : Bool} {base : List UserRow} {row r : UserRow} {v : Text}
    (hr : r ∈ setRows written base row v) :
    ∃ r₀ ∈ base, r = shownRow written (columnInt row.userId) v r₀ := by
  obtain ⟨r₀, hr₀, rfl⟩ := List.mem_map.mp hr
  exact ⟨r₀, hr₀, rfl⟩

/-- A row is still there after a visibility was set, with a visibility. -/
theorem SetsVisibility.kept {x : Step LoopState Event} {written : Bool} {base : List UserRow}
    {row : UserRow} {v : Text} (h : SetsVisibility hasher x written base row v) {r : UserRow}
    (hr : r ∈ base) : ∃ shown, { r with profileVisibility := shown } ∈
      (next hasher x.pre x.event).app.db.users.rows := by
  have hin := List.mem_map_of_mem (f := shownRow written (columnInt row.userId) v) hr
  rw [shownRow_kept written (columnInt row.userId) v r] at hin
  rw [h.rows]
  exact ⟨_, hin⟩

/-- **An account stays as it was registered**, but for its visibility. -/
theorem account_run {newer older : History LoopState Event} {x : Step LoopState Event}
    {s : LoopState}
    (hr : (machine hasher serverSocket).Run (newer ++ x :: older) s) {u p e role v : Text}
    (hcmd : commandOf x = some (.register u p e role v)) (hok : repliedOk hasher x = true) :
    ∃ shown, (⟨x.pre.app.db.users.seq + 1, u, Database.Hashpassword hasher p, e, role, shown⟩ :
      UserRow) ∈ s.app.db.users.rows := by
  have hpost : ∃ shown, (⟨x.pre.app.db.users.seq + 1, u, Database.Hashpassword hasher p, e, role,
      shown⟩ : UserRow) ∈ (next hasher x.pre x.event).app.db.users.rows := by
    rcases step_users hasher x with ⟨_, hnone, _⟩ |
      ⟨u', p', e', role', v', written, hcmd', _, hset⟩ |
      ⟨row, v', written, hcmd', _⟩
    · have := hnone u
      unfold assignedBy at this
      rw [hcmd] at this
      simp [hok] at this
    · rw [hcmd] at hcmd'
      cases hcmd'
      exact hset.kept hset.mem
    · rw [hcmd] at hcmd'
      cases hcmd'
  obtain ⟨shown, hin⟩ := hpost
  have hlater := Machine.Run.later (P := fun _ => True)
    (R := fun a b : LoopState => ∀ r ∈ a.app.db.users.rows, ∃ shown,
      { r with profileVisibility := shown } ∈ b.app.db.users.rows)
    (fun _ r hr => ⟨r.profileVisibility, hr⟩)
    (fun hab hbc r hr => by
      obtain ⟨_, hr'⟩ := hab r hr
      obtain ⟨_, hr''⟩ := hbc _ hr'
      exact ⟨_, hr''⟩)
    (fun s e _ _ r hr => by
      show ∃ shown, _ ∈ (next hasher s e).app.db.users.rows
      rcases step_users hasher ⟨s, e⟩ with ⟨hsame, _⟩ | ⟨_, _, _, _, _, _, _, _, hset⟩ |
        ⟨_, _, _, _, _, _, hset⟩
      · exact ⟨r.profileVisibility, hsame ▸ hr⟩
      · exact hset.kept (List.mem_append_left _ hr)
      · exact hset.kept hr)
    hr ((hr.at_step.1).step x.event hr.at_step.2) fun _ _ => trivial
  exact hlater _ hin

/-- Every account has been registered. -/
theorem registered_run {h : History LoopState Event} {s : LoopState}
    (hr : (machine hasher serverSocket).Run h s) :
    ∀ row ∈ s.app.db.users.rows, ∃ newer x older p e role v, h = newer ++ x :: older ∧
      commandOf x = some (.register row.username p e role v) ∧ repliedOk hasher x = true := by
  induction hr with
  | init => exact List.forall_mem_nil _
  | @step h s event _ _ ih =>
    have hold : ∀ r ∈ s.app.db.users.rows, ∃ newer x older p e role v,
        ⟨s, event⟩ :: h = newer ++ x :: older ∧
          commandOf x = some (.register r.username p e role v) ∧ repliedOk hasher x = true := by
      intro r hr
      obtain ⟨newer, x, older, p, e, role, v, rfl, hreg⟩ := ih r hr
      exact ⟨⟨s, event⟩ :: newer, x, older, p, e, role, v, rfl, hreg⟩
    intro row hrow
    have hrow : row ∈ (next hasher s event).app.db.users.rows := hrow
    rcases step_users hasher ⟨s, event⟩ with ⟨hsame, _⟩ |
      ⟨u, p, e, role, v, written, hcmd, hok, hset⟩ | ⟨_, _, _, _, _, _, hset⟩
    · exact hold row (hsame ▸ hrow)
    · rw [hset.rows] at hrow
      obtain ⟨r, hr, rfl⟩ := mem_setRows hrow
      rw [shownRow_username]
      rcases List.mem_append.mp hr with hr | hr
      · exact hold r hr
      · rw [List.mem_singleton.mp hr]
        exact ⟨[], ⟨s, event⟩, h, p, e, role, v, rfl, hcmd, hok⟩
    · rw [hset.rows] at hrow
      obtain ⟨r, hr, rfl⟩ := mem_setRows hrow
      rw [shownRow_username]
      exact hold r hr

/-! ## Visibilities -/

/-- Every account has the visibility last asked for it. -/
def Faithful (hasher : Text → Nat) (h : History LoopState Event) (s : LoopState) : Prop :=
  ∀ row ∈ s.app.db.users.rows,
    h.findSome? (assignedBy hasher row.username) = some row.profileVisibility

/-- **A step keeps the accounts faithful exactly if it lands.** -/
theorem SetsVisibility.faithful_iff {h : History LoopState Event} {x : Step LoopState Event}
    {written : Bool} {base : List UserRow} {row : UserRow} {v : Text}
    (hset : SetsVisibility hasher x written base row v)
    (hold : ∀ r ∈ base, r ≠ row →
      h.findSome? (assignedBy hasher r.username) = some r.profileVisibility) :
    Faithful hasher (x :: h) ((machine hasher serverSocket).post x) ↔
      UpdateLands written base row v := by
  -- what is asked of `row` by the step, and of every other row by the steps before
  have hrow : (x :: h).findSome? (assignedBy hasher row.username) = some v := by
    rw [List.findSome?_cons, hset.assigned, if_pos rfl]
  have hother : ∀ r ∈ base, r ≠ row →
      (x :: h).findSome? (assignedBy hasher r.username) = some r.profileVisibility := by
    intro r hr hne
    rw [List.findSome?_cons, hset.assigned, if_neg fun heq => hne (hset.name r hr heq.symm)]
    exact hold r hr hne
  constructor
  · intro hf
    have hbase : ∀ r ∈ base, (x :: h).findSome? (assignedBy hasher r.username) =
        some (shownRow written (columnInt row.userId) v r).profileVisibility := by
      intro r hr
      have hin : shownRow written (columnInt row.userId) v r ∈
          (next hasher x.pre x.event).app.db.users.rows := by
        rw [hset.rows]
        exact List.mem_map_of_mem hr
      have := hf _ hin
      rwa [shownRow_username] at this
    refine ⟨?_, fun hwritten r hr hid hne => ?_⟩
    · have heq := (hbase row hset.mem).symm.trans hrow
      rw [Option.some.injEq, shownRow_profileVisibility] at heq
      split at heq
      next hhit =>
        rw [Bool.and_eq_true, beq_iff_eq] at hhit
        exact Or.inr ⟨hhit.1, hhit.2.symm⟩
      next => exact Or.inl heq
    · have heq := (hbase r hr).symm.trans (hother r hr hne)
      rw [Option.some.injEq, shownRow_profileVisibility, hwritten, hid] at heq
      simpa using heq.symm
  · intro hl r' hr'
    have hr' : r' ∈ (next hasher x.pre x.event).app.db.users.rows := hr'
    rw [hset.rows] at hr'
    obtain ⟨r, hr, rfl⟩ := mem_setRows hr'
    rw [shownRow_username, shownRow_profileVisibility]
    by_cases hne : r = row
    · rw [hne, hrow]
      split
      next => rfl
      next hmiss =>
        rcases hl.own with heq | ⟨hwritten, hid⟩
        · rw [heq]
        · exact absurd (by rw [hwritten, hid]; simp) hmiss
    · rw [hother r hr hne]
      split
      next hhit =>
        rw [Bool.and_eq_true, beq_iff_eq] at hhit
        rw [hl.others hhit.1 r hr hhit.2 hne]
      next => rfl

/-- **Visibilities are what was asked for exactly as long as every step lands.** -/
theorem faithful_run {h : History LoopState Event} {s : LoopState}
    (hr : (machine hasher serverSocket).Run h s) :
    (∀ h' s', (machine hasher serverSocket).Run h' s' → h' <:+ h → Faithful hasher h' s') ↔
      ∀ x ∈ h, Lands hasher x := by
  induction hr with
  | init =>
    refine ⟨fun _ => List.forall_mem_nil _, fun _ h' s' hr' hsuf => ?_⟩
    rw [List.suffix_nil] at hsuf
    subst hsuf
    rw [hr'.unique .init]
    exact List.forall_mem_nil _
  | @step h s e hr hg ih =>
    rw [List.forall_mem_cons, ← ih]
    -- the last state, given the ones before
    have hlast : Faithful hasher h s →
        (Faithful hasher (⟨s, e⟩ :: h) ((machine hasher serverSocket).post ⟨s, e⟩) ↔
          Lands hasher ⟨s, e⟩) := by
      intro hf
      rcases step_users hasher ⟨s, e⟩ with ⟨hsame, hnone, hlands⟩ |
        ⟨u, p, em, role, v, written, _, _, hset⟩ | ⟨row, v, written, _, _, _, hset⟩
      · refine iff_of_true (fun row hrow => ?_) hlands
        have hrow : row ∈ (next hasher s e).app.db.users.rows := hrow
        rw [hsame] at hrow
        rw [List.findSome?_cons, hnone]
        exact hf row hrow
      · rw [hset.lands]
        refine hset.faithful_iff fun r hr hne => ?_
        rcases List.mem_append.mp hr with hr | hr
        · exact hf r hr
        · exact (hne (List.mem_singleton.mp hr)).elim
      · rw [hset.lands]
        exact hset.faithful_iff fun r hr _ => hf r hr
    constructor
    · intro hall
      have hold : ∀ h' s', (machine hasher serverSocket).Run h' s' → h' <:+ h →
          Faithful hasher h' s' := fun h' s' hr' hsuf =>
        hall h' s' hr' (hsuf.trans (List.suffix_cons _ _))
      exact ⟨(hlast (hold h s hr (List.suffix_refl h))).mp
        (hall _ _ (hr.step e hg) (List.suffix_refl _)), hold⟩
    · rintro ⟨hl, hold⟩ h' s' hr' hsuf
      rcases List.suffix_cons_iff.mp hsuf with rfl | hsuf
      · rw [hr'.unique (hr.step e hg)]
        exact (hlast (hold h s hr (List.suffix_refl h))).mpr hl
      · exact hold h' s' hr' hsuf

/-- The visibility of each account registered is that of its registration, or the one its
last OK `set_visibility` asked for. -/
def VisibilitiesKept (hasher : Text → Nat) (h : History LoopState Event) (s : LoopState) : Prop :=
  ∀ newer x older u p e role v, h = newer ++ x :: older →
    commandOf x = some (.register u p e role v) → repliedOk hasher x = true →
      ∀ row ∈ s.app.db.users.rows, row.username = u →
        row.profileVisibility = (newer.findSome? (shownBy hasher u)).getD v

/-- Nobody registers again. -/
theorem assignedBy_of_registered {x : Step LoopState Event} {r : UserRow}
    (hr : r ∈ x.pre.app.db.users.rows) :
    assignedBy hasher r.username x = shownBy hasher r.username x := by
  rcases step_users hasher x with ⟨_, hnone, _⟩ | ⟨u, p, e, role, v, written, hcmd, hok, hset⟩ |
    ⟨row, v, written, hcmd, _⟩
  · have hassigned := hnone r.username
    unfold assignedBy at hassigned ⊢
    split at hassigned
    next w _ _ _ v hcmd =>
      unfold shownBy
      rw [hcmd]
      exact hassigned
    next => rfl
  · have hne : u ≠ r.username := by
      intro heq
      have hnew := hset.name r (List.mem_append_left _ hr) heq.symm
      exact x.pre.app.db.users.id_ne_next hr (congrArg (·.userId) hnew)
    unfold assignedBy shownBy
    rw [hcmd]
    simp [hne]
  · unfold assignedBy shownBy
    rw [hcmd]

/-- After its registration an account is asked for what its `set_visibility`s ask for. -/
theorem assigned_eq_shown {newer older : History LoopState Event} {x : Step LoopState Event}
    {s : LoopState} (hr : (machine hasher serverSocket).Run (newer ++ x :: older) s)
    {u p e role v : Text} (hcmd : commandOf x = some (.register u p e role v))
    (hok : repliedOk hasher x = true) :
    (newer ++ x :: older).findSome? (assignedBy hasher u) =
      some ((newer.findSome? (shownBy hasher u)).getD v) := by
  induction newer generalizing s with
  | nil =>
    have hx : assignedBy hasher u x = some v := by
      unfold assignedBy
      rw [hcmd]
      simp [hok]
    rw [List.nil_append, List.findSome?_cons, hx]
    rfl
  | cons y newer ih =>
    have hr' := hr.of_cons.1
    obtain ⟨shown, hin⟩ := account_run hr' hcmd hok
    have hy : assignedBy hasher u y = shownBy hasher u y := assignedBy_of_registered hin
    rw [List.cons_append, List.findSome?_cons, List.findSome?_cons, hy, ih hr']
    cases shownBy hasher u y <;> rfl

theorem faithful_iff_kept {h : History LoopState Event} {s : LoopState}
    (hr : (machine hasher serverSocket).Run h s) :
    Faithful hasher h s ↔ VisibilitiesKept hasher h s := by
  constructor
  · rintro hf newer x older u p e role v rfl hcmd hok row hrow rfl
    have hrow := hf row hrow
    rw [assigned_eq_shown hr hcmd hok, Option.some.injEq] at hrow
    exact hrow.symm
  · intro hkept row hrow
    obtain ⟨newer, x, older, p, e, role, v, rfl, hcmd, hok⟩ := registered_run hr row hrow
    rw [assigned_eq_shown hr hcmd hok, hkept newer x older _ p e role v rfl hcmd hok row hrow rfl]

/-! ## What an account decides -/

/-- The only row with a property that no two rows may share. -/
theorem filter_eq_singleton {ρ : Type} {c : Constraints ρ} (t : Table c) {p : ρ → Bool} {a : ρ}
    (ha : a ∈ t.rows) (hp : p a = true)
    (hclash : ∀ r r', p r = true → p r' = true → c.clash r r' = true) : t.rows.filter p = [a] := by
  have hunique := t.unique.filter p
  have hin : a ∈ t.rows.filter p := List.mem_filter.mpr ⟨ha, hp⟩
  have hall : ∀ r ∈ t.rows.filter p, p r = true := fun r hr => (List.mem_filter.mp hr).2
  generalize t.rows.filter p = l at hunique hin hall
  cases l with
  | nil => cases hin
  | cons b l =>
    cases l with
    | nil => rw [List.mem_singleton.mp hin]
    | cons b' l =>
      -- two of them would clash
      have hfree := (List.pairwise_cons.mp hunique).1 b' (List.mem_cons_self ..)
      rw [hclash b b' (hall b (by simp)) (hall b' (by simp))] at hfree
      cases hfree

/-- The account is in the table as registered, once under its name and once under its email;
the digest of its password decides who may log in as `u`; and neither name nor email is free. -/
structure Durable (hasher : Text → Nat) (s : LoopState) (id : Int) (u p e role : Text) : Prop where
  row : ∃ row, s.app.db.users.rows.filter (·.username == u) = [row] ∧
    s.app.db.users.rows.filter (·.email == e) = [row] ∧ row.userId = id ∧
    row.password = Database.Hashpassword hasher p ∧ row.userType = role
  login : ∀ (env : Env) (sd : Int) (q : Text), env.fails .authenticateUser 0 = false →
    s.app.sessions.sessions sd = none → q ≠ [] →
      (isOk (execute hasher env sd s.app (.login u q)).1 = true ↔
        Database.Hashpassword hasher q = Database.Hashpassword hasher p)
  taken : ∀ (env : Env) (sd : Int) (u' p' e' role' v' : Text), u' = u ∨ e' = e →
    isError (execute hasher env sd s.app (.register u' p' e' role' v')).1 = true

section

variable {env : Env} {sd : Int} {a : App} {row : UserRow}

/-- Only passwords with the stored digest log in. -/
theorem login_iff (hrow : row ∈ a.db.users.rows) (hname : row.username ≠ [])
    (he : env.fails .authenticateUser 0 = false) (hs : a.sessions.sessions sd = none) {q : Text}
    (hq : q ≠ []) :
    isOk (LoginCommand.execute hasher env sd a row.username q).1 = true ↔
      Database.Hashpassword hasher q = row.password := by
  unfold LoginCommand.execute
  rw [if_neg (by simp [hname, hq]), SessionManager.isAuthenticated_eq_false hs,
    if_neg Bool.false_ne_true]
  constructor
  · intro hok
    split at hok
    next => cases hok
    next user hauth =>
      obtain ⟨row', hrow', hname', hpw, _⟩ := authenticateUser_eq_some hauth
      rw [← eq_of_username hrow' hrow hname', hpw]
  · intro hpw
    rw [authenticateUser_of_row he hrow hpw.symm]
    rfl

/-- A name or an email that is taken cannot be registered. -/
theorem register_taken (hrow : row ∈ a.db.users.rows) {u p e role v : Text}
    (htaken : u = row.username ∨ e = row.email) :
    isError (RegisterCommand.execute hasher env a u p e role v).1 = true := by
  unfold RegisterCommand.execute
  split
  · rfl
  · split
    · rfl
    · split
      · rfl
      · split
        next => rfl
        next db hreg =>
          obtain ⟨hfit, _⟩ := registerUser_true hreg
          rcases htaken with rfl | rfl
          · exact ((hfit row hrow).1 rfl).elim
          · exact ((hfit row hrow).2 rfl).elim

end

/-- A registered account is durable. -/
theorem durable_of_row {s : LoopState} {id : Int} {u p e role shown : Text} (hu : u ≠ [])
    (hrow : (⟨id, u, Database.Hashpassword hasher p, e, role, shown⟩ : UserRow) ∈
      s.app.db.users.rows) : Durable hasher s id u p e role where
  row := by
    refine ⟨_, filter_eq_singleton s.app.db.users.toTable hrow (beq_self_eq_true u) ?_,
      filter_eq_singleton s.app.db.users.toTable hrow (beq_self_eq_true e) ?_, rfl, rfl, rfl⟩
    · intro r r' hr hr'
      simp [usersConstraints, beq_iff_eq.mp hr, beq_iff_eq.mp hr']
    · intro r r' hr hr'
      simp [usersConstraints, beq_iff_eq.mp hr, beq_iff_eq.mp hr']
  login _ _ _ he hs hq := login_iff hrow hu he hs hq
  taken _ _ _ _ _ _ _ htaken := register_taken hrow htaken

/-- **Accounts are unique, durable and, but for their visibility, immutable.** After every
run, each account registered in it is in the table as it was registered and decides the
logins and registrations to come. And in all states the run has been in, its visibility is
the one asked for last, if and only if every visibility update of the run does what it is
meant to. -/
theorem accounts_durable_iff {h : History LoopState Event} {s : LoopState}
    (hr : (machine hasher serverSocket).Run h s) :
    (∀ newer x older u p e role v, h = newer ++ x :: older →
      commandOf x = some (.register u p e role v) → repliedOk hasher x = true →
        Durable hasher s (x.pre.app.db.users.seq + 1) u p e role) ∧
    ((∀ h' s', (machine hasher serverSocket).Run h' s' → h' <:+ h →
        VisibilitiesKept hasher h' s') ↔
      ∀ x ∈ h, Lands hasher x) := by
  constructor
  · rintro newer x older u p e role v rfl hcmd hok
    obtain ⟨shown, hrow⟩ := account_run hr hcmd hok
    refine durable_of_row ?_ hrow
    -- an OK `register` has checked its arguments
    obtain ⟨i, env, data, reply, _, hreply, hw⟩ := write_of_command hasher hcmd
    rw [hreply] at hok
    generalize (next hasher x.pre x.event).app.db = db' at hw
    cases hw with
    | unchanged hno => cases hno hok
    | register hu => exact hu
  · rw [← faithful_run hr]
    exact forall₂_congr fun h' s' => imp_congr_right fun hr' =>
      imp_congr_right fun _ => (faithful_iff_kept hr').symm

/-- An update that happens lands if the ids fit. -/
theorem updateLands_of_fits {base : List UserRow} {row : UserRow} {v : Text}
    (hfit : 0 < row.userId ∧ row.userId ≤ intMax)
    (hunique : ∀ r ∈ base, r.userId = row.userId → r = row) : UpdateLands true base row v := by
  have hid : columnInt row.userId = row.userId := by
    refine narrow_of_fits ?_
    unfold intMin
    omega
  refine ⟨Or.inr ⟨rfl, hid⟩, fun _ r hr hr' hne => ?_⟩
  rw [hid] at hr'
  exact (hne (hunique r hr hr')).elim

/-- **Without failures and with fewer than `2 ^ 31` users every step lands.** -/
theorem lands_of_sound {x : Step LoopState Event} (hsound : SoundStep x)
    (hfew : x.pre.app.db.users.seq < intMax) : Lands hasher x := by
  have hnonneg := x.pre.app.db.users.nonneg
  intro _ i env data he
  have henv := hsound.env he
  split
  next u p e role v hcmd =>
    rw [henv, henv]
    refine updateLands_of_fits ⟨?_, ?_⟩ fun r hr hid => ?_
    · show 0 < x.pre.app.db.users.seq + 1
      omega
    · show x.pre.app.db.users.seq + 1 ≤ intMax
      omega
    · rcases List.mem_append.mp hr with hr | hr
      · exact (x.pre.app.db.users.id_ne_next hr hid).elim
      · exact List.mem_singleton.mp hr
  next v hcmd =>
    intro row hrow _
    have hbound := x.pre.app.db.users.bounded row hrow
    rw [henv]
    refine updateLands_of_fits ⟨hbound.1, by omega⟩ fun r hr hid => ?_
    exact x.pre.app.db.users.eq_of_clash hr hrow (by simp [usersConstraints, hid])
  next => trivial

/-- A private account whose owner makes it public, and one more. -/
def ownerEvents : List Event :=
  [.accept 4, .line 0 "register a p a@x normal private\n",
    .line 0 "register b p b@x admin public\n", .line 0 "login a p\n",
    .line 0 "set_visibility public\n", .line 0 "logout\n"]

theorem accounts_durable_iff_owner :
    ∃ h s, (machine List.length 3).Run h s ∧ h.length = 6 ∧
      ∀ h' s', (machine List.length 3).Run h' s' → h' <:+ h →
        VisibilitiesKept List.length h' s' := by
  obtain ⟨h, s, _, hrun, hsound, hlen, hfew⟩ := runEvents_exists List.length 3 ownerEvents
    (p := fun h _ => h.length = 6 ∧ ∀ x ∈ h, x.pre.app.db.users.seq < 2147483647)
    (by simp [ownerEvents]) (by decide)
  exact ⟨h, s, hrun, hlen,
    (accounts_durable_iff hrun).2.mpr fun x hx => lands_of_sound (hsound x hx) (hfew x hx)⟩

/-- The update of a registration fails unnoticed. -/
def unshownEvents : List Event :=
  [.accept 4,
    .recv 0 (.failing .updateProfileVisibility) (bytes "register a p a@x normal private\n")]

/-- **A visibility is not always the one asked for.** -/
theorem visibility_not_kept :
    ¬ ∀ (hasher : Text → Nat) (serverSocket : Int) (h : History LoopState Event) (s : LoopState),
      (machine hasher serverSocket).Run h s → VisibilitiesKept hasher h s := by
  intro hall
  have hevents : ∀ e ∈ unshownEvents, True := fun _ _ => trivial
  obtain ⟨⟨h, s⟩, _, hrun, _, ⟨x, hx, hcmd, hok⟩, hrows⟩ := Machine.Run.replay_exists
    (M := machine List.length 3)
    (p := fun r => (∃ x ∈ r.1.head?, commandOf x = some (.register (bytes "a") (bytes "p")
        (bytes "a@x") (bytes "normal") (bytes "private")) ∧ repliedOk List.length x = true) ∧
      r.2.app.db.users.rows = [⟨1, bytes "a", bytes "1", bytes "a@x", bytes "normal",
        bytes "public"⟩])
    hevents (by decide)
  obtain ⟨older, rfl⟩ := List.head?_eq_some_iff.mp hx
  have hshown := hall _ _ _ _ hrun [] x older _ _ _ _ _ rfl hcmd hok
    ⟨1, bytes "a", bytes "1", bytes "a@x", bytes "normal", bytes "public"⟩
    (hrows ▸ List.mem_singleton_self _) rfl
  exact absurd hshown (by decide)

end SocialNetwork.Server
