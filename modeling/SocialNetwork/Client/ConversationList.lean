import SocialNetwork.Client.MessagesWindow
import SocialNetwork.Messaging.Listing
import SocialNetwork.Server.Feed
import SocialNetwork.Server.Integrity

/-!
# The conversation list, decoded

`loadConversations` reads the id between the brackets of a line and shows the rest, marked
as private if it has one comma. No username has a blank in it, so the names can be told
apart (`shownNames_names`) and the ids come back. But names may have commas, which count
as separators (`marked_iff`): `conversation_list_iff` says when the list is right.
-/

namespace SocialNetwork.Client

open SocialNetwork.Lib SocialNetwork.Server

/-! ## The names on a label -/

/-- The mark of a conversation with that many participants. -/
def label (participants : Nat) : Text :=
  if participants = 2 then bytes "💬 " else bytes "👥 Group\n"

theorem displayText_eq (users : Text) :
    displayText users = label (1 + users.count 44) ++ users := by
  unfold displayText label
  split
  · rfl
  · rfl

/-- A label says which mark it has and what follows. -/
theorem label_append_inj {m n : Nat} {users users' : Text}
    (h : label m ++ users = label n ++ users') : (m = 2 ↔ n = 2) ∧ users = users' := by
  have hprivate : bytes "💬 " = [240, 159, 146, 172, 32] := rfl
  have hgroup : bytes "👥 Group\n" =
      [240, 159, 145, 165, 32, 71, 114, 111, 117, 112, 10] := rfl
  unfold label at h
  rw [hprivate, hgroup] at h
  split at h
  next hm =>
    split at h
    next hn => exact ⟨iff_of_true hm hn, List.append_cancel_left h⟩
    next => simp at h
  next hm =>
    split at h
    next => simp at h
    next hn => exact ⟨iff_of_false hm hn, List.append_cancel_left h⟩

/-- The names shown after the mark: what the blanks separate, each without its comma. -/
def shownNames (users : Text) : List Text := ((users ++ [44]).splitOn 32).map List.dropLast

theorem names_cons (w w' : Text) (ws : List Text) :
    ChatsCommand.names (w :: w' :: ws) = w ++ [44] ++ 32 :: ChatsCommand.names (w' :: ws) := by
  unfold ChatsCommand.names
  rw [List.intercalate_cons_cons, List.append_assoc, List.append_assoc]
  rfl

/-- **Names without blanks can be told apart.** -/
theorem shownNames_names {ws : List Text} (hne : ws ≠ []) (hw : ∀ w ∈ ws, 32 ∉ w) :
    shownNames (ChatsCommand.names ws) = ws := by
  -- the comma of a name does not count, and neither does the one added at the end
  have hcomma : ∀ {w : Text}, 32 ∉ w → 32 ∉ w ++ [44] := by
    intro w hw hin
    rcases List.mem_append.mp hin with hin | hin
    · exact hw hin
    · exact absurd hin (by decide)
  induction ws with
  | nil => exact (hne rfl).elim
  | cons w ws ih =>
    have hhead := hcomma (hw w (List.mem_cons_self ..))
    cases ws with
    | nil =>
      unfold shownNames ChatsCommand.names
      rw [List.intercalate_singleton, List.splitOn_eq_singleton hhead, List.map_singleton,
        List.dropLast_concat]
    | cons w' ws =>
      have htail := ih (List.cons_ne_nil _ _) fun v hv => hw v (List.mem_cons_of_mem _ hv)
      unfold shownNames at htail ⊢
      rw [names_cons, List.append_assoc, List.cons_append,
        List.splitOn_append_cons_self_of_not_mem hhead, List.map_cons, List.dropLast_concat, htail]

/-- One comma for each separator, and those of the names. -/
theorem count_names {ws : List Text} (hne : ws ≠ []) :
    1 + (ChatsCommand.names ws).count 44 = ws.length + ws.flatten.count 44 := by
  induction ws with
  | nil => exact (hne rfl).elim
  | cons w ws ih =>
    cases ws with
    | nil =>
      unfold ChatsCommand.names
      simp [List.intercalate_singleton]
    | cons w' ws =>
      have htail := ih (List.cons_ne_nil _ _)
      have hline : ∀ names : Text, (w ++ [44] ++ 32 :: names).count 44 =
          w.count 44 + 1 + names.count 44 := by
        intro names
        simp [List.count_append]
        omega
      rw [names_cons, hline, List.flatten_cons, List.count_append, List.length_cons]
      omega

/-- No name of a pair has a comma, and a lone name does not have exactly one. -/
structure Markable (ws : List Text) : Prop where
  pair : ws.length = 2 → ∀ w ∈ ws, 44 ∉ w
  lone : ∀ w, ws = [w] → w.count 44 ≠ 1

instance (ws : List Text) : Decidable (Markable ws) :=
  decidable_of_iff ((ws.length = 2 → ∀ w ∈ ws, 44 ∉ w) ∧ ∀ w ∈ ws, ws = [w] → w.count 44 ≠ 1)
    ⟨fun h => ⟨h.1, fun w hw => h.2 w (by rw [hw]; exact List.mem_singleton_self w) hw⟩,
      fun h => ⟨h.pair, fun w _ => h.lone w⟩⟩

/-- The order of the names plays no part in it. -/
theorem Markable.perm {ws ws' : List Text} (h : Markable ws) (hp : ws.Perm ws') : Markable ws' where
  pair hlen w hw := h.pair (hp.length_eq.trans hlen) w (hp.mem_iff.mpr hw)
  lone w hw := h.lone w (List.perm_singleton.mp (hw ▸ hp))

/-- **When the mark is right.** -/
theorem marked_iff {ws : List Text} (hne : ws ≠ []) :
    (1 + (ChatsCommand.names ws).count 44 = 2 ↔ ws.length = 2) ↔ Markable ws := by
  have hcount := count_names hne
  have hclean : ws.flatten.count 44 = 0 ↔ ∀ w ∈ ws, 44 ∉ w := by
    rw [List.count_eq_zero, List.mem_flatten]
    exact ⟨fun hno w hw hin => hno ⟨w, hw, hin⟩, fun hno ⟨w, hw, hin⟩ => hno w hw hin⟩
  have hboth : Markable ws ↔ (ws.length = 2 → ∀ w ∈ ws, 44 ∉ w) ∧ ∀ w, ws = [w] → w.count 44 ≠ 1 :=
    ⟨fun h => ⟨h.pair, h.lone⟩, fun h => ⟨h.1, h.2⟩⟩
  rw [hboth, ← hclean, hcount]
  cases ws with
  | nil => exact (hne rfl).elim
  | cons w ws =>
    cases ws with
    | nil =>
      rw [List.flatten_singleton]
      simp
      omega
    | cons w' ws =>
      have hlone : ∀ v, w :: w' :: ws = [v] → v.count 44 ≠ 1 := by
        intro v hv
        cases hv
      rw [and_iff_left hlone]
      simp only [List.length_cons]
      omega

/-! ## The items of a response -/

/-- The item of the `x.2`-th conversation, whose id is `x.1`. -/
def shownItem (env : Env) (db : Db) (x : Int × Nat) : Item :=
  ⟨displayText (listedNames env db x), x.1⟩

def shownItems (env : Env) (db : Db) (u : Text) : List Item :=
  (Database.getUserConversations env db u).zipIdx.map (shownItem env db)

theorem loadLines_map {α : Type} {f : α → Text} {g : α → Item} {xs : List α}
    (h : ∀ x ∈ xs, parseLine (f x) = .item (g x)) : loadLines (xs.map f) = some (xs.map g) := by
  induction xs with
  | nil => rfl
  | cons x xs ih =>
    rw [List.map_cons, loadLines, h x (List.mem_cons_self ..)]
    dsimp only
    rw [ih fun y hy => h y (List.mem_cons_of_mem _ hy)]
    rfl

section

variable {hasher : Text → Nat} {serverSocket : Int} {h : History LoopState Event} {s : LoopState}
  {env : Env} {sd : Int} {u : Text}

/-- Participants have names of at least one byte, without white space. -/
theorem member_named (hr : (machine hasher serverSocket).Run h s) {c : Int} {w : Text}
    (hw : Member s.app.db c w) : w ≠ [] ∧ IsWord w :=
  (named_run hr).registered ((grounded_run hr).1.participants _ hw)

theorem chatsBody_line (hr : (machine hasher serverSocket).Run h s) (x : Int × Nat) :
    10 ∉ chatsBody env s.app.db x := by
  have hnames : IsContent (listedNames env s.app.db x) := by
    intro b hb
    rcases mem_intercalate hb with hsep | ⟨w, hw, hin⟩
    · exact (by decide : IsContent (bytes ", ")) b hsep
    · exact (member_named hr (member_of_getConversationParticipants hw)).2.isContent b hin
  have hbody : IsContent (chatsBody env s.app.db x) := by
    unfold chatsBody
    exact .append (.append (.append (by decide) (isContent_intText _)) (by decide)) hnames
  exact fun hin => (hbody 10 hin).1 rfl

/-- **The complete response is decoded to one item per conversation of the query.** -/
theorem loadConversations_chats (hr : (machine hasher serverSocket).Run h s)
    (hs : s.app.sessions.sessions sd = some u) :
    loadConversations (ChatsCommand.execute env sd s.app) =
      some (shownItems env s.app.db u) := by
  obtain ⟨hauth, hname⟩ := SessionManager.sessions_eq_some hs
  unfold ChatsCommand.execute shownItems
  rw [hauth, hname, if_neg (by decide)]
  dsimp only
  split
  next hnil =>
    rw [List.isEmpty_iff.mp hnil]
    rfl
  next =>
    unfold loadConversations
    rw [chats_lines_eq, lines_unlines]
    · exact loadLines_map fun x hx =>
        parseLine_chats (getUserConversations_fits (List.fst_mem_of_mem_zipIdx hx)) _
    · intro l hl
      obtain ⟨x, _, rfl⟩ := List.mem_map.mp hl
      exact chatsBody_line hr x

/-! ## The round trip -/

/-- The label shows the participants of the conversation, each once, and the right mark. -/
def Labelled (db : Db) (i : Item) : Prop :=
  ∃ users, i.displayText = label (shownNames users).length ++ users ∧
    (shownNames users).Nodup ∧ ∀ w, w ∈ shownNames users ↔ Member db i.conversationId w

/-- The items are the conversations of `u`: each once and under its id, with all of its
participants, and marked as private if there are two of them. -/
structure Lists (db : Db) (u : Text) (items : List Item) : Prop where
  once : (items.map (·.conversationId)).Nodup
  complete : ∀ c, c ∈ items.map (·.conversationId) ↔ Exists db c ∧ Member db c u
  labelled : ∀ i ∈ items, Labelled db i

/-- What it takes: the statements of the command do not fail, the ids are `int`s, and commas
in names leave the marks alone. -/
structure Listable (env : Env) (db : Db) (u : Text) : Prop where
  query : ownConversations db u ≠ [] → env.fails .getUserConversations 0 = false
  lookups : ∀ i < (ownConversations db u).length, env.fails .getConversationParticipants i = false
  ids : ∀ c ∈ ownConversations db u, c ≤ intMax
  marks : ∀ c ∈ ownConversations db u, Markable (participantsOf db c)

instance (env : Env) (db : Db) (u : Text) : Decidable (Listable env db u) :=
  decidable_of_iff ((ownConversations db u ≠ [] → env.fails .getUserConversations 0 = false) ∧
      (∀ i < (ownConversations db u).length, env.fails .getConversationParticipants i = false) ∧
      (∀ c ∈ ownConversations db u, c ≤ intMax) ∧
      ∀ c ∈ ownConversations db u, Markable (participantsOf db c))
    ⟨fun h => ⟨h.1, h.2.1, h.2.2.1, h.2.2.2⟩, fun h => ⟨h.query, h.lookups, h.ids, h.marks⟩⟩

theorem shownItems_ids (env : Env) (db : Db) (u : Text) :
    (shownItems env db u).map (·.conversationId) = Database.getUserConversations env db u := by
  unfold shownItems
  rw [List.map_map]
  exact List.zipIdx_map_fst ..

theorem shownItem_mem {db : Db} {c : Int} {i : Nat}
    (hc : (Database.getUserConversations env db u)[i]? = some c) :
    shownItem env db (c, i) ∈ shownItems env db u :=
  List.mem_map_of_mem (List.mk_mem_zipIdx_iff_getElem?.mpr hc)

/-- The conversations of the query, if it does not fail and the ids fit. -/
theorem conversations_perm {db : Db} (hq : ownConversations db u ≠ [] →
      env.fails .getUserConversations 0 = false)
    (hids : ∀ c ∈ ownConversations db u, c ≤ intMax) :
    (Database.getUserConversations env db u).Perm (ownConversations db u) := by
  have hsame : (ownConversations db u).map columnInt = ownConversations db u := by
    conv_rhs => rw [← List.map_id (ownConversations db u)]
    refine List.map_congr_left fun c hc => ?_
    obtain ⟨row, hrow, rfl⟩ := (mem_ownConversations.mp hc).1
    have hpos := (db.conversations.bounded row hrow).1
    exact narrow_of_fits ⟨by unfold intMin; omega, hids _ hc⟩
  cases hfail : env.fails .getUserConversations 0 with
  | false =>
    have hperm := @getUserConversations_perm env db u hfail
    rwa [hsame] at hperm
  | true =>
    have hnil : ownConversations db u = [] := by
      by_contra hne
      rw [hq hne] at hfail
      cases hfail
    rw [getUserConversations_fails hfail, hnil]

/-- What the label of a conversation shows if the lookup of its participants does not fail. -/
theorem listedNames_done (hr : (machine hasher serverSocket).Run h s) {c : Int} {i : Nat}
    (hu : Member s.app.db c u) (hdone : env.fails .getConversationParticipants i = false) :
    ∃ ws, ws.Perm (participantsOf s.app.db c) ∧ ws ≠ [] ∧
      listedNames env s.app.db (c, i) = ChatsCommand.names ws ∧
      shownNames (listedNames env s.app.db (c, i)) = ws := by
  have hperm := @getConversationParticipants_perm env s.app.db c i hdone
  have hne : Database.getConversationParticipants env i s.app.db c ≠ [] :=
    List.ne_nil_of_mem (hperm.mem_iff.mpr (mem_participantsOf.mpr hu))
  refine ⟨_, hperm, hne, rfl, shownNames_names hne fun w hw => ?_⟩
  exact (member_named hr (member_of_getConversationParticipants hw)).2.not_mem (by decide)

/-- **The label of one item is right** exactly if its names allow it. -/
theorem labelled_iff (hr : (machine hasher serverSocket).Run h s) {c : Int} {i : Nat}
    (hu : Member s.app.db c u) (hdone : env.fails .getConversationParticipants i = false) :
    Labelled s.app.db (shownItem env s.app.db (c, i)) ↔ Markable (participantsOf s.app.db c) := by
  obtain ⟨ws, hperm, hne, hnames, hshown⟩ := listedNames_done hr hu hdone
  have hmark : (1 + (listedNames env s.app.db (c, i)).count 44 = 2 ↔ ws.length = 2) ↔
      Markable (participantsOf s.app.db c) := by
    rw [hnames, marked_iff hne]
    exact ⟨fun h => h.perm hperm, fun h => h.perm hperm.symm⟩
  rw [← hmark]
  unfold Labelled shownItem
  rw [displayText_eq]
  constructor
  · rintro ⟨users, htext, -, -⟩
    obtain ⟨hsame, rfl⟩ := label_append_inj htext
    rwa [hshown] at hsame
  · intro hsame
    refine ⟨listedNames env s.app.db (c, i), ?_, ?_, fun w => ?_⟩
    · rw [hshown]
      unfold label
      simp only [hsame]
    · rw [hshown]
      exact hperm.nodup_iff.mpr (participantsOf_nodup _ c)
    · rw [hshown, hperm.mem_iff, mem_participantsOf]

/-- A label without names is wrong. -/
theorem Labelled.lookup (hr : (machine hasher serverSocket).Run h s) {c : Int} {i : Nat}
    (hl : Labelled s.app.db (shownItem env s.app.db (c, i))) (hu : Member s.app.db c u) :
    env.fails .getConversationParticipants i = false := by
  rw [← Bool.not_eq_true]
  intro hfail
  obtain ⟨users, htext, -, hmem⟩ := hl
  unfold shownItem listedNames at htext
  dsimp only at htext
  rw [getConversationParticipants_fails hfail, displayText_eq] at htext
  obtain ⟨-, rfl⟩ := label_append_inj htext
  -- it shows one empty name
  have hnil := (hmem u).mpr hu
  exact (member_named hr hu).1 (List.mem_singleton.mp hnil)

/-- A right list shows what it takes. -/
theorem Lists.listable (hr : (machine hasher serverSocket).Run h s)
    (hl : Lists s.app.db u (shownItems env s.app.db u)) : Listable env s.app.db u := by
  have hcomplete : ∀ c, c ∈ Database.getUserConversations env s.app.db u ↔
      c ∈ ownConversations s.app.db u := by
    intro c
    rw [← shownItems_ids, hl.complete, mem_ownConversations]
  have hids : ∀ c ∈ ownConversations s.app.db u, c ≤ intMax := by
    intro c hc
    exact (getUserConversations_fits ((hcomplete c).mpr hc)).2
  have hquery : ownConversations s.app.db u ≠ [] → env.fails .getUserConversations 0 = false := by
    intro hne
    obtain ⟨c, hc⟩ := List.exists_mem_of_ne_nil _ hne
    rw [← Bool.not_eq_true]
    intro hfail
    have hnone := (hcomplete c).mpr hc
    rw [getUserConversations_fails hfail] at hnone
    cases hnone
  have hperm := conversations_perm hquery hids
  have hmember : ∀ {i c}, (Database.getUserConversations env s.app.db u)[i]? = some c →
      Member s.app.db c u := fun hc =>
    (mem_ownConversations.mp ((hcomplete _).mp (List.mem_of_getElem? hc))).2
  have hlookup : ∀ {i c}, (Database.getUserConversations env s.app.db u)[i]? = some c →
      env.fails .getConversationParticipants i = false := fun hc =>
    (hl.labelled _ (shownItem_mem hc)).lookup hr (hmember hc)
  refine ⟨hquery, fun i hi => ?_, hids, fun c hc => ?_⟩
  · rw [← hperm.length_eq] at hi
    exact hlookup (List.getElem?_eq_getElem hi)
  · obtain ⟨i, hi⟩ := List.getElem?_of_mem (hperm.mem_iff.mpr hc)
    exact (labelled_iff hr (hmember hi) (hlookup hi)).mp (hl.labelled _ (shownItem_mem hi))

/-- What it takes suffices. -/
theorem Listable.lists (hr : (machine hasher serverSocket).Run h s)
    (hl : Listable env s.app.db u) : Lists s.app.db u (shownItems env s.app.db u) := by
  have hperm := conversations_perm hl.query hl.ids
  refine ⟨?_, fun c => ?_, fun item hitem => ?_⟩
  · rw [shownItems_ids]
    exact hperm.nodup_iff.mpr (ownConversations_nodup _ u)
  · rw [shownItems_ids, hperm.mem_iff, mem_ownConversations]
  · obtain ⟨⟨c, i⟩, hx, rfl⟩ := List.mem_map.mp hitem
    have hc := hperm.mem_iff.mp (List.fst_mem_of_mem_zipIdx hx)
    have hlt := List.snd_lt_of_mem_zipIdx hx
    rw [Nat.add_zero, hperm.length_eq] at hlt
    exact (labelled_iff hr (mem_ownConversations.mp hc).2 (hl.lookups i hlt)).mpr (hl.marks c hc)

end

/-- A pair, and a group with commas in its names. -/
def commaEvents : List Event :=
  [.accept 4, .line 0 "register a p a@x normal public\n",
    .line 0 "register b p b@x normal public\n", .line 0 "register c,,]d p c@x normal public\n",
    .line 0 "login a p\n", .line 0 "chat b\n", .line 0 "group b c,,]d\n"]

/-- A chat with a user who has a comma in the name. -/
def commaChatEvents : List Event :=
  [.accept 4, .line 0 "register a p a@x normal public\n",
    .line 0 "register b,c p b@x normal public\n", .line 0 "login a p\n", .line 0 "chat b,c\n"]

end SocialNetwork.Client
