import SocialNetwork.Lib.Lines
import SocialNetwork.Messaging.Membership

/-!
# What `chats` lists

`chats` asks for the ids of the caller's conversations and then, one by one, for their
participants. Unless a statement fails the ids are those of the conversations the caller
participates in, each once, narrowed to `int` (`getUserConversations_perm`), and the names
are the participants (`getConversationParticipants_perm`). The response is one line per
conversation (`chats_lines_eq`).
-/

namespace SocialNetwork.Server

open SocialNetwork.Lib

variable {env : Env} {db : Db} {u : Text} {c : Int} {i : Nat}

/-- The ids in the rows of the join. -/
def ownConversations (db : Db) (u : Text) : List Int := (Database.joinedOwn db u).map (·.1)

theorem ownConversations_eq (db : Db) (u : Text) :
    ownConversations db u = (db.participants.rows.filter (·.username == u)).flatMap fun cp =>
      (db.conversations.rows.filter (·.conversationId == cp.conversationId)).map
        (·.conversationId) := by
  unfold ownConversations Database.joinedOwn
  rw [List.map_flatMap]
  refine List.flatMap_congr fun cp _ => ?_
  rw [List.map_map]
  refine List.map_congr_left fun row hrow => ?_
  rw [List.mem_filter, beq_iff_eq] at hrow
  exact hrow.2.symm

theorem mem_ownConversations : c ∈ ownConversations db u ↔ Exists db c ∧ Member db c u := by
  rw [ownConversations_eq, List.mem_flatMap]
  constructor
  · rintro ⟨cp, hcp, hc⟩
    obtain ⟨row, hrow, rfl⟩ := List.mem_map.mp hc
    rw [List.mem_filter, beq_iff_eq] at hcp hrow
    obtain ⟨hcp, rfl⟩ := hcp
    refine ⟨⟨row, hrow.1, rfl⟩, ?_⟩
    rw [hrow.2]
    exact hcp
  · rintro ⟨⟨row, hrow, rfl⟩, hm⟩
    exact ⟨_, List.mem_filter.mpr ⟨hm, beq_self_eq_true u⟩,
      List.mem_map.mpr ⟨row, List.mem_filter.mpr ⟨hrow, beq_self_eq_true _⟩, rfl⟩⟩

/-- **Every conversation is joined once.** -/
theorem ownConversations_nodup (db : Db) (u : Text) : (ownConversations db u).Nodup := by
  have hids : (db.conversations.rows.map (·.conversationId)).Nodup := by
    refine List.pairwise_map.mpr (db.conversations.unique.imp ?_)
    intro a b hclash heq
    rw [show conversationsConstraints.clash a b = (a.conversationId == b.conversationId) from rfl,
      heq] at hclash
    simp at hclash
  rw [ownConversations_eq, List.nodup_flatMap]
  constructor
  · intro cp _
    exact hids.sublist (List.filter_sublist.map _)
  · refine ((participants_nodup db).filter _).imp_of_mem ?_
    intro a b ha hb hne d hda hdb
    obtain ⟨row, hrow, rfl⟩ := List.mem_map.mp hda
    obtain ⟨row', hrow', heq⟩ := List.mem_map.mp hdb
    rw [List.mem_filter, beq_iff_eq] at ha hb hrow hrow'
    obtain ⟨e, w⟩ := a
    obtain ⟨e', w'⟩ := b
    exact hne (congrArg₂ ParticipantRow.mk (hrow.2.symm.trans (heq.symm.trans hrow'.2))
      (ha.2.trans hb.2.symm))

theorem getUserConversations_perm (h : env.fails .getUserConversations 0 = false) :
    (Database.getUserConversations env db u).Perm ((ownConversations db u).map columnInt) := by
  unfold Database.getUserConversations ownConversations
  rw [select_done h, List.map_map]
  exact ((orderBy_perm _ _).trans (arrange_perm _ _)).map _

/-- The ids were read into an `int`. -/
theorem getUserConversations_fits (h : c ∈ Database.getUserConversations env db u) :
    intMin ≤ c ∧ c ≤ intMax := by
  obtain ⟨r, _, rfl⟩ := List.mem_map.mp h
  exact narrow_fits _

theorem getUserConversations_fails (h : env.fails .getUserConversations 0 = true) :
    Database.getUserConversations env db u = [] := by
  unfold Database.getUserConversations select
  rw [h]
  rfl

theorem getConversationParticipants_perm (h : env.fails .getConversationParticipants i = false) :
    (Database.getConversationParticipants env i db c).Perm (participantsOf db c) := by
  unfold Database.getConversationParticipants participantsOf
  rw [select_done h]
  exact (arrange_perm _ _).map _

theorem getConversationParticipants_fails (h : env.fails .getConversationParticipants i = true) :
    Database.getConversationParticipants env i db c = [] := by
  unfold Database.getConversationParticipants select
  rw [h]
  rfl

/-- Whatever fails, only participants are named. -/
theorem member_of_getConversationParticipants {w : Text}
    (h : w ∈ Database.getConversationParticipants env i db c) : Member db c w := by
  obtain ⟨r, hr, rfl⟩ := List.mem_map.mp h
  have hrow := mem_of_mem_select hr
  rw [List.mem_filter, beq_iff_eq] at hrow
  obtain ⟨hrow, rfl⟩ := hrow
  exact hrow

/-- The names `chats` writes on the line of the `x.2`-th conversation, whose id is `x.1`. -/
def listedNames (env : Env) (db : Db) (x : Int × Nat) : Text :=
  ChatsCommand.names (Database.getConversationParticipants env x.2 db x.1)

/-- That line without its newline. -/
def chatsBody (env : Env) (db : Db) (x : Int × Nat) : Text :=
  bytes "[" ++ intText x.1 ++ bytes "] " ++ listedNames env db x

/-- **The lines of `chats`.** -/
theorem chats_lines_eq (env : Env) (a : App) (convs : List Int) (i : Nat) :
    ChatsCommand.lines env a i convs = unlines 10 ((convs.zipIdx i).map (chatsBody env a.db)) := by
  induction convs generalizing i with
  | nil => rfl
  | cons c convs ih =>
    rw [ChatsCommand.lines, ih, List.zipIdx_cons, List.map_cons, unlines_cons]
    exact List.append_assoc ..

end SocialNetwork.Server
