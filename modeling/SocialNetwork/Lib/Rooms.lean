import Mathlib.Data.Set.Insert
import Mathlib.Data.Set.Subsingleton
import Mathlib.Logic.Function.Basic

/-!
# Rooms with invitations

The abstract purpose of conversations, over any types of rooms and members: a room is
created with its founders, and any of its members may invite further ones. The state
is the fold of a log of events, newest first (`after`); a log is `Valid` if every
event was possible when it happened.

* `after_append`: a room stays, and gains exactly the guests invited since.
* `provenance`: every member was a founder or was invited by a member, so a chain of
  invitations leads back to the creation.
* `shared_after`: rooms founded by several are rooms of several ever after.
-/

namespace SocialNetwork.Lib

variable {ι α : Type}

inductive RoomEvent (ι α : Type)
  | idle
  | create (room : ι) (founders : Set α)
  | invite (room : ι) (host guest : α)

/-- The members of each room; `none` for a room that does not exist. -/
abbrev Rooms (ι α : Type) := ι → Option (Set α)

namespace Rooms

/-- `a` is a member of the existing room `c`. -/
def Inside (s : Rooms ι α) (c : ι) (a : α) : Prop := ∃ m, s c = some m ∧ a ∈ m

/-- The guests invited to a room in a log. -/
def guests (log : List (RoomEvent ι α)) (c : ι) : Set α :=
  { g | ∃ host, RoomEvent.invite c host g ∈ log }

/-- Events of other kinds and other rooms add no guests. -/
theorem guests_cons_of_ne {e : RoomEvent ι α} {c : ι} (he : ∀ host g, e ≠ .invite c host g)
    (log : List (RoomEvent ι α)) : guests (e :: log) c = guests log c := by
  ext g
  constructor
  · intro ⟨host, hin⟩
    rcases List.mem_cons.mp hin with heq | hin
    · exact absurd heq.symm (he host g)
    · exact ⟨host, hin⟩
  · intro ⟨host, hin⟩
    exact ⟨host, List.mem_cons_of_mem _ hin⟩

theorem guests_cons_invite (c : ι) (host g : α) (log : List (RoomEvent ι α)) :
    guests (.invite c host g :: log) c = insert g (guests log c) := by
  ext a
  constructor
  · intro ⟨host', hin⟩
    rcases List.mem_cons.mp hin with heq | hin
    · cases heq
      exact Set.mem_insert _ _
    · exact Set.mem_insert_of_mem _ ⟨host', hin⟩
  · intro hin
    rcases Set.mem_insert_iff.mp hin with rfl | ⟨host', hin⟩
    · exact ⟨host, List.mem_cons_self ..⟩
    · exact ⟨host', List.mem_cons_of_mem _ hin⟩

variable [DecidableEq ι]

/-- Rooms are created under new names, invitations are made by members. -/
def guard (s : Rooms ι α) : RoomEvent ι α → Prop
  | .idle => True
  | .create c _ => s c = none
  | .invite c host _ => s.Inside c host

def apply (s : Rooms ι α) : RoomEvent ι α → Rooms ι α
  | .idle => s
  | .create c founders => Function.update s c (some founders)
  | .invite c _ guest => Function.update s c ((s c).map (insert guest))

/-- The rooms after a log of events, the newest at its head. -/
def after : List (RoomEvent ι α) → Rooms ι α
  | [] => fun _ => none
  | e :: log => (after log).apply e

/-- Every event of the log was possible when it happened. -/
def Valid : List (RoomEvent ι α) → Prop
  | [] => True
  | e :: log => (after log).guard e ∧ Valid log

/-- An existing room stays, and gains exactly the guests invited since. -/
theorem after_append {newer older : List (RoomEvent ι α)} {c : ι} {m : Set α}
    (hv : Valid (newer ++ older)) (hc : after older c = some m) :
    after (newer ++ older) c = some (m ∪ guests newer c) := by
  induction newer with
  | nil =>
    have hnone : guests ([] : List (RoomEvent ι α)) c = ∅ := by
      ext g
      simp [guests]
    rw [hnone, Set.union_empty]
    exact hc
  | cons e newer ih =>
    have hrest := ih hv.2
    show (after (newer ++ older)).apply e c = _
    cases e with
    | idle =>
      rw [guests_cons_of_ne (by simp)]
      exact hrest
    | create d founders =>
      -- the name of an existing room is not given out again
      have hne : c ≠ d := by
        intro heq
        have hfree : after (newer ++ older) d = none := hv.1
        rw [← heq, hrest] at hfree
        cases hfree
      rw [guests_cons_of_ne (by simp), apply, Function.update_of_ne hne]
      exact hrest
    | invite d host g =>
      by_cases hcd : c = d
      · subst hcd
        rw [guests_cons_invite, apply, Function.update_self, hrest, Option.map_some,
          Set.union_insert]
      · rw [guests_cons_of_ne, apply, Function.update_of_ne hcd]
        · exact hrest
        · intro host' g' heq
          cases heq
          exact hcd rfl

/-- How a member came into a room, as the chain of invitations. -/
inductive Provenance : List (RoomEvent ι α) → ι → α → Prop
  | founder (newer : List (RoomEvent ι α)) {older : List (RoomEvent ι α)} {c : ι}
      {founders : Set α} {a : α} (ha : a ∈ founders) :
      Provenance (newer ++ .create c founders :: older) c a
  | guest (newer : List (RoomEvent ι α)) {older : List (RoomEvent ι α)} {c : ι} {host a : α}
      (hin : (after older).Inside c host) (hhost : Provenance older c host) :
      Provenance (newer ++ .invite c host a :: older) c a

/-- Later events do not change how a member came in. -/
theorem Provenance.cons {log : List (RoomEvent ι α)} {c : ι} {a : α}
    (h : Provenance log c a) (e : RoomEvent ι α) : Provenance (e :: log) c a := by
  cases h with
  | founder newer ha => exact .founder (e :: newer) ha
  | guest newer hin hhost => exact .guest (e :: newer) hin hhost

/-- **Every member has a provenance.** -/
theorem provenance {log : List (RoomEvent ι α)} (hv : Valid log) {c : ι} {a : α}
    (ha : (after log).Inside c a) : Provenance log c a := by
  induction log generalizing a with
  | nil =>
    obtain ⟨m, hm, _⟩ := ha
    cases hm
  | cons e log ih =>
    obtain ⟨m, hm, hin⟩ := ha
    cases e with
    | idle => exact (ih hv.2 ⟨m, hm, hin⟩).cons _
    | create d founders =>
      by_cases hcd : c = d
      · subst hcd
        rw [after, apply, Function.update_self, Option.some.injEq] at hm
        exact Provenance.founder [] (hm ▸ hin)
      · rw [after, apply, Function.update_of_ne hcd] at hm
        exact (ih hv.2 ⟨m, hm, hin⟩).cons _
    | invite d host g =>
      by_cases hcd : c = d
      · subst hcd
        rw [after, apply, Function.update_self] at hm
        obtain ⟨m₀, hm₀, rfl⟩ := Option.map_eq_some_iff.mp hm
        -- the guest just invited, or a member from before
        rcases Set.mem_insert_iff.mp hin with rfl | hin
        · exact Provenance.guest [] hv.1 (ih hv.2 hv.1)
        · exact (ih hv.2 ⟨m₀, hm₀, hin⟩).cons _
      · rw [after, apply, Function.update_of_ne hcd] at hm
        exact (ih hv.2 ⟨m, hm, hin⟩).cons _

/-- Every room has two different members. -/
def Shared (s : Rooms ι α) : Prop := ∀ c m, s c = some m → m.Nontrivial

/-- Invitations only add members. -/
theorem Shared.apply {s : Rooms ι α} {e : RoomEvent ι α} (h : s.Shared)
    (he : ∀ c founders, e = .create c founders → founders.Nontrivial) : (s.apply e).Shared := by
  intro c m hm
  cases e with
  | idle => exact h c m hm
  | create d founders =>
    by_cases hcd : c = d
    · rw [hcd, Rooms.apply, Function.update_self, Option.some.injEq] at hm
      exact hm ▸ he d founders rfl
    · rw [Rooms.apply, Function.update_of_ne hcd] at hm
      exact h c m hm
  | invite d host g =>
    by_cases hcd : c = d
    · rw [hcd, Rooms.apply, Function.update_self] at hm
      obtain ⟨m₀, hm₀, rfl⟩ := Option.map_eq_some_iff.mp hm
      exact (h d m₀ hm₀).mono (Set.subset_insert g m₀)
    · rw [Rooms.apply, Function.update_of_ne hcd] at hm
      exact h c m hm

/-- **Rooms founded by several stay shared.** -/
theorem shared_after {log : List (RoomEvent ι α)}
    (h : ∀ c founders, RoomEvent.create c founders ∈ log → founders.Nontrivial) :
    (after log).Shared := by
  induction log with
  | nil =>
    intro c m hm
    cases hm
  | cons e log ih =>
    refine (ih fun c founders hin => h c founders (List.mem_cons_of_mem _ hin)).apply ?_
    rintro c founders rfl
    exact h c founders (List.mem_cons_self ..)

/-- The founders of a shared room are several. -/
theorem nontrivial_of_shared {s : Rooms ι α} {c : ι} {founders : Set α}
    (h : (s.apply (.create c founders)).Shared) : founders.Nontrivial :=
  h c founders (Function.update_self ..)

end Rooms

end SocialNetwork.Lib
