import Mathlib.Combinatorics.SimpleGraph.Operations

/-!
# Bonds by proposal and confirmation

The abstract purpose of a friendship protocol, over any type of parties: a party
proposes a bond to another one, who may confirm it. A `Handshake` is the graph of
the bonds and the relation of the open proposals. The graph is a `SimpleGraph`, so
that bonds are mutual and never reflexive by construction, and a proposal between
bonded parties cannot be expressed (`settled`).

`confirm` closes the proposal it answers. Its premise `hone`, that there is no
proposal the other way, is what keeps `settled`: confirming one of two crossed
proposals would leave the other one open between bonded parties.
-/

namespace SocialNetwork.Lib

/-- Mutual bonds, and the proposals that are still open. -/
structure Handshake (α : Type) where
  bonds : SimpleGraph α
  proposed : α → α → Prop
  distinct : ∀ a b, proposed a b → a ≠ b
  settled : ∀ a b, bonds.Adj a b → ¬ proposed a b

namespace Handshake

variable {α : Type}

/-- Neither bonds nor proposals. -/
def start : Handshake α where
  bonds := ⊥
  proposed _ _ := False
  distinct _ _ h := h.elim
  settled _ _ h := h.elim

/-- `a` proposes to `b`. -/
def propose (s : Handshake α) (a b : α) (hne : a ≠ b) (hfree : ¬ s.bonds.Adj a b) :
    Handshake α where
  bonds := s.bonds
  proposed x y := s.proposed x y ∨ (x = a ∧ y = b)
  distinct x y h := by
    rcases h with h | ⟨rfl, rfl⟩
    · exact s.distinct x y h
    · exact hne
  settled x y hadj h := by
    rcases h with h | ⟨rfl, rfl⟩
    · exact s.settled x y hadj h
    · exact hfree hadj

/-- `a` confirms the proposal of `b`, the only one between the two. -/
def confirm (s : Handshake α) (a b : α) (hone : ¬ s.proposed a b) : Handshake α where
  bonds := s.bonds ⊔ SimpleGraph.edge a b
  proposed x y := s.proposed x y ∧ ¬ (x = b ∧ y = a)
  distinct x y h := s.distinct x y h.1
  settled x y hadj h := by
    rw [SimpleGraph.sup_adj, SimpleGraph.edge_adj] at hadj
    rcases hadj with hold | ⟨⟨rfl, rfl⟩ | ⟨rfl, rfl⟩, _⟩
    · exact s.settled x y hold h.1
    · exact hone h.1
    · exact h.2 ⟨rfl, rfl⟩

/-- The bonds after a confirmation. -/
theorem confirm_adj {s : Handshake α} {a b : α} {hone : ¬ s.proposed a b} (hne : a ≠ b) (x y : α) :
    (s.confirm a b hone).bonds.Adj x y ↔
      s.bonds.Adj x y ∨ (x = a ∧ y = b) ∨ (x = b ∧ y = a) := by
  show (s.bonds ⊔ SimpleGraph.edge a b).Adj x y ↔ _
  rw [SimpleGraph.sup_adj, SimpleGraph.edge_adj]
  constructor
  · exact Or.imp_right And.left
  · refine Or.imp_right fun h => ⟨h, ?_⟩
    rcases h with ⟨rfl, rfl⟩ | ⟨rfl, rfl⟩
    · exact hne
    · exact hne.symm

/-- One event of the protocol, or none. -/
inductive Step : Handshake α → Handshake α → Prop
  | idle (s : Handshake α) : Step s s
  | propose {s : Handshake α} {a b : α} (hne : a ≠ b) (hfree : ¬ s.bonds.Adj a b) :
      Step s (s.propose a b hne hfree)
  | confirm {s : Handshake α} {a b : α} (hp : s.proposed b a) (hone : ¬ s.proposed a b) :
      Step s (s.confirm a b hone)

/-- What the protocol can reach. -/
inductive Reachable : Handshake α → Prop
  | start : Reachable start
  | step {s s' : Handshake α} (hs : Reachable s) (h : Step s s') : Reachable s'

end Handshake

end SocialNetwork.Lib
