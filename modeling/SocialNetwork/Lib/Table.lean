import Mathlib.Data.List.Pairwise
import Mathlib.Data.List.Forall2

/-!
# Relational tables with uniqueness constraints

A `Table` is a list of rows no two of which clash, where `Constraints.clash` says
which pairs of rows a PRIMARY KEY or UNIQUE constraint forbids. The constraint is
a field, so a table that violates it cannot be built: `insert` answers `none`
where SQL reports a constraint violation, and `update` takes a row function that
leaves the constrained columns alone (`Constraints.Keeps`).

An `AutoTable` is a table whose integer key the database hands out
(`INTEGER PRIMARY KEY AUTOINCREMENT`): `seq` is the largest key ever used, a new
row takes `seq + 1`, keys are never reused, and an insert fails once the 64-bit
rowids are exhausted.

`Evolves` is the frame relation between two contents of a table: every old row is
still there, possibly edited within `kept`, and every additional row is `fresh`.
-/

namespace SocialNetwork.Lib

variable {ρ : Type}

/-- The uniqueness constraints of a table, as the pairs of rows they forbid. -/
structure Constraints (ρ : Type) where
  clash : ρ → ρ → Bool
  symm : ∀ a b, clash a b = clash b a

/-- A row function that leaves every constrained column as it was. -/
def Constraints.Keeps (c : Constraints ρ) (f : ρ → ρ) : Prop :=
  ∀ a b, c.clash (f a) b = c.clash a b

theorem Constraints.Keeps.right {c : Constraints ρ} {f : ρ → ρ} (h : c.Keeps f) (a b : ρ) :
    c.clash a (f b) = c.clash a b := by
  rw [c.symm a (f b), h b a, c.symm b a]

/-- The rows of a table; no two of them clash. -/
structure Table (c : Constraints ρ) where
  rows : List ρ
  unique : rows.Pairwise fun a b => c.clash a b = false

namespace Table

variable {c : Constraints ρ}

/-- The table without rows. -/
def empty : Table c := ⟨[], List.Pairwise.nil⟩

/-- `r` clashes with no row of the table. -/
def Fits (t : Table c) (r : ρ) : Prop := ∀ a ∈ t.rows, c.clash a r = false

instance (t : Table c) (r : ρ) : Decidable (t.Fits r) :=
  inferInstanceAs (Decidable (∀ a ∈ t.rows, c.clash a r = false))

theorem fits_unique {t : Table c} {r : ρ} (h : t.Fits r) :
    (t.rows ++ [r]).Pairwise fun a b => c.clash a b = false := by
  rw [List.pairwise_append]
  refine ⟨t.unique, List.pairwise_singleton _ _, ?_⟩
  intro a ha b hb
  rw [List.mem_singleton.mp hb]
  exact h a ha

/-- `INSERT`: `none` is a constraint violation. -/
def insert (t : Table c) (r : ρ) : Option (Table c) :=
  if h : t.Fits r then some ⟨t.rows ++ [r], fits_unique h⟩ else none

theorem insert_eq_none {t : Table c} {r : ρ} : t.insert r = none ↔ ¬ t.Fits r := by
  unfold insert
  split
  next h => simp [h]
  next h => simp [h]

theorem insert_eq_some {t t' : Table c} {r : ρ} (h : t.insert r = some t') :
    t.Fits r ∧ t'.rows = t.rows ++ [r] := by
  unfold insert at h
  split at h
  next hf =>
    rw [Option.some.injEq] at h
    exact ⟨hf, h ▸ rfl⟩
  next => cases h

/-- `UPDATE … WHERE p`: rewrite by `f` the rows that satisfy `p`. -/
def rewrite (p : ρ → Bool) (f : ρ → ρ) (r : ρ) : ρ := if p r then f r else r

theorem rewrite_keeps {p : ρ → Bool} {f : ρ → ρ} (h : c.Keeps f) : c.Keeps (rewrite p f) := by
  intro a b
  unfold rewrite
  split
  · exact h a b
  · rfl

/-- `UPDATE` of columns no constraint mentions. -/
def update (t : Table c) (p : ρ → Bool) (f : ρ → ρ) (h : c.Keeps f) : Table c where
  rows := t.rows.map (rewrite p f)
  unique := by
    rw [List.pairwise_map]
    refine t.unique.imp ?_
    intro a b hab
    -- clashes are decided by columns the update does not touch
    rw [rewrite_keeps h, (rewrite_keeps h).right, hab]

@[simp] theorem update_rows (t : Table c) (p : ρ → Bool) (f : ρ → ρ) (h : c.Keeps f) :
    (t.update p f h).rows = t.rows.map (rewrite p f) := rfl

/-- Two rows of a table that clash are the same row. -/
theorem eq_of_clash (t : Table c) {a b : ρ} (ha : a ∈ t.rows) (hb : b ∈ t.rows)
    (h : c.clash a b = true) : a = b := by
  by_contra hne
  have hsymm : Std.Symm fun x y => c.clash x y = false :=
    ⟨fun x y hxy => (c.symm y x).trans hxy⟩
  have hfree := t.unique.forall ha hb hne
  rw [h] at hfree
  cases hfree

end Table

/-- The largest rowid SQLite hands out. -/
def maxRowid : Int := 9223372036854775807

/-- A table whose key `id` the database assigns, counting in `seq`. -/
structure AutoTable (c : Constraints ρ) (id : ρ → Int) extends Table c where
  seq : Int
  nonneg : 0 ≤ seq
  bounded : ∀ r ∈ rows, 0 < id r ∧ id r ≤ seq

namespace AutoTable

variable {c : Constraints ρ} {id : ρ → Int}

/-- The table before its first row. -/
def empty : AutoTable c id where
  rows := []
  unique := List.Pairwise.nil
  seq := 0
  nonneg := Int.le_refl 0
  bounded := by simp

/-- `INSERT` of the row `mk key` under the next key; `none` is a constraint
violation or an exhausted key space. -/
def insert (t : AutoTable c id) (mk : Int → ρ) (hmk : ∀ n, id (mk n) = n) :
    Option (AutoTable c id) :=
  if h : t.seq < maxRowid ∧ t.toTable.Fits (mk (t.seq + 1)) then
    some {
      rows := t.rows ++ [mk (t.seq + 1)]
      unique := Table.fits_unique h.2
      seq := t.seq + 1
      nonneg := by have := t.nonneg; omega
      bounded := by
        intro r hr
        rcases List.mem_append.mp hr with hr | hr
        · have := t.bounded r hr
          omega
        · rw [List.mem_singleton.mp hr, hmk]
          have := t.nonneg
          omega }
  else none

theorem insert_eq_some {t t' : AutoTable c id} {mk : Int → ρ} {hmk : ∀ n, id (mk n) = n}
    (h : t.insert mk hmk = some t') :
    t.seq < maxRowid ∧ t.toTable.Fits (mk (t.seq + 1)) ∧
      t'.rows = t.rows ++ [mk (t.seq + 1)] ∧ t'.seq = t.seq + 1 := by
  unfold insert at h
  split at h
  next hf =>
    rw [Option.some.injEq] at h
    exact ⟨hf.1, hf.2, h ▸ rfl, h ▸ rfl⟩
  next => cases h

/-- The next key is no row's key. -/
theorem id_ne_next (t : AutoTable c id) {r : ρ} (hr : r ∈ t.rows) : id r ≠ t.seq + 1 := by
  have := t.bounded r hr
  omega

/-- `UPDATE` of columns neither the constraints nor the key mention. -/
def update (t : AutoTable c id) (p : ρ → Bool) (f : ρ → ρ) (h : c.Keeps f)
    (hid : ∀ r, id (f r) = id r) : AutoTable c id where
  toTable := t.toTable.update p f h
  seq := t.seq
  nonneg := t.nonneg
  bounded := by
    intro r hr
    obtain ⟨r₀, hr₀, rfl⟩ := List.mem_map.mp hr
    have hsame : id (Table.rewrite p f r₀) = id r₀ := by
      unfold Table.rewrite
      split
      · exact hid r₀
      · rfl
    rw [hsame]
    exact t.bounded r₀ hr₀

@[simp] theorem update_rows (t : AutoTable c id) (p : ρ → Bool) (f : ρ → ρ) (h : c.Keeps f)
    (hid : ∀ r, id (f r) = id r) :
    (t.update p f h hid).rows = t.rows.map (Table.rewrite p f) := rfl

@[simp] theorem update_seq (t : AutoTable c id) (p : ρ → Bool) (f : ρ → ρ) (h : c.Keeps f)
    (hid : ∀ r, id (f r) = id r) : (t.update p f h hid).seq = t.seq := rfl

end AutoTable

/-! ## What may happen to a table's rows -/

/-- A row after an insert was there before or is the one inserted. -/
theorem mem_inserted {rows rows' : List ρ} {x r : ρ} (h : rows' = rows ++ [x]) (hr : r ∈ rows') :
    r ∈ rows ∨ r = x := by
  rw [h] at hr
  exact (List.mem_append.mp hr).imp_right List.mem_singleton.mp

/-- A row after an update is the edited form of one that was there before. -/
theorem mem_updated {rows rows' : List ρ} {f : ρ → ρ} {r : ρ} (h : rows' = rows.map f)
    (hr : r ∈ rows') : ∃ r₀ ∈ rows, f r₀ = r := by
  rw [h] at hr
  exact List.mem_map.mp hr

/-- Every row of `before` is still in `after`, edited at most within `kept`, and
every further row of `after` is `fresh`. -/
def Evolves (kept : ρ → ρ → Prop) (fresh : ρ → Prop) (before after : List ρ) : Prop :=
  ∃ old new, after = old ++ new ∧ List.Forall₂ kept before old ∧ ∀ r ∈ new, fresh r

namespace Evolves

variable {kept : ρ → ρ → Prop} {fresh : ρ → Prop} {before after : List ρ}

theorem refl (hk : ∀ r, kept r r) (l : List ρ) : Evolves kept fresh l l :=
  ⟨l, [], (List.append_nil l).symm, List.forall₂_same.mpr fun r _ => hk r, by simp⟩

/-- Appending fresh rows. -/
theorem append (hk : ∀ r, kept r r) (l : List ρ) {new : List ρ} (h : ∀ r ∈ new, fresh r) :
    Evolves kept fresh l (l ++ new) :=
  ⟨l, new, rfl, List.forall₂_same.mpr fun r _ => hk r, h⟩

/-- Editing rows in place, each within `kept`. -/
theorem map {f : ρ → ρ} (h : ∀ r ∈ before, kept r (f r)) :
    Evolves kept fresh before (before.map f) := by
  refine ⟨before.map f, [], (List.append_nil _).symm, ?_, by simp⟩
  rw [List.forall₂_map_right_iff]
  exact List.forall₂_same.mpr h

/-- Editing rows in place and appending fresh ones. -/
theorem map_append {f : ρ → ρ} {new : List ρ} (h : ∀ r ∈ before, kept r (f r))
    (hn : ∀ r ∈ new, fresh r) : Evolves kept fresh before (before.map f ++ new) := by
  refine ⟨before.map f, new, rfl, ?_, hn⟩
  rw [List.forall₂_map_right_iff]
  exact List.forall₂_same.mpr h

end Evolves

end SocialNetwork.Lib
