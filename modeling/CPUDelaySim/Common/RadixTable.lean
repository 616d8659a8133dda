import Mathlib.Tactic.Common

/-!
# Tables of several levels

A key is looked up from a root through tables of decreasing level.  In each table it
selects one slot: a leaf, the table of the next level, or nothing.  `Leads` is the path of
a key to a leaf, `find` follows it, `visited` lists the tables that it reads and `last` is where
it stops.

The key is fixed, so a table is seen as the function from tables and levels to the slot
selected.  Nothing here mentions the simulator.
-/

namespace CPUDelaySim

/-- What a key selects in a table. -/
inductive Slot (τ ε : Type)
  | fault
  | leaf (entry : ε)
  | next (table : τ)

namespace Slot

variable {τ ε : Type} (slot : τ → Nat → Slot τ ε)

/-- From the table at a level, pointers lead to a leaf in a table of level `at`. -/
inductive Leads : Nat → τ → ε → Nat → Prop
  | leaf {level : Nat} {table : τ} {entry : ε} (found : slot table level = .leaf entry) :
      Leads level table entry level
  | next {level : Nat} {table table' : τ} {entry : ε} {last : Nat}
      (pointer : slot table (level + 1) = .next table') (rest : Leads level table' entry last) :
      Leads (level + 1) table entry last

/-- The leaf and the level of its table. -/
def find : Nat → τ → Option (ε × Nat)
  | level, table =>
      match slot table level with
      | .fault => none
      | .leaf entry => some (entry, level)
      | .next table' =>
          match level with
          | 0 => none
          | level + 1 => find level table'

/-- The tables read on the way, with their levels. -/
def visited : Nat → τ → List (τ × Nat)
  | level, table =>
      (table, level) ::
        match slot table level, level with
        | .next table', level + 1 => visited level table'
        | _, _ => []

/-- The table that the lookup stops at, with its level. -/
def last : Nat → τ → τ × Nat
  | 0, table => (table, 0)
  | level + 1, table =>
      match slot table (level + 1) with
      | .next table' => last level table'
      | _ => (table, level + 1)

variable {slot}

/-- A walk that faults finds nothing. -/
theorem find_of_fault {level : Nat} {table : τ} (selected : slot table level = .fault) :
    find slot level table = none := by
  unfold find
  rw [selected]

/-- A walk that comes to a leaf has found it, at its level. -/
theorem find_of_leaf {level : Nat} {table : τ} {entry : ε}
    (selected : slot table level = .leaf entry) :
    find slot level table = some (entry, level) := by
  unfold find
  rw [selected]

/-- A walk does not go below the last level. -/
theorem find_zero_of_next {table table' : τ} (selected : slot table 0 = .next table') :
    find slot 0 table = none := by
  unfold find
  rw [selected]

/-- A walk goes on in the next table. -/
theorem find_succ_of_next {level : Nat} {table table' : τ}
    (selected : slot table (level + 1) = .next table') :
    find slot (level + 1) table = find slot level table' := by
  conv_lhs => unfold find
  rw [selected]

/-- The last entry read is the one that faults. -/
theorem last_of_fault {level : Nat} {table : τ} (selected : slot table level = .fault) :
    last slot level table = (table, level) := by
  cases level with
  | zero => rfl
  | succ level => rw [last, selected]

/-- The last entry read is the leaf. -/
theorem last_of_leaf {level : Nat} {table : τ} {entry : ε}
    (selected : slot table level = .leaf entry) : last slot level table = (table, level) := by
  cases level with
  | zero => rfl
  | succ level => rw [last, selected]

/-- The last entry is read in the tables behind. -/
theorem last_succ_of_next {level : Nat} {table table' : τ}
    (selected : slot table (level + 1) = .next table') :
    last slot (level + 1) table = last slot level table' := by
  rw [last, selected]

/-- Each table on the way is visited. -/
theorem visited_of_next {level : Nat} {table table' : τ}
    (selected : slot table (level + 1) = .next table') :
    visited slot (level + 1) table = (table, level + 1) :: visited slot level table' := by
  conv_lhs => unfold visited
  rw [selected]

/-- The first table is visited. -/
theorem mem_visited_self (level : Nat) (table : τ) :
    (table, level) ∈ visited slot level table := by
  unfold visited
  exact List.mem_cons_self

/-- Below the last table lie those of the pointer it holds. -/
theorem mem_visited {level : Nat} {table : τ} {t : τ × Nat}
    (read : t ∈ visited slot level table) :
    t = (table, level) ∨ ∃ low table', level = low + 1 ∧ slot table level = .next table' ∧
      t ∈ visited slot low table' := by
  unfold visited at read
  rcases List.mem_cons.1 read with here | below
  · exact .inl here
  · split at below
    · rename_i table' low selected
      exact .inr ⟨low, table', rfl, selected, below⟩
    · cases below

/-- A lookup finds a leaf exactly when there is a path to it. -/
theorem find_eq_some_iff {level : Nat} {table : τ} {entry : ε} {last : Nat} :
    find slot level table = some (entry, last) ↔ Leads slot level table entry last := by
  induction level generalizing table with
  | zero =>
      constructor
      · intro found
        cases selected : slot table 0 with
        | fault => rw [find_of_fault selected] at found; cases found
        | leaf entry' =>
            rw [find_of_leaf selected] at found
            cases found
            exact .leaf selected
        | next table' => rw [find_zero_of_next selected] at found; cases found
      · rintro ⟨found⟩
        exact find_of_leaf found
  | succ level ih =>
      constructor
      · intro found
        cases selected : slot table (level + 1) with
        | fault => rw [find_of_fault selected] at found; cases found
        | leaf entry' =>
            rw [find_of_leaf selected] at found
            cases found
            exact .leaf selected
        | next table' =>
            rw [find_succ_of_next selected] at found
            exact .next selected (ih.1 found)
      · intro path
        cases path with
        | leaf found => exact find_of_leaf found
        | next pointer rest => rw [find_succ_of_next pointer, ih.2 rest]

/-- A leaf lies in a table of a lower level, or in the first. -/
theorem Leads.le {level : Nat} {table : τ} {entry : ε} {last : Nat}
    (path : Leads slot level table entry last) : last ≤ level := by
  induction path with
  | leaf => exact Nat.le_refl _
  | next _ _ ih => exact Nat.le_succ_of_le ih

/-- A lookup reads one table of each level at most. -/
theorem visited_length_le (level : Nat) (table : τ) :
    (visited slot level table).length ≤ level + 1 := by
  induction level generalizing table with
  | zero =>
      unfold visited
      cases slot table 0 <;> simp
  | succ level ih =>
      cases selected : slot table (level + 1) with
      | next table' =>
          rw [visited_of_next selected, List.length_cons]
          exact Nat.succ_le_succ (ih table')
      | fault | leaf => unfold visited; simp [selected]

/-- Tables that select alike at the levels of the lookup find alike. -/
theorem find_congr {slot' : τ → Nat → Slot τ ε} {level : Nat}
    (same : ∀ t, ∀ l ≤ level, slot' t l = slot t l) (table : τ) :
    find slot' level table = find slot level table := by
  induction level generalizing table with
  | zero =>
      unfold find
      rw [same table 0 (Nat.le_refl 0)]
  | succ level ih =>
      have here := same table (level + 1) (Nat.le_refl _)
      cases selected : slot table (level + 1) with
      | fault => rw [find_of_fault selected, find_of_fault (here.trans selected)]
      | leaf entry => rw [find_of_leaf selected, find_of_leaf (here.trans selected)]
      | next table' =>
          rw [find_succ_of_next selected, find_succ_of_next (here.trans selected)]
          exact ih (fun t l low => same t l (Nat.le_succ_of_le low)) table'

/-- They visit the same tables on the way. -/
theorem visited_congr {slot' : τ → Nat → Slot τ ε} {level : Nat}
    (same : ∀ t, ∀ l ≤ level, slot' t l = slot t l) (table : τ) :
    visited slot' level table = visited slot level table := by
  induction level generalizing table with
  | zero =>
      unfold visited
      cases slot' table 0 <;> cases slot table 0 <;> rfl
  | succ level ih =>
      have here := same table (level + 1) (Nat.le_refl _)
      cases selected : slot table (level + 1) with
      | fault | leaf => unfold visited; rw [here, selected]
      | next table' =>
          rw [visited_of_next selected, visited_of_next (here.trans selected),
            ih fun t l low => same t l (Nat.le_succ_of_le low)]

/-- A lookup depends on the tables that it visits alone. -/
theorem find_of_visited {slot' : τ → Nat → Slot τ ε} {level : Nat} {table : τ}
    (same : ∀ t ∈ visited slot level table, slot' t.1 t.2 = slot t.1 t.2) :
    find slot' level table = find slot level table := by
  have here := same _ (mem_visited_self level table)
  induction level generalizing table with
  | zero =>
      unfold find
      rw [here]
  | succ level ih =>
      cases selected : slot table (level + 1) with
      | fault => rw [find_of_fault selected, find_of_fault (here.trans selected)]
      | leaf entry => rw [find_of_leaf selected, find_of_leaf (here.trans selected)]
      | next table' =>
          have below : ∀ t ∈ visited slot level table', slot' t.1 t.2 = slot t.1 t.2 := by
            intro t read
            refine same t ?_
            rw [visited_of_next selected]
            exact List.mem_cons_of_mem _ read
          rw [find_succ_of_next selected, find_succ_of_next (here.trans selected)]
          exact ih below (below _ (mem_visited_self level table'))

/-- The level falls along the walk. -/
theorem mem_visited_le {level : Nat} {table : τ} {t : τ × Nat}
    (read : t ∈ visited slot level table) : t.2 ≤ level := by
  induction level generalizing table with
  | zero =>
      rcases mem_visited read with rfl | ⟨low, -, level, -⟩
      · exact Nat.le_refl 0
      · omega
  | succ level ih =>
      rcases mem_visited read with rfl | ⟨low, table', same, -, below⟩
      · exact Nat.le_refl _
      · obtain rfl : level = low := by omega
        exact Nat.le_succ_of_le (ih below)

end Slot

end CPUDelaySim
