import CPUDelaySim.Common.Buffer
import Mathlib.Data.List.Basic
import Mathlib.Logic.Function.Basic
import Mathlib.Tactic.Common

/-!
# A queue in a circular buffer

A buffer of `capacity` cells, the cell the queue begins in, and its length. `contents` is the
queue; each lemma says what one change of the buffer makes of it.

Nothing here mentions the simulator.
-/

namespace CPUDelaySim.Circular

variable {α : Type}

/-- The queue, from its first element on. -/
def contents (data : Nat → α) (capacity head num : Nat) : List α :=
  (List.range num).map fun i => data ((head + i) % capacity)

variable {data : Nat → α} {capacity head num : Nat}

/-- There are as many elements as the count says. -/
@[simp] theorem contents_length : (contents data capacity head num).length = num := by
  rw [contents, List.length_map, List.length_range]

/-- A queue in two parts. -/
theorem contents_add (m n : Nat) :
    contents data capacity head (m + n) =
      contents data capacity head m ++ contents data capacity ((head + m) % capacity) n := by
  rw [contents, contents, contents, List.range_add, List.map_append, List.map_map]
  refine congrArg _ (List.map_congr_left fun i _ => ?_)
  change data ((head + (m + i)) % capacity) = data (((head + m) % capacity + i) % capacity)
  rw [Nat.mod_add_mod, Nat.add_assoc]

/-- Cells outside the queue may change. -/
theorem contents_congr {data' : Nat → α}
    (same : ∀ i < num, data' ((head + i) % capacity) = data ((head + i) % capacity)) :
    contents data' capacity head num = contents data capacity head num :=
  List.map_congr_left fun i listed => same i (List.mem_range.1 listed)

/-- Two places of a queue are two cells. -/
theorem place_ne {i j : Nat} (less : i < j) (bound : j < capacity) :
    (head + i) % capacity ≠ (head + j) % capacity := by
  intro same
  have i_lt : i < capacity := Nat.lt_trans less bound
  have reduced : (head % capacity + i) % capacity = (head % capacity + j) % capacity := by
    rw [Nat.mod_add_mod, Nat.mod_add_mod]
    exact same
  have head_lt : head % capacity < capacity := Nat.mod_lt _ (by omega)
  generalize head % capacity = h at reduced head_lt
  have wrap (k : Nat) (k_lt : k < capacity) :
      (h + k) % capacity = if h + k < capacity then h + k else h + k - capacity := by
    split
    · exact Nat.mod_eq_of_lt (by assumption)
    · rw [Nat.mod_eq_sub_mod (by omega), Nat.mod_eq_of_lt (by omega)]
  rw [wrap i i_lt, wrap j bound] at reduced
  split at reduced <;> split at reduced <;> omega

/-- An element is put behind the last one. -/
theorem contents_push (room : num < capacity) (a : α) :
    contents (Function.update data ((head + num) % capacity) a) capacity head (num + 1) =
      contents data capacity head num ++ [a] := by
  rw [contents_add]
  congr 1
  · refine contents_congr ?_
    intro i before
    exact Function.update_of_ne (place_ne before room) _ _
  · change [Function.update _ _ _ (((head + num) % capacity + 0) % capacity)] = _
    rw [Nat.add_zero, Nat.mod_mod, Function.update_self]

/-- The first element is taken. -/
theorem contents_pop (head_lt : head < capacity) (n : Nat) :
    contents data capacity head (n + 1) =
      data head :: contents data capacity ((head + 1) % capacity) n := by
  rw [Nat.add_comm, contents_add]
  change [data ((head + 0) % capacity)] ++ _ = _
  rw [Nat.add_zero, Nat.mod_eq_of_lt head_lt]
  rfl

/-- What comes before the end of the buffer lies there in one piece. -/
theorem contents_of_fits (fits : head + num ≤ capacity) :
    contents data capacity head num = (List.range num).map fun i => data (head + i) := by
  refine List.map_congr_left fun i listed => ?_
  have bound := List.mem_range.1 listed
  rw [Nat.mod_eq_of_lt (by omega)]

/-- A list is stored from a cell on, and what passes the end of the buffer at its begin. -/
def storeRound (data : Nat → α) (capacity start : Nat) (added : List α) : Nat → α :=
  if start + added.length ≤ capacity then Buffer.store data start added
  else
    Buffer.store (Buffer.store data start (added.take (capacity - start))) 0
      (added.drop (capacity - start))

/-- The list goes round the buffer. -/
theorem storeRound_here {start : Nat} {added : List α} (start_lt : start < capacity)
    (room : added.length ≤ capacity) {i : Nat} (inside : i < added.length) :
    storeRound data capacity start added ((start + i) % capacity) = added[i] := by
  unfold storeRound
  split
  next fits =>
    rw [Nat.mod_eq_of_lt (by omega)]
    exact Buffer.store_inside data start inside
  next wraps =>
    have first : (added.take (capacity - start)).length = capacity - start := by
      rw [List.length_take]
      omega
    by_cases before : start + i < capacity
    · -- The second piece ends before `start`.
      rw [Nat.mod_eq_of_lt before, Buffer.store_outside _ (by rw [List.length_drop]; omega),
        Buffer.store_inside _ _ (by omega), List.getElem_take]
    · rw [Nat.mod_eq_sub_mod (by omega), Nat.mod_eq_of_lt (by omega),
        show start + i - capacity = 0 + (i - (capacity - start)) by omega,
        Buffer.store_inside _ _ (by rw [List.length_drop]; omega), List.getElem_drop]
      congr 1
      omega

/-- The other cells stay as they were. -/
theorem storeRound_same {start : Nat} {added : List α} (start_lt : start < capacity) {cell : Nat}
    (cell_lt : cell < capacity)
    (other : ∀ i < added.length, cell ≠ (start + i) % capacity) :
    storeRound data capacity start added cell = data cell := by
  have outside (i : Nat) (inside : i < added.length) (less : start + i < capacity) :
      cell ≠ start + i := by
    have differs := other i inside
    rwa [Nat.mod_eq_of_lt less] at differs
  unfold storeRound
  split
  next fits =>
    refine Buffer.store_outside _ ?_
    by_contra inside
    exact outside (cell - start) (by omega) (by omega) (by omega)
  next wraps =>
    rw [Buffer.store_outside, Buffer.store_outside]
    · rw [List.length_take]
      by_contra inside
      exact outside (cell - start) (by omega) (by omega) (by omega)
    · rw [List.length_drop]
      by_contra inside
      refine other (capacity - start + cell) (by omega) ?_
      rw [show start + (capacity - start + cell) = capacity + cell by omega, Nat.add_mod_left,
        Nat.mod_eq_of_lt cell_lt]

/-- `added` is put behind the last element. -/
theorem contents_append {start : Nat} {added : List α} (room : num + added.length ≤ capacity)
    (head_lt : head < capacity) (stop : start = (head + num) % capacity) :
    contents (storeRound data capacity start added) capacity head (num + added.length) =
      contents data capacity head num ++ added := by
  have start_lt : start < capacity := by
    rw [stop]
    exact Nat.mod_lt _ (by omega)
  have place (i : Nat) : (head + (num + i)) % capacity = (start + i) % capacity := by
    rw [stop, Nat.mod_add_mod, Nat.add_assoc]
  rw [contents_add]
  congr 1
  · refine contents_congr ?_
    intro i before
    refine storeRound_same start_lt (Nat.mod_lt _ (by omega)) ?_
    intro j inside
    rw [← place]
    exact place_ne (by omega) (by omega)
  · refine List.ext_getElem contents_length ?_
    intro i _ inside
    simp only [contents, List.getElem_map, List.getElem_range]
    rw [Nat.mod_add_mod, Nat.add_assoc, place]
    exact storeRound_here start_lt (by omega) inside

/-- The first `n` elements of a queue, and the others. -/
theorem contents_split {n : Nat} (le : n ≤ num) :
    contents data capacity head n = (contents data capacity head num).take n ∧
      contents data capacity ((head + n) % capacity) (num - n) =
        (contents data capacity head num).drop n := by
  have whole : contents data capacity head (n + (num - n)) = contents data capacity head n ++
      contents data capacity ((head + n) % capacity) (num - n) := contents_add n (num - n)
  rw [Nat.add_sub_cancel' le] at whole
  rw [whole, List.take_left' contents_length, List.drop_left' contents_length]
  exact ⟨rfl, rfl⟩

end CPUDelaySim.Circular
