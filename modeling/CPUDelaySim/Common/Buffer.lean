import Mathlib.Tactic.Common

/-!
# Flat buffers and the pieces of a stream

Loads and stores of several elements in a memory without bounds, and a stream cut into pieces
of one size: what a producer does that fills a buffer piece by piece.

Nothing here mentions the simulator.
-/

namespace CPUDelaySim.Buffer

variable {α : Type}

/-! ### Loads and stores -/

/-- The `n` elements from `base` on. -/
def load (memory : Nat → α) (base n : Nat) : List α :=
  (List.range n).map fun i => memory (base + i)

/-- The memory with `data` stored from `base` on. -/
def store (memory : Nat → α) (base : Nat) (data : List α) : Nat → α :=
  fun a => if base ≤ a then data[a - base]?.getD (memory a) else memory a

/-- As many elements are loaded as are asked for. -/
@[simp] theorem load_length (memory : Nat → α) (base n : Nat) :
    (load memory base n).length = n := by
  rw [load, List.length_map, List.length_range]

/-- A load in two parts. -/
theorem load_add (memory : Nat → α) (base m n : Nat) :
    load memory base (m + n) = load memory base m ++ load memory (base + m) n := by
  rw [load, load, load, List.range_add, List.map_append, List.map_map]
  refine congrArg _ (List.map_congr_left fun i _ => ?_)
  exact congrArg memory (Nat.add_assoc ..).symm

/-- What was stored is loaded. -/
theorem load_store (memory : Nat → α) (base : Nat) (data : List α) :
    load (store memory base data) base data.length = data := by
  refine List.ext_getElem (load_length ..) fun i _ inside => ?_
  simp only [load, List.getElem_map, List.getElem_range]
  rw [store, if_pos (Nat.le_add_right ..), Nat.add_sub_cancel_left,
    List.getElem?_eq_getElem inside, Option.getD_some]

/-- A cell that is stored to. -/
theorem store_inside (memory : Nat → α) (base : Nat) {data : List α} {i : Nat}
    (inside : i < data.length) : store memory base data (base + i) = data[i] := by
  change (if base ≤ base + i then data[base + i - base]?.getD (memory (base + i))
    else memory (base + i)) = data[i]
  rw [if_pos (Nat.le_add_right ..), Nat.add_sub_cancel_left, List.getElem?_eq_getElem inside,
    Option.getD_some]

/-- A cell that is not. -/
theorem store_outside (memory : Nat → α) {base : Nat} {data : List α} {cell : Nat}
    (outside : cell < base ∨ base + data.length ≤ cell) :
    store memory base data cell = memory cell := by
  change (if base ≤ cell then data[cell - base]?.getD (memory cell) else memory cell) = memory cell
  split
  · rw [List.getElem?_eq_none (by omega), Option.getD_none]
  · rfl

/-- A store elsewhere is not seen. -/
theorem load_store_of_disjoint (memory : Nat → α) {base base' n : Nat} {data : List α}
    (disjoint : base' + n ≤ base ∨ base + data.length ≤ base') :
    load (store memory base data) base' n = load memory base' n := by
  rw [load, load]
  refine List.map_congr_left fun i mem => ?_
  have inside : i < n := List.mem_range.1 mem
  rw [store]
  split
  · rw [List.getElem?_eq_none (by omega), Option.getD_none]
  · rfl

/-- What lies in one of several equal parts of the memory does not meet what lies in
another. -/
theorem load_store_of_ne_part (memory : Nat → α) {size i j a b n : Nat} {data : List α}
    (other : i ≠ j) (fits : a + n ≤ size) (fits' : b + data.length ≤ size) :
    load (store memory (size * j + b) data) (size * i + a) n =
      load memory (size * i + a) n := by
  refine load_store_of_disjoint memory ?_
  rcases Nat.lt_or_gt_of_ne other with before | after
  · have := Nat.mul_le_mul_left size (Nat.succ_le_of_lt before)
    rw [Nat.mul_succ] at this
    omega
  · have := Nat.mul_le_mul_left size (Nat.succ_le_of_lt after)
    rw [Nat.mul_succ] at this
    omega

/-! ### Pieces -/

/-- Piece `k` of a stream. -/
def piece (size : Nat) (data : List α) (k : Nat) : List α := (data.drop (k * size)).take size

variable {size : Nat} {data more : List α}

/-- All pieces have the same length but the last. -/
theorem piece_length (size : Nat) (data : List α) (k : Nat) :
    (piece size data k).length = min size (data.length - k * size) := by
  rw [piece, List.length_take, List.length_drop]

/-- A piece past the end. -/
theorem piece_eq_nil {k : Nat} (past : data.length ≤ k * size) : piece size data k = [] := by
  rw [piece, List.drop_eq_nil_of_le past, List.take_nil]

/-- A piece before the end stays as it is when the stream goes on. -/
theorem piece_append_of_le {k : Nat} (full : (k + 1) * size ≤ data.length) :
    piece size (data ++ more) k = piece size data k := by
  have bound : (k + 1) * size = k * size + size := Nat.succ_mul k size
  rw [piece, piece, List.drop_append_of_le_length (by omega),
    List.take_append_of_le_length (by rw [List.length_drop]; omega)]

/-- The piece at the end takes what comes, as far as it has room. -/
theorem piece_append_last {k : Nat} (start : k * size ≤ data.length)
    (room : data.length + more.length ≤ (k + 1) * size) :
    piece size (data ++ more) k = piece size data k ++ more := by
  have bound : (k + 1) * size = k * size + size := Nat.succ_mul k size
  rw [piece, piece, List.drop_append_of_le_length start,
    List.take_of_length_le (by rw [List.length_append, List.length_drop]; omega),
    List.take_of_length_le (by rw [List.length_drop]; omega)]

/-- The pieces of a stream that goes on within the piece at its end. -/
theorem piece_append {k last : Nat} (start : last * size ≤ data.length)
    (room : data.length + more.length ≤ (last + 1) * size) :
    piece size (data ++ more) k =
      if k = last then piece size data k ++ more else piece size data k := by
  split
  · rename_i same
    rw [same]
    exact piece_append_last start room
  · rename_i other
    rcases Nat.lt_or_gt_of_ne other with before | after
    · have below : (k + 1) * size ≤ last * size := Nat.mul_le_mul_right size before
      exact piece_append_of_le (Nat.le_trans below start)
    · have above : (last + 1) * size ≤ k * size := Nat.mul_le_mul_right size after
      rw [piece_eq_nil, piece_eq_nil]
      · omega
      · rw [List.length_append]
        omega

/-- The pieces make up the stream. -/
theorem flatten_pieces (size : Nat) (data : List α) (n : Nat) :
    ((List.range n).map (piece size data)).flatten = data.take (n * size) := by
  induction n with
  | zero => rw [Nat.zero_mul, List.take_zero, List.range_zero, List.map_nil, List.flatten_nil]
  | succ n ih =>
      rw [List.range_succ, List.map_append, List.flatten_append, ih, List.map_singleton,
        List.flatten_singleton, piece, Nat.succ_mul, List.take_add]

end CPUDelaySim.Buffer
