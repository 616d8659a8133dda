import Mathlib.Algebra.GroupWithZero.Nat
import Mathlib.Tactic.Common

/-!
# Words given bit by bit

A word as the function from positions to bits, the numbers of zeros at its two ends, and
rotations as a pair of shifts: the terms in which manuals define instructions on bits,
with the operations of `BitVec` that compute them.
-/

namespace CPUDelaySim

/-- The word whose bit `i` is `f i`. -/
def ofBits (f : Nat → Bool) : (w : Nat) → BitVec w
  | 0 => 0#0
  | w + 1 => BitVec.cons (f w) (ofBits f w)

/-- The bits of a word built from its bits. -/
theorem getLsbD_ofBits (f : Nat → Bool) (w i : Nat) :
    (ofBits f w).getLsbD i = (decide (i < w) && f i) := by
  induction w with
  | zero => simp [ofBits]
  | succ w ih =>
      rw [ofBits, BitVec.getLsbD_cons, ih]
      by_cases top : i = w
      · simp [top]
      · by_cases below : i < w
        · simp [top, below, show i < w + 1 by omega]
        · simp [top, below, show ¬ i < w + 1 by omega]

/-- A word is given by its bits. -/
theorem eq_ofBits {w : Nat} {v : BitVec w} {f : Nat → Bool}
    (bits : ∀ i < w, v.getLsbD i = f i) : v = ofBits f w := by
  apply BitVec.eq_of_getLsbD_eq
  intro i bound
  rw [getLsbD_ofBits, bits i bound]
  simp [bound]

variable {w : Nat}

/-! ### Zeros at the ends -/

/-- The zeros above the highest set bit. -/
def leadingZeros (v : BitVec w) : Nat :=
  ((List.range w).takeWhile fun i => !v.getLsbD (w - 1 - i)).length

/-- The zeros below the lowest set bit. -/
def trailingZeros (v : BitVec w) : Nat :=
  ((List.range w).takeWhile fun i => !v.getLsbD i).length

/-- The numbers that pass a test before the first that fails it. -/
theorem takeWhile_range_length {p : Nat → Bool} {n : Nat} (within : n ≤ w)
    (before : ∀ i < n, p i = true) (stops : n < w → p n = false) :
    ((List.range w).takeWhile p).length = n := by
  obtain ⟨k, rfl⟩ := Nat.exists_eq_add_of_le within
  rw [List.range_add, List.takeWhile_append_of_pos (by simpa using before), List.length_append,
    List.length_range]
  cases k with
  | zero => simp
  | succ k =>
      rw [List.range_succ_eq_map]
      simp [stops (by omega)]

/-- There are no more zeros than bits. -/
theorem ctz_toNat_le (v : BitVec w) : v.ctz.toNat ≤ w := by
  have small := BitVec.clz_le (x := v.reverse)
  rw [BitVec.ctz_eq_reverse_clz]
  simpa using BitVec.le_def.1 small

/-- The bit that ends the trailing zeros. -/
theorem getLsbD_ctz (v : BitVec w) (inside : v.ctz.toNat < w) :
    v.getLsbD v.ctz.toNat = true := by
  refine BitVec.getLsbD_true_ctz_of_ne_zero ?_
  rw [← BitVec.ctz_lt_iff_ne_zero]
  exact BitVec.lt_def.2 (by simpa using inside)

/-- The zeros from the right, counted in two ways. -/
theorem trailingZeros_eq (v : BitVec w) : trailingZeros v = v.ctz.toNat := by
  refine takeWhile_range_length (ctz_toNat_le v) ?_ ?_
  · intro i bound
    simp [BitVec.getLsbD_false_of_lt_ctz bound]
  · intro inside
    simp [getLsbD_ctz v inside]

/-- The zeros from the left, counted in two ways. -/
theorem leadingZeros_eq (v : BitVec w) : leadingZeros v = v.clz.toNat := by
  rw [BitVec.clz_eq_reverse_ctz]
  have mirrored {i : Nat} (bound : i < w) : v.getLsbD (w - 1 - i) = v.reverse.getLsbD i := by
    rw [BitVec.getLsbD_reverse, BitVec.getMsbD_eq_getLsbD]
    simp [bound]
  have small := ctz_toNat_le v.reverse
  refine takeWhile_range_length small ?_ ?_
  · intro i bound
    rw [mirrored (by omega), BitVec.getLsbD_false_of_lt_ctz bound]
    rfl
  · intro inside
    rw [mirrored inside, getLsbD_ctz v.reverse inside]
    rfl

/-! ### Rotations and single bits -/

/-- A rotation is two shifts. -/
theorem rotateLeft_eq_shifts (v : BitVec w) {n : Nat} (bound : n < w) :
    v.rotateLeft n = (v <<< n) ||| (v >>> (w - n)) := by
  rw [BitVec.rotateLeft_def, Nat.mod_eq_of_lt bound]

/-- A rotation is two shifts. -/
theorem rotateRight_eq_shifts (v : BitVec w) {n : Nat} (bound : n < w) :
    v.rotateRight n = (v >>> n) ||| (v <<< (w - n)) := by
  rw [BitVec.rotateRight_def, Nat.mod_eq_of_lt bound]

/-- Bit `i` of a single set bit. -/
theorem getLsbD_oneShift (n : Nat) {i : Nat} (bound : i < w) :
    (1#w <<< n).getLsbD i = (i == n) := by
  rw [BitVec.getLsbD_shiftLeft, BitVec.getLsbD_one]
  by_cases below : i < n
  · simp [below, show i ≠ n by omega]
  · by_cases same : i = n
    · subst same
      simp [bound, show 0 < w by omega]
    · simp [below, same, bound, show i - n ≠ 0 by omega]

/-! ### Words in pieces -/

section Pieces

variable {v start len : Nat} {x : BitVec v} {y : BitVec w}

/-- Bits above the lower part are bits of the upper one. -/
theorem extractLsb'_above (n : Nat) (above : start = w + n) :
    (x ++ y).extractLsb' start len = x.extractLsb' n len := by
  subst above
  rw [BitVec.extractLsb'_append_eq_of_le (Nat.le_add_right _ _), Nat.add_sub_cancel_left]

/-- The lower part is read back. -/
theorem extractLsb'_last : (x ++ y).extractLsb' 0 w = y := by
  rw [BitVec.extractLsb'_append_eq_of_add_le (Nat.le_of_eq (Nat.zero_add w)),
    BitVec.extractLsb'_eq_self]

/-- Zeros below do not change the sign. -/
theorem append_zeros_msb {len : Nat} (x : BitVec len) (m : Nat) :
    (x ++ BitVec.ofNat m 0).msb = x.msb := by
  rw [BitVec.msb_append]
  split
  next empty =>
    subst empty
    rw [BitVec.msb_zero, BitVec.eq_nil x]
    rfl
  next => rfl

/-- Extending a number by its sign keeps the sign. -/
theorem signExtend_msb {len n : Nat} (x : BitVec len) (wide : len ≤ n) :
    (x.signExtend n).msb = x.msb := by
  rcases Nat.lt_or_eq_of_le wide with wider | rfl
  · rw [BitVec.msb_signExtend, decide_eq_true (by omega), if_neg (by omega), Bool.true_and]
  · rw [BitVec.signExtend_eq]

/-- What is extended may be extended in between. -/
theorem signExtend_append_zeros {len n : Nat} (x : BitVec len) (m w : Nat) (wide : len ≤ n) :
    (x.signExtend n ++ BitVec.ofNat m 0).signExtend w =
      (x ++ BitVec.ofNat m 0).signExtend w := by
  apply BitVec.eq_of_getLsbD_eq
  intro i bound
  rw [BitVec.getLsbD_signExtend, BitVec.getLsbD_signExtend, append_zeros_msb, append_zeros_msb,
    signExtend_msb x wide]
  congr 1
  split_ifs with first second
  · rw [BitVec.getLsbD_append, BitVec.getLsbD_append]
    split_ifs with low
    · rfl
    · rw [BitVec.getLsbD_signExtend, decide_eq_true (by omega), if_pos (by omega), Bool.true_and]
  · rw [BitVec.getLsbD_append, if_neg (by omega), BitVec.getLsbD_signExtend,
      decide_eq_true (by omega), if_neg (by omega), Bool.true_and]
  · omega
  · rfl

end Pieces

/-! ### Fields as numbers -/

/-- Two parts of a word as a number. -/
theorem append_toNat {n m : Nat} (x : BitVec n) (y : BitVec m) :
    (x ++ y).toNat = x.toNat * 2 ^ m + y.toNat := by
  rw [BitVec.toNat_append, ← Nat.shiftLeft_add_eq_or_of_lt y.isLt, Nat.shiftLeft_eq]

/-- Two fields put side by side inside a word. -/
theorem or_shift_toNat {x y : BitVec w} {k : Nat} (low : y.toNat < 2 ^ k)
    (high : x.toNat * 2 ^ k < 2 ^ w) : ((x <<< k) ||| y).toNat = x.toNat * 2 ^ k + y.toNat := by
  rw [BitVec.toNat_or, BitVec.toNat_shiftLeft, Nat.shiftLeft_eq, Nat.mod_eq_of_lt high,
    ← Nat.shiftLeft_eq, ← Nat.shiftLeft_add_eq_or_of_lt low]

/-- A mask of ones is a remainder. -/
theorem and_low_toNat (v : BitVec w) {k : Nat} (mask : BitVec w) (ones : mask.toNat = 2 ^ k - 1) :
    (v &&& mask).toNat = v.toNat % 2 ^ k := by
  rw [BitVec.toNat_and, ones, Nat.and_two_pow_sub_one_eq_mod]

/-- A field is a quotient and a remainder. -/
theorem extract_toNat (v : BitVec w) (k n : Nat) :
    (v.extractLsb' k n).toNat = v.toNat / 2 ^ k % 2 ^ n := by
  rw [BitVec.extractLsb'_toNat, Nat.shiftRight_eq_div_pow]

end CPUDelaySim
