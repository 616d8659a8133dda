import Mathlib.Logic.Function.Basic
import Mathlib.Tactic.Common

/-!
# Bit sets that hold the end of a history

`DynamicBitset` is the interface of a bit set of fixed size with shifts: what its operations do
to the bits, and that `toUlong` has no result if a bit does not fit.

`Window` says which low bits of such a set are the newest entries of a list.  Shifting an entry
in loses the oldest bit, and shifting back does not bring it back, so the bits that can be
trusted are counted from the greatest length the list ever had.
-/

namespace CPUDelaySim

/-- The operations of a bit set. -/
structure DynamicBitset (β : Type) where
  zeros : Nat → β
  size : β → Nat
  test : β → Nat → Bool
  /-- `<<`. -/
  shiftLeft : β → Nat → β
  /-- `>>=`. -/
  shiftRight : β → Nat → β
  set : β → Nat → Bool → β
  /-- `to_ulong`, which throws if the number is too large. -/
  toUlong : β → Option (BitVec 64)
  size_zeros (n) : size (zeros n) = n
  size_shiftLeft (b n) : size (shiftLeft b n) = size b
  size_shiftRight (b n) : size (shiftRight b n) = size b
  size_set (b i v) : size (set b i v) = size b
  test_zeros (n i) : test (zeros n) i = false
  test_of_size_le {b i} : size b ≤ i → test b i = false
  test_shiftLeft {b n i} : i < size b → test (shiftLeft b n) i = (decide (n ≤ i) && test b (i - n))
  test_shiftRight (b n i) : test (shiftRight b n) i = test b (i + n)
  test_set {b j} (v i) : j < size b → test (set b j v) i = if i = j then v else test b i
  toUlong_eq_none {b} : toUlong b = none ↔ ∃ i, 64 ≤ i ∧ test b i = true
  toUlong_bit {b w} : toUlong b = some w → ∀ i, i < 64 → w.getLsbD i = test b i

namespace DynamicBitset

/-- A bit set as a size and its bits. -/
def ofBits : DynamicBitset (Nat × (Nat → Bool)) where
  zeros n := (n, fun _ => false)
  size b := b.1
  test b i := decide (i < b.1) && b.2 i
  shiftLeft b n := (b.1, fun i => decide (n ≤ i) && b.2 (i - n))
  shiftRight b n := (b.1, fun i => decide (i + n < b.1) && b.2 (i + n))
  set b i v := (b.1, Function.update b.2 i v)
  toUlong b :=
    if ∃ i < b.1, 64 ≤ i ∧ b.2 i = true then none
    else some ((BitVec.ofBoolListLE
      ((List.range 64).map fun i => decide (i < b.1) && b.2 i)).setWidth 64)
  size_zeros _ := rfl
  size_shiftLeft _ _ := rfl
  size_shiftRight _ _ := rfl
  size_set _ _ _ := rfl
  test_zeros n i := by simp
  test_of_size_le outside := by simp [Nat.not_lt.2 outside]
  test_shiftLeft {b n i} inside := by
    by_cases after : n ≤ i
    · have inside' : i - n < b.1 := by omega
      simp [inside, inside', after]
    · simp [after]
  test_shiftRight b n i := by
    by_cases inside : i + n < b.1
    · have inside' : i < b.1 := by omega
      simp [inside, inside']
    · simp [inside]
  test_set {b j} v i inside := by
    by_cases same : i = j
    · subst same
      simp [inside]
    · simp [same]
  toUlong_eq_none {b} := by
    rw [ite_eq_left_iff]
    simp only [reduceCtorEq, imp_false, not_not, Bool.and_eq_true, decide_eq_true_eq]
    exact exists_congr fun i => ⟨fun ⟨a, b, c⟩ => ⟨b, a, c⟩, fun ⟨a, b, c⟩ => ⟨b, a, c⟩⟩
  toUlong_bit {b w} value i inside := by
    split at value
    · cases value
    · cases value
      rw [BitVec.getLsbD_setWidth, BitVec.getLsbD_ofBoolListLE, List.getD_eq_getElem?_getD,
        List.getElem?_map, List.getElem?_range inside]
      simp [inside]

end DynamicBitset

/-! ### Windows -/

/-- The low bits are the newest entries of the list, as far as no longer list than `peak` has
been shifted out of `size` bits; an entry before the first is `false`. -/
def Window (size peak : Nat) (bits : Nat → Bool) (history : List Bool) : Prop :=
  history.length ≤ peak ∧
    ∀ i, i + peak < size + history.length → bits i = history.getD i false

section Window

variable {size peak : Nat} {bits : Nat → Bool} {history : List Bool}

/-- An empty history fits any register. -/
theorem Window.nil (size : Nat) : Window size 0 (fun _ => false) [] :=
  ⟨Nat.le_refl 0, fun _ _ => rfl⟩

/-- Only the bits of the register matter. -/
theorem Window.congr {bits' : Nat → Bool} (window : Window size peak bits history)
    (same : ∀ i < size, bits' i = bits i) : Window size peak bits' history :=
  ⟨window.1, fun i inside => (same i (by have := window.1; omega)).trans (window.2 i inside)⟩

/-- Shifting an entry in. -/
theorem Window.push (window : Window size peak bits history) (entry : Bool) :
    Window size (max peak (history.length + 1))
      (fun i => if i = 0 then entry else bits (i - 1)) (entry :: history) := by
  refine ⟨Nat.le_max_right .., fun i inside => ?_⟩
  cases i with
  | zero => rfl
  | succ i =>
      rw [List.length_cons] at inside
      exact window.2 i (by omega)

/-- Shifting back to an older entry. -/
theorem Window.drop (window : Window size peak bits history) {n : Nat} (le : n ≤ history.length) :
    Window size peak (fun i => bits (i + n)) (history.drop n) := by
  obtain ⟨shorter, exact⟩ := window
  refine ⟨by rw [List.length_drop]; omega, fun i inside => ?_⟩
  rw [List.length_drop] at inside
  have kept := exact (i + n) (by omega)
  simpa [List.getD_eq_getElem?_getD, Nat.add_comm n i] using kept

/-- With at most `lost` entries shifted out, all other bits are right. -/
theorem Window.low (window : Window size peak bits history) {lost : Nat}
    (near : peak ≤ history.length + lost) {i : Nat} (inside : i < size - lost) :
    bits i = history.getD i false :=
  window.2 i (by omega)

end Window

end CPUDelaySim
