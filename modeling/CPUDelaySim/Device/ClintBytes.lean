import CPUDelaySim.Device.Board

/-!
# The registers of the CLINT as bytes

A register of the CLINT is eight bytes of a little-endian memory, so an access may be to all of
them or to either half. `Clint::read` and `Clint::write` look at the offset alone: they answer
the offset at which a register starts, with all eight bytes, and no other. So a load defines its
bytes exactly when it starts where a register does (`read_defined_iff`), and no others exactly
when it is of eight bytes (`read_fits_iff`), and a store leaves the registers as the memory has
them exactly when what it is not to change is what it would put there (`Holds.write_iff`).
-/

namespace CPUDelaySim.Mmio

/-! ### Bytes at offsets -/

/-- The low `n` bytes of `data`, stored at an offset. -/
def storeBytes (m : Word → Byte) (offset : Word) (n : Nat) (data : Word) : Word → Byte :=
  fun o => if (o - offset).toNat < n then byteAt data (o - offset).toNat else m o

/-- The `n` bytes at an offset. -/
def loadBytes (m : Word → Byte) (offset : Word) (n : Nat) : Word :=
  joinBytes ((List.range n).map fun i => m (offset + BitVec.ofNat 64 i))

/-- A byte of what is stored, and the bytes around it. -/
theorem storeBytes_at (m : Word → Byte) {offset o data : Word} {n d : Nat}
    (distance : (o - offset).toNat = d) :
    storeBytes m offset n data o = if d < n then byteAt data d else m o := by
  subst distance
  rfl

/-- What is not stored stays. -/
theorem storeBytes_outside {m : Word → Byte} {offset o data : Word} {n : Nat}
    (outside : n ≤ (o - offset).toNat) : storeBytes m offset n data o = m o := by
  rw [storeBytes, if_neg (by omega)]

/-- Stored at one half and then at the other, four bytes each are eight bytes. -/
theorem storeBytes_halves (m : Word → Byte) (offset low high : Word) :
    storeBytes (storeBytes m offset 4 low) (offset + 4) 4 high =
      storeBytes m offset 8 (high.setWidth 32 ++ low.setWidth 32) := by
  funext o
  have shifted : o - (offset + 4) = o - offset - 4 := by bv_omega
  simp only [storeBytes, shifted]
  generalize o - offset = d
  have bound := d.isLt
  by_cases first : d.toNat < 4
  · have above : ¬ (d - 4).toNat < 4 := by bv_omega
    rw [if_neg above, if_pos first, if_pos (by omega), byteAt, byteAt]
    apply BitVec.eq_of_getLsbD_eq
    intro k small
    simp only [BitVec.getLsbD_extractLsb', BitVec.getLsbD_append, BitVec.getLsbD_setWidth]
    simp [show 8 * d.toNat + k < 32 by omega]
  · by_cases second : d.toNat < 8
    · have index : (d - 4).toNat = d.toNat - 4 := by bv_omega
      rw [index, if_pos (by omega), if_pos second, byteAt, byteAt]
      apply BitVec.eq_of_getLsbD_eq
      intro k small
      simp only [BitVec.getLsbD_extractLsb', BitVec.getLsbD_append, BitVec.getLsbD_setWidth]
      simp [show ¬ 8 * d.toNat + k < 32 by omega,
        show 8 * (d.toNat - 4) + k = 8 * d.toNat + k - 32 by omega,
        show 8 * d.toNat + k - 32 < 32 by omega]
    · have above : ¬ (d - 4).toNat < 4 := by bv_omega
      rw [if_neg above, if_neg first, if_neg second]

/-- Words with the same bytes are the same. -/
theorem eq_of_byteAt {v w : Word} (bytes : ∀ i < 8, byteAt v i = byteAt w i) : v = w := by
  apply BitVec.eq_of_getLsbD_eq
  intro k bound
  have bit := congrArg (fun b => b.getLsbD (k % 8)) (bytes (k / 8) (by omega))
  simpa [byteAt, Nat.mod_lt, show 8 * (k / 8) + k % 8 = k by omega] using bit

/-- A buffer that is stored over as a whole keeps nothing. -/
theorem overlay_range (v buf : Word) {n : Nat} (small : n ≤ 8) :
    Memory.overlay n buf ((List.range 8).map (byteAt v)) =
      joinBytes ((List.range n).map (byteAt v)) := by
  rw [Memory.overlay]
  congr 1
  apply List.map_congr_left
  intro i listed
  have inside := List.mem_range.1 listed
  simp [List.getD, show i < 8 by omega]

/-! ### Registers -/

/-- A register of the CLINT. -/
inductive ClintReg
  | msip | mtime | mtimecmp
  deriving DecidableEq

namespace ClintReg

/-- Where the register is in the address range of the CLINT. -/
def offset : ClintReg → Word
  | msip => msipOffset
  | mtime => mtimeOffset
  | mtimecmp => mtimecmpOffset

/-- What is in the register. -/
def get (c : Clint) : ClintReg → Word
  | msip => c.msip
  | mtime => c.mtime
  | mtimecmp => c.mtimecmp

/-- What a write keeps of its operand: MSIP has one bit. -/
def keep (data : Word) : ClintReg → Word
  | msip => data &&& 1
  | mtime | mtimecmp => data

end ClintReg

/-- The part of a register that an access is to. -/
inductive RegPart
  | whole | low | high
  deriving DecidableEq

namespace RegPart

/-- Where the part begins. -/
def start : RegPart → Word
  | whole | low => 0
  | high => 4

/-- How long the part is. -/
def bytes : RegPart → Nat
  | whole => 8
  | low | high => 4

end RegPart

namespace Clint

/-- The registers hold the bytes of the memory. -/
def Holds (c : Clint) (m : Word → Byte) : Prop :=
  ∀ r : ClintReg, ∀ i < 8, byteAt (r.get c) i = m (r.offset + BitVec.ofNat 64 i)

/-- A read at a register returns its eight bytes. -/
theorem read_register (c : Clint) (r : ClintReg) :
    c.read r.offset = (List.range 8).map (byteAt (r.get c)) := by
  cases r <;> rfl

/-- A read between the registers returns nothing. -/
theorem read_other (c : Clint) {offset : Word} (other : ∀ r : ClintReg, offset ≠ r.offset) :
    c.read offset = [] := by
  have msip : offset ≠ msipOffset := other .msip
  have mtime : offset ≠ mtimeOffset := other .mtime
  have mtimecmp : offset ≠ mtimecmpOffset := other .mtimecmp
  rw [read, if_neg msip, if_neg mtime, if_neg mtimecmp]

/-- A write takes the whole register if it starts with it, and nothing if it starts in it. -/
theorem write_part (c : Clint) (r r' : ClintReg) (p : RegPart) (data : Word) :
    r'.get (c.write (r.offset + p.start) data).1 =
      if r' = r ∧ p ≠ .high then r.keep data else r'.get c := by
  cases r <;> cases r' <;> cases p <;> rfl

/-! ### Loads -/

/-- A load leaves nothing of its buffer exactly when it starts where a register does. -/
theorem read_defined_iff (c : Clint) (offset : Word) {n : Nat} (some : 0 < n) (small : n ≤ 8) :
    (∃ raw, ∀ buf, Memory.overlay n buf (c.read offset) = raw) ↔
      ∃ r : ClintReg, offset = r.offset := by
  constructor
  · rintro ⟨raw, defined⟩
    by_contra other
    rw [read_other c fun r same => other ⟨r, same⟩] at defined
    -- the first bit is that of the buffer
    have bit (buf : Word) : raw.getLsbD 0 = buf.getLsbD 0 := by
      rw [← defined buf, Memory.overlay_getLsbD n buf [] (by omega) (by omega), byteAt]
      simp
    have clash := (bit 0).symm.trans (bit 1)
    revert clash
    decide
  · rintro ⟨r, rfl⟩
    refine ⟨joinBytes ((List.range n).map (byteAt (r.get c))), fun buf => ?_⟩
    rw [read_register, overlay_range _ _ small]

/-- It stores nothing past the buffer either exactly when that has eight bytes. -/
theorem read_fits_iff (c : Clint) (offset : Word) {n : Nat} (some : 0 < n) (small : n ≤ 8) :
    ((c.read offset).drop n = [] ∧ ∃ raw, ∀ buf, Memory.overlay n buf (c.read offset) = raw) ↔
      n = 8 ∧ ∃ r : ClintReg, offset = r.offset := by
  rw [read_defined_iff c offset some small]
  refine and_congr_left ?_
  rintro ⟨r, rfl⟩
  rw [read_register, List.drop_eq_nil_iff, List.length_map, List.length_range]
  omega

/-- Then it reads the bytes of the memory. -/
theorem Holds.overlay_read {c : Clint} {m : Word → Byte} (held : c.Holds m) (r : ClintReg)
    {n : Nat} (small : n ≤ 8) (buf : Word) :
    Memory.overlay n buf (c.read r.offset) = loadBytes m r.offset n := by
  rw [read_register, overlay_range _ _ small, loadBytes]
  congr 1
  apply List.map_congr_left
  intro i listed
  exact held r i (Nat.lt_of_lt_of_le (List.mem_range.1 listed) small)

/-! ### Stores -/

/-- The store changes nothing beside its bytes, and those to its operand's: all of the operand
is kept, and where it starts with the register but ends before it, or starts in its middle, the
upper half is already what it is left with. -/
def StoreFits (m : Word → Byte) (r : ClintReg) (data : Word) : RegPart → Prop
  | .whole => r.keep data = data
  | .low => (∀ i < 4, byteAt (r.keep data) i = byteAt data i) ∧
      ∀ i, 4 ≤ i → i < 8 → m (r.offset + BitVec.ofNat 64 i) = byteAt (r.keep data) i
  | .high => ∀ i < 4, m (r.offset + 4 + BitVec.ofNat 64 i) = byteAt data i

/-- The bytes of a register after a store to a part of it. -/
theorem storeBytes_register (m : Word → Byte) (r : ClintReg) (p : RegPart) (data : Word) {i : Nat}
    (inside : i < 8) :
    storeBytes m (r.offset + p.start) p.bytes data (r.offset + BitVec.ofNat 64 i) =
      match p with
      | .whole => byteAt data i
      | .low => if i < 4 then byteAt data i else m (r.offset + BitVec.ofNat 64 i)
      | .high => if 4 ≤ i then byteAt data (i - 4) else m (r.offset + BitVec.ofNat 64 i) := by
  have index : r.offset + BitVec.ofNat 64 i - (r.offset + p.start) =
      BitVec.ofNat 64 i - p.start := by
    bv_omega
  have same : (BitVec.ofNat 64 i - 0#64).toNat = i := by bv_omega
  cases p with
  | whole =>
      rw [storeBytes_at m ((congrArg BitVec.toNat index).trans same)]
      exact if_pos inside
  | low =>
      rw [storeBytes_at m ((congrArg BitVec.toNat index).trans same)]
      rfl
  | high =>
      by_cases upper : 4 ≤ i
      · have distance : (BitVec.ofNat 64 i - 4#64).toNat = i - 4 := by bv_omega
        rw [storeBytes_at m ((congrArg BitVec.toNat index).trans distance)]
        exact (if_pos (by simp only [RegPart.bytes]; omega)).trans (if_pos upper).symm
      · -- the distance wraps around
        have distance : (BitVec.ofNat 64 i - 4#64).toNat = 2 ^ 64 + i - 4 := by bv_omega
        rw [storeBytes_at m ((congrArg BitVec.toNat index).trans distance)]
        exact (if_neg (by simp only [RegPart.bytes]; omega)).trans (if_neg upper).symm

/-- The registers do not overlap. -/
theorem storeBytes_apart (m : Word → Byte) {r r' : ClintReg} (apart : r' ≠ r) (p : RegPart)
    (data : Word) {i : Nat} (inside : i < 8) :
    storeBytes m (r.offset + p.start) p.bytes data (r'.offset + BitVec.ofNat 64 i) =
      m (r'.offset + BitVec.ofNat 64 i) := by
  apply storeBytes_outside
  cases r <;> cases r' <;> first | exact absurd rfl apart | skip
  all_goals
    simp only [ClintReg.offset, msipOffset, mtimeOffset, mtimecmpOffset]
    cases p <;> simp only [RegPart.start, RegPart.bytes] <;> bv_omega

/-- After a store the registers are as the memory exactly when the store fits. -/
theorem Holds.write_iff {c : Clint} {m : Word → Byte} (held : c.Holds m) (r : ClintReg)
    (p : RegPart) (data : Word) :
    (c.write (r.offset + p.start) data).1.Holds
        (storeBytes m (r.offset + p.start) p.bytes data) ↔ StoreFits m r data p := by
  -- the other registers are left alone on both sides
  have others : (c.write (r.offset + p.start) data).1.Holds
        (storeBytes m (r.offset + p.start) p.bytes data) ↔
      ∀ i < 8, byteAt (r.get (c.write (r.offset + p.start) data).1) i =
        storeBytes m (r.offset + p.start) p.bytes data (r.offset + BitVec.ofNat 64 i) := by
    refine ⟨fun h => h r, fun h r' i inside => ?_⟩
    by_cases same : r' = r
    · rw [same]
      exact h i inside
    · rw [storeBytes_apart m same p data inside, ← held r' i inside, write_part,
        if_neg fun both => same both.1]
  rw [others]
  simp only [write_part, true_and]
  cases p with
  | whole =>
      simp only [ne_eq, reduceCtorEq, not_false_eq_true, if_true]
      constructor
      · intro h
        apply eq_of_byteAt
        intro i inside
        rw [h i inside, storeBytes_register m r .whole data inside]
      · intro kept i inside
        rw [storeBytes_register m r .whole data inside, show r.keep data = data from kept]
  | low =>
      simp only [ne_eq, reduceCtorEq, not_false_eq_true, if_true]
      constructor
      · intro h
        refine ⟨fun i lower => ?_, fun i upper inside => ?_⟩
        · rw [h i (by omega), storeBytes_register m r .low data (by omega)]
          exact if_pos lower
        · rw [h i inside, storeBytes_register m r .low data inside]
          exact (if_neg (by omega)).symm
      · rintro ⟨lower, upper⟩ i inside
        rw [storeBytes_register m r .low data inside]
        dsimp only
        split
        · exact lower i ‹_›
        · exact (upper i (by omega) inside).symm
  | high =>
      simp only [ne_eq, not_true_eq_false, if_false]
      -- `Clint::write` knows no register at this offset and drops the store.
      have place (i : Nat) : r.offset + 4 + BitVec.ofNat 64 i =
          r.offset + BitVec.ofNat 64 (i + 4) := by
        rw [BitVec.add_assoc, BitVec.ofNat_add, BitVec.add_comm 4]
        rfl
      constructor
      · intro h i inside
        rw [place, ← held r _ (by omega), h _ (by omega),
          storeBytes_register m r .high data (by omega)]
        exact if_pos (by omega)
      · intro fits i inside
        rw [storeBytes_register m r .high data inside, held r i inside]
        dsimp only
        split
        · rename_i upper
          rw [← fits (i - 4) (by omega), place, Nat.sub_add_cancel upper]
        · rfl

end Clint

end CPUDelaySim.Mmio
