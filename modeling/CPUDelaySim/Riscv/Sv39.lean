import CPUDelaySim.Common.RadixTable
import CPUDelaySim.Riscv.Accesses

/-!
# Sv39 translation

The page tables in RAM as a table of three levels, and `translateAddr` against the lookup
in it.  `sv39` is what the architecture asks: pointers that are valid and have no reserved
bit, a leaf that is valid, aligned and permitted, and the address it gives.

The walk computes this wherever it can read the tables.  An entry outside RAM and the
devices is read all the same, past the end of the `ram` array.

`RadixTable` has the general lookup; here `pteSlot` is its table, `walkTurn_eq` says that one turn
of the loop is one step of it, and `visited` are the entries that have to be readable.  A
translation is then compared level by level, without unfolding the loop again.

`SameTables` is the frame: two machines with the same switches and the same words at those entries
translate alike.  `translateAddr_eq_reached` also says where a walk stops when it faults, which is
what a caller holds that does not test the code.
-/

namespace CPUDelaySim.Riscv

variable {δ : Type}

namespace RiscvArch

/-! ### The tables -/

namespace Pte

/-- Valid, not writable without being readable, and the reserved bits clear. -/
def WellFormed (pte : Pte) : Prop :=
  pte.v = true ∧ (pte.w = true → pte.r = true) ∧ pte.pad = false

/-- The entry is valid and can be read or executed. -/
def IsLeaf (pte : Pte) : Prop := pte.WellFormed ∧ (pte.r = true ∨ pte.x = true)

/-- The entry leads to the next table, and has no bit set that only a leaf may have. -/
def IsPointer (pte : Pte) : Prop :=
  pte.WellFormed ∧ pte.r = false ∧ pte.x = false ∧ pte.a = false ∧ pte.d = false ∧
    pte.u = false ∧ pte.pbmt = false ∧ pte.n = false

instance (pte : Pte) : Decidable pte.WellFormed := by unfold WellFormed; infer_instance
instance (pte : Pte) : Decidable pte.IsLeaf := by unfold IsLeaf; infer_instance
instance (pte : Pte) : Decidable pte.IsPointer := by unfold IsPointer; infer_instance

/-- The page a leaf of a level maps is aligned to its size. -/
def Aligned (pte : Pte) (level : Nat) : Prop := pte.ppn.toNat % 2 ^ (9 * level) = 0

instance (pte : Pte) (level : Nat) : Decidable (pte.Aligned level) := by
  unfold Aligned; infer_instance

/-- The physical address of `va` in the page of a leaf. -/
def target (pte : Pte) (level : Nat) (va : Word) : Word :=
  BitVec.ofNat 64 (pte.ppn.toNat * 2 ^ 12 + va.toNat % 2 ^ (12 + 9 * level))

/-- The table a pointer names. -/
def table (pte : Pte) : Word := pte.ppn.setWidth 64 <<< 12

/-- The walk's tests sort entries into leaves, pointers and the rest. -/
theorem classify_eq (pte : Pte) :
    classify pte = if pte.IsLeaf then .leaf else if pte.IsPointer then .next else .fault := by
  have formed : (!pte.v || (!pte.r && pte.w) || pte.pad) = true ↔ ¬ pte.WellFormed := by
    simp only [WellFormed]
    grind
  have leaf : (pte.r || pte.x) = true ↔ pte.r = true ∨ pte.x = true := Bool.or_eq_true_iff
  have marked : (pte.a || pte.d || pte.u || pte.pbmt || pte.n) = true ↔
      ¬ (pte.a = false ∧ pte.d = false ∧ pte.u = false ∧ pte.pbmt = false ∧ pte.n = false) := by
    grind
  unfold classify
  simp only [formed, leaf, marked, IsLeaf, IsPointer]
  by_cases h : pte.WellFormed
  · by_cases l : pte.r = true ∨ pte.x = true
    · simp [h, l]
    · have clear : pte.r = false ∧ pte.x = false := by simpa using l
      simp only [h, clear, not_true_eq_false, if_false, true_and]
      by_cases m : pte.a = false ∧ pte.d = false ∧ pte.u = false ∧ pte.pbmt = false ∧ pte.n = false
      · rw [if_neg (not_not.2 m), if_pos m]
      · rw [if_pos m, if_neg m]
  · simp [h]

end Pte

/-- `VPN[level]`. -/
def vpn (va : Word) (level : Nat) : BitVec 9 := va.extractLsb' (12 + 9 * level) 9

/-- The address of the entry that `va` selects in a table. -/
def entryAddr (va : Word) (level : Nat) (table : Word) : Word :=
  table + 8 * (vpn va level).setWidth 64

/-- `satp.PPN`, as the address of the root table. -/
def satpRoot (s : ArchState) : Word := ((s.get .satp).extractLsb' 0 44).setWidth 64 <<< 12

/-- The entry RAM holds at an address, unless a device claims it. -/
def pteAt (P : Platform δ) (ram : Nat → Byte) (addr : Word) : Option Pte :=
  if (Memory.deviceAt P.map addr).isSome then none
  else some ⟨Memory.load ram (Memory.ramIndex addr) 8⟩

/-- What `va` selects in the table at an address. -/
def pteSlot (P : Platform δ) (ram : Nat → Byte) (va table : Word) (level : Nat) :
    Slot Word Pte :=
  match pteAt P ram (entryAddr va level table) with
  | none => .fault
  | some pte =>
      if pte.IsLeaf then .leaf pte else if pte.IsPointer then .next pte.table else .fault

/-- The translation of an access, if it is mapped and permitted. -/
def sv39 (P : Platform δ) (ram : Nat → Byte) (s : ArchState) (va : Word) (type : FetchType) :
    Option Word :=
  match Slot.find (pteSlot P ram va) 2 (satpRoot s) with
  | none => none
  | some (pte, level) =>
      if pte.Aligned level ∧ checkPermission s pte true type = true then
        some (pte.target level va)
      else none

/-- What the walk holds as its address after an entry: the address in the entry, or still that of
the table when a device answers for it. -/
def heldAt (P : Platform δ) (ram : Nat → Byte) (va table : Word) (level : Nat) : Word :=
  match pteAt P ram (entryAddr va level table) with
  | none => table
  | some pte => pte.table

/-- The address the walk comes to an end with. -/
def reached (P : Platform δ) (ram : Nat → Byte) (va : Word) (level : Nat) (table : Word) : Word :=
  let t := Slot.last (pteSlot P ram va) level table
  heldAt P ram va t.1 t.2

/-- The addresses of the entries that a translation reads. -/
def pteReads (P : Platform δ) (ram : Nat → Byte) (s : ArchState) (va : Word) : List Word :=
  (Slot.visited (pteSlot P ram va) 2 (satpRoot s)).map fun t => entryAddr va t.2 t.1

/-- An address is translated by a path of pointers to a leaf. -/
theorem sv39_eq_some_iff (P : Platform δ) (ram : Nat → Byte) (s : ArchState) (va : Word)
    (type : FetchType) (pa : Word) :
    sv39 P ram s va type = some pa ↔
      ∃ pte level, Slot.Leads (pteSlot P ram va) 2 (satpRoot s) pte level ∧
        pte.Aligned level ∧ checkPermission s pte true type = true ∧
        pa = pte.target level va := by
  unfold sv39
  constructor
  · intro mapped
    split at mapped
    · cases mapped
    · rename_i pte level found
      split at mapped
      · rename_i fits
        cases mapped
        exact ⟨pte, level, Slot.find_eq_some_iff.1 found, fits.1, fits.2, rfl⟩
      · cases mapped
  · rintro ⟨pte, level, path, aligned, permitted, rfl⟩
    rw [Slot.find_eq_some_iff.2 path]
    exact if_pos ⟨aligned, permitted⟩

/-- A walk reads three entries at most. -/
theorem pteReads_length_le (P : Platform δ) (ram : Nat → Byte) (s : ArchState) (va : Word) :
    (pteReads P ram s va).length ≤ 3 := by
  rw [pteReads, List.length_map]
  exact Slot.visited_length_le 2 _

/-! ### The words of the walk -/

/-- The source finds an entry where the manual does. -/
theorem pteAddr_eq (va : Word) (level : Nat) (table : Word) :
    pteAddr va level table = entryAddr va level table := by
  have index : vpni va level = (vpn va level).setWidth 64 := by
    apply BitVec.eq_of_getLsbD_eq
    intro i bound
    have mask : ∀ i : Fin 64, (0x1ff : Word).getLsbD i = decide (i.1 < 9) := by decide
    rw [vpni, vpn, BitVec.getLsbD_and, mask ⟨i, bound⟩, BitVec.getLsbD_ushiftRight,
      BitVec.getLsbD_setWidth, BitVec.getLsbD_extractLsb']
    simp [bound, vpniShft, Bool.and_comm]
  rw [pteAddr, entryAddr, index, BitVec.mul_comm]

/-- The walk begins at the table that `satp` names. -/
theorem root_eq (s : ArchState) : pgBase (s.get .satp &&& 0xfffffffffff) = satpRoot s := by
  have root : s.get .satp &&& 0xfffffffffff = ((s.get .satp).extractLsb' 0 44).setWidth 64 := by
    apply BitVec.eq_of_getLsbD_eq
    intro i bound
    have mask : ∀ i : Fin 64, (0xfffffffffff : Word).getLsbD i = decide (i.1 < 44) := by decide
    rw [BitVec.getLsbD_and, mask ⟨i, bound⟩, BitVec.getLsbD_setWidth,
      BitVec.getLsbD_extractLsb']
    simp [bound, Bool.and_comm]
  rw [pgBase, root, satpRoot]

/-- The mask of a level covers the offset in its page. -/
theorem pgMask_getLsbD {level : Nat} (small : level ≤ 2) {i : Nat} (bound : i < 64) :
    (pgMask level).getLsbD i = decide (i < 12 + 9 * level) := by
  have masks : ∀ l : Fin 3, ∀ i : Fin 64,
      (pgMask l.1).getLsbD i.1 = decide (i.1 < 12 + 9 * l.1) := by decide
  exact masks ⟨level, by omega⟩ ⟨i, bound⟩

/-- The page of an entry begins at its `ppn`. -/
theorem pgBase_getLsbD (pte : Pte) (i : Nat) :
    (pgBase (pte.ppn.setWidth 64)).getLsbD i = (decide (12 ≤ i) && pte.ppn.getLsbD (i - 12)) := by
  rw [pgBase, BitVec.getLsbD_shiftLeft, BitVec.getLsbD_setWidth]
  by_cases low : i < 12
  · simp [low, show ¬ 12 ≤ i by omega]
  · by_cases bound : i < 64
    · simp [low, bound, show i - 12 < 64 by omega, show 12 ≤ i by omega]
    · simp [bound, BitVec.getLsbD_of_ge pte.ppn (i - 12) (by omega)]

/-- A number is a multiple of a power of two when its low bits are clear. -/
theorem mod_two_pow_eq_zero_iff (n k : Nat) :
    n % 2 ^ k = 0 ↔ ∀ i < k, n.testBit i = false := by
  constructor
  · intro zero i low
    have := congrArg (fun m => m.testBit i) zero
    simpa [Nat.testBit_mod_two_pow, low] using this
  · intro clear
    apply Nat.eq_of_testBit_eq
    intro i
    rw [Nat.testBit_mod_two_pow, Nat.zero_testBit]
    by_cases low : i < k
    · simp [clear i low]
    · simp [low]

/-- The walk's alignment test. -/
theorem misaligned_iff (pte : Pte) {level : Nat} (small : level ≤ 2) :
    (0 < level ∧ pgBase (pte.ppn.setWidth 64) &&& pgMask level ≠ 0) ↔ ¬ pte.Aligned level := by
  have zero : pgBase (pte.ppn.setWidth 64) &&& pgMask level = 0 ↔ pte.Aligned level := by
    rw [Pte.Aligned, mod_two_pow_eq_zero_iff]
    constructor
    · intro clear i low
      have := congrArg (fun v : Word => v.getLsbD (i + 12)) clear
      have bit : pte.ppn.getLsbD i = false := by
        simpa [BitVec.getLsbD_and, pgBase_getLsbD,
          pgMask_getLsbD small (show i + 12 < 64 by omega),
          show i + 12 < 12 + 9 * level by omega] using this
      exact bit
    · intro clear
      apply BitVec.eq_of_getLsbD_eq
      intro i bound
      rw [BitVec.getLsbD_and, pgBase_getLsbD, pgMask_getLsbD small bound]
      by_cases inside : 12 ≤ i ∧ i < 12 + 9 * level
      · have := clear (i - 12) (by omega)
        simp only [BitVec.getLsbD, this]
        simp
      · have outside : ¬ 12 ≤ i ∨ ¬ i < 12 + 9 * level := by omega
        rcases outside with h | h <;> simp [h]
  rw [Ne, zero]
  refine ⟨fun h => h.2, fun h => ⟨?_, h⟩⟩
  by_contra level0
  have : level = 0 := by omega
  subst this
  exact h (Nat.mod_one _)

/-- The address the walk ends with, for an aligned leaf of one of the three levels. -/
theorem merged_eq_target (pte : Pte) {level : Nat} (small : level ≤ 2) (va : Word)
    (aligned : pte.Aligned level) :
    (pgBase (pte.ppn.setWidth 64) &&& ~~~pgMask level) ||| (va &&& pgMask level) =
      pte.target level va := by
  obtain ⟨q, multiple⟩ := Nat.dvd_of_mod_eq_zero aligned
  have offset : va.toNat % 2 ^ (12 + 9 * level) < 2 ^ (12 + 9 * level) :=
    Nat.mod_lt _ (Nat.two_pow_pos _)
  have sum : pte.ppn.toNat * 2 ^ 12 + va.toNat % 2 ^ (12 + 9 * level) =
      2 ^ (12 + 9 * level) * q + va.toNat % 2 ^ (12 + 9 * level) := by
    rw [multiple, Nat.pow_add, Nat.mul_comm, Nat.mul_assoc]
  have page {i : Nat} (high : 12 + 9 * level ≤ i) :
      pte.ppn.getLsbD (i - 12) = q.testBit (i - (12 + 9 * level)) := by
    have digits := Nat.testBit_two_pow_mul_add q (Nat.two_pow_pos (9 * level)) (i - 12)
    rw [Nat.add_zero, ← multiple, if_neg (by omega)] at digits
    rw [BitVec.getLsbD, digits, show i - 12 - 9 * level = i - (12 + 9 * level) by omega]
  apply BitVec.eq_of_getLsbD_eq
  intro i bound
  rw [Pte.target, sum, BitVec.getLsbD_ofNat, Nat.testBit_two_pow_mul_add q offset,
    BitVec.getLsbD_or, BitVec.getLsbD_and, BitVec.getLsbD_and, BitVec.getLsbD_not,
    pgMask_getLsbD small bound, pgBase_getLsbD]
  by_cases low : i < 12 + 9 * level
  · simp [low, bound, BitVec.getLsbD]
  · simp [low, bound, page (Nat.le_of_not_lt low), show 12 ≤ i by omega]

/-! ### The walk -/

section Walk

variable {P : Platform δ} {va : Word}

/-- A device's answer to the read of an entry ends the walk. -/
theorem walkTurn_device {level : Nat} {table : Word} (arch : RiscvArch δ) {d : Device δ}
    (claimed : Memory.deviceAt P.map (entryAddr va level table) = some d) :
    ∃ b, walkTurn P va level table arch = .ok (.done ⟨table, none, b⟩) ∧ ReadFrame arch b := by
  let r := d.read arch.memory.dev (entryAddr va level table) 8
  have read : Memory.paddrRead P.map arch.memory (entryAddr va level table) 8 P.junk =
      .ok ⟨Memory.overlay 8 P.junk r.bytes, true, { arch.memory with dev := r.dev }, r.irq,
        r.bytes.drop 8⟩ := by
    rw [Memory.paddrRead, claimed]
  have ram : ({ arch.memory with dev := r.dev } : Memory δ).ram = arch.memory.ram := rfl
  refine ⟨arch.afterAccess { arch.memory with dev := r.dev } r.irq, ?_,
    afterAccess_read arch ram r.irq⟩
  rw [← pteAddr_eq, pteAddr] at read
  simp only [walkTurn, paddrRead, read]
  rfl

/-- An entry in RAM does what it says. -/
theorem walkTurn_ram {level : Nat} {table : Word} {arch : RiscvArch δ}
    (plain : Memory.deviceAt P.map (entryAddr va level table) = none)
    (inside : Memory.InRam P.map (entryAddr va level table) 8) :
    walkTurn P va level table arch =
      match pteSlot P arch.memory.ram va table level with
      | .fault => .ok (.done ⟨pgBase ((Pte.ppn ⟨Memory.load arch.memory.ram
          (Memory.ramIndex (entryAddr va level table)) 8⟩).setWidth 64), none, arch⟩)
      | .leaf pte => .ok (.done ⟨pgBase (pte.ppn.setWidth 64), some (pte, level), arch⟩)
      | .next table' => .ok (.next table' arch) := by
  have read := Memory.paddrRead_ram plain inside arch.memory P.junk
  have slot : pteAt P arch.memory.ram (entryAddr va level table) =
      some ⟨Memory.load arch.memory.ram (Memory.ramIndex (entryAddr va level table)) 8⟩ := by
    rw [pteAt, plain]
    rfl
  rw [pteSlot, slot]
  generalize Memory.load arch.memory.ram (Memory.ramIndex (entryAddr va level table)) 8 = entry
    at read ⊢
  rw [← pteAddr_eq, pteAddr] at read
  simp only [walkTurn, paddrRead, read]
  simp only [bind, Except.bind, pure, Except.pure, Bool.not_false, Bool.not_true,
    Bool.false_eq_true, if_false]
  rw [Pte.classify_eq]
  split_ifs <;> rfl

/-- What a slot says of the address in its entry. -/
theorem heldAt_of_leaf {ram : Nat → Byte} {table : Word} {level : Nat} {pte : Pte}
    (slot : pteSlot P ram va table level = .leaf pte) :
      heldAt P ram va table level = pte.table := by
  unfold pteSlot at slot
  unfold heldAt
  cases entry : pteAt P ram (entryAddr va level table) with
  | none =>
      rw [entry] at slot
      cases slot
  | some pte' =>
      rw [entry] at slot
      dsimp only at slot
      split_ifs at slot
      cases slot
      rfl

/-- An entry that is no leaf holds the address of the next table. -/
theorem heldAt_of_next {ram : Nat → Byte} {table table' : Word} {level : Nat}
    (slot : pteSlot P ram va table level = .next table') :
    heldAt P ram va table level = table' := by
  unfold pteSlot at slot
  unfold heldAt
  cases entry : pteAt P ram (entryAddr va level table) with
  | none =>
      rw [entry] at slot
      cases slot
  | some pte' =>
      rw [entry] at slot
      dsimp only at slot
      split_ifs at slot
      cases slot
      rfl

/-- A turn of the walk that can read its entry does what the entry says. -/
theorem walkTurn_eq {level : Nat} {table : Word} (arch : RiscvArch δ)
    (mapped : Memory.Mapped P.map (entryAddr va level table) 8) :
    ∃ b, ReadFrame arch b ∧
      match pteSlot P arch.memory.ram va table level with
      | .fault => walkTurn P va level table arch =
          .ok (.done ⟨heldAt P arch.memory.ram va table level, none, b⟩)
      | .leaf pte => walkTurn P va level table arch =
          .ok (.done ⟨pgBase (pte.ppn.setWidth 64), some (pte, level), b⟩)
      | .next table' => walkTurn P va level table arch = .ok (.next table' b) := by
  cases claimed : Memory.deviceAt P.map (entryAddr va level table) with
  | some d =>
      obtain ⟨b, turned, frame⟩ := walkTurn_device arch claimed
      have entry : pteAt P arch.memory.ram (entryAddr va level table) = none := by
        rw [pteAt, claimed]
        rfl
      have slot : pteSlot P arch.memory.ram va table level = .fault := by
        rw [pteSlot, entry]
      rw [slot, heldAt, entry]
      exact ⟨b, frame, turned⟩
  | none =>
      have inside : Memory.InRam P.map (entryAddr va level table) 8 := by
        rcases mapped with device | inside
        · rw [claimed] at device
          cases device
        · exact inside
      have entry : pteAt P arch.memory.ram (entryAddr va level table) =
          some ⟨Memory.load arch.memory.ram
            (Memory.ramIndex (entryAddr va level table)) 8⟩ := by
        rw [pteAt, claimed]
        rfl
      refine ⟨arch, .refl arch, ?_⟩
      rw [walkTurn_ram claimed inside, heldAt, entry]
      cases pteSlot P arch.memory.ram va table level with
      | fault => rfl
      | leaf pte => rfl
      | next table' => rfl

/-- The walk goes on where the entry points. -/
theorem walkTurn_next {level : Nat} {table table' : Word} {arch b : RiscvArch δ}
    (turned : walkTurn P va level table arch = .ok (.next table' b)) :
    pteSlot P arch.memory.ram va table level = .next table' ∧
      b.memory.ram = arch.memory.ram := by
  have mapped : Memory.Mapped P.map (entryAddr va level table) 8 := by
    rw [← pteAddr_eq]
    exact (walkTurn_avoids_iff P va level table arch).1 (by rw [turned]; exact avoids_ok _ _)
  obtain ⟨c, frame, selected⟩ := walkTurn_eq arch mapped
  cases slot : pteSlot P arch.memory.ram va table level with
  | fault =>
      rw [slot] at selected
      cases turned.symm.trans selected
  | leaf pte =>
      rw [slot] at selected
      cases turned.symm.trans selected
  | next table'' =>
      rw [slot] at selected
      cases turned.symm.trans selected
      exact ⟨rfl, frame.exec.ram⟩

/-- The walk finds what the lookup finds, if it can read every entry on the way. -/
theorem walk_eq {level : Nat} {table : Word} {arch : RiscvArch δ}
    (mapped : ∀ t ∈ Slot.visited (pteSlot P arch.memory.ram va) level table,
      Memory.Mapped P.map (entryAddr va t.2 t.1) 8) :
    ∃ r, walk P va level table arch = .ok r ∧ ReadFrame arch r.arch ∧
      r.leaf = Slot.find (pteSlot P arch.memory.ram va) level table ∧
      (∀ pte l, r.leaf = some (pte, l) → r.paddr = pgBase (pte.ppn.setWidth 64)) ∧
      r.paddr = reached P arch.memory.ram va level table := by
  induction level generalizing table arch with
  | zero =>
      obtain ⟨b, frame, selected⟩ :=
        walkTurn_eq arch (mapped _ (Slot.mem_visited_self 0 table))
      cases slot : pteSlot P arch.memory.ram va table 0 with
      | fault =>
          simp only [slot] at selected
          rw [walk, selected]
          exact ⟨_, rfl, frame, (Slot.find_of_fault slot).symm, by rintro pte l ⟨⟩, rfl⟩
      | leaf pte =>
          simp only [slot] at selected
          rw [walk, selected]
          refine ⟨_, rfl, frame, (Slot.find_of_leaf slot).symm, ?_, (heldAt_of_leaf slot).symm⟩
          rintro pte' l ⟨⟩
          rfl
      | next table' =>
          simp only [slot] at selected
          rw [walk, selected]
          exact ⟨_, rfl, frame, (Slot.find_zero_of_next slot).symm, by rintro pte l ⟨⟩,
            (heldAt_of_next slot).symm⟩
  | succ level ih =>
      obtain ⟨b, frame, selected⟩ :=
        walkTurn_eq arch (mapped _ (Slot.mem_visited_self _ table))
      cases slot : pteSlot P arch.memory.ram va table (level + 1) with
      | fault =>
          simp only [slot] at selected
          rw [walk, selected]
          refine ⟨_, rfl, frame, (Slot.find_of_fault slot).symm, by rintro pte l ⟨⟩, ?_⟩
          rw [reached, Slot.last_of_fault slot]
      | leaf pte =>
          simp only [slot] at selected
          rw [walk, selected]
          refine ⟨_, rfl, frame, (Slot.find_of_leaf slot).symm, ?_, ?_⟩
          · rintro pte' l ⟨⟩
            rfl
          · rw [reached, Slot.last_of_leaf slot]
            exact (heldAt_of_leaf slot).symm
      | next table' =>
          simp only [slot] at selected
          -- A turn may read a device, but it leaves RAM, where the tables are.
          have ram : b.memory.ram = arch.memory.ram := frame.exec.ram
          have below : ∀ t ∈ Slot.visited (pteSlot P b.memory.ram va) level table',
              Memory.Mapped P.map (entryAddr va t.2 t.1) 8 := by
            rw [ram]
            intro t read
            refine mapped t ?_
            rw [Slot.visited_of_next slot]
            exact List.mem_cons_of_mem _ read
          obtain ⟨r, walked, rest, found, address, ends⟩ := ih below
          rw [walk, selected]
          refine ⟨r, walked, frame.trans rest, ?_, address, ?_⟩
          · rw [found, ram, Slot.find_succ_of_next slot]
          · rw [ends, ram, reached, reached, Slot.last_succ_of_next slot]

/-- The walk reads entries of the lookup only. -/
theorem walkAll_of_visited {W : RiscvArch δ → Word → Nat → Prop} {level : Nat} {table : Word}
    {arch : RiscvArch δ}
    (reads : ∀ t ∈ Slot.visited (pteSlot P arch.memory.ram va) level table,
      ∀ b, W b (entryAddr va t.2 t.1) 8) : WalkAll P W va level table arch := by
  induction level generalizing table arch with
  | zero =>
      rw [WalkAll, pteAddr_eq]
      exact reads _ (Slot.mem_visited_self 0 table) arch
  | succ level ih =>
      rw [WalkAll, pteAddr_eq]
      refine ⟨reads _ (Slot.mem_visited_self _ table) arch, ?_⟩
      intro table' b turned
      obtain ⟨slot, ram⟩ := walkTurn_next turned
      refine ih ?_
      rw [ram]
      intro t read
      refine reads t ?_
      rw [Slot.visited_of_next slot]
      exact List.mem_cons_of_mem _ read

/-- It reads all of them, unless one is in no memory. -/
theorem visited_of_walkAll {W : Word → Nat → Prop} {level : Nat} {table : Word}
    {arch : RiscvArch δ} (mapped : ∀ p n, W p n → Memory.Mapped P.map p n)
    (reads : WalkAll P (fun _ => W) va level table arch) :
    ∀ t ∈ Slot.visited (pteSlot P arch.memory.ram va) level table,
      W (entryAddr va t.2 t.1) 8 := by
  induction level generalizing table arch with
  | zero =>
      rw [WalkAll, pteAddr_eq] at reads
      intro t read
      rcases Slot.mem_visited read with rfl | ⟨low, table', level, -⟩
      · exact reads
      · omega
  | succ level ih =>
      rw [WalkAll, pteAddr_eq] at reads
      intro t read
      rcases Slot.mem_visited read with rfl | ⟨low, table', same, slot, below⟩
      · exact reads.1
      · obtain rfl : level = low := by omega
        obtain ⟨b, frame, selected⟩ := walkTurn_eq arch (mapped _ _ reads.1)
        simp only [slot] at selected
        refine ih (reads.2 table' b selected) t ?_
        rw [frame.exec.ram]
        exact below

end Walk

/-! ### The translation -/

section Translation

variable (P : Platform δ) (a : RiscvArch δ) (va : Word)

/-- Every entry that the translation of an address reads is in RAM or claimed by a device. -/
def PtesMapped : Prop :=
  ∀ p ∈ pteReads P a.memory.ram a.state va, Memory.Mapped P.map p 8

instance : Decidable (PtesMapped P a va) := by unfold PtesMapped; infer_instance

variable {P a va}

/-- Two machines translate alike: they have the same RAM and switches, and the same words
that a translation goes by. -/
structure SameTables (a b : RiscvArch δ) : Prop where
  ram : b.memory.ram = a.memory.ram
  ifetch : b.ifetchMmuState = a.ifetchMmuState
  data : b.dataMmuState = a.dataMmuState
  satp : b.state.get .satp = a.state.get .satp
  priv : b.state.get .priv = a.state.get .priv
  mstatus : b.state.get .mstatus = a.state.get .mstatus

/-- Two states in a row with the same tables. -/
theorem SameTables.trans {b c : RiscvArch δ} (first : SameTables a b) (second : SameTables b c) :
    SameTables a c where
  ram := second.ram.trans first.ram
  ifetch := second.ifetch.trans first.ifetch
  data := second.data.trans first.data
  satp := second.satp.trans first.satp
  priv := second.priv.trans first.priv
  mstatus := second.mstatus.trans first.mstatus

/-- A read changes no table and no mode. -/
theorem ReadFrame.sameTables {b : RiscvArch δ} (frame : ReadFrame a b) : SameTables a b where
  ram := frame.exec.ram
  ifetch := frame.exec.ifetchMmuState
  data := frame.exec.dataMmuState
  satp := frame.get (by decide)
  priv := frame.get (by decide)
  mstatus := frame.get (by decide)

/-- The same cached state turns the MMU on. -/
theorem SameTables.mmuOn {b : RiscvArch δ} (same : SameTables a b) (type : FetchType) :
    b.mmuOn type = a.mmuOn type := by
  cases type with
  | ifetch => exact same.ifetch
  | _ => exact same.data

/-- The same modes give the same permission. -/
theorem SameTables.checkPermission {b : RiscvArch δ} (same : SameTables a b) (pte : Pte)
    (ok : Bool) (type : FetchType) :
    checkPermission b.state pte ok type = checkPermission a.state pte ok type := by
  unfold RiscvArch.checkPermission
  rw [same.priv, same.mstatus]

/-- The walk begins at the same table. -/
theorem SameTables.satpRoot {b : RiscvArch δ} (same : SameTables a b) :
    satpRoot b.state = satpRoot a.state := by
  rw [RiscvArch.satpRoot, RiscvArch.satpRoot, same.satp]

/-- The manual translates in the same way. -/
theorem SameTables.sv39 {b : RiscvArch δ} (same : SameTables a b) (type : FetchType) :
    sv39 P b.memory.ram b.state va type = sv39 P a.memory.ram a.state va type := by
  simp only [RiscvArch.sv39, same.ram, same.satpRoot, same.checkPermission]

/-- The same entries can be read. -/
theorem SameTables.ptesMapped {b : RiscvArch δ} (same : SameTables a b) :
    PtesMapped P b va ↔ PtesMapped P a va := by
  simp only [PtesMapped, pteReads, same.ram, same.satpRoot]

/-- What is made of the end of the walk. -/
theorem translateAddr_of_walk {type : FetchType} (on : a.mmuOn type = true) {r : WalkResult δ}
    (walked : walk P va 2 (satpRoot a.state) a = .ok r) (exception : Word) :
    a.translateAddr P va type exception =
      match r.leaf with
      | none => .ok (r.paddr, type.pageFault, r.arch)
      | some (pte, level) =>
          if !checkPermission r.arch.state pte true type then
            .ok (r.paddr, type.pageFault, r.arch)
          else if 0 < level ∧ r.paddr &&& pgMask level ≠ 0 then
            .ok (r.paddr, type.pageFault, r.arch)
          else
            .ok ((r.paddr &&& ~~~pgMask level) ||| (va &&& pgMask level), exception, r.arch) := by
  unfold translateAddr
  rw [on, if_neg (by decide)]
  dsimp only
  rw [root_eq, walked]
  rfl

/-- With its entries mapped, a translation gives the address of `sv39` and leaves the code
alone, or reports the fault of the access at the address the walk has come to. -/
theorem translateAddr_eq_reached {type : FetchType} (on : a.mmuOn type = true)
    (mapped : PtesMapped P a va) (exception : Word) :
    ∃ b, ReadFrame a b ∧ a.translateAddr P va type exception =
      match sv39 P a.memory.ram a.state va type with
      | some pa => .ok (pa, exception, b)
      | none =>
          .ok (reached P a.memory.ram va 2 (satpRoot a.state), type.pageFault, b) := by
  have entries : ∀ t ∈ Slot.visited (pteSlot P a.memory.ram va) 2 (satpRoot a.state),
      Memory.Mapped P.map (entryAddr va t.2 t.1) 8 :=
    fun t read => mapped _ (List.mem_map_of_mem read)
  obtain ⟨r, walked, frame, found, address, ends⟩ := walk_eq entries
  refine ⟨r.arch, frame, ?_⟩
  rw [translateAddr_of_walk on walked, sv39, ← found, ← ends]
  cases leaf : r.leaf with
  | none => rfl
  | some last =>
      obtain ⟨pte, level⟩ := last
      have small : level ≤ 2 := (Slot.find_eq_some_iff.1 (found.symm.trans leaf)).le
      have held : r.paddr = pgBase (pte.ppn.setWidth 64) := address pte level leaf
      have skewed := misaligned_iff pte small
      dsimp only
      rw [frame.sameTables.checkPermission]
      by_cases permitted : checkPermission a.state pte true type = true
      · by_cases aligned : pte.Aligned level
        · rw [if_neg (by simp [permitted]), held, if_neg fun h => skewed.1 h aligned,
            if_pos ⟨aligned, permitted⟩, merged_eq_target pte small va aligned]
        · rw [if_neg (by simp [permitted]), if_pos (held ▸ skewed.2 aligned),
            if_neg fun h => aligned h.1]
      · rw [if_pos (by simp [permitted]), if_neg fun h => permitted h.2]

/-- With its entries where they can be read, `translateAddr` finds what the manual says, or
raises the page fault of the access. -/
theorem translateAddr_eq {type : FetchType} (on : a.mmuOn type = true)
    (mapped : PtesMapped P a va) (exception : Word) :
    ∃ paddr b, ReadFrame a b ∧ a.translateAddr P va type exception =
      match sv39 P a.memory.ram a.state va type with
      | some pa => .ok (pa, exception, b)
      | none => .ok (paddr, type.pageFault, b) :=
  ⟨_, translateAddr_eq_reached on mapped exception⟩

/-- An entry that is not mapped stops the translation. -/
theorem ptesMapped_of_ok {type : FetchType} (on : a.mmuOn type = true) {exception : Word}
    {r : Word × Word × RiscvArch δ} (ran : a.translateAddr P va type exception = .ok r) :
    PtesMapped P a va := by
  have reads := (translateAddr_avoids_iff P a va type exception).1
    (by rw [ran]; exact avoids_ok _ _) on
  rw [root_eq] at reads
  intro p read
  obtain ⟨t, below, rfl⟩ := List.mem_map.1 read
  exact visited_of_walkAll (fun _ _ mapped => mapped) reads t below

/-- A page fault is an exception. -/
theorem pageFault_ne_excNone (type : FetchType) : type.pageFault ≠ excNone := by
  cases type <;> decide

/-- The code of a translation says whether `sv39` has an address, and then it is that one. -/
theorem sv39_of_ok {type : FetchType} (on : a.mmuOn type = true) {paddr code : Word}
    {b : RiscvArch δ} (ran : a.translateAddr P va type excNone = .ok (paddr, code, b)) :
    (code = excNone ∧ sv39 P a.memory.ram a.state va type = some paddr) ∨
      (code = type.pageFault ∧ sv39 P a.memory.ram a.state va type = none) := by
  obtain ⟨paddr', c, -, ends⟩ := translateAddr_eq on (ptesMapped_of_ok on ran) excNone
  cases mapping : sv39 P a.memory.ram a.state va type with
  | none =>
      rw [mapping] at ends
      cases ran.symm.trans ends
      exact .inr ⟨rfl, rfl⟩
  | some pa =>
      rw [mapping] at ends
      cases ran.symm.trans ends
      exact .inl ⟨rfl, rfl⟩

/-- An address that comes back without a fault is where the manual says that it is. -/
theorem sv39_of_silent {type : FetchType} (on : a.mmuOn type = true) {paddr : Word}
    {b : RiscvArch δ} (ran : a.translateAddr P va type excNone = .ok (paddr, excNone, b)) :
    sv39 P a.memory.ram a.state va type = some paddr := by
  rcases sv39_of_ok on ran with ⟨-, mapping⟩ | ⟨fault, -⟩
  · exact mapping
  · exact absurd fault.symm (pageFault_ne_excNone type)

/-- A fault comes back only for an address that the manual does not translate. -/
theorem sv39_of_fault {type : FetchType} (on : a.mmuOn type = true) {paddr : Word}
    {b : RiscvArch δ} (ran : a.translateAddr P va type excNone = .ok (paddr, type.pageFault, b)) :
    sv39 P a.memory.ram a.state va type = none := by
  rcases sv39_of_ok on ran with ⟨silent, -⟩ | ⟨-, unmapped⟩
  · exact absurd silent (pageFault_ne_excNone type)
  · exact unmapped

/-- A translation reports the code it was given or the fault. -/
theorem translateAddr_code {type : FetchType} {exception code : Word} {b : RiscvArch δ}
    {p : Word} (ran : a.translateAddr P va type exception = .ok (p, code, b)) :
    code = exception ∨ code = type.pageFault := by
  cases enabled : a.mmuOn type with
  | false =>
      rw [translateAddr, enabled] at ran
      cases ran
      exact .inl rfl
  | true =>
      obtain ⟨paddr, c, -, ends⟩ := translateAddr_eq enabled (ptesMapped_of_ok enabled ran)
        exception
      rw [ran] at ends
      cases mapping : sv39 P a.memory.ram a.state va type with
      | none =>
          rw [mapping] at ends
          exact .inr (congrArg (fun r => r.2.1) (Except.ok.inj ends))
      | some pa =>
          rw [mapping] at ends
          exact .inl (congrArg (fun r => r.2.1) (Except.ok.inj ends))

end Translation

/-! ### The store of an `sc` -/

/-- A store body that leaves no code has translated its address. -/
theorem st_translated {P : Platform δ} {width : Width} {ctx c : Ctx δ} {va : Word}
    (ran : st P width ctx va = .ok c) (silent : c.info.exception = excNone) :
    ∃ ha b, ctx.arch.translateAddr P va .sfetch excNone = .ok (ha, excNone, b) := by
  unfold st at ran
  split at ran
  · cases ran
    exact absurd silent (by decide : excSAM ≠ excNone)
  · rw [bind_eq_ok] at ran
    obtain ⟨⟨ha, exception, b⟩, translated, rest⟩ := ran
    dsimp only at rest
    split at rest
    · cases rest
      exact absurd silent (by decide : excSPF ≠ excNone)
    · rename_i valid
      have none : exception = excNone := by simpa [exceptionValid] using valid
      subst none
      exact ⟨ha, b, translated⟩

/-- The comparison of a store-conditional notes no other address. -/
theorem scFails_excData (P : Platform δ) (width : Width) (ctx : Ctx δ) (va : Word) :
    Returns (scFails P width ctx va) fun r => r.2.info.excData = ctx.info.excData := by
  unfold scFails
  split
  · exact (returns_ok _ _).2 rfl
  · simp only [returns_bind, returns_pure]
    refine (ld_spec P width ctx va).mono ?_
    rintro ⟨data, c⟩ ⟨-, info⟩
    exact info.keeps.2.2.2.2.2.2.1

/-- An `sc` that has not failed and left no code has an address that `sv39` maps, in a
machine that translates as before. -/
theorem exec_sc_translated {P : Platform δ} {a : RiscvArch δ} {va : Word}
    (on : a.mmuOn .sfetch = true) (rd : BitVec 5) (addr : ArchState → Word) (width : Width)
    (src : ArchState → Word) (info : DecodeInfo) (aims : addr a.state = va) :
    Returns ((Body.sc rd addr width src).exec P ⟨a, info⟩) fun r =>
      r.2.info.exception = excNone → r.2.info.dst0.data = 0 →
        r.2.info.excData = va ∧ SameTables a r.2.arch ∧
          ∃ pa, sv39 P a.memory.ram a.state va .sfetch = some pa := by
  subst aims
  simp only [Body.exec, returns_bind, returns_pure]
  rintro ⟨fail, c⟩ compared
  have same : SameTables a c.arch :=
    (scFails_memStep P width _ _ _ compared).frame.sameTables
  have kept : c.info.excData = addr a.state := scFails_excData P width _ _ _ compared
  unfold scResult
  cases fail with
  | true =>
      refine (returns_ok _ _).2 ?_
      intro _ zero
      exact absurd zero (by decide : (1 : Word) ≠ 0)
  | false =>
      simp only [Bool.false_eq_true, if_false, returns_bind, returns_pure]
      intro c' stored silent _
      obtain ⟨frame, left⟩ := st_spec P width c _ _ stored
      obtain ⟨ha, b, translated⟩ := st_translated stored silent
      refine ⟨left.keeps.2.2.2.2.2.2.1.trans kept, ?_, ha, ?_⟩
      · exact (ReadFrame.trans (scFails_memStep P width _ _ _ compared).frame frame).sameTables
      · rw [← same.sv39]
        exact sv39_of_silent ((same.mmuOn _).trans on) translated

/-! ### A fault ends a load or a store -/

/-- An access that the tables do not map ends with its page fault. -/
theorem translateAddr_of_unmapped {P : Platform δ} {a : RiscvArch δ} {va : Word}
    {type : FetchType} (on : a.mmuOn type = true) (mapped : PtesMapped P a va)
    (unmapped : sv39 P a.memory.ram a.state va type = none) (exception : Word) :
    ∃ paddr b, a.translateAddr P va type exception = .ok (paddr, type.pageFault, b) := by
  obtain ⟨paddr, b, -, ran⟩ := translateAddr_eq on mapped exception
  rw [unmapped] at ran
  exact ⟨paddr, b, ran⟩

/-- A load whose address the tables do not map reports the fault, and reads nothing more. -/
theorem ld_of_unmapped {P : Platform δ} {a : RiscvArch δ} {va : Word}
    (on : a.mmuOn .lfetch = true) (mapped : PtesMapped P a va)
    (unmapped : sv39 P a.memory.ram a.state va .lfetch = none) (width : Width) (info : DecodeInfo)
    (aligned : width.misaligned va = false) :
    ∃ paddr b, a.translateAddr P va .lfetch excNone = .ok (paddr, excLPF, b) ∧
      ld P width ⟨a, info⟩ va = .ok (0, ⟨b, { info with exception := excLPF }⟩) := by
  obtain ⟨paddr, b, ran⟩ := translateAddr_of_unmapped on mapped unmapped excNone
  refine ⟨paddr, b, ran, ?_⟩
  rw [ld, aligned, if_neg (by decide)]
  dsimp only
  rw [ran]
  rfl

/-- A store whose address the tables do not map reports the fault, and leaves nothing to store. -/
theorem st_of_unmapped {P : Platform δ} {a : RiscvArch δ} {va : Word}
    (on : a.mmuOn .sfetch = true) (mapped : PtesMapped P a va)
    (unmapped : sv39 P a.memory.ram a.state va .sfetch = none) (width : Width) (info : DecodeInfo)
    (aligned : width.misaligned va = false) :
    ∃ paddr b, a.translateAddr P va .sfetch excNone = .ok (paddr, excSPF, b) ∧
      st P width ⟨a, info⟩ va = .ok ⟨b, { info with exception := excSPF }⟩ := by
  obtain ⟨paddr, b, ran⟩ := translateAddr_of_unmapped on mapped unmapped excNone
  refine ⟨paddr, b, ran, ?_⟩
  rw [st, aligned, if_neg (by decide)]
  dsimp only
  rw [ran]
  rfl

/-- What an `sc` leaves to be stored is stored at the address of `sv39`: the commit translates it
again, with the same tables. -/
theorem sc_translated {P : Platform δ} {a : RiscvArch δ} {va : Word} (on : a.mmuOn .sfetch = true)
    (mapped : PtesMapped P a va) (rd : BitVec 5) (addr : ArchState → Word) (width : Width)
    (src : ArchState → Word) (info : DecodeInfo) (aims : addr a.state = va) (fresh : Fresh info) :
    Returns ((Body.sc rd addr width src).exec P ⟨a, info⟩) fun r =>
      r.2.info.exception = excNone → r.2.info.dst0.data = 0 →
      Returns (commitDsts r.2.arch.state r.2.info) fun s =>
        ∃ pa b, sv39 P a.memory.ram a.state va .sfetch = some pa ∧
          ({ r.2.arch with state := s } : RiscvArch δ).translateAddr P r.2.info.excData .sfetch
            excNone = .ok (pa, excNone, b) := by
  intro r executed silent stores s committed
  obtain ⟨address, same, pa, mapping⟩ :=
    exec_sc_translated on rd addr width src info aims r executed silent stores
  -- The commit loop writes `rd` and the reservation, so the tables are the same again.
  have spec := exec_sc P rd addr width src ⟨a, info⟩ fresh r executed
  have kept (w : StateWord) (other : ∀ i, w ≠ .gpr i) (res : w ≠ .loadRes) :
      s.get w = r.2.arch.state.get w := by
    refine commitDsts_get committed (spec.apart w ?_)
    rintro (h | h)
    · exact other rd h
    · exact res h
  have again : SameTables a ({ r.2.arch with state := s } : RiscvArch δ) :=
    { ram := same.ram, ifetch := same.ifetch, data := same.data
      satp := (kept .satp (by decide) (by decide)).trans same.satp
      priv := (kept .priv (by decide) (by decide)).trans same.priv
      mstatus := (kept .mstatus (by decide) (by decide)).trans same.mstatus }
  obtain ⟨paddr, b, -, ran⟩ := translateAddr_eq ((again.mmuOn _).trans on)
    (again.ptesMapped.2 mapped) excNone
  rw [again.sv39, mapping] at ran
  rw [address]
  exact ⟨pa, b, mapping, ran⟩

/-- A machine in S-mode with `satp` set, on RAM that starts with the given words. -/
def supervisor (satp : Word) (words : List (BitVec 32)) : RiscvArch Unit :=
  let arch := RiscvArch.reset archCfg (imageOf words)
  ({ arch with state := (arch.state.set .satp satp).set .priv modeS }).updateMMUState

/-- A root table that maps the gigapage of RAM to itself. -/
def gigapage : RiscvArch Unit :=
  supervisor 0x8000000000080000 [0, 0, 0, 0, 0x200000cf, 0]

end RiscvArch

end CPUDelaySim.Riscv
