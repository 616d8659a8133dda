import CPUDelaySim.Riscv.Encode
import CPUDelaySim.Riscv.Sv39

/-!
# Accesses that reach memory

`ld` and `st` check alignment, translate, and then read, or leave the address to be stored
at.  `LdOutcome` and `StOutcome` list their ends with all that was found on the way.

What is committed afterwards goes through the slots of the record: for an access the third
destination is a byte count and a physical address.  Its mask stays clear, so the commit loop
never takes the count for an offset into `ArchState`.
-/

namespace CPUDelaySim.Riscv

variable {δ : Type}

open RiscvArch

/-- The machine at an instruction. -/
def RiscvArch.at (a : RiscvArch δ) (vaddr paddr : Word) : RiscvArch δ :=
  { a with pc := vaddr, paddr := paddr }

/-! ### Physical addresses -/

/-- An address is translated without a fault. -/
def Translates (P : Platform δ) (a : RiscvArch δ) (va : Word) (type : FetchType) (ha : Word) :
    Prop :=
  a.translateAddr P va type excNone = .ok (ha, excNone, a)

/-- The physical address of an access: Sv39 with the MMU on, the address itself without. -/
def RiscvArch.physical (P : Platform δ) (a : RiscvArch δ) (va : Word) (type : FetchType) :
    Option Word :=
  if a.mmuOn type then sv39 P a.memory.ram a.state va type else some va

/-- A translation that succeeds says where the address is. -/
theorem Translates.physical {P : Platform δ} {a : RiscvArch δ} {va ha : Word} {type : FetchType}
    (translated : Translates P a va type ha) : a.physical P va type = some ha := by
  unfold RiscvArch.physical
  cases on : a.mmuOn type with
  | true => exact sv39_of_silent on translated
  | false =>
      rw [Translates, translateAddr, on] at translated
      cases translated
      rfl

section Walkable

variable {P : Platform δ} {a b : RiscvArch δ} {va : Word} {type : FetchType}

/-- Every entry that a data access to `va` is translated by is in RAM or a device's. -/
def Walkable (P : Platform δ) (a : RiscvArch δ) (va : Word) : Prop :=
  a.dataMmuState = true → PtesMapped P a va

instance : Decidable (Walkable P a va) := by unfold Walkable; infer_instance

/-- A load and a store look at the cached state for data. -/
theorem mmuOn_data (data : type ≠ .ifetch) : a.mmuOn type = a.dataMmuState := by
  cases type with
  | ifetch => exact absurd rfl data
  | lfetch | sfetch => rfl

/-- A translation that returns has read its entries from where they can be read. -/
theorem walkable_of_ok (data : type ≠ .ifetch) {exception : Word}
    {r : Word × Word × RiscvArch δ} (ran : a.translateAddr P va type exception = .ok r) :
    Walkable P a va :=
  fun on => ptesMapped_of_ok ((mmuOn_data data).trans on) ran

/-- What can be walked is translated, or faults. -/
theorem translate_cases (walkable : Walkable P a va) (data : type ≠ .ifetch) :
    (∃ ha, a.physical P va type = some ha ∧ Translates P a va type ha) ∨
      (a.physical P va type = none ∧ ∃ ha b, ReadFrame a b ∧
        a.translateAddr P va type excNone = .ok (ha, type.pageFault, b)) := by
  cases on : a.mmuOn type with
  | false =>
      refine .inl ⟨va, ?_, ?_⟩
      · rw [RiscvArch.physical, on]
        rfl
      · rw [Translates, translateAddr, on]
        rfl
  | true =>
      have mapped : PtesMapped P a va := walkable ((mmuOn_data data).symm.trans on)
      obtain ⟨ha, b, frame, ends⟩ := translateAddr_eq on mapped excNone
      cases mapping : sv39 P a.memory.ram a.state va type with
      | none =>
          rw [mapping] at ends
          refine .inr ⟨?_, ha, b, frame, ends⟩
          rw [RiscvArch.physical, on, if_pos rfl, mapping]
      | some pa =>
          rw [mapping] at ends
          have same := translateAddr_same ends
          subst same
          refine .inl ⟨pa, ?_, ends⟩
          rw [RiscvArch.physical, on, if_pos rfl, mapping]

/-- Where an address is depends on the page tables only. -/
theorem RiscvArch.SameTables.physical (same : SameTables a b) :
    b.physical P va type = a.physical P va type := by
  simp only [RiscvArch.physical, same.mmuOn, same.sv39]

/-- So does whether its entries can be read. -/
theorem RiscvArch.SameTables.walkable (same : SameTables a b) :
    Walkable P b va ↔ Walkable P a va := by
  simp only [Walkable, same.data, same.ptesMapped]

/-- A page that may be written may be read. -/
theorem checkPermission_lfetch {s : ArchState} {pte : Pte} (leaf : pte.IsLeaf)
    (granted : checkPermission s pte true .sfetch = true) :
    checkPermission s pte true .lfetch = true := by
  obtain ⟨⟨-, readable, -⟩, -⟩ := leaf
  simp only [checkPermission, Bool.and_eq_true] at granted ⊢
  obtain ⟨⟨⟨common, w⟩, pad⟩, accessed, -⟩ := granted
  exact ⟨⟨⟨common, by rw [readable w]; rfl⟩, pad⟩, accessed⟩

/-- A path through the tables ends at a leaf. -/
theorem isLeaf_of_leads {ram : Nat → Byte} {level last : Nat} {table : Word} {pte : Pte}
    (path : Slot.Leads (pteSlot P ram va) level table pte last) : pte.IsLeaf := by
  induction path with
  | leaf found =>
      unfold pteSlot at found
      split at found
      · cases found
      · split_ifs at found with leaf
        cases found
        exact leaf
  | next _ _ ih => exact ih

/-- So an address that can be stored to can be loaded from, at the same place. -/
theorem physical_lfetch {ha : Word} (writable : a.physical P va .sfetch = some ha) :
    a.physical P va .lfetch = some ha := by
  change (if a.dataMmuState = true then _ else _) = _ at writable ⊢
  cases on : a.dataMmuState with
  | false =>
      rw [on] at writable
      exact writable
  | true =>
      rw [on] at writable
      obtain ⟨pte, level, path, aligned, granted, address⟩ := (sv39_eq_some_iff ..).1 writable
      exact (sv39_eq_some_iff ..).2
        ⟨pte, level, path, aligned, checkPermission_lfetch (isLeaf_of_leads path) granted, address⟩

end Walkable

/-! ### The ends of the accesses -/

/-- How `ld` ends. -/
inductive LdOutcome (P : Platform δ) (width : Width) (ctx : Ctx δ) (va : Word) :
    Word × Ctx δ → Prop
  | misaligned (skew : width.misaligned va = true) :
      LdOutcome P width ctx va (0, ctx.raise excLAM)
  | fault {ha : Word} {b : RiscvArch δ} (aligned : width.misaligned va = false)
      (translated : ctx.arch.translateAddr P va .lfetch excNone = .ok (ha, excLPF, b)) :
      LdOutcome P width ctx va (0, ({ ctx with arch := b } : Ctx δ).raise excLPF)
  | read {ha raw : Word} {plain : Bool} {b : RiscvArch δ} (aligned : width.misaligned va = false)
      (translated : Translates P ctx.arch va .lfetch ha)
      (value : ctx.arch.paddrRead P ha width.bytes P.junk = .ok (raw, plain, b)) :
      LdOutcome P width ctx va
        (width.extend raw, ({ ctx with arch := b } : Ctx δ).setWidth2 width.bytes)

/-- How `st` ends. -/
inductive StOutcome (P : Platform δ) (width : Width) (ctx : Ctx δ) (va : Word) : Ctx δ → Prop
  | misaligned (skew : width.misaligned va = true) :
      StOutcome P width ctx va (ctx.raise excSAM)
  | fault {ha : Word} {b : RiscvArch δ} (aligned : width.misaligned va = false)
      (translated : ctx.arch.translateAddr P va .sfetch excNone = .ok (ha, excSPF, b)) :
      StOutcome P width ctx va (({ ctx with arch := b } : Ctx δ).raise excSPF)
  | prepared {ha : Word} (aligned : width.misaligned va = false)
      (translated : Translates P ctx.arch va .sfetch ha) :
      StOutcome P width ctx va ((ctx.setWidth2 width.bytes).setData2 ha)

/-- A load is misaligned, or its page faults, or it reads where the address is. -/
theorem ld_outcome (P : Platform δ) (width : Width) (ctx : Ctx δ) (va : Word) :
    Returns (ld P width ctx va) (LdOutcome P width ctx va) := by
  intro r ran
  unfold ld at ran
  cases skew : width.misaligned va with
  | true =>
      rw [skew, if_pos rfl] at ran
      cases ran
      exact .misaligned skew
  | false =>
      rw [skew, if_neg (by nofun), bind_eq_ok] at ran
      obtain ⟨⟨ha, code, b⟩, translated, rest⟩ := ran
      dsimp only at rest
      rcases translateAddr_code translated with rfl | rfl
      · rw [if_neg (by decide), bind_eq_ok] at rest
        obtain ⟨⟨raw, plain, c⟩, value, result⟩ := rest
        cases result
        have same := translateAddr_same translated
        subst same
        exact .read skew translated value
      · rw [if_pos (by decide)] at rest
        cases rest
        exact .fault skew translated

/-- A store is misaligned, or its page faults, or it notes where the address is. -/
theorem st_outcome (P : Platform δ) (width : Width) (ctx : Ctx δ) (va : Word) :
    Returns (st P width ctx va) (StOutcome P width ctx va) := by
  intro c ran
  unfold st at ran
  cases skew : width.misaligned va with
  | true =>
      rw [skew, if_pos rfl] at ran
      cases ran
      exact .misaligned skew
  | false =>
      rw [skew, if_neg (by nofun), bind_eq_ok] at ran
      obtain ⟨⟨ha, code, b⟩, translated, rest⟩ := ran
      dsimp only at rest
      rcases translateAddr_code translated with rfl | rfl
      · rw [if_neg (by decide)] at rest
        cases rest
        have same := translateAddr_same translated
        subst same
        exact .prepared skew translated
      · rw [if_pos (by decide)] at rest
        cases rest
        exact .fault skew translated

/-! ### Bytes -/

/-- An access of `n` bytes at an address is one to RAM. -/
structure RamAddress (P : Platform δ) (ha : Word) (n : Nat) : Prop where
  plain : Memory.deviceAt P.map ha = none
  inside : Memory.InRam P.map ha n

/-- Bit `k` of the bytes at an index. -/
theorem load_getLsbD (ram : Nat → Byte) (index : Nat) {n k : Nat} (bound : k < 64)
    (inside : k < 8 * n) :
    (Memory.load ram index n).getLsbD k = (ram (index + k / 8)).getLsbD (k % 8) := by
  have byte : k / 8 < n := by omega
  rw [Memory.load, joinBytes_getLsbD _ bound]
  simp [List.getD, byte]

/-- The bytes of a word, loaded again, are the word as far as they reach. -/
theorem load_setWidth {ram : Nat → Byte} {index n : Nat} (small : n ≤ 8) {data : Word}
    (bytes : ∀ i < n, ram (index + i) = byteAt data i) :
    (Memory.load ram index n).setWidth (8 * n) = data.setWidth (8 * n) := by
  apply BitVec.eq_of_getLsbD_eq
  intro k bound
  rw [BitVec.getLsbD_setWidth, BitVec.getLsbD_setWidth, load_getLsbD _ _ (by omega) bound,
    bytes _ (by omega), byteAt, BitVec.getLsbD_extractLsb',
    show 8 * (k / 8) + k % 8 = k by omega]
  simp [Nat.mod_lt]

/-- No access is wider than a word. -/
theorem Width.bytes_le (width : Width) : width.bytes ≤ 8 := by cases width <;> decide

/-- Every access has a byte. -/
theorem Width.bytes_pos (width : Width) : 0 < width.bytes := by cases width <;> decide

/-- The width fits the field of the record that holds it. -/
theorem Width.ofNat_bytes (width : Width) :
    (BitVec.ofNat 16 width.bytes).toNat = width.bytes := by cases width <;> rfl

/-- The bytes a store keeps of its operand are the operand's. -/
theorem byteAt_truncate (width : Width) (v : Word) {i : Nat} (inside : i < width.bytes) :
    byteAt (width.truncate v) i = byteAt v i := by
  apply BitVec.eq_of_getLsbD_eq
  intro k bound
  have low : 8 * i + k < 8 * width.bytes := by omega
  have bit : (width.truncate v).getLsbD (8 * i + k) = v.getLsbD (8 * i + k) := by
    cases width with
    | d => rfl
    | b | h | w =>
        simp only [Width.bytes] at low
        simp only [Width.truncate, BitVec.getLsbD_setWidth]
        simp [low, show 8 * i + k < 64 by omega]
  simp only [byteAt, BitVec.getLsbD_extractLsb', bit]

/-- A read of the RAM, inside it, returns its bytes and moves nothing. -/
theorem paddrRead_ramAddress {P : Platform δ} {a b : RiscvArch δ} {ha raw buf : Word} {n : Nat}
    {plain : Bool} (ram : RamAddress P ha n)
    (read : a.paddrRead P ha n buf = .ok (raw, plain, b)) :
    raw = Memory.load a.memory.ram (Memory.ramIndex ha) n ∧ b = a := by
  rw [RiscvArch.paddrRead, Memory.paddrRead_ram ram.plain ram.inside] at read
  cases read
  exact ⟨rfl, rfl⟩

/-! ### Accesses to RAM -/

section Forward

variable {P : Platform δ} {width : Width} {ctx : Ctx δ} {va ha : Word} {b : RiscvArch δ}

/-- A misaligned load raises its exception and reads nothing. -/
theorem ld_misaligned (skew : width.misaligned va = true) :
    ld P width ctx va = .ok (0, ctx.raise excLAM) := by
  rw [ld, skew, if_pos rfl]
  rfl

/-- A load whose page faults raises the page fault and reads nothing. -/
theorem ld_of_fault (aligned : width.misaligned va = false)
    (faults : ctx.arch.translateAddr P va .lfetch excNone = .ok (ha, excLPF, b)) :
    ld P width ctx va = .ok (0, ({ ctx with arch := b } : Ctx δ).raise excLPF) := by
  rw [ld, aligned, if_neg (Bool.false_ne_true), faults]
  rfl

/-- A load from RAM returns the extended bytes. -/
theorem ld_of_ram (aligned : width.misaligned va = false)
    (translated : Translates P ctx.arch va .lfetch ha) (ram : RamAddress P ha width.bytes) :
    ld P width ctx va = .ok (width.extend (Memory.load ctx.arch.memory.ram
      (Memory.ramIndex ha) width.bytes), ctx.setWidth2 width.bytes) := by
  have read : ctx.arch.paddrRead P ha width.bytes P.junk = .ok
      (Memory.load ctx.arch.memory.ram (Memory.ramIndex ha) width.bytes, true, ctx.arch) := by
    rw [RiscvArch.paddrRead, Memory.paddrRead_ram ram.plain ram.inside]
    rfl
  rw [ld, aligned, if_neg (Bool.false_ne_true), translated]
  change (ctx.arch.paddrRead P ha width.bytes P.junk >>= _) = _
  rw [read]
  rfl

/-- A misaligned store raises its exception. -/
theorem st_misaligned (skew : width.misaligned va = true) :
    st P width ctx va = .ok (ctx.raise excSAM) := by
  rw [st, skew, if_pos rfl]
  rfl

/-- A store whose page faults raises the page fault. -/
theorem st_of_fault (aligned : width.misaligned va = false)
    (faults : ctx.arch.translateAddr P va .sfetch excNone = .ok (ha, excSPF, b)) :
    st P width ctx va = .ok (({ ctx with arch := b } : Ctx δ).raise excSPF) := by
  rw [st, aligned, if_neg (Bool.false_ne_true), faults]
  rfl

/-- A store notes its physical address and its width for `updateEnv`. -/
theorem st_of_translates (aligned : width.misaligned va = false)
    (translated : Translates P ctx.arch va .sfetch ha) :
    st P width ctx va = .ok ((ctx.setWidth2 width.bytes).setData2 ha) := by
  rw [st, aligned, if_neg (Bool.false_ne_true), translated]
  rfl

end Forward

/-! ### The record of an access -/

section Commit

variable {info : DecodeInfo} {s : ArchState}

/-- The low `n` bytes of a word are put at `ha`, and no other byte changes. -/
structure WritesBytes (a b : RiscvArch δ) (ha : Word) (n : Nat) (data : Word) : Prop where
  bytes : ∀ i < n, b.memory.ram (Memory.ramIndex ha + i) = byteAt data i
  others : ∀ j, j < Memory.ramIndex ha ∨ Memory.ramIndex ha + n ≤ j →
    b.memory.ram j = a.memory.ram j
  devices : b.memory.dev = a.memory.dev

/-- A commit that stores `n` bytes writes them and no others. -/
theorem writesBytes_of_committed {a b : RiscvArch δ} {vaddr paddr ha data : Word} {n : Nat}
    {s : ArchState} (after : b = (a.at vaddr paddr).committed s
      (Memory.store a.memory.ram (Memory.ramIndex ha) n data)) : WritesBytes a b ha n data := by
  have memory : b.memory = { a.memory with
      ram := Memory.store a.memory.ram (Memory.ramIndex ha) n data } := by
    rw [after, RiscvArch.committed_memory]
    rfl
  have ram : b.memory.ram = Memory.store a.memory.ram (Memory.ramIndex ha) n data := by
    rw [memory]
  refine ⟨fun j inside => ?_, fun j outside => ?_, ?_⟩
  · rw [ram, Memory.store, if_pos (by omega), Nat.add_sub_cancel_left]
  · rw [ram, Memory.store, if_neg (by omega)]
  · rw [memory]

/-- Only the bytes of the width are stored, so that what is above them does not matter. -/
theorem WritesBytes.of_truncate {a b : RiscvArch δ} {ha v : Word} {width : Width}
    (writes : WritesBytes a b ha width.bytes (width.truncate v)) :
    WritesBytes a b ha width.bytes v :=
  ⟨fun i inside => (writes.bytes i inside).trans (byteAt_truncate width v inside),
    writes.others, writes.devices⟩

/-- A memory operand goes to the RAM if its bytes are there. -/
theorem storeOperand_ram {P : Platform δ} (a : RiscvArch δ) {ha : Word} {width : Width}
    (ram : RamAddress P ha width.bytes) (data : Word) :
    storeOperand P a ha (BitVec.ofNat 16 width.bytes) data =
      .ok { a with memory := { a.memory with
        ram := Memory.store a.memory.ram (Memory.ramIndex ha) width.bytes data } } := by
  have narrow : ¬ 8 < width.bytes := by
    have := width.bytes_le
    omega
  rw [storeOperand, width.ofNat_bytes, if_neg narrow, RiscvArch.paddrWrite,
    Memory.paddrWrite_ram ram.plain ram.inside]
  rfl

variable {P : Platform δ} {a : RiscvArch δ}

/-- The record of a store or a read-modify-write is committed to RAM as well. -/
theorem updateEnv_write_ram (code : info.exception = excNone)
    (type : info.type = .store ∨ info.type = .amo) (dsts : commitDsts a.state info = .ok s)
    {width : Width} (size : info.dst2.idx = BitVec.ofNat 16 width.bytes)
    (ram : RamAddress P info.dst2.data width.bytes) :
    a.updateEnv P info = .ok (a.pc + info.instSize.setWidth 64, a.committed s
      (Memory.store a.memory.ram (Memory.ramIndex info.dst2.data) width.bytes
        info.dst1.data)) := by
  have stored := storeOperand_ram { a with state := s } ram info.dst1.data
  rw [updateEnv_commit P a code, commit, dsts]
  change (commitMemory P { a with state := s } info >>= _) = _
  have memory : commitMemory P { a with state := s } info =
      storeOperand P { a with state := s } info.dst2.data info.dst2.idx info.dst1.data := by
    rcases type with type | type <;> rw [commitMemory, type]
  rw [memory, size, stored]
  change Except.ok (nextPc a.pc info, _) = _
  rcases type with type | type <;> rw [nextPc, type] <;> rfl

end Commit

end CPUDelaySim.Riscv
