import CPUDelaySim.Riscv.Encode16

/-!
# Memory instructions

The loads, stores and atomic instructions of RV64IAFD in both sizes of encoding, each with
the word of the manual, its effective address, and the body that the decoder selects for it.
An address is a base register and a constant: a signed one in the 32-bit words, a multiple
of the access width in the compressed ones, none in the atomic ones.
-/

namespace CPUDelaySim.Riscv

variable {δ : Type}

/-! ### The S format -/

/-- The I format with the second source in the low bits of the immediate. -/
def wordS (imm : BitVec 12) (rs2 rs1 : BitVec 5) (funct3 : BitVec 3) (opcode : BitVec 7) :
    BitVec 32 :=
  wordI (imm.extractLsb' 5 7 ++ rs2) rs1 funct3 (imm.extractLsb' 0 5) opcode

/-- The arguments of a store, its immediate put together. -/
theorem extractS_wordS (imm : BitVec 12) (rs2 rs1 : BitVec 5) (funct3 : BitVec 3)
    (opcode : BitVec 7) :
    extractS (wordS imm rs2 rs1 funct3 opcode) = ⟨imm.signExtend 64, rs1, rs2⟩ := by
  obtain ⟨pieces, first, low⟩ :=
    fields_wordI rs1 funct3 (imm.extractLsb' 0 5) opcode (imm.extractLsb' 5 7 ++ rs2)
  have high : field (wordS imm rs2 rs1 funct3 opcode) 25 7 = imm.extractLsb' 5 7 := by
    rw [wordS, field_sub _ 20 12 5 7 (by decide), pieces, extractLsb'_above 0 rfl,
      BitVec.extractLsb'_eq_self]
  have second : field (wordS imm rs2 rs1 funct3 opcode) 20 5 = rs2 := by
    rw [wordS, field_sub _ 20 12 0 5 (by decide), pieces, extractLsb'_last]
  have whole : imm.extractLsb' 5 7 ++ imm.extractLsb' 0 5 = imm :=
    (BitVec.extractLsb'_append_extractLsb'_eq_extractLsb' (by rw [Nat.zero_add])).trans
      BitVec.extractLsb'_eq_self
  rw [extractS, high, second, wordS, low, first, whole]

/-- The arguments of an atomic operation or a store-conditional. -/
theorem extractAtomSt_wordR (funct7 : BitVec 7) (rs2 rs1 : BitVec 5) (funct3 : BitVec 3)
    (rd : BitVec 5) (opcode : BitVec 7) :
    extractAtomSt (wordR funct7 rs2 rs1 funct3 rd opcode) = ⟨rs2, rs1, rd⟩ := by
  obtain ⟨second, first, dest⟩ := fields_wordR rs2 rs1 funct3 rd opcode funct7
  rw [extractAtomSt, second, first, dest]

/-- The arguments of a load-reserved. -/
theorem extractAtomLd_wordR (funct7 : BitVec 7) (rs2 rs1 : BitVec 5) (funct3 : BitVec 3)
    (rd : BitVec 5) (opcode : BitVec 7) :
    extractAtomLd (wordR funct7 rs2 rs1 funct3 rd opcode) = ⟨0, rs1, rd⟩ := by
  obtain ⟨-, first, dest⟩ := fields_wordR rs2 rs1 funct3 rd opcode funct7
  rw [extractAtomLd, first, dest]

/-! ### Compressed offsets -/

section Fields

variable (funct3 : BitVec 3) (quadrant : BitVec 2)

/-- The doubleword at a register. -/
theorem offset_clD (k : BitVec 5) (base r : BitVec 3) :
    let word := wordC funct3 (payloadL (k.extractLsb' 0 3) base (k.extractLsb' 3 2) r) quadrant
    extractClD word = ⟨k.setWidth 64 * 8, compactReg base, compactReg r⟩ ∧
      extractCsD word = ⟨k.setWidth 64 * 8, compactReg base, compactReg r⟩ := by
  have offset : ∀ k : BitVec 5, (k.extractLsb' 3 2 ++ k.extractLsb' 0 3 ++ 0#3).setWidth 64 =
      k.setWidth 64 * 8 := by decide
  obtain ⟨high, base', low, r'⟩ :=
    fields_payloadL funct3 quadrant (k.extractLsb' 0 3) base (k.extractLsb' 3 2) r
  dsimp only at high base' low r' ⊢
  rw [extractClD, extractCsD, rvcReg, rvcReg, high, base', low, r', offset]
  exact ⟨rfl, rfl⟩

/-- The word at a register. -/
theorem offset_clW (k : BitVec 5) (base r : BitVec 3) :
    let word := wordC funct3
      (payloadL (k.extractLsb' 1 3) base (k.extractLsb' 0 1 ++ k.extractLsb' 4 1) r) quadrant
    extractClW word = ⟨k.setWidth 64 * 4, compactReg base, compactReg r⟩ ∧
      extractCsW word = ⟨k.setWidth 64 * 4, compactReg base, compactReg r⟩ := by
  have offset : ∀ k : BitVec 5, ((k.extractLsb' 0 1 ++ k.extractLsb' 4 1).extractLsb' 0 1 ++
      k.extractLsb' 1 3 ++ (k.extractLsb' 0 1 ++ k.extractLsb' 4 1).extractLsb' 1 1 ++
      0#2).setWidth 64 = k.setWidth 64 * 4 := by decide
  obtain ⟨high, base', low, r'⟩ := fields_payloadL funct3 quadrant (k.extractLsb' 1 3) base
    (k.extractLsb' 0 1 ++ k.extractLsb' 4 1) r
  dsimp only at high base' low r' ⊢
  rw [extractClW, extractCsW, rvcReg, rvcReg, field_sub _ 5 2 0 1 (by decide),
    field_sub _ 5 2 1 1 (by decide), high, base', low, r', offset]
  exact ⟨rfl, rfl⟩

/-- The doubleword on the stack. -/
theorem offset_spD (k : BitVec 6) (r : BitVec 5) :
    extractCLdsp (wordC funct3 (payloadI (k.extractLsb' 2 1) r
        (k.extractLsb' 0 2 ++ k.extractLsb' 3 3)) quadrant) = ⟨k.setWidth 64 * 8, 2, r⟩ ∧
      extractCSdsp (wordC funct3 (payloadSS (k.extractLsb' 0 3 ++ k.extractLsb' 3 3) r)
        quadrant) = ⟨k.setWidth 64 * 8, 2, r⟩ := by
  have load : ∀ k : BitVec 6, ((k.extractLsb' 0 2 ++ k.extractLsb' 3 3).extractLsb' 0 3 ++
      k.extractLsb' 2 1 ++ (k.extractLsb' 0 2 ++ k.extractLsb' 3 3).extractLsb' 3 2 ++
      0#3).setWidth 64 = k.setWidth 64 * 8 := by decide
  have store : ∀ k : BitVec 6, ((k.extractLsb' 0 3 ++ k.extractLsb' 3 3).extractLsb' 0 3 ++
      (k.extractLsb' 0 3 ++ k.extractLsb' 3 3).extractLsb' 3 3 ++ 0#3).setWidth 64 =
      k.setWidth 64 * 8 := by decide
  obtain ⟨high, r', low⟩ := fields_payloadI funct3 quadrant (k.extractLsb' 2 1) r
    (k.extractLsb' 0 2 ++ k.extractLsb' 3 3)
  obtain ⟨imm, r''⟩ := fields_payloadSS funct3 quadrant
    (k.extractLsb' 0 3 ++ k.extractLsb' 3 3) r
  constructor
  · rw [extractCLdsp, field_sub _ 2 5 0 3 (by decide),
      field_sub _ 2 5 3 2 (by decide), high, r', low, load]
  · rw [extractCSdsp, field_sub _ 7 6 0 3 (by decide),
      field_sub _ 7 6 3 3 (by decide), imm, r'', store]

/-- The word on the stack. -/
theorem offset_spW (k : BitVec 6) (r : BitVec 5) :
    extractCLwsp (wordC funct3 (payloadI (k.extractLsb' 3 1) r
        (k.extractLsb' 0 3 ++ k.extractLsb' 4 2)) quadrant) = ⟨k.setWidth 64 * 4, 2, r⟩ ∧
      extractCSwsp (wordC funct3 (payloadSS (k.extractLsb' 0 4 ++ k.extractLsb' 4 2) r)
        quadrant) = ⟨k.setWidth 64 * 4, 2, r⟩ := by
  have load : ∀ k : BitVec 6, ((k.extractLsb' 0 3 ++ k.extractLsb' 4 2).extractLsb' 0 2 ++
      k.extractLsb' 3 1 ++ (k.extractLsb' 0 3 ++ k.extractLsb' 4 2).extractLsb' 2 3 ++
      0#2).setWidth 64 = k.setWidth 64 * 4 := by decide
  have store : ∀ k : BitVec 6, ((k.extractLsb' 0 4 ++ k.extractLsb' 4 2).extractLsb' 0 2 ++
      (k.extractLsb' 0 4 ++ k.extractLsb' 4 2).extractLsb' 2 4 ++ 0#2).setWidth 64 =
      k.setWidth 64 * 4 := by decide
  obtain ⟨high, r', low⟩ := fields_payloadI funct3 quadrant (k.extractLsb' 3 1) r
    (k.extractLsb' 0 3 ++ k.extractLsb' 4 2)
  obtain ⟨imm, r''⟩ := fields_payloadSS funct3 quadrant
    (k.extractLsb' 0 4 ++ k.extractLsb' 4 2) r
  constructor
  · rw [extractCLwsp, field_sub _ 2 5 0 2 (by decide),
      field_sub _ 2 5 2 3 (by decide), high, r', low, load]
  · rw [extractCSwsp, field_sub _ 7 6 0 2 (by decide),
      field_sub _ 7 6 2 4 (by decide), imm, r'', store]

end Fields

/-! ### Operations -/

/-- The integer loads. -/
inductive LoadOp
  | lb | lh | lw | ld | lbu | lhu | lwu
  deriving DecidableEq, Repr

def LoadOp.funct3 : LoadOp → BitVec 3
  | lb => 0
  | lh => 1
  | lw => 2
  | ld => 3
  | lbu => 4
  | lhu => 5
  | lwu => 6

/-- How the load is translated. -/
def LoadOp.trans : LoadOp → ArgI → Body
  | lb => transLb
  | lh => transLh
  | lw => transLw
  | ld => transLd
  | lbu => transLbu
  | lhu => transLhu
  | lwu => transLwu

def Width.funct3 : Width → BitVec 3
  | b => 0
  | h => 1
  | w => 2
  | d => 3

/-- The integer store of a width. -/
def Width.transStore : Width → ArgS → Body
  | b => transSb
  | h => transSh
  | w => transSw
  | d => transSd

/-- The sizes of the atomic and the floating-point accesses. -/
inductive WordSize
  | w | d
  deriving DecidableEq, Repr

def WordSize.funct3 : WordSize → BitVec 3
  | w => 2
  | d => 3

/-- The read-modify-write operations. -/
inductive AmoOp
  | add | swap | xor | or | and | min | max | minu | maxu
  deriving DecidableEq, Repr

def AmoOp.funct5 : AmoOp → BitVec 5
  | add => 0b00000
  | swap => 0b00001
  | xor => 0b00100
  | or => 0b01000
  | and => 0b01100
  | min => 0b10000
  | max => 0b10100
  | minu => 0b11000
  | maxu => 0b11100

/-- How the operation is translated. -/
def AmoOp.trans : AmoOp → WordSize → ArgAtomic → Body
  | add, .w => transAmoaddW
  | add, .d => transAmoaddD
  | swap, .w => transAmoswapW
  | swap, .d => transAmoswapD
  | xor, .w => transAmoxorW
  | xor, .d => transAmoxorD
  | or, .w => transAmoorW
  | or, .d => transAmoorD
  | and, .w => transAmoandW
  | and, .d => transAmoandD
  | min, .w => transAmominW
  | min, .d => transAmominD
  | max, .w => transAmomaxW
  | max, .d => transAmomaxD
  | minu, .w => transAmominuW
  | minu, .d => transAmominuD
  | maxu, .w => transAmomaxuW
  | maxu, .d => transAmomaxuD

/-- The compressed accesses. -/
inductive CompactOp
  | lw | ld | fld | sw | sd | fsd
  deriving DecidableEq, Repr

namespace CompactOp

def funct3 : CompactOp → BitVec 3
  | fld => 0b001
  | lw => 0b010
  | ld => 0b011
  | fsd => 0b101
  | sw => 0b110
  | sd => 0b111

/-- The width of the access, which scales its offset. -/
def bytes : CompactOp → Word
  | lw | sw => 4
  | ld | fld | sd | fsd => 8

/-- The encodings that load `x0` are reserved. -/
def Names (op : CompactOp) (r : BitVec 5) : Prop := op = lw ∨ op = ld → r ≠ 0

/-- The 32-bit instruction that the compressed one stands for. -/
def trans (op : CompactOp) (imm : Word) (base r : BitVec 5) : Body :=
  match op with
  | lw => transLw ⟨imm, base, r⟩
  | ld => transLd ⟨imm, base, r⟩
  | fld => transFld ⟨imm, base, r⟩
  | sw => transSw ⟨imm, base, r⟩
  | sd => transSd ⟨imm, base, r⟩
  | fsd => transFsd ⟨imm, base, r⟩

/-- The word of an access at a register. -/
def word (op : CompactOp) (k : BitVec 5) (base r : BitVec 3) : BitVec 32 :=
  let payload :=
    match op with
    | lw | sw => payloadL (k.extractLsb' 1 3) base (k.extractLsb' 0 1 ++ k.extractLsb' 4 1) r
    | ld | fld | sd | fsd => payloadL (k.extractLsb' 0 3) base (k.extractLsb' 3 2) r
  wordC op.funct3 payload 0

/-- The word of an access on the stack. -/
def stackWord (op : CompactOp) (k : BitVec 6) (r : BitVec 5) : BitVec 32 :=
  let payload :=
    match op with
    | lw => payloadI (k.extractLsb' 3 1) r (k.extractLsb' 0 3 ++ k.extractLsb' 4 2)
    | ld | fld => payloadI (k.extractLsb' 2 1) r (k.extractLsb' 0 2 ++ k.extractLsb' 3 3)
    | sw => payloadSS (k.extractLsb' 0 4 ++ k.extractLsb' 4 2) r
    | sd | fsd => payloadSS (k.extractLsb' 0 3 ++ k.extractLsb' 3 3) r
  wordC op.funct3 payload 2

/-- The decoder picks the translation of a compressed access to compact registers. -/
theorem selected_word (op : CompactOp) (k : BitVec 5) (base r : BitVec 3) :
    selected (op.word k base r) true =
      op.trans (k.setWidth 64 * op.bytes) (compactReg base) (compactReg r) := by
  have holds : (patternC op.funct3 0 0 0 []).Holds (op.word k base r) := patternC_holds_any
  cases op with
  | lw =>
      refine (selected16_of_dispatch holds rfl rfl).trans (congrArg transLw ?_)
      exact (offset_clW _ _ k base r).1
  | ld =>
      refine (selected16_of_dispatch holds rfl rfl).trans (congrArg transLd ?_)
      exact (offset_clD _ _ k base r).1
  | fld =>
      refine (selected16_of_settle holds rfl rfl rfl).trans (congrArg transFld ?_)
      exact (offset_clD _ _ k base r).1
  | sw =>
      refine (selected16_of_dispatch holds rfl rfl).trans (congrArg transSw ?_)
      exact (offset_clW _ _ k base r).2
  | sd =>
      refine (selected16_of_dispatch holds rfl rfl).trans (congrArg transSd ?_)
      exact (offset_clD _ _ k base r).2
  | fsd =>
      refine (selected16_of_settle holds rfl rfl rfl).trans (congrArg transFsd ?_)
      exact (offset_clD _ _ k base r).2

/-- The reserved words. -/
def avoid : CompactOp → List (BitVec 32 × BitVec 32)
  | lw => [(0xef83, 0x4002)]
  | ld => [(0xef83, 0x6002)]
  | _ => []

/-- The words of these accesses are none of those that the rows before would take. -/
theorem avoided (op : CompactOp) (k : BitVec 6) {r : BitVec 5} (names : op.Names r) :
    ∀ q ∈ op.avoid, op.stackWord k r &&& q.1 ≠ q.2 := by
  have mask : (0xef83 : BitVec 32) = wordC (.allOnes 3) (payloadI 0#1 (.allOnes 5) 0#5)
      (.allOnes 2) := by decide
  -- The register field of a reserved word is clear.
  have apart {funct3 : BitVec 3} {high : BitVec 1} {low : BitVec 5} (other : r ≠ 0) :
      wordC funct3 (payloadI high r low) 2 &&& 0xef83 ≠
        wordC funct3 (payloadI 0 0 0) 2 := by
    intro same
    have anded : payloadI high r low &&& payloadI 0#1 (.allOnes 5) 0#5 = payloadI 0#1 r 0#5 := by
      unfold payloadI
      rw [BitVec.and_append, BitVec.and_append]
      simp only [BitVec.and_allOnes, BitVec.and_zero]
    rw [mask, wordC_and, anded] at same
    have fields := congrArg (fun w => field w 7 5) same
    simp only [fields_payloadI] at fields
    exact other fields
  intro q listed
  cases op with
  | lw =>
      rw [List.mem_singleton.1 listed]
      exact apart (names (.inl rfl))
  | ld =>
      rw [List.mem_singleton.1 listed]
      exact apart (names (.inr rfl))
  | fld | sw | sd | fsd => exact absurd listed List.not_mem_nil

/-- The decoder picks the translation of a compressed access to the stack. -/
theorem selected_stackWord (op : CompactOp) (k : BitVec 6) {r : BitVec 5} (names : op.Names r) :
    selected (op.stackWord k r) true = op.trans (k.setWidth 64 * op.bytes) 2 r := by
  have holds : (patternC op.funct3 0 0 2 op.avoid).Holds (op.stackWord k r) :=
    patternC_holds BitVec.and_zero (op.avoided k names)
  cases op with
  | lw =>
      refine (selected16_of_dispatch holds rfl rfl).trans (congrArg transLw ?_)
      exact (offset_spW _ _ k r).1
  | ld =>
      refine (selected16_of_dispatch holds rfl rfl).trans (congrArg transLd ?_)
      exact (offset_spD _ _ k r).1
  | fld =>
      refine (selected16_of_settle holds rfl rfl rfl).trans (congrArg transFld ?_)
      exact (offset_spD _ _ k r).1
  | sw =>
      refine (selected16_of_dispatch holds rfl rfl).trans (congrArg transSw ?_)
      exact (offset_spW _ _ k r).2
  | sd =>
      refine (selected16_of_dispatch holds rfl rfl).trans (congrArg transSd ?_)
      exact (offset_spD _ _ k r).2
  | fsd =>
      refine (selected16_of_settle holds rfl rfl rfl).trans (congrArg transFsd ?_)
      exact (offset_spD _ _ k r).2

end CompactOp

/-! ### Instructions -/

/-- A memory instruction with its operands. -/
inductive MemInstr
  | load (op : LoadOp) (rd rs1 : BitVec 5) (imm : BitVec 12)
  | store (width : Width) (rs2 rs1 : BitVec 5) (imm : BitVec 12)
  | fload (size : WordSize) (rd rs1 : BitVec 5) (imm : BitVec 12)
  | fstore (size : WordSize) (rs2 rs1 : BitVec 5) (imm : BitVec 12)
  | amo (op : AmoOp) (size : WordSize) (aqrl : BitVec 2) (rd rs1 rs2 : BitVec 5)
  | lr (size : WordSize) (aqrl : BitVec 2) (rd rs1 : BitVec 5)
  | sc (size : WordSize) (aqrl : BitVec 2) (rd rs1 rs2 : BitVec 5)
  | compact (op : CompactOp) (k : BitVec 5) (base r : BitVec 3)
  | stack (op : CompactOp) (k : BitVec 6) (r : BitVec 5) (names : op.Names r)

namespace MemInstr

/-- The form has two bytes. -/
def rvc : MemInstr → Bool
  | compact _ _ _ _ | stack _ _ _ _ => true
  | _ => false

/-- The word as it is fetched. -/
def word : MemInstr → BitVec 32
  | load op rd rs1 imm => wordI imm rs1 op.funct3 rd 0x03
  | store width rs2 rs1 imm => wordS imm rs2 rs1 width.funct3 0x23
  | fload size rd rs1 imm => wordI imm rs1 size.funct3 rd 0x07
  | fstore size rs2 rs1 imm => wordS imm rs2 rs1 size.funct3 0x27
  | amo op size aqrl rd rs1 rs2 => wordR (op.funct5 ++ aqrl) rs2 rs1 size.funct3 rd 0x2f
  | lr size aqrl rd rs1 => wordR (0b00010#5 ++ aqrl) 0 rs1 size.funct3 rd 0x2f
  | sc size aqrl rd rs1 rs2 => wordR (0b00011#5 ++ aqrl) rs2 rs1 size.funct3 rd 0x2f
  | compact op k base r => op.word k base r
  | stack op k r _ => op.stackWord k r

/-- The effective address. -/
def address (m : MemInstr) (s : ArchState) : Word :=
  match m with
  | load _ _ rs1 imm | store _ _ rs1 imm | fload _ _ rs1 imm | fstore _ _ rs1 imm =>
      s.gpr rs1 + imm.signExtend 64
  | amo _ _ _ _ rs1 _ | lr _ _ _ rs1 | sc _ _ _ rs1 _ => s.gpr rs1
  | compact op k base _ => s.gpr (compactReg base) + k.setWidth 64 * op.bytes
  | stack op k _ _ => s.gpr 2 + k.setWidth 64 * op.bytes

/-- The instruction moves a floating-point register. -/
def IsFloat : MemInstr → Prop
  | fload _ _ _ _ | fstore _ _ _ _ => True
  | compact op _ _ _ | stack op _ _ _ => op = .fld ∨ op = .fsd
  | _ => False

instance (m : MemInstr) : Decidable m.IsFloat := by
  unfold IsFloat
  split <;> infer_instance

/-- The body of the instruction. -/
def body : MemInstr → Body
  | load op rd rs1 imm => op.trans ⟨imm.signExtend 64, rs1, rd⟩
  | store width rs2 rs1 imm => width.transStore ⟨imm.signExtend 64, rs1, rs2⟩
  | fload .w rd rs1 imm => transFlw ⟨imm.signExtend 64, rs1, rd⟩
  | fload .d rd rs1 imm => transFld ⟨imm.signExtend 64, rs1, rd⟩
  | fstore .w rs2 rs1 imm => transFsw ⟨imm.signExtend 64, rs1, rs2⟩
  | fstore .d rs2 rs1 imm => transFsd ⟨imm.signExtend 64, rs1, rs2⟩
  | amo op size _ rd rs1 rs2 => op.trans size ⟨rs2, rs1, rd⟩
  | lr .w _ rd rs1 => transLrW ⟨0, rs1, rd⟩
  | lr .d _ rd rs1 => transLrD ⟨0, rs1, rd⟩
  | sc .w _ rd rs1 rs2 => transScW ⟨rs2, rs1, rd⟩
  | sc .d _ rd rs1 rs2 => transScD ⟨rs2, rs1, rd⟩
  | compact op k base r => op.trans (k.setWidth 64 * op.bytes) (compactReg base) (compactReg r)
  | stack op k r _ => op.trans (k.setWidth 64 * op.bytes) 2 r

/-- The bits of `funct5`, `funct3` and the opcode. -/
def patternA (funct5 : BitVec 5) (size : WordSize) : Pattern :=
  ⟨0xf800707f, wordR (funct5 ++ 0#2) 0 0 size.funct3 0 0x2f, []⟩

/-- A word is of the pattern with its `funct5`, its width and the opcode. -/
theorem patternA_holds (funct5 : BitVec 5) (size : WordSize) (aqrl : BitVec 2)
    (rd rs1 rs2 : BitVec 5) :
    (patternA funct5 size).Holds
      (wordR (funct5 ++ aqrl) rs2 rs1 size.funct3 rd 0x2f) := by
  have mask : (0xf800707f : BitVec 32) =
      wordR (BitVec.allOnes 5 ++ 0#2) 0#5 0#5 (.allOnes 3) 0#5 (.allOnes 7) := by decide
  refine ⟨?_, by simp [patternA]⟩
  rw [patternA, mask, wordR_and, BitVec.and_append]
  simp only [BitVec.and_allOnes, BitVec.and_zero]
  rfl

/-- `LR` has no second source. -/
def patternLr (size : WordSize) : Pattern :=
  ⟨0xf9f0707f, wordR (0b00010#5 ++ 0#2) 0 0 size.funct3 0 0x2f, []⟩

/-- A load-reserved has no second source. -/
theorem patternLr_holds (size : WordSize) (aqrl : BitVec 2) (rd rs1 : BitVec 5) :
    (patternLr size).Holds (wordR (0b00010#5 ++ aqrl) 0 rs1 size.funct3 rd 0x2f) := by
  have mask : (0xf9f0707f : BitVec 32) =
      wordR (BitVec.allOnes 5 ++ 0#2) (.allOnes 5) 0#5 (.allOnes 3) 0#5 (.allOnes 7) := by decide
  refine ⟨?_, by simp [patternLr]⟩
  rw [patternLr, mask, wordR_and, BitVec.and_append]
  simp only [BitVec.and_allOnes, BitVec.and_zero]
  rfl

/-- The decoder takes the word for the instruction. -/
theorem selected_eq (m : MemInstr) : selected m.word m.rvc = m.body := by
  cases m with
  | load op rd rs1 imm =>
      have holds : (patternI op.funct3 0x03).Holds (load op rd rs1 imm).word := patternI_holds
      have args : extractI (load op rd rs1 imm).word = ⟨imm.signExtend 64, rs1, rd⟩ :=
        extractI_wordI _ _ _ _ _
      rw [body, ← args]
      cases op <;> exact selected_of_dispatch holds patternI_opcode rfl rfl
  | store width rs2 rs1 imm =>
      have holds : (patternI width.funct3 0x23).Holds (store width rs2 rs1 imm).word :=
        patternI_holds
      have args : extractS (store width rs2 rs1 imm).word = ⟨imm.signExtend 64, rs1, rs2⟩ :=
        extractS_wordS _ _ _ _ _
      rw [body, ← args]
      cases width <;> exact selected_of_dispatch holds patternI_opcode rfl rfl
  | fload size rd rs1 imm =>
      have holds : (patternI size.funct3 0x07).Holds (fload size rd rs1 imm).word := patternI_holds
      have args : extractI (fload size rd rs1 imm).word = ⟨imm.signExtend 64, rs1, rd⟩ :=
        extractI_wordI _ _ _ _ _
      cases size <;> rw [body, ← args] <;> exact selected_of_dispatch holds patternI_opcode rfl rfl
  | fstore size rs2 rs1 imm =>
      have holds : (patternI size.funct3 0x27).Holds (fstore size rs2 rs1 imm).word :=
        patternI_holds
      have args : extractS (fstore size rs2 rs1 imm).word = ⟨imm.signExtend 64, rs1, rs2⟩ :=
        extractS_wordS _ _ _ _ _
      cases size <;> rw [body, ← args] <;> exact selected_of_dispatch holds patternI_opcode rfl rfl
  | amo op size aqrl rd rs1 rs2 =>
      have holds : (patternA op.funct5 size).Holds (amo op size aqrl rd rs1 rs2).word :=
        patternA_holds _ _ _ _ _ _
      have args : extractAtomSt (amo op size aqrl rd rs1 rs2).word = ⟨rs2, rs1, rd⟩ :=
        extractAtomSt_wordR _ _ _ _ _ _
      rw [body, ← args]
      cases op <;> cases size <;> exact selected_of_dispatch holds rfl rfl rfl
  | lr size aqrl rd rs1 =>
      have holds : (patternLr size).Holds (lr size aqrl rd rs1).word := patternLr_holds _ _ _ _
      have args : extractAtomLd (lr size aqrl rd rs1).word = ⟨0, rs1, rd⟩ :=
        extractAtomLd_wordR _ _ _ _ _ _
      cases size <;> rw [body, ← args] <;> exact selected_of_dispatch holds rfl rfl rfl
  | sc size aqrl rd rs1 rs2 =>
      have holds : (patternA 0b00011 size).Holds (sc size aqrl rd rs1 rs2).word :=
        patternA_holds _ _ _ _ _ _
      have args : extractAtomSt (sc size aqrl rd rs1 rs2).word = ⟨rs2, rs1, rd⟩ :=
        extractAtomSt_wordR _ _ _ _ _ _
      cases size <;> rw [body, ← args] <;> exact selected_of_dispatch holds rfl rfl rfl
  | compact op k base r => exact op.selected_word k base r
  | stack op k r names => exact op.selected_stackWord k names

end MemInstr

end CPUDelaySim.Riscv
