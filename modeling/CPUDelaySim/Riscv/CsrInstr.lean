import CPUDelaySim.Riscv.CsrAccess
import CPUDelaySim.Riscv.Encode

/-!
# CSR instructions

The six instructions with the encodings and the operations the manual gives them, and the
two paths through `riscv_csrrw`: an entry with an `op` callback prepares its own masked
write, the others are read, merged and handed to their `write` callback.
-/

namespace CPUDelaySim.Riscv

variable {δ : Type}

open RiscvArch

/-- Replace, set and clear. -/
inductive CsrOp
  | rw | rs | rc
  deriving DecidableEq, Repr

/-- A CSR instruction; `rs1` is a register number or a five-bit immediate. -/
structure CsrInstr where
  op : CsrOp
  immediate : Bool
  csr : BitVec 12
  rs1 : BitVec 5
  rd : BitVec 5
  deriving DecidableEq, Repr

/-- The value written from the old one and an operand. -/
def CsrOp.apply (op : CsrOp) (old operand : Word) : Word :=
  match op with
  | rw => operand
  | rs => old ||| operand
  | rc => old &&& ~~~operand

namespace CsrInstr

/-- Bits 14 to 12 of the word. -/
def funct3 (c : CsrInstr) : BitVec 3 :=
  match c.op, c.immediate with
  | .rw, false => 0b001
  | .rs, false => 0b010
  | .rc, false => 0b011
  | .rw, true => 0b101
  | .rs, true => 0b110
  | .rc, true => 0b111

/-- The word of the instruction. -/
def word (c : CsrInstr) : BitVec 32 := wordI c.csr c.rs1 c.funct3 c.rd 0x73

/-- The operand of the instruction. -/
def operand (c : CsrInstr) (s : ArchState) : Word :=
  if c.immediate then c.rs1.setWidth 64 else s.gpr c.rs1

/-- The body of the instruction. -/
def trans (c : CsrInstr) : Body :=
  match c.op, c.immediate with
  | .rw, false => transCsrrw ⟨c.csr, c.rs1, c.rd⟩
  | .rs, false => transCsrrs ⟨c.csr, c.rs1, c.rd⟩
  | .rc, false => transCsrrc ⟨c.csr, c.rs1, c.rd⟩
  | .rw, true => transCsrrwi ⟨c.csr, c.rs1, c.rd⟩
  | .rs, true => transCsrrsi ⟨c.csr, c.rs1, c.rd⟩
  | .rc, true => transCsrrci ⟨c.csr, c.rs1, c.rd⟩

/-- The set and clear forms of `x0` and of zero only read. -/
def Writes (c : CsrInstr) : Prop := c.op = .rw ∨ c.rs1 ≠ 0

instance (c : CsrInstr) : Decidable c.Writes := by unfold Writes; infer_instance

/-- The decoder picks the translation of the CSR instruction from its word. -/
theorem selected_eq (c : CsrInstr) : selected c.word false = c.trans := by
  have args : extractCsr c.word = ⟨c.csr, c.rs1, c.rd⟩ := by
    obtain ⟨csr, first, dest⟩ := fields_wordI c.rs1 c.funct3 c.rd 0x73 c.csr
    rw [extractCsr, word, csr, first, dest]
  have body (f : BitVec 3) (here : c.funct3 = f) (trans : ArgCsr → Body)
      (found : dispatch (patternI f 0x73) (rows32 (patternI f 0x73).value) =
        some fun i => trans (extractCsr i))
      (accepts : (trans (extractCsr c.word)).accepts = true) :
      selected c.word false = trans ⟨c.csr, c.rs1, c.rd⟩ := by
    have holds : (patternI f 0x73).Holds c.word := here ▸ patternI_holds
    rw [← args]
    exact selected_of_dispatch holds patternI_opcode found accepts
  obtain ⟨op, immediate, csr, rs1, rd⟩ := c
  cases op with
  | rw =>
      cases immediate with
      | false => exact body 0b001 rfl transCsrrw rfl rfl
      | true => exact body 0b101 rfl transCsrrwi rfl rfl
  | rs =>
      cases immediate with
      | false => exact body 0b010 rfl transCsrrs rfl rfl
      | true => exact body 0b110 rfl transCsrrsi rfl rfl
  | rc =>
      cases immediate with
      | false => exact body 0b011 rfl transCsrrc rfl rfl
      | true => exact body 0b111 rfl transCsrrci rfl rfl

/-- How the instruction drives `riscv_csrrw`. -/
def access (c : CsrInstr) : CsrAccess :=
  if c.Writes then
    match c.op with
    | .rw => .write c.operand fun _ => fullMask
    | .rs => .write (fun _ => fullMask) c.operand
    | .rc => .write (fun _ => 0) c.operand
  else .read

/-- All six forms are one body. -/
theorem trans_eq (c : CsrInstr) : c.trans = .csr c.rd c.csr c.access := by
  obtain ⟨op, immediate, csr, rs1, rd⟩ := c
  cases op with
  | rw => cases immediate <;> rfl
  | rs =>
      by_cases zero : rs1 = 0
      · subst zero
        cases immediate <;> simp [trans, access, Writes, transCsrrs, transCsrrsi, csrMask]
      · cases immediate <;>
          simp [trans, access, Writes, transCsrrs, transCsrrsi, csrMask] <;> rfl
  | rc =>
      by_cases zero : rs1 = 0
      · subst zero
        cases immediate <;> simp [trans, access, Writes, transCsrrc, transCsrrci, csrMask]
      · cases immediate <;>
          simp [trans, access, Writes, transCsrrc, transCsrrci, csrMask] <;> rfl

/-- Merging ones sets the bits of the mask. -/
theorem mergeMask_set (old mask : Word) : mergeMask old mask fullMask = old ||| mask := by
  apply BitVec.eq_of_getLsbD_eq
  intro i bound
  rw [mergeMask_getLsbD, BitVec.getLsbD_or, show fullMask = BitVec.allOnes 64 from rfl,
    BitVec.getLsbD_allOnes]
  cases mask.getLsbD i <;> simp [bound]

/-- Merging zeros clears the bits of the mask. -/
theorem mergeMask_clear (old mask : Word) : mergeMask old mask 0 = old &&& ~~~mask := by
  apply BitVec.eq_of_getLsbD_eq
  intro i bound
  rw [mergeMask_getLsbD, BitVec.getLsbD_and, BitVec.getLsbD_not]
  cases mask.getLsbD i <;> simp [bound]

/-- The merged value is that of the operation. -/
theorem merge_eq (c : CsrInstr) {s : ArchState} (zero : s.gpr 0 = 0) (old : Word) :
    mergeMask old (c.access.mask s) (c.access.src s) = c.op.apply old (c.operand s) := by
  unfold access
  by_cases writes : c.Writes
  · rw [if_pos writes]
    cases c.op with
    | rw => exact mergeMask_full old _
    | rs => exact mergeMask_set old _
    | rc => exact mergeMask_clear old _
  · rw [if_neg writes]
    -- A form that only reads has a zero operand.
    obtain ⟨op, immediate, csr, rs1, rd⟩ := c
    simp only [Writes, not_or, not_not] at writes
    obtain ⟨other, rfl⟩ := writes
    have operand : (CsrInstr.mk op immediate csr 0 rd).operand s = 0 := by
      cases immediate with
      | false => exact zero
      | true => rfl
    rw [operand]
    refine (mergeMask_zero old 0).trans ?_
    cases op with
    | rw => exact absurd rfl other
    | rs => exact (BitVec.or_zero).symm
    | rc =>
        show old = old &&& ~~~(0 : Word)
        rw [← mergeMask_clear]
        exact (mergeMask_zero old 0).symm

/-- Something is written: a set or clear with the operand zero writes nothing. -/
theorem mask_eq_zero {c : CsrInstr} {s : ArchState} (zero : s.gpr 0 = 0) :
    c.access.mask s = 0 ↔ c.op ≠ .rw ∧ c.operand s = 0 := by
  unfold access
  by_cases writes : c.Writes
  · rw [if_pos writes]
    obtain ⟨op, immediate, csr, rs1, rd⟩ := c
    cases op with
    | rw => simp [CsrAccess.mask, fullMask]
    | rs => simp [CsrAccess.mask]
    | rc => simp [CsrAccess.mask]
  · rw [if_neg writes]
    simp only [Writes, not_or, not_not] at writes
    have none : c.operand s = 0 := by
      unfold operand
      rw [writes.2, zero]
      split <;> rfl
    exact iff_of_true rfl ⟨writes.1, none⟩

end CsrInstr

/-! ### Through `riscv_csrrw` -/

section Access

variable {P : Platform δ} {rd : BitVec 5} {csrno : BitVec 12} {ops : CsrOps}
variable {access : CsrAccess} {ctx : Ctx δ}

/-- An entry with an `op` callback is read and written at once. -/
theorem doCsr_rmw {op : CsrRmw} (checked : riscvCsrrwCheck csrno access.isWrite = some ops)
    (rmw : ops.op = some op) :
    doCsr P rd csrno access ctx =
      .ok ((ctx.setDst1 ⟨op.word.idx, op.mask ctx.arch.state &&& access.mask ctx.arch.state,
        access.src ctx.arch.state⟩).setDst0 (.gpr rd) (ctx.arch.state.get op.word)) := by
  simp only [doCsr, checked, riscvCsrrw, rmw]
  rfl

/-- An entry that is read without conditions hands the merged value to its `write`
callback, if anything is written. -/
theorem doCsr_plain {value : ArchState → Word → Word → Word}
    (checked : riscvCsrrwCheck csrno access.isWrite = some ops) (noop : ops.op = none)
    (read : ops.read = some (.plain value)) :
    doCsr P rd csrno access ctx =
      let old := value ctx.arch.state ctx.arch.tick ctx.arch.instret
      let mask := access.mask ctx.arch.state
      if mask = 0 then .ok (ctx.setDst0 (.gpr rd) old)
      else (csrWrite ops (mergeMask old mask (access.src ctx.arch.state)) ctx).map
        fun c => c.setDst0 (.gpr rd) old := by
  simp only [doCsr, checked, riscvCsrrw, noop, csrRead, read]
  by_cases zero : access.mask ctx.arch.state = 0
  · rw [if_pos zero]
    simp only [bind, Except.bind, zero, if_true]
    rfl
  · rw [if_neg zero]
    simp only [bind, Except.bind, zero, if_false]
    cases csrWrite ops (mergeMask (value ctx.arch.state ctx.arch.tick ctx.arch.instret)
      (access.mask ctx.arch.state) (access.src ctx.arch.state)) ctx <;> rfl

end Access

/-- The record of a CSR instruction is committed to the state alone. -/
theorem updateEnv_csrwr (P : Platform δ) {arch : RiscvArch δ} {info : DecodeInfo}
    (code : info.exception = excNone) (type : info.type = .csrwr) {s : ArchState}
    (dsts : commitDsts arch.state info = .ok s) :
    arch.updateEnv P info = .ok (arch.pc + info.instSize.setWidth 64,
      ({ arch with state := s.set (.gpr 0) 0 } : RiscvArch δ).updateMMUState) := by
  rw [updateEnv_commit P arch code, commit, dsts]
  simp only [commitMemory, type, bind, Except.bind]
  rw [nextPc, type]
  rfl

/-! ### Through `decode` and `updateEnv` -/

section Completes

variable {P : Platform δ} {arch a : RiscvArch δ} {vaddr paddr : Word} {slot i : DecodeInfo}
variable {c : CsrInstr}

/-- A CSR instruction runs `do_csrr` or `do_csrrw` and sets its type. -/
theorem exec_csrInstr (word : i.inst = c.word) {ctx : Ctx δ} {x : Except Abort (Ctx δ)}
    (ran : doCsr P c.rd c.csr c.access ctx = x) :
    (selected i.inst false).exec P ctx = x.map fun c => (true, c.setType .csrwr) := by
  rw [word, c.selected_eq, c.trans_eq]
  simp only [Body.exec, ran]
  cases x <;> rfl

/-- With no interrupt, an access that raises nothing completes with what its record
commits. -/
theorem completes_csr_iff (fetched : arch.fetch P paddr slot = .ok (false, a, i))
    (word : i.inst = c.word) {ctx : Ctx δ}
    (ran : doCsr P c.rd c.csr c.access (bodyCtx a vaddr paddr i) = .ok ctx)
    (quiet : irqException ctx.arch.state = none) (code : ctx.info.exception = excNone)
    (size : ctx.info.instSize = i.instSize) {t : ArchState}
    (dsts : commitDsts ctx.arch.state ctx.info = .ok t) {next : Word} {arch' : RiscvArch δ} :
    Completes P arch vaddr paddr slot next arch' ↔ next = ctx.arch.pc + 4 ∧
      arch' = ({ ctx.arch with state := t.set (.gpr 0) 0 } : RiscvArch δ).updateMMUState := by
  have silent : (ctx.setType .csrwr).info.exception = excNone := code
  have updated := updateEnv_csrwr P silent rfl dsts
  have four : (ctx.setType .csrwr).info.instSize.setWidth 64 = 4 := by
    rw [show (ctx.setType .csrwr).info.instSize = i.instSize from size]
    exact instSize_eq fetched
  rw [four] at updated
  rw [completes_iff fetched (exec_csrInstr word ran) quiet,
    show (ctx.setType .csrwr).arch = ctx.arch from rfl, updated]
  constructor
  · intro same
    cases same
    exact ⟨rfl, rfl⟩
  · rintro ⟨rfl, rfl⟩
    rfl

/-- The commit of a record with the second destination `d` and no third. -/
theorem commitDsts_csr {ctx : Ctx δ} (fresh : Fresh ctx.info) {rd : BitVec 5} {d : Dst}
    {old : Word} {s t : ArchState} (aimed : (s.set (.gpr rd) old).commit d = .ok t) :
    commitDsts s ((ctx.setDst1 d).setDst0 (.gpr rd) old).info = .ok t := by
  have dst0 : s.commit (Dst.full (.gpr rd) old) = .ok (s.set (.gpr rd) old) := by
    refine (ArchState.commit_idx _ _ _ _).trans ?_
    exact congrArg (fun v => Except.ok (s.set (.gpr rd) v)) (mergeMask_full _ old)
  simp only [commitDsts, bind_eq_ok]
  exact ⟨_, dst0, _, aimed, ArchState.commit_of_mask_zero _ fresh.mask2⟩

end Completes

end CPUDelaySim.Riscv
