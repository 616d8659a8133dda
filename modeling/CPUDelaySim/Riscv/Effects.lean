import CPUDelaySim.Riscv.Patch
import CPUDelaySim.Riscv.Accesses

/-!
# What an instruction does before it commits

A processor model may decode an instruction and never commit it, or decode it again.
Nothing is lost if decoding has no effect, and two of its parts have one: a device read
may move the device, and the floating-point bodies set `mstatus.FS`, the rounding mode
and the exception flags while they are decoded.

`FpClean` says that a body finds the floating-point state as it would leave it, `Quiet`
that a read moves nothing.  `noEffect_iff` says that decoding is free of effects when both
hold, and how far it is only then.

The quiet half is a frame argument: a read that is `Quiet` leaves the machine as it is, and every
function of `decode` makes its reads through `paddrRead`.  The floating-point half is exact: a body
that finds its part of the state clean leaves it, and one that does not moves a word that no later
part of `decode` puts back.  A read of a data access may move a device and come to the same in the
end, unless the reads of the fetch and of the page tables are known to be quiet.

Decoding again is the same as decoding once only if the fetch finds the same word, which is what
`fetch_again` adds.
-/

namespace CPUDelaySim.Riscv

variable {δ : Type}

open RiscvArch

/-! ### The floating-point state -/

/-- `mstatus.FS` is Dirty already. -/
def ArchState.FsDirty (s : ArchState) : Prop := s.get .mstatus &&& mstatusFS = mstatusFS

/-- `fflags`, `frm` and `fcsr`. -/
def IsFpCsr (csrno : BitVec 12) : Prop := csrno = 0x001 ∨ csrno = 0x002 ∨ csrno = 0x003

/-- The computation leaves the exception flags as it finds them. -/
def FpCalc.KeepsFlags (P : Platform δ) (s : ArchState) : FpCalc → Prop
  | .move _ => True
  | .call op args _ => ∀ value flags,
      P.float.call op (args s) s.floatRoundingMode s.floatExceptionFlags = some (value, flags) →
        s.setFlags flags = s

/-- The body finds the floating-point state as it would leave it. -/
def Body.FpClean (P : Platform δ) (s : ArchState) : Body → Prop
  | .fload _ _ _ _ => s.fpEnabled = true → s.FsDirty
  | .fp _ rm fpCalc _ => s.fpEnabled = true →
      s.FsDirty ∧ s.rounded rm = s ∧ fpCalc.KeepsFlags P s
  | .csr _ csrno _ => IsFpCsr csrno → s.fpEnabled = true → s.FsDirty
  | _ => True

/-- The body finds `mstatus.FS` as it would leave it. -/
def Body.FsClean (s : ArchState) : Body → Prop
  | .fload _ _ _ _ | .fp _ _ _ _ => s.fpEnabled = true → s.FsDirty
  | .csr _ csrno _ => IsFpCsr csrno → s.fpEnabled = true → s.FsDirty
  | _ => True

/-- A callback of the entry is behind the floating-point guard. -/
def CsrOps.usesFp (ops : CsrOps) : Bool :=
  match ops.read, ops.write with
  | some (.fp _), _ => true
  | _, some (.fp _ _ _) => true
  | _, _ => false

/-- The rows of `csr_ops` whose callbacks look at the unit are those of its three CSRs. -/
theorem csrTable_usesFp : ∀ r ∈ csrTable, ∀ csrno, r.first ≤ csrno → csrno ≤ r.last →
    (r.ops csrno).usesFp = true → IsFpCsr csrno := by
  simp only [csrTable, List.forall_mem_cons, CsrRow.one, CsrOps.rw, CsrOps.ro, CsrOps.rmw]
  refine ⟨?_, ?_, ?_, ?_, ?_, ?_, ?_, ?_, ?_, ?_, ?_, ?_, ?_, ?_, ?_, ?_, ?_, ?_, ?_, ?_, ?_,
    ?_, ?_, ?_, ?_, ?_, ?_, ?_, ?_, ?_, ?_, ?_, ?_, ?_, ?_, ?_, ?_, ?_, ?_, ?_, ?_,
    by rintro r ⟨⟩⟩
  all_goals intro csrno low high uses
  case refine_1 => exact .inl (BitVec.le_antisymm high low)
  case refine_2 => exact .inr (.inl (BitVec.le_antisymm high low))
  case refine_3 => exact .inr (.inr (BitVec.le_antisymm high low))
  case refine_37 =>
    simp only [readPmpcfg, writePmpcfg] at uses
    split at uses <;> cases uses
  all_goals cases uses

/-- So that a registered CSR that does so is one of the three. -/
theorem csrOps_usesFp {csrno : BitVec 12} {ops : CsrOps} (registered : csrOps csrno = some ops)
    (uses : ops.usesFp = true) : IsFpCsr csrno :=
  csrOps_of_table (p := fun csrno ops => ops.usesFp = true → IsFpCsr csrno)
    (fun r row csrno low high => csrTable_usesFp r row csrno low high) registered uses

/-- The three floating-point registers are read and written behind the guard. -/
theorem csrOps_of_isFpCsr {csrno : BitVec 12} (fp : IsFpCsr csrno) :
    ∃ value field mask dest,
      csrOps csrno = some ⟨.fs, some (.fp value), some (.fp field mask dest), none⟩ := by
  rcases fp with rfl | rfl | rfl <;> exact ⟨_, _, _, _, rfl⟩

/-- The floating-point registers pass. -/
theorem riscvCsrrwCheck_of_isFpCsr {csrno : BitVec 12} (fp : IsFpCsr csrno) (write : Bool) :
    riscvCsrrwCheck csrno write = csrOps csrno := by
  obtain ⟨value, field, mask, dest, registered⟩ := csrOps_of_isFpCsr fp
  have writable : (write && csrno >>> 10 == 3) = false := by
    rcases fp with rfl | rfl | rfl <;> cases write <;> rfl
  simp only [riscvCsrrwCheck, registered, writable, Bool.false_eq_true, if_false]

/-- A word contains a mask when joining it changes nothing. -/
theorem or_eq_left_iff (v m : Word) : v ||| m = v ↔ v &&& m = m := by
  constructor
  all_goals
    intro h
    apply BitVec.eq_of_getLsbD_eq
    intro i _
    have bit := congrArg (·.getLsbD i) h
    simp only [BitVec.getLsbD_or, BitVec.getLsbD_and] at bit ⊢
    revert bit
    cases v.getLsbD i <;> cases m.getLsbD i <;> simp

/-- A unit that is dirty stays as it is. -/
theorem dirtyFs_of_fsDirty {s : ArchState} (dirty : s.FsDirty) : s.dirtyFs = s := by
  rw [ArchState.dirtyFs, (or_eq_left_iff _ _).2 dirty, ArchState.set_get]

/-- Two writes to disjoint bits that cancel out had nothing to change. -/
theorem mergeMask_of_cancel {v m x m' x' : Word} (disjoint : m &&& m' = 0)
    (cancel : mergeMask (mergeMask v m x) m' x' = v) : mergeMask v m x = v := by
  apply BitVec.eq_of_getLsbD_eq
  intro i bound
  have apart := congrArg (·.getLsbD i) disjoint
  have bit := congrArg (·.getLsbD i) cancel
  simp only [BitVec.getLsbD_and, mergeMask_getLsbD] at apart bit
  rw [mergeMask_getLsbD]
  cases live : m.getLsbD i with
  | false => simp
  | true =>
      rw [live, Bool.true_and] at apart
      simpa [live, apart] using bit

/-- The rounding mode and the flags are apart in their word: if the word is back after
both are assigned, neither changed. -/
theorem rounded_of_setFlags {s : ArchState} {rm : Option (BitVec 3)} {flags : BitVec 16}
    (same : ((s.rounded rm).setFlags flags).get .fp = s.get .fp) : s.rounded rm = s := by
  cases rm with
  | none => rfl
  | some rm =>
      simp only [ArchState.rounded, ArchState.setrm, ArchState.setFlags,
        ArchState.get_set_self] at same ⊢
      rw [mergeMask_of_cancel (by decide) same, ArchState.set_get]

/-- A rounding mode that does not change the word of the unit changes nothing. -/
theorem rounded_of_get {s : ArchState} {rm : Option (BitVec 3)}
    (same : (s.rounded rm).get .fp = s.get .fp) : s.rounded rm = s := by
  cases rm with
  | none => rfl
  | some rm =>
      simp only [ArchState.rounded, ArchState.setrm, ArchState.get_set_self] at same ⊢
      rw [same, ArchState.set_get]

/-- Flags that do not change the word of the unit change nothing. -/
theorem setFlags_of_get {s : ArchState} {flags : BitVec 16}
    (same : (s.setFlags flags).get .fp = s.get .fp) : s.setFlags flags = s := by
  rw [ArchState.setFlags, ArchState.get_set_self] at same
  rw [ArchState.setFlags, same, ArchState.set_get]

/-- The record of an access to a floating-point register: the destination of the
instruction, and after a write the field and `mstatus.FS`. -/
structure FpCsrRecord (rd : BitVec 5) (before after : DecodeInfo) : Prop where
  dst0 : ∃ data, after.dst0 = Dst.full (.gpr rd) data
  rest : (after.dst1 = before.dst1 ∧ after.dst2 = before.dst2) ∨
    ∃ field : FpField, ∃ mask data, after.dst1 = ⟨field.idx, mask, data⟩ ∧
      after.dst2 = ⟨StateWord.mstatus.idx, mstatusFS, mstatusFS⟩

/-- An access to a floating-point register with the unit on dirties it. -/
theorem doCsr_fp (P : Platform δ) (rd : BitVec 5) {csrno : BitVec 12} (access : CsrAccess)
    (ctx : Ctx δ) (fp : IsFpCsr csrno) (on : ctx.arch.state.fpEnabled = true) :
    Returns (doCsr P rd csrno access ctx) fun c =>
      c.arch.state.get .mstatus = ctx.arch.state.get .mstatus ||| mstatusFS ∧
        FpCsrRecord rd ctx.info c.info := by
  obtain ⟨value, field, mask, dest, registered⟩ := csrOps_of_isFpCsr fp
  have checked := (riscvCsrrwCheck_of_isFpCsr fp access.isWrite).trans registered
  have dirty := dirtyFs_fpEnabled ctx.arch.state
  simp only [doCsr, checked, riscvCsrrw, csrRead, on, Ctx.setState, Bool.not_true,
    Bool.false_eq_true, if_false, bind, Except.bind]
  by_cases readOnly : access.mask ctx.arch.state = 0
  · simp only [if_pos readOnly]
    exact (returns_ok _ _).2 ⟨dirtyFs_mstatus _, ⟨_, rfl⟩, .inl ⟨rfl, rfl⟩⟩
  · simp only [if_neg readOnly, csrWrite, dirty, Ctx.setState, Bool.not_true,
      Bool.false_eq_true, if_false]
    refine (returns_ok _ _).2 ⟨?_, ⟨_, rfl⟩, .inr ⟨field, mask, _, rfl, rfl⟩⟩
    change ctx.arch.state.dirtyFs.dirtyFs.get .mstatus = _
    rw [dirtyFs_mstatus, dirtyFs_mstatus, BitVec.or_assoc, BitVec.or_self]

/-- A body that leaves `mstatus` and the floating-point word found the state clean. -/
theorem exec_fpClean (P : Platform δ) (b : Body) (ctx : Ctx δ) :
    Returns (b.exec P ctx) fun r =>
      r.2.arch.state.get .mstatus = ctx.arch.state.get .mstatus →
      r.2.arch.state.get .fp = ctx.arch.state.get .fp → b.FpClean P ctx.arch.state := by
  cases b with
  | fload rd addr width box =>
      simp only [Body.exec, requireFpu_returns, returns_bind, returns_pure]
      refine ⟨fun off _ _ on => absurd on (by simp [off]), fun on => ?_⟩
      refine (ld_memStep P width _ _).mono ?_
      intro r step mstatus _ _
      have dirty : r.2.arch.state.get .mstatus = ctx.arch.state.get .mstatus ||| mstatusFS :=
        (step.frame.get (by decide)).trans (dirtyFs_mstatus _)
      exact (or_eq_left_iff _ _).1 (dirty.symm.trans mstatus)
  | fp dst rm fpCalc type =>
      simp only [Body.exec, requireFpu_returns, returns_bind, returns_pure]
      refine ⟨fun off _ _ on => absurd on (by simp [off]), fun on => ?_⟩
      intro r ran mstatus fp _
      replace mstatus : r.2.get .mstatus = ctx.arch.state.get .mstatus := mstatus
      replace fp : r.2.get .fp = ctx.arch.state.get .fp := fp
      have unit : (ctx.arch.state.dirtyFs.rounded rm).get .mstatus =
          ctx.arch.state.get .mstatus ||| mstatusFS := by
        cases rm with
        | none => exact dirtyFs_mstatus _
        | some rm => exact (setrm_get _ rm (by decide)).trans (dirtyFs_mstatus _)
      have dirty : ctx.arch.state.FsDirty := by
        have moved := (FpCalc.run_get P _ fpCalc r ran .mstatus (by decide)).trans unit
        exact (or_eq_left_iff _ _).1 (moved.symm.trans mstatus)
      change fpCalc.run P (ctx.arch.state.dirtyFs.rounded rm) = .ok r at ran
      rw [dirtyFs_of_fsDirty dirty] at ran
      cases fpCalc with
      | move value =>
          cases ran
          exact ⟨dirty, rounded_of_get fp, trivial⟩
      | call op args box =>
          simp only [FpCalc.run] at ran
          split at ran
          · rename_i value flags called
            cases ran
            have rounded := rounded_of_setFlags fp
            rw [rounded] at called fp
            refine ⟨dirty, rounded, ?_⟩
            intro value' flags' called'
            cases called.symm.trans called'
            exact setFlags_of_get fp
          · cases ran
  | csr rd csrno access =>
      simp only [Body.exec, returns_bind, returns_pure]
      intro c ran mstatus _ fp on
      have dirty := (doCsr_fp P rd access ctx fp on c ran).1
      exact (or_eq_left_iff _ _).1 (dirty.symm.trans mstatus)
  | _ => exact fun _ _ _ _ => trivial

/-! ### Quiet reads -/

/-- The read moves nothing: no device claims the address, or the device keeps its state
and publishes no other vector than the one in `mip`. -/
def Quiet (P : Platform δ) (a : RiscvArch δ) (paddr : Word) (n : Nat) : Prop :=
  ∀ d, Memory.deviceAt P.map paddr = some d →
    (d.read a.memory.dev paddr n).dev = a.memory.dev ∧
      ∀ irq, (d.read a.memory.dev paddr n).irq = some irq → irq = a.state.get .mip

/-- Any read at all. -/
def AnyRead (_ : RiscvArch δ) (_ : Word) (_ : Nat) : Prop := True

/-- A quiet read leaves the machine as it is. -/
theorem paddrRead_quiet (P : Platform δ) {a : RiscvArch δ} {paddr : Word} {n : Nat}
    (quiet : Quiet P a paddr n) (buf : Word) :
    Returns (a.paddrRead P paddr n buf) fun r => r.2.2 = a := by
  simp only [paddrRead, returns_bind, returns_pure, Memory.paddrRead]
  cases claimed : Memory.deviceAt P.map paddr with
  | none =>
      dsimp only
      split
      · exact (returns_ok _ _).2 rfl
      · exact returns_error _ _
  | some d =>
      obtain ⟨dev, vector⟩ := quiet d claimed
      refine (returns_ok _ _).2 ?_
      simp only [dev, afterAccess]
      cases published : (d.read a.memory.dev paddr n).irq with
      | none => rfl
      | some irq => rw [irqListener, vector irq published, ArchState.set_get]

/-- State and memory are as they were. -/
structure Still (a a' : RiscvArch δ) : Prop where
  state : a'.state = a.state
  memory : a'.memory = a.memory

/-- A read that left state and memory alone was quiet. -/
theorem paddrRead_still (P : Platform δ) (a : RiscvArch δ) (paddr : Word) (n : Nat)
    (buf : Word) :
    Returns (a.paddrRead P paddr n buf) fun r => Still a r.2.2 → Quiet P a paddr n := by
  simp only [paddrRead, returns_bind, returns_pure, Memory.paddrRead]
  cases claimed : Memory.deviceAt P.map paddr with
  | none =>
      intro r _ _ d claimed'
      rw [claimed] at claimed'
      cases claimed'
  | some d =>
      refine (returns_ok _ _).2 ?_
      rintro ⟨state, memory⟩ d' claimed'
      cases claimed.symm.trans claimed'
      simp only [afterAccess] at state memory
      cases published : (d.read a.memory.dev paddr n).irq with
      | none =>
          rw [published] at memory
          exact ⟨congrArg Memory.dev memory, by simp⟩
      | some irq =>
          rw [published] at state memory
          refine ⟨congrArg Memory.dev memory, ?_⟩
          rintro _ ⟨⟩
          rw [← congrArg (·.get .mip) state]
          exact (ArchState.get_set_self _ _ _).symm

/-- So does one level of a walk. -/
theorem walkTurn_quiet (P : Platform δ) {vaddr : Word} {level : Nat} {paddr : Word}
    {arch : RiscvArch δ} (quiet : Quiet P arch (pteAddr vaddr level paddr) 8) :
    Returns (walkTurn P vaddr level paddr arch) fun t => t.arch = arch := by
  simp only [walkTurn, returns_bind]
  refine (paddrRead_quiet P quiet _).mono ?_
  rintro ⟨val, plain, a⟩ unmoved
  cases plain with
  | false => exact (returns_pure _ _).2 unmoved
  | true => cases classify ⟨val⟩ <;> exact (returns_pure _ _).2 unmoved

/-- So does a walk whose reads are quiet. -/
theorem walk_quiet (P : Platform δ) {vaddr : Word} {level : Nat} {paddr : Word}
    {arch : RiscvArch δ} (quiet : WalkAll P (Quiet P) vaddr level paddr arch) :
    Returns (walk P vaddr level paddr arch) fun r => r.arch = arch := by
  induction level generalizing paddr arch with
  | zero =>
      rw [walk, returns_bind]
      refine (walkTurn_quiet P quiet).mono ?_
      intro turn unmoved
      cases turn <;> exact (returns_pure _ _).2 unmoved
  | succ level ih =>
      rw [walk, returns_bind]
      refine (walkTurn_quiet P quiet.1).and_eq.mono ?_
      rintro turn ⟨turned, unmoved⟩
      cases turn with
      | done r => exact (returns_pure _ _).2 unmoved
      | next paddr' arch' =>
          refine (ih (quiet.2 paddr' arch' turned)).mono ?_
          intro r rest
          exact rest.trans unmoved

/-- So does a translation. -/
theorem translateAddr_quiet (P : Platform δ) {arch : RiscvArch δ} {vaddr : Word}
    {type : FetchType} (quiet : TranslateAll P (Quiet P) arch vaddr type) (exception : Word) :
    Returns (arch.translateAddr P vaddr type exception) fun r => r.2.2 = arch := by
  unfold translateAddr
  cases on : arch.mmuOn type with
  | false => exact (returns_ok _ _).2 rfl
  | true =>
      simp only [Bool.not_true, Bool.false_eq_true, if_false, returns_bind]
      refine (walk_quiet P (quiet on)).mono ?_
      intro r unmoved
      cases r.leaf with
      | none => exact (returns_pure _ _).2 unmoved
      | some leaf =>
          dsimp only
          split_ifs <;> exact (returns_pure _ _).2 unmoved

/-- So does a load. -/
theorem ld_quiet (P : Platform δ) {width : Width} (ctx : Ctx δ) {va : Word}
    (quiet : LdAll P (Quiet P) (Quiet P) width ctx.arch va) :
    Returns (ld P width ctx va) fun r => r.2.arch = ctx.arch := by
  unfold ld
  cases misaligned : width.misaligned va with
  | true => exact (returns_ok _ _).2 rfl
  | false =>
      obtain ⟨tables, read⟩ := quiet misaligned
      simp only [Bool.false_eq_true, if_false, returns_bind]
      refine (translateAddr_quiet P tables excNone).and_eq.mono ?_
      rintro ⟨ha, exception, a⟩ ⟨translated, unmoved⟩
      cases valid : exceptionValid exception with
      | true => exact (returns_pure _ _).2 unmoved
      | false =>
          simp only [Bool.false_eq_true, if_false, returns_bind, returns_pure]
          refine (paddrRead_quiet P (read ha exception a translated valid) P.junk).mono ?_
          intro r kept
          exact kept.trans unmoved

/-- A load whose walk is quiet and that moved nothing was quiet. -/
theorem ld_still (P : Platform δ) {width : Width} (ctx : Ctx δ) {va : Word}
    (tables : LdAll P (Quiet P) AnyRead width ctx.arch va) :
    Returns (ld P width ctx va) fun r =>
      Still ctx.arch r.2.arch → LdAll P (Quiet P) (Quiet P) width ctx.arch va := by
  unfold ld
  cases misaligned : width.misaligned va with
  | true =>
      refine (returns_ok _ _).2 fun _ aligned => ?_
      rw [misaligned] at aligned
      cases aligned
  | false =>
      have walk := (tables misaligned).1
      simp only [Bool.false_eq_true, if_false, returns_bind]
      refine (translateAddr_quiet P walk excNone).and_eq.mono ?_
      rintro ⟨ha, exception, a⟩ ⟨translated, unmoved⟩
      have only (read : exceptionValid exception = false → Quiet P a ha width.bytes) :
          LdAll P (Quiet P) (Quiet P) width ctx.arch va := by
        refine fun _ => ⟨walk, ?_⟩
        intro ha' exception' a' translated' valid
        cases translated.symm.trans translated'
        exact read valid
      cases valid : exceptionValid exception with
      | true =>
          refine (returns_pure _ _).2 fun _ => only fun silent => ?_
          rw [valid] at silent
          cases silent
      | false =>
          simp only [Bool.false_eq_true, if_false, returns_bind, returns_pure]
          refine (paddrRead_still P a ha width.bytes P.junk).mono ?_
          intro r quiet still
          refine only fun _ => quiet ?_
          rw [show a = ctx.arch from unmoved]
          exact still

/-- So does the check of a store. -/
theorem st_quiet (P : Platform δ) {width : Width} (ctx : Ctx δ) {va : Word}
    (tables : StAll P (Quiet P) width ctx.arch va) :
    Returns (st P width ctx va) fun c => c.arch = ctx.arch := by
  unfold st
  cases misaligned : width.misaligned va with
  | true => exact (returns_ok _ _).2 rfl
  | false =>
      simp only [Bool.false_eq_true, if_false, returns_bind]
      refine (translateAddr_quiet P (tables misaligned) excNone).mono ?_
      rintro ⟨ha, exception, a⟩ unmoved
      dsimp only
      split_ifs <;> exact (returns_pure _ _).2 unmoved

/-- So does the comparison of a store-conditional. -/
theorem scFails_quiet (P : Platform δ) {width : Width} (ctx : Ctx δ) {va : Word}
    (quiet : ScFailsAll P (Quiet P) (Quiet P) width ctx.arch va) :
    Returns (scFails P width ctx va) fun r => r.2.arch = ctx.arch := by
  unfold scFails
  split
  · exact (returns_ok _ _).2 rfl
  · rename_i reserved
    simp only [returns_bind, returns_pure]
    exact ld_quiet P ctx (quiet (not_not.1 reserved))

/-- If the comparison leaves the machine as it is, its read has been quiet. -/
theorem scFails_still (P : Platform δ) {width : Width} (ctx : Ctx δ) {va : Word}
    (tables : ScFailsAll P (Quiet P) AnyRead width ctx.arch va) :
    Returns (scFails P width ctx va) fun r =>
      Still ctx.arch r.2.arch → ScFailsAll P (Quiet P) (Quiet P) width ctx.arch va := by
  unfold scFails
  split
  · rename_i apart
    exact (returns_ok _ _).2 fun _ reserved => absurd reserved apart
  · rename_i reserved
    simp only [returns_bind, returns_pure]
    refine (ld_still P ctx (tables (not_not.1 reserved))).mono ?_
    intro r quiet still _
    exact quiet still

/-- The result of a store-conditional is in the record only. -/
theorem scResult_quiet (P : Platform δ) (rd : BitVec 5) {width : Width} {fail : Bool}
    {va : Word} (src : Word) {ctx : Ctx δ}
    (tables : fail = false → StAll P (Quiet P) width ctx.arch va) :
    Returns (scResult P rd width fail va src ctx) fun c => c.arch = ctx.arch := by
  unfold scResult
  cases fail with
  | true => exact (returns_ok _ _).2 rfl
  | false =>
      simp only [Bool.false_eq_true, if_false, returns_bind, returns_pure]
      exact st_quiet P ctx (tables rfl)

/-! ### Bodies on a clean state -/

/-- A read of a CSR makes the unit dirty only if it is one of the unit's. -/
theorem csrRead_clean {ops : CsrOps} {ctx : Ctx δ}
    (clean : ops.usesFp = true → ctx.arch.state.fpEnabled = true → ctx.arch.state.FsDirty) :
    Returns (csrRead ops ctx) fun r => r.2.arch = ctx.arch := by
  unfold csrRead
  cases read : ops.read with
  | none => exact returns_error _ _
  | some r =>
      cases r with
      | plain value => exact (returns_ok _ _).2 rfl
      | illegal => exact (returns_ok _ _).2 rfl
      | fp value =>
          dsimp only
          split
          · exact (returns_ok _ _).2 rfl
          · rename_i on
            have dirty := clean (by simp [CsrOps.usesFp, read]) (by simpa using on)
            refine (returns_ok _ _).2 ?_
            simp only [Ctx.setState, dirtyFs_of_fsDirty dirty]

/-- So does a write. -/
theorem csrWrite_clean {ops : CsrOps} (val : Word) {ctx : Ctx δ}
    (clean : ops.usesFp = true → ctx.arch.state.fpEnabled = true → ctx.arch.state.FsDirty) :
    Returns (csrWrite ops val ctx) fun c => c.arch = ctx.arch := by
  unfold csrWrite
  cases write : ops.write with
  | none => exact returns_error _ _
  | some r =>
      cases r with
      | masked w mask => exact (returns_ok _ _).2 rfl
      | illegal => exact (returns_ok _ _).2 rfl
      | noop => exact (returns_ok _ _).2 rfl
      | assertFail => exact returns_error _ _
      | satp =>
          dsimp only
          split <;> exact (returns_ok _ _).2 rfl
      | fp field mask dest =>
          dsimp only
          split
          · exact (returns_ok _ _).2 rfl
          · rename_i on
            have uses : ops.usesFp = true := by
              unfold CsrOps.usesFp
              split
              · rfl
              · rfl
              · rename_i other
                exact absurd write (other field mask dest)
            have dirty := clean uses (by simpa using on)
            refine (returns_ok _ _).2 ?_
            simp only [Ctx.setState, Ctx.setDst1, Ctx.setDst2, dirtyFs_of_fsDirty dirty]

/-- So does a CSR instruction as a whole. -/
theorem doCsr_clean (P : Platform δ) (rd : BitVec 5) {csrno : BitVec 12} (access : CsrAccess)
    {ctx : Ctx δ}
    (clean : IsFpCsr csrno → ctx.arch.state.fpEnabled = true → ctx.arch.state.FsDirty) :
    Returns (doCsr P rd csrno access ctx) fun c => c.arch = ctx.arch := by
  unfold doCsr
  dsimp only
  cases checked : riscvCsrrwCheck csrno access.isWrite with
  | none => exact (returns_ok _ _).2 rfl
  | some ops =>
      have registered := ((riscvCsrrwCheck_eq_some _ _ _).1 checked).1
      have guarded (uses : ops.usesFp = true) := clean (csrOps_usesFp registered uses)
      simp only [returns_bind, returns_pure, riscvCsrrw]
      cases ops.op with
      | some op => exact (returns_ok _ _).2 rfl
      | none =>
          simp only [returns_bind]
          refine (csrRead_clean guarded).mono ?_
          rintro ⟨old, c⟩ unmoved
          replace unmoved : c.arch = ctx.arch := unmoved
          cases old with
          | none => exact (returns_pure _ _).2 unmoved
          | some old =>
              dsimp only
              split
              · exact (returns_pure _ _).2 unmoved
              · simp only [returns_bind, returns_pure]
                refine (csrWrite_clean _ ?_).mono fun c' kept => kept.trans unmoved
                rw [unmoved]
                exact guarded

/-- An operation that raises no new flag leaves the unit as it is. -/
theorem fpCalc_clean (P : Platform δ) {s : ArchState} {fpCalc : FpCalc}
    (keeps : fpCalc.KeepsFlags P s) : Returns (fpCalc.run P s) fun r => r.2 = s := by
  cases fpCalc with
  | move value => exact (returns_ok _ _).2 rfl
  | call op args box =>
      simp only [FpCalc.run]
      split
      · rename_i value flags called
        exact (returns_ok _ _).2 (keeps value flags called)
      · exact returns_error _ _

/-- A body that finds `mstatus.FS` Dirty leaves `mstatus`. -/
theorem exec_mstatus (P : Platform δ) {b : Body} {ctx : Ctx δ}
    (clean : b.FsClean ctx.arch.state) :
    Returns (b.exec P ctx) fun r =>
      r.2.arch.state.get .mstatus = ctx.arch.state.get .mstatus := by
  cases b with
  | notImplemented => exact returns_error _ _
  | compute rd value type =>
      simp only [Body.exec]
      split
      · exact returns_error _ _
      · exact (returns_ok _ _).2 rfl
  | jalr rd rs1 imm =>
      simp only [Body.exec]
      split <;> exact (returns_ok _ _).2 rfl
  | load rd addr width ext | lr rd addr width =>
      simp only [Body.exec, returns_bind, returns_pure]
      exact (ld_memStep P width _ _).mono fun r step => step.frame.get (by decide)
  | store addr width data | fstore addr width data =>
      simp only [Body.exec, returns_bind, returns_pure]
      exact (st_memStep P width _ _).mono fun r step => step.frame.get (by decide)
  | fload rd addr width box =>
      simp only [Body.exec, requireFpu_returns, returns_bind, returns_pure]
      refine ⟨fun _ => rfl, fun on => ?_⟩
      -- `mark_fs_dirty` sets what is set already.
      rw [dirtyFs_of_fsDirty (clean on)]
      exact (ld_memStep P width _ _).mono fun r step => step.frame.get (by decide)
  | amo rd addr width data op =>
      simp only [Body.exec, returns_bind, returns_pure]
      refine (ld_memStep P width _ _).mono ?_
      intro r loaded
      refine (st_memStep P width _ _).mono ?_
      intro c stored
      exact (loaded.trans stored).frame.get (by decide)
  | sc rd addr width src =>
      simp only [Body.exec, returns_bind, returns_pure]
      refine (scFails_memStep P width _ _).mono ?_
      intro r compared
      refine (scResult_memStep P rd width r.1 _ _ r.2).mono ?_
      rintro c ⟨stored, -⟩
      exact (stored.frame.get (by decide)).trans (compared.frame.get (by decide))
  | csr rd csrno access =>
      simp only [Body.exec, returns_bind, returns_pure]
      refine (doCsr_clean P rd access clean).mono ?_
      intro c unmoved
      rw [← unmoved]
      rfl
  | fp dst rm fpCalc type =>
      simp only [Body.exec, requireFpu_returns, returns_bind, returns_pure]
      refine ⟨fun _ => rfl, fun on => ?_⟩
      rw [dirtyFs_of_fsDirty (clean on)]
      refine (FpCalc.run_get P _ fpCalc).mono ?_
      intro r kept
      exact (kept .mstatus (by decide)).trans (rounded_get _ rm (by decide))
  | sret | mret =>
      simp only [Body.exec]
      split <;> exact (returns_ok _ _).2 rfl
  | unsupported | cond | jal | simple | sfence | ebreak | ecall =>
      exact (returns_ok _ _).2 rfl

/-- A body that finds the floating-point state clean and whose reads are quiet moves
nothing but the record. -/
theorem exec_quiet (P : Platform δ) {b : Body} {ctx : Ctx δ}
    (clean : b.FpClean P ctx.arch.state) (quiet : BodyAll P (Quiet P) (Quiet P) b ctx) :
    Returns (b.exec P ctx) fun r => r.2.arch = ctx.arch := by
  cases b with
  | notImplemented => exact returns_error _ _
  | compute rd value type =>
      simp only [Body.exec]
      split
      · exact returns_error _ _
      · exact (returns_ok _ _).2 rfl
  | jalr rd rs1 imm =>
      simp only [Body.exec]
      split <;> exact (returns_ok _ _).2 rfl
  | load rd addr width ext | lr rd addr width =>
      simp only [Body.exec, returns_bind, returns_pure]
      exact ld_quiet P (ctx.setExcData (addr ctx.arch.state)) quiet
  | store addr width data | fstore addr width data =>
      simp only [Body.exec, returns_bind, returns_pure]
      exact st_quiet P _ quiet
  | fload rd addr width box =>
      simp only [Body.exec, requireFpu_returns, returns_bind, returns_pure]
      refine ⟨fun _ => rfl, fun on => ?_⟩
      have dirty : ctx.setState ctx.arch.state.dirtyFs = ctx := by
        rw [dirtyFs_of_fsDirty (clean on)]
        rfl
      have read : LdAll P (Quiet P) (Quiet P) width _ _ := quiet on
      rw [dirtyFs_of_fsDirty (clean on)] at read
      rw [dirty]
      exact ld_quiet P ctx read
  | amo rd addr width data op =>
      simp only [Body.exec, returns_bind, returns_pure]
      refine (ld_quiet P (ctx.setExcData (addr ctx.arch.state)) quiet.1).and_eq.mono ?_
      rintro r ⟨ran, unmoved⟩
      exact (st_quiet P r.2 (quiet.2 r ran)).mono fun c kept => kept.trans unmoved
  | sc rd addr width src =>
      simp only [Body.exec, returns_bind, returns_pure]
      refine (scFails_quiet P (ctx.setExcData (addr ctx.arch.state)) quiet.1).and_eq.mono ?_
      rintro ⟨fail, c⟩ ⟨ran, unmoved⟩
      refine (scResult_quiet P rd _ ?_).mono fun c' kept => kept.trans unmoved
      rintro rfl
      -- Only an `sc` that holds its reservation reads once more.
      exact quiet.2 c ran
  | csr rd csrno access =>
      simp only [Body.exec, returns_bind, returns_pure]
      exact doCsr_clean P rd access clean
  | fp dst rm fpCalc type =>
      simp only [Body.exec, requireFpu_returns, returns_bind, returns_pure]
      refine ⟨fun _ => rfl, fun on => ?_⟩
      obtain ⟨dirty, rounded, keeps⟩ := clean on
      have same : (ctx.setState ctx.arch.state.dirtyFs).arch.state.rounded rm =
          ctx.arch.state := by
        rw [dirtyFs_of_fsDirty dirty]
        exact rounded
      rw [same]
      refine (fpCalc_clean P keeps).mono ?_
      rintro r unmoved
      rw [unmoved]
      rfl
  | sret | mret =>
      simp only [Body.exec]
      split <;> exact (returns_ok _ _).2 rfl
  | unsupported | cond | jal | simple | sfence | ebreak | ecall =>
      exact (returns_ok _ _).2 rfl

/-- With quiet reads, a body that finds `mstatus.FS` Dirty leaves `mip`. -/
theorem exec_mip (P : Platform δ) {b : Body} {ctx : Ctx δ} (clean : b.FsClean ctx.arch.state)
    (quiet : BodyAll P (Quiet P) (Quiet P) b ctx) :
    Returns (b.exec P ctx) fun r => r.2.arch.state.get .mip = ctx.arch.state.get .mip := by
  have unmoved (moves : ∀ dst rm fpCalc type, b ≠ .fp dst rm fpCalc type) :
      Returns (b.exec P ctx) fun r => r.2.arch.state.get .mip = ctx.arch.state.get .mip := by
    have clean : b.FpClean P ctx.arch.state := by
      cases b with
      | fload | csr => exact clean
      | fp dst rm fpCalc type => exact absurd rfl (moves dst rm fpCalc type)
      | _ => trivial
    refine (exec_quiet P clean quiet).mono ?_
    intro r same
    rw [same]
  cases b with
  | fp dst rm fpCalc type =>
      simp only [Body.exec, requireFpu_returns, returns_bind, returns_pure]
      refine ⟨fun _ => rfl, fun on => ?_⟩
      rw [dirtyFs_of_fsDirty (clean on)]
      refine (FpCalc.run_get P _ fpCalc).mono ?_
      intro r kept
      exact (kept .mip (by decide)).trans (rounded_get _ rm (by decide))
  | _ => exact unmoved (by rintro _ _ _ _ ⟨⟩)

/-- With the tables quiet, a body that found the state clean and moved nothing had
quiet reads. -/
theorem exec_still (P : Platform δ) {b : Body} {ctx : Ctx δ}
    (clean : b.FpClean P ctx.arch.state) (tables : BodyAll P (Quiet P) AnyRead b ctx) :
    Returns (b.exec P ctx) fun r =>
      Still ctx.arch r.2.arch → BodyAll P (Quiet P) (Quiet P) b ctx := by
  cases b with
  | load rd addr width ext | lr rd addr width =>
      simp only [Body.exec, returns_bind, returns_pure]
      exact ld_still P (ctx.setExcData (addr ctx.arch.state)) tables
  | store addr width data | fstore addr width data => exact fun _ _ _ => tables
  | fload rd addr width box =>
      simp only [Body.exec, requireFpu_returns, returns_bind, returns_pure]
      refine ⟨fun off _ on => absurd on (by simp [off]), fun on => ?_⟩
      have dirty : ctx.setState ctx.arch.state.dirtyFs = ctx := by
        rw [dirtyFs_of_fsDirty (clean on)]
        rfl
      have walk : LdAll P (Quiet P) AnyRead width _ _ := tables on
      rw [dirtyFs_of_fsDirty (clean on)] at walk
      rw [dirty]
      refine (ld_still P ctx walk).mono ?_
      intro r quiet still _
      rw [dirtyFs_of_fsDirty (clean on)]
      exact quiet still
  | amo rd addr width data op =>
      simp only [Body.exec, returns_bind, returns_pure]
      refine (ld_still P (ctx.setExcData (addr ctx.arch.state)) tables.1).and_eq.mono ?_
      rintro r ⟨ran, quiet⟩
      refine (st_quiet P r.2 (tables.2 r ran)).mono ?_
      intro c kept still
      refine ⟨quiet ?_, tables.2⟩
      rw [← show c.arch = r.2.arch from kept]
      exact still
  | sc rd addr width src =>
      simp only [Body.exec, returns_bind, returns_pure]
      refine (scFails_still P (ctx.setExcData (addr ctx.arch.state)) tables.1).and_eq.mono ?_
      rintro ⟨fail, c⟩ ⟨ran, quiet⟩
      refine (scResult_quiet P rd _ ?_).mono ?_
      · rintro rfl
        exact tables.2 c ran
      · intro c' kept still
        refine ⟨quiet ?_, tables.2⟩
        rw [← show c'.arch = c.arch from kept]
        exact still
  | _ => exact fun _ _ _ => trivial

/-! ### The fetch, and the same fetch again -/

/-- A quiet fetch leaves the machine as it is. -/
theorem fetch_quiet (P : Platform δ) {arch : RiscvArch δ} {paddr : Word}
    (quiet : Quiet P arch paddr 4) (slot : DecodeInfo) :
    Returns (arch.fetch P paddr slot) fun f => f.2.1 = arch := by
  simp only [fetch, returns_bind, returns_pure]
  exact paddrRead_quiet P quiet _

/-- The instruction in a fetched word: all of it, or the lower half. -/
def fetchedInst (w : BitVec 32) : BitVec 32 := if w &&& 3 != 3 then (w <<< 16) >>> 16 else w

/-- A word that agrees with another wherever the instruction does has the same
instruction. -/
theorem fetchedInst_again {w w' : BitVec 32}
    (same : ∀ k < 32, (fetchedInst w).getLsbD k = w.getLsbD k →
      w'.getLsbD k = w.getLsbD k) :
    (w' &&& 3 != 3) = (w &&& 3 != 3) ∧ fetchedInst w' = fetchedInst w := by
  have low (k : Nat) (half : k < 16) : w'.getLsbD k = w.getLsbD k := by
    refine same k (by omega) ?_
    unfold fetchedInst
    split
    · rw [BitVec.getLsbD_ushiftRight, BitVec.getLsbD_shiftLeft]
      simp only [show 16 + k < 32 by omega, show ¬ 16 + k < 16 by omega, decide_true,
        decide_false, Bool.not_false, Bool.true_and, Nat.add_sub_cancel_left]
    · rfl
  have tag : w' &&& 3 = w &&& 3 := by
    apply BitVec.eq_of_getLsbD_eq
    intro k _
    rw [BitVec.getLsbD_and, BitVec.getLsbD_and]
    by_cases half : k < 16
    · rw [low k half]
    · have high : (3 : BitVec 32).getLsbD k = false := by
        refine Nat.testBit_lt_two_pow ?_
        exact Nat.lt_of_lt_of_le (by decide : 3 < 2 ^ 16)
          (Nat.pow_le_pow_right (by decide) (by omega))
      rw [high, Bool.and_false, Bool.and_false]
  rw [fetchedInst, fetchedInst, tag]
  refine ⟨rfl, ?_⟩
  cases rvc : w &&& 3 != 3 with
  | true =>
      simp only [if_true]
      apply BitVec.eq_of_getLsbD_eq
      intro k _
      rw [BitVec.getLsbD_ushiftRight, BitVec.getLsbD_ushiftRight, BitVec.getLsbD_shiftLeft,
        BitVec.getLsbD_shiftLeft, Nat.add_sub_cancel_left]
      by_cases half : k < 16
      · rw [low k half]
      · simp only [show ¬ 16 + k < 32 by omega, decide_false, Bool.false_and]
  | false =>
      simp only [Bool.false_eq_true, if_false]
      apply BitVec.eq_of_getLsbD_eq
      intro k bound
      exact same k bound (by rw [fetchedInst, rvc]; rfl)

/-- A quiet read made again, into a buffer that holds a bit of its result, leaves that
bit. -/
theorem paddrRead_again (P : Platform δ) {a a' b : RiscvArch δ} {paddr : Word} {n : Nat}
    {buf v : Word} {plain : Bool} (quiet : Quiet P a paddr n)
    (read : a.paddrRead P paddr n buf = .ok (v, plain, a')) (memory : b.memory = a.memory)
    (mip : b.state.get .mip = a.state.get .mip) (buf' : Word) :
    ∃ v', b.paddrRead P paddr n buf' = .ok (v', plain, b) ∧
      ∀ k < 64, k / 8 < n → buf'.getLsbD k = v.getLsbD k → v'.getLsbD k = v.getLsbD k := by
  have quiet' : Quiet P b paddr n := by
    rw [Quiet, memory, mip]
    exact quiet
  have value {r : Memory.ReadResult δ}
      (access : Memory.paddrRead P.map b.memory paddr n buf' = .ok r) :
      b.paddrRead P paddr n buf' = .ok (r.value, !r.mmio, b) := by
    have ran : b.paddrRead P paddr n buf' =
        .ok (r.value, !r.mmio, b.afterAccess r.memory r.irq) := by
      simp only [paddrRead, access]
      rfl
    have unmoved : b.afterAccess r.memory r.irq = b := paddrRead_quiet P quiet' buf' _ ran
    rw [ran, unmoved]
  simp only [paddrRead, bind_eq_ok] at read
  obtain ⟨r, access, result⟩ := read
  cases result
  simp only [Memory.paddrRead] at access
  cases claimed : Memory.deviceAt P.map paddr with
  | none =>
      simp only [claimed] at access
      split at access
      · rename_i inside
        cases access
        refine ⟨Memory.load b.memory.ram (Memory.ramIndex paddr) n,
          value (Memory.paddrRead_ram claimed inside b.memory buf'), ?_⟩
        intro k _ _ _
        rw [memory]
      · cases access
  | some d =>
      simp only [claimed] at access
      cases access
      have access : Memory.paddrRead P.map b.memory paddr n buf' =
          .ok ⟨Memory.overlay n buf' (d.read b.memory.dev paddr n).bytes, true,
            { b.memory with dev := (d.read b.memory.dev paddr n).dev },
            (d.read b.memory.dev paddr n).irq, (d.read b.memory.dev paddr n).bytes.drop n⟩ := by
        simp only [Memory.paddrRead, claimed]
      refine ⟨Memory.overlay n buf' (d.read b.memory.dev paddr n).bytes, value access, ?_⟩
      intro k bound inside held
      rw [memory]
      -- A device that answers fewer bytes leaves the rest of the buffer.
      exact Memory.overlay_again bound inside held

/-- A quiet fetch into the record it filled finds the same word there. -/
theorem fetch_again (P : Platform δ) {arch : RiscvArch δ} {paddr : Word} {slot : DecodeInfo}
    {rvc : Bool} {a : RiscvArch δ} {i : DecodeInfo} (quiet : Quiet P arch paddr 4)
    (fetched : arch.fetch P paddr slot = .ok (rvc, a, i)) (vaddr : Word) {j : DecodeInfo}
    (inst : j.inst = i.inst) (size : j.instSize = i.instSize) :
    ({ arch with pc := vaddr, paddr := paddr } : RiscvArch δ).fetch P paddr j =
      .ok (rvc, { arch with pc := vaddr, paddr := paddr }, j) := by
  simp only [fetch, bind_eq_ok] at fetched
  obtain ⟨⟨v, plain, a'⟩, read, result⟩ := fetched
  cases result
  obtain ⟨v', again, held⟩ := paddrRead_again P (b := { arch with pc := vaddr, paddr := paddr })
    quiet read rfl rfl (j.inst.setWidth 64)
  replace inst : j.inst = fetchedInst (v.setWidth 32) := inst
  have same : ∀ k < 32, (fetchedInst (v.setWidth 32)).getLsbD k = (v.setWidth 32).getLsbD k →
      (v'.setWidth 32).getLsbD k = (v.setWidth 32).getLsbD k := by
    intro k bound kept
    have wide : k < 64 := by omega
    rw [← inst] at kept
    simp only [BitVec.getLsbD_setWidth, bound, decide_true, Bool.true_and] at kept ⊢
    refine held k wide (by omega) ?_
    simp only [BitVec.getLsbD_setWidth, wide, decide_true, Bool.true_and]
    exact kept
  obtain ⟨tag, word⟩ := fetchedInst_again same
  rw [← inst, fetchedInst] at word
  simp only [fetch, again, bind, Except.bind, pure, Except.pure]
  rw [word, tag, ← show j.instSize = if v.setWidth 32 &&& 3 != 3 then 2 else 4 from size]

/-! ### Decoding without effect -/

/-- Decoding leaves state, RAM and devices alone, and decoding again before the commit
comes to the same. -/
structure NoEffect (P : Platform δ) (arch : RiscvArch δ) (vaddr paddr : Word)
    (slot : DecodeInfo) : Prop where
  still : Returns (arch.decode P vaddr paddr slot) fun r => Still arch r.1
  again : Returns (arch.decode P vaddr paddr slot) fun r =>
    (r.1.decode P vaddr paddr r.2 >>= fun r' => r'.1.updateEnv P r'.2) = r.1.updateEnv P r.2

/-- The body of the fetched word finds the floating-point state clean. -/
def DecodeClean (P : Platform δ) (arch : RiscvArch δ) (paddr : Word) (slot : DecodeInfo) :
    Prop :=
  ∀ rvc a i, arch.fetch P paddr slot = .ok (rvc, a, i) →
    (selected i.inst rvc).FpClean P a.state

/-- The report adds nothing to what `decode` clears for an exception. -/
theorem cleared_report (ctx : Ctx δ) : cleared (report ctx) = cleared ctx.info := by
  rw [report_eq]
  rfl

/-- A body that moved nothing does the same on the record it left. -/
theorem exec_again (P : Platform δ) (b : Body) (a : RiscvArch δ) (i : DecodeInfo) :
    Returns (b.exec P ⟨a, cleared i⟩) fun r =>
      r.2.info.inst = i.inst ∧ r.2.info.instSize = i.instSize ∧
        b.exec P ⟨a, cleared (report r.2)⟩ = .ok r := by
  intro r ran
  rcases exec_uniform P a i.inst i.instSize b with
    ⟨e, stops⟩ | ⟨g, ⟨v, a', p, rfl, -⟩, returns⟩
  · cases (stops (cleared i) ⟨rfl, rfl⟩).symm.trans ran
  · cases ran.symm.trans (returns (cleared i) ⟨rfl, rfl⟩)
    refine ⟨rfl, rfl, ?_⟩
    rw [cleared_report]
    refine (returns (cleared (p.apply (cleared i))) ⟨rfl, rfl⟩).trans ?_
    dsimp only
    rw [Patch.apply_cleared]

/-- `decode` is the fetch, the body and the report. -/
theorem decode_of_exec (P : Platform δ) {arch a : RiscvArch δ} {vaddr paddr : Word}
    {slot i : DecodeInfo} {rvc : Bool} {r : Bool × Ctx δ}
    (fetched : arch.fetch P paddr slot = .ok (rvc, a, i))
    (ran : (selected i.inst rvc).exec P (bodyCtx a vaddr paddr i) = .ok r) :
    arch.decode P vaddr paddr slot = .ok (r.2.arch, report r.2) := by
  rw [decode_eq, fetched]
  change ((selected i.inst rvc).exec P (bodyCtx a vaddr paddr i) >>= _) = _
  rw [ran]
  rfl

/-- From a clean state and with quiet reads, decoding only moves `env->pc` and
`env->paddr`, and repeats itself. -/
theorem decode_again (P : Platform δ) {arch : RiscvArch δ} {vaddr paddr : Word}
    {slot : DecodeInfo} (clean : DecodeClean P arch paddr slot)
    (quiet : DecodeAll P (Quiet P) (Quiet P) arch vaddr paddr slot) :
    Returns (arch.decode P vaddr paddr slot) fun r =>
      r.1 = { arch with pc := vaddr, paddr := paddr } ∧
        r.1.decode P vaddr paddr r.2 = .ok r := by
  rw [decode_returns]
  rintro ⟨rvc, a, i⟩ fetched r ran
  have unmoved : a = arch := fetch_quiet P quiet.1 slot _ fetched
  subst unmoved
  have kept : r.2.arch = { a with pc := vaddr, paddr := paddr } :=
    exec_quiet P (clean rvc a i fetched) (quiet.2 rvc a i fetched) r ran
  refine ⟨kept, ?_⟩
  obtain ⟨inst, size, again⟩ := exec_again P _ _ i r ran
  replace inst : (report r.2).inst = i.inst := (report_inst r.2).trans inst
  have fetched' := fetch_again P quiet.1 fetched vaddr inst ((report_instSize r.2).trans size)
  have ran' : (selected (report r.2).inst rvc).exec P
      (bodyCtx { a with pc := vaddr, paddr := paddr } vaddr paddr (report r.2)) = .ok r := by
    rw [inst]
    exact again
  calc r.2.arch.decode P vaddr paddr (report r.2)
      = ({ a with pc := vaddr, paddr := paddr } : RiscvArch δ).decode P vaddr paddr
          (report r.2) := by rw [kept]
    _ = .ok (r.2.arch, report r.2) := decode_of_exec P fetched' ran'

/-- A decoding that returns has no effect when it finds the floating-point state clean and its
reads are quiet. Without effect, it found the state clean; and if the instruction and the page
tables are read quietly, so is the data. Decoding writes `mstatus.FS`, the rounding mode and the
flags when it finds them otherwise, and a device may answer a read only once. -/
theorem noEffect_iff (P : Platform δ) (arch : RiscvArch δ) (vaddr paddr : Word)
    (slot : DecodeInfo) :
    Returns (arch.decode P vaddr paddr slot) fun _ =>
      (DecodeClean P arch paddr slot ∧ DecodeAll P (Quiet P) (Quiet P) arch vaddr paddr slot →
        NoEffect P arch vaddr paddr slot) ∧
      (NoEffect P arch vaddr paddr slot → DecodeClean P arch paddr slot) ∧
      (DecodeAll P (Quiet P) AnyRead arch vaddr paddr slot →
        (NoEffect P arch vaddr paddr slot ↔
          DecodeClean P arch paddr slot ∧
            DecodeAll P (Quiet P) (Quiet P) arch vaddr paddr slot)) := by
  have enough (clean : DecodeClean P arch paddr slot)
      (quiet : DecodeAll P (Quiet P) (Quiet P) arch vaddr paddr slot) :
      NoEffect P arch vaddr paddr slot := by
    have repeats := decode_again P clean quiet
    constructor
    · refine repeats.mono ?_
      rintro r ⟨unmoved, -⟩
      rw [unmoved]
      exact ⟨rfl, rfl⟩
    · refine repeats.mono ?_
      rintro r ⟨-, again⟩
      rw [again]
      rfl
  rw [decode_returns]
  rintro ⟨rvc, a, i⟩ fetched r ran
  dsimp only at ran
  have frame := fetch_frame P arch paddr slot _ fetched
  have decoded := decode_of_exec P fetched ran
  have needed (none : NoEffect P arch vaddr paddr slot) : DecodeClean P arch paddr slot := by
    have still := none.still _ decoded
    have same (w : StateWord) (apart : w ≠ .mip) : r.2.arch.state.get w = a.state.get w := by
      rw [show a.state.get w = _ from frame.get apart]
      exact congrArg (·.get w) still.state
    intro rvc' a' i' fetched'
    cases fetched.symm.trans fetched'
    exact exec_fpClean P _ _ r ran (same .mstatus (by decide)) (same .fp (by decide))
  refine ⟨fun h => enough h.1 h.2, needed, fun tables => ⟨fun none => ⟨needed none, ?_⟩,
    fun h => enough h.1 h.2⟩⟩
  -- The fetch was quiet, so the state the body starts in is the one it has to leave.
  have unmoved : a = arch := fetch_quiet P tables.1 slot _ fetched
  subst unmoved
  refine ⟨tables.1, ?_⟩
  intro rvc' a' i' fetched'
  cases fetched.symm.trans fetched'
  have still := none.still _ decoded
  exact exec_still P (needed none rvc a i fetched) (tables.2 rvc a i fetched) r ran
    ⟨still.state, still.memory⟩

/-- A machine whose `mstatus.FS` is Initial, about to decode `fmv.d.x f0, x0`. -/
def initialFsMachine : RiscvArch Unit :=
  RiscvArch.reset [(.misa, 9223372036856090927), (.mstatus, 0xa00002000), (.priv, 3)]
    (imageOf [0xf2000053])

/-- Decoding the move makes `mstatus.FS` Dirty. -/
theorem not_noEffect_initialFsMachine :
    ¬ NoEffect (ramOnly 4096) initialFsMachine 0x80000000 0x80000000 .zero := by
  rintro ⟨still, -⟩
  obtain ⟨r, decoded, fs⟩ := exists_ok_of_toOption
    (show (initialFsMachine.decode (ramOnly 4096) 0x80000000 0x80000000 .zero).toOption.map
      (fun r => r.1.state.get .mstatus) = some 0xa00006000 by decide +kernel)
  rw [(still r decoded).state] at fs
  exact absurd fs (by decide)

end CPUDelaySim.Riscv
