import CPUDelaySim.Riscv.Run

/-!
# The physical accesses of a call

Five callers reach `Memory::paddrRead` and `paddrWrite`: the fetch of `decode`, the
loads, the page walk, and the two stores of `updateEnv`.  The definitions below follow
a function from access to access: every implicit access it performs, of an instruction
or of a page-table entry, has the property `W`, and every explicit one the property `A`.

Nothing checks an address before it is used, so a call indexes the `ram` array inside its
bounds exactly when all its accesses are mapped.
-/

namespace CPUDelaySim.Riscv

variable {δ : Type}

open RiscvArch

/-! ### Every access has a property -/

section Accesses

variable (P : Platform δ) (W A : RiscvArch δ → Word → Nat → Prop)

/-- `p_pte`, the address of an entry. -/
def pteAddr (vaddr : Word) (level : Nat) (paddr : Word) : Word := paddr + vpni vaddr level * 8

/-- The reads of the walk from `level` down. -/
def WalkAll (vaddr : Word) : Nat → Word → RiscvArch δ → Prop
  | 0, paddr, arch => W arch (pteAddr vaddr 0 paddr) 8
  | level + 1, paddr, arch =>
      W arch (pteAddr vaddr (level + 1) paddr) 8 ∧
        ∀ paddr' arch', walkTurn P vaddr (level + 1) paddr arch = .ok (.next paddr' arch') →
          WalkAll vaddr level paddr' arch'

/-- The reads of `translateAddr`. -/
def TranslateAll (arch : RiscvArch δ) (vaddr : Word) (type : FetchType) : Prop :=
  arch.mmuOn type = true →
    WalkAll P W vaddr 2 (pgBase (arch.state.get .satp &&& 0xfffffffffff)) arch

/-- The reads of `ld_*`. -/
def LdAll (width : Width) (arch : RiscvArch δ) (va : Word) : Prop :=
  width.misaligned va = false →
    TranslateAll P W arch va .lfetch ∧
      ∀ ha exception arch', arch.translateAddr P va .lfetch excNone = .ok (ha, exception, arch') →
        exceptionValid exception = false → A arch' ha width.bytes

/-- The reads of `st_*`. -/
def StAll (width : Width) (arch : RiscvArch δ) (va : Word) : Prop :=
  width.misaligned va = false → TranslateAll P W arch va .sfetch

/-- The reads of the comparison in `trans_sc_*`. -/
def ScFailsAll (width : Width) (arch : RiscvArch δ) (va : Word) : Prop :=
  va = arch.state.get .loadRes → LdAll P W A width arch va

/-- The reads of a body. -/
def BodyAll (b : Body) (ctx : Ctx δ) : Prop :=
  let s := ctx.arch.state
  match b with
  | .load _ addr width _ | .lr _ addr width => LdAll P W A width ctx.arch (addr s)
  | .store addr width _ | .fstore addr width _ => StAll P W width ctx.arch (addr s)
  | .fload _ addr width _ =>
      s.fpEnabled = true →
        LdAll P W A width { ctx.arch with state := s.dirtyFs } (addr s.dirtyFs)
  | .amo _ addr width _ _ =>
      LdAll P W A width ctx.arch (addr s) ∧
        ∀ r, ld P width (ctx.setExcData (addr s)) (addr s) = .ok r →
          StAll P W width r.2.arch (addr s)
  | .sc _ addr width _ =>
      ScFailsAll P W A width ctx.arch (addr s) ∧
        ∀ c, scFails P width (ctx.setExcData (addr s)) (addr s) = .ok (false, c) →
          StAll P W width c.arch (addr s)
  | _ => True

/-- The reads of `decode`. -/
def DecodeAll (arch : RiscvArch δ) (vaddr paddr : Word) (slot : DecodeInfo) : Prop :=
  W arch paddr 4 ∧
    ∀ rvc a i, arch.fetch P paddr slot = .ok (rvc, a, i) →
      BodyAll P W A (selected i.inst rvc) (bodyCtx a vaddr paddr i)

/-- The reads of a commit and its store; a store wider than its operand is not
performed. -/
def CommitMemoryAll (arch : RiscvArch δ) (info : DecodeInfo) : Prop :=
  match info.type with
  | .amo | .store =>
      info.dst2.idx.toNat ≤ 8 → A arch info.dst2.data info.dst2.idx.toNat
  | .sc =>
      info.dst0.data = 0 →
        TranslateAll P W arch info.excData .sfetch ∧
          ∀ ha exception arch',
            arch.translateAddr P info.excData .sfetch excNone = .ok (ha, exception, arch') →
            info.dst2.idx.toNat ≤ 8 → A arch' ha info.dst2.idx.toNat
  | _ => True

/-- The accesses of `updateEnv`: only a commit makes any. -/
def UpdateAll (arch : RiscvArch δ) (info : DecodeInfo) : Prop :=
  info.exception = excNone → ∀ s, commitDsts arch.state info = .ok s →
    CommitMemoryAll P W A { arch with state := s } info

/-- The accesses of a call. -/
def Machine.CallAll (m : Machine δ) : Call δ → Prop
  | .decode vaddr paddr slot => DecodeAll P W A m.arch vaddr paddr slot
  | .translateAddr vaddr type => TranslateAll P W m.arch vaddr type
  | .updateEnv => ∀ info, m.info = some info → UpdateAll P W A m.arch info
  | .handleException _ _ _ | .environment _ _ _ _ => True

end Accesses

/-! ### A call overruns the array when an access is not mapped -/

/-- A device claims the access, or it lies wholly in RAM. -/
abbrev InMap (P : Platform δ) (_ : RiscvArch δ) (paddr : Word) (n : Nat) : Prop :=
  Memory.Mapped P.map paddr n

/-- A read of the RAM stays inside if all of its bytes do; the device ranges take the access by
its first byte. -/
theorem paddrRead_avoids_iff (P : Platform δ) (arch : RiscvArch δ) (paddr : Word) (n : Nat)
    (buf : Word) :
    Avoids .ramOverrun (arch.paddrRead P paddr n buf) ↔ InMap P arch paddr n := by
  simp only [paddrRead, avoids_bind, avoids_pure]
  rcases Memory.paddrRead_cases P.map arch.memory paddr n buf with
    ⟨mapped, r, h⟩ | ⟨unmapped, h⟩
  · rw [h]
    exact iff_of_true ⟨avoids_ok _ _, fun _ _ => trivial⟩ mapped
  · rw [h]
    exact iff_of_false (fun avoided => (avoids_error _ _).1 avoided.1 rfl) unmapped

/-- So does a write. -/
theorem paddrWrite_avoids_iff (P : Platform δ) (arch : RiscvArch δ) (paddr : Word) (n : Nat)
    (data : Word) :
    Avoids .ramOverrun (arch.paddrWrite P paddr n data) ↔ InMap P arch paddr n := by
  simp only [paddrWrite, avoids_bind, avoids_pure]
  rcases Memory.paddrWrite_cases P.map arch.memory paddr n data with
    ⟨mapped, r, h⟩ | ⟨unmapped, h⟩
  · rw [h]
    exact iff_of_true ⟨avoids_ok _ _, fun _ _ => trivial⟩ mapped
  · rw [h]
    exact iff_of_false (fun avoided => (avoids_error _ _).1 avoided.1 rfl) unmapped

/-- One level of a walk reads one entry of eight bytes. -/
theorem walkTurn_avoids_iff (P : Platform δ) (vaddr : Word) (level : Nat) (paddr : Word)
    (arch : RiscvArch δ) :
    Avoids .ramOverrun (walkTurn P vaddr level paddr arch) ↔
      InMap P arch (pteAddr vaddr level paddr) 8 := by
  simp only [walkTurn, avoids_bind]
  rw [paddrRead_avoids_iff]
  refine and_iff_left ?_
  rintro ⟨val, plain, a⟩ _
  cases plain with
  | false => exact avoids_pure _ _
  | true => cases classify ⟨val⟩ <;> exact avoids_pure _ _

/-- A walk stays inside if each of its reads does, in the state in which it is made. -/
theorem walk_avoids_iff (P : Platform δ) (vaddr : Word) (level : Nat) (paddr : Word)
    (arch : RiscvArch δ) :
    Avoids .ramOverrun (walk P vaddr level paddr arch) ↔
      WalkAll P (InMap P) vaddr level paddr arch := by
  induction level generalizing paddr arch with
  | zero =>
      rw [walk, avoids_bind, walkTurn_avoids_iff]
      refine and_iff_left ?_
      intro turn _
      cases turn <;> exact avoids_pure _ _
  | succ level ih =>
      rw [walk, avoids_bind, walkTurn_avoids_iff, WalkAll]
      refine and_congr_right fun _ => ?_
      constructor
      · intro h paddr' arch' turned
        exact (ih paddr' arch').1 (h _ turned)
      · intro h turn turned
        cases turn with
        | done r => exact avoids_pure _ _
        | next paddr' arch' => exact (ih paddr' arch').2 (h paddr' arch' turned)

/-- So does a translation. -/
theorem translateAddr_avoids_iff (P : Platform δ) (arch : RiscvArch δ) (vaddr : Word)
    (type : FetchType) (exception : Word) :
    Avoids .ramOverrun (arch.translateAddr P vaddr type exception) ↔
      TranslateAll P (InMap P) arch vaddr type := by
  unfold translateAddr TranslateAll
  cases on : arch.mmuOn type with
  | false => simp
  | true =>
      simp only [Bool.not_true, Bool.false_eq_true, if_false, avoids_bind, true_imp_iff]
      rw [walk_avoids_iff]
      refine and_iff_left ?_
      intro r _
      cases r.leaf with
      | none => exact avoids_pure _ _
      | some leaf =>
          dsimp only
          split_ifs <;> exact avoids_pure _ _

/-- A load walks first, and then reads at the address it has found. -/
theorem ld_avoids_iff (P : Platform δ) (width : Width) (ctx : Ctx δ) (va : Word) :
    Avoids .ramOverrun (ld P width ctx va) ↔ LdAll P (InMap P) (InMap P) width ctx.arch va := by
  unfold ld LdAll
  cases width.misaligned va with
  | true => simp
  | false =>
      simp only [Bool.false_eq_true, if_false, avoids_bind, true_imp_iff]
      rw [translateAddr_avoids_iff]
      refine and_congr_right fun _ => ?_
      constructor
      · intro h ha exception arch' translated valid
        have := h _ translated
        simp only [valid, Bool.false_eq_true, if_false, avoids_bind, avoids_pure] at this
        exact (paddrRead_avoids_iff P arch' ha width.bytes P.junk).1 this.1
      · rintro h ⟨ha, exception, arch'⟩ translated
        dsimp only
        cases valid : exceptionValid exception with
        | true => exact avoids_pure _ _
        | false =>
            simp only [Bool.false_eq_true, if_false, avoids_bind, avoids_pure]
            exact ⟨(paddrRead_avoids_iff P arch' ha width.bytes P.junk).2
              (h ha exception arch' translated valid), fun _ _ => trivial⟩

/-- A store walks only; what it stores is for `updateEnv`. -/
theorem st_avoids_iff (P : Platform δ) (width : Width) (ctx : Ctx δ) (va : Word) :
    Avoids .ramOverrun (st P width ctx va) ↔ StAll P (InMap P) width ctx.arch va := by
  unfold st StAll
  cases width.misaligned va with
  | true => simp
  | false =>
      simp only [Bool.false_eq_true, if_false, avoids_bind, true_imp_iff]
      rw [translateAddr_avoids_iff]
      refine and_iff_left ?_
      rintro ⟨ha, exception, arch'⟩ _
      dsimp only
      split_ifs <;> exact avoids_pure _ _

/-- The comparison of a store-conditional loads only if the reservation is for its address. -/
theorem scFails_avoids_iff (P : Platform δ) (width : Width) (ctx : Ctx δ) (va : Word) :
    Avoids .ramOverrun (scFails P width ctx va) ↔
      ScFailsAll P (InMap P) (InMap P) width ctx.arch va := by
  unfold scFails ScFailsAll
  by_cases reserved : va = ctx.arch.state.get .loadRes
  · rw [if_neg (by simpa using reserved), avoids_bind, ld_avoids_iff]
    simp [reserved]
  · rw [if_pos reserved]
    exact iff_of_true (avoids_ok _ _) fun h => absurd h reserved

/-- Only a store-conditional that succeeds walks for its store. -/
theorem scResult_avoids_iff (P : Platform δ) (rd : BitVec 5) (width : Width) (fail : Bool)
    (va src : Word) (ctx : Ctx δ) :
    Avoids .ramOverrun (scResult P rd width fail va src ctx) ↔
      (fail = false → StAll P (InMap P) width ctx.arch va) := by
  unfold scResult
  cases fail with
  | true => simp
  | false =>
      rw [if_neg (by simp), avoids_bind, st_avoids_iff]
      simp

/-! The CSR and floating-point bodies make no access. -/

/-- A CSR is not in memory. -/
theorem csrWrite_avoids (ops : CsrOps) (val : Word) (ctx : Ctx δ) :
    Avoids .ramOverrun (csrWrite ops val ctx) := by
  unfold csrWrite
  split
  · simp
  · exact avoids_ok _ _
  · split <;> exact avoids_ok _ _
  · split <;> exact avoids_ok _ _
  · exact avoids_ok _ _
  · exact avoids_ok _ _
  · simp

/-- Nor is it when it is read. -/
theorem csrRead_avoids (ops : CsrOps) (ctx : Ctx δ) :
    Avoids .ramOverrun (csrRead ops ctx) := by
  unfold csrRead
  split
  · simp
  · exact avoids_ok _ _
  · split <;> exact avoids_ok _ _
  · exact avoids_ok _ _

/-- So that no access to a CSR leaves the RAM. -/
theorem riscvCsrrw_avoids (P : Platform δ) (ops : CsrOps) (newValue writeMask : Word)
    (ctx : Ctx δ) : Avoids .ramOverrun (riscvCsrrw P ops newValue writeMask ctx) := by
  unfold riscvCsrrw
  split
  · exact avoids_ok _ _
  · rw [avoids_bind]
    refine ⟨csrRead_avoids ops ctx, ?_⟩
    rintro ⟨old, c⟩ _
    cases old with
    | none => exact avoids_pure _ _
    | some old =>
        dsimp only
        split
        · exact avoids_pure _ _
        · rw [avoids_bind]
          exact ⟨csrWrite_avoids ops _ c, fun _ _ => avoids_pure _ _⟩

/-- Nor does a CSR instruction. -/
theorem doCsr_avoids (P : Platform δ) (rd : BitVec 5) (csrno : BitVec 12)
    (access : CsrAccess) (ctx : Ctx δ) :
    Avoids .ramOverrun (doCsr P rd csrno access ctx) := by
  unfold doCsr
  dsimp only
  split
  · exact avoids_ok _ _
  · rw [avoids_bind]
    exact ⟨riscvCsrrw_avoids P _ _ _ ctx, fun _ _ => avoids_pure _ _⟩

/-- The unit accesses no memory. -/
theorem fpCalc_avoids (P : Platform δ) (s : ArchState) (c : FpCalc) :
    Avoids .ramOverrun (c.run P s) := by
  cases c with
  | move value => exact avoids_ok _ _
  | call op args box =>
      simp only [FpCalc.run]
      split
      · exact avoids_ok _ _
      · simp

/-- A body overruns the array exactly when one of its reads is not mapped. -/
theorem exec_avoids_iff (P : Platform δ) (b : Body) (ctx : Ctx δ) :
    Avoids .ramOverrun (b.exec P ctx) ↔ BodyAll P (InMap P) (InMap P) b ctx := by
  cases b with
  | notImplemented => exact iff_of_true (by simp [Body.exec]) trivial
  | compute rd value type =>
      refine iff_of_true ?_ trivial
      simp only [Body.exec]
      split
      · simp
      · exact avoids_ok _ _
  | jalr rd rs1 imm =>
      refine iff_of_true ?_ trivial
      simp only [Body.exec]
      split <;> exact avoids_ok _ _
  | load rd addr width ext | lr rd addr width =>
      simp only [Body.exec, avoids_bind, avoids_pure, returns_true, and_true, ld_avoids_iff]
      rfl
  | store addr width data | fstore addr width data =>
      simp only [Body.exec, avoids_bind, avoids_pure, returns_true, and_true, st_avoids_iff]
      rfl
  | fload rd addr width box =>
      simp only [Body.exec, requireFpu, BodyAll]
      cases ctx.arch.state.fpEnabled with
      | false => simp
      | true =>
          simp only [Bool.not_true, Bool.false_eq_true, if_false, avoids_bind, avoids_pure,
            returns_true, and_true, ld_avoids_iff, true_imp_iff]
          rfl
  | amo rd addr width data op =>
      simp only [Body.exec, avoids_bind, avoids_pure, returns_true, and_true, ld_avoids_iff,
        st_avoids_iff]
      rfl
  | sc rd addr width src =>
      simp only [Body.exec, avoids_bind, avoids_pure, returns_true, and_true,
        scFails_avoids_iff, scResult_avoids_iff]
      -- The store is translated only after a comparison that has not failed.
      refine and_congr_right fun _ => ?_
      constructor
      · intro h c compared
        exact h (false, c) compared rfl
      · rintro h ⟨fail, c⟩ compared rfl
        exact h c compared
  | csr rd csrno access =>
      refine iff_of_true ?_ trivial
      simp only [Body.exec, avoids_bind, avoids_pure, returns_true, and_true]
      exact doCsr_avoids P rd csrno access ctx
  | fp dst rm c type =>
      refine iff_of_true ?_ trivial
      simp only [Body.exec, requireFpu]
      split
      · exact avoids_ok _ _
      · rw [avoids_bind]
        exact ⟨fpCalc_avoids P _ c, fun _ _ => avoids_pure _ _⟩
  | sret | mret =>
      refine iff_of_true ?_ trivial
      simp only [Body.exec]
      split <;> exact avoids_ok _ _
  | unsupported | cond | jal | simple | sfence | ebreak | ecall =>
      exact iff_of_true (avoids_ok _ _) trivial

/-- A fetch reads four bytes, also of a compressed instruction. -/
theorem fetch_avoids_iff (P : Platform δ) (arch : RiscvArch δ) (paddr : Word)
    (info : DecodeInfo) :
    Avoids .ramOverrun (arch.fetch P paddr info) ↔ InMap P arch paddr 4 := by
  simp only [fetch, avoids_bind, avoids_pure, returns_true, and_true, paddrRead_avoids_iff]

/-- A decoding fetches, and then does what the body does in the state after the fetch. -/
theorem decode_avoids_iff (P : Platform δ) (arch : RiscvArch δ) (vaddr paddr : Word)
    (slot : DecodeInfo) :
    Avoids .ramOverrun (arch.decode P vaddr paddr slot) ↔
      DecodeAll P (InMap P) (InMap P) arch vaddr paddr slot := by
  simp only [decode_eq, avoids_bind, avoids_pure, returns_true, and_true, fetch_avoids_iff,
    exec_avoids_iff, DecodeAll]
  refine and_congr_right fun _ => ?_
  constructor
  · intro h rvc a i fetched
    exact h (rvc, a, i) fetched
  · rintro h ⟨rvc, a, i⟩ fetched
    exact h rvc a i fetched

/-- The store of a memory operand writes its size, if it has room in the record. -/
theorem storeOperand_avoids_iff (P : Platform δ) (arch : RiscvArch δ) (paddr : Word)
    (size : BitVec 16) (data : Word) :
    Avoids .ramOverrun (storeOperand P arch paddr size data) ↔
      (size.toNat ≤ 8 → InMap P arch paddr size.toNat) := by
  unfold storeOperand
  split
  · rename_i wide
    exact iff_of_true (by simp) fun narrow => absurd narrow (by omega)
  · rename_i narrow
    rw [paddrWrite_avoids_iff, forall_prop_of_true (by omega)]

/-- The memory operands of a record, each in the state that the one before leaves. -/
theorem commitMemory_avoids_iff (P : Platform δ) (arch : RiscvArch δ) (info : DecodeInfo) :
    Avoids .ramOverrun (commitMemory P arch info) ↔
      CommitMemoryAll P (InMap P) (InMap P) arch info := by
  unfold commitMemory CommitMemoryAll
  cases info.type with
  | amo | store => exact storeOperand_avoids_iff P arch _ _ _
  | sc =>
      dsimp only
      by_cases succeeded : info.dst0.data = 0
      · simp only [if_pos succeeded, avoids_bind, translateAddr_avoids_iff,
          storeOperand_avoids_iff, forall_prop_of_true succeeded]
        refine and_congr_right fun _ => ?_
        constructor
        · intro h ha exception arch' translated
          exact h (ha, exception, arch') translated
        · rintro h ⟨ha, exception, arch'⟩ translated
          exact h ha exception arch' translated
      · rw [if_neg succeeded]
        exact iff_of_true (avoids_ok _ _) fun h => absurd h succeeded
  | _ => exact iff_of_true (avoids_ok _ _) trivial

/-- A commit writes the registers first, which no abort outside RAM can come from. -/
theorem commit_avoids_iff (P : Platform δ) (arch : RiscvArch δ) (info : DecodeInfo) :
    Avoids .ramOverrun (arch.commit P info) ↔
      ∀ s, commitDsts arch.state info = .ok s →
        CommitMemoryAll P (InMap P) (InMap P) { arch with state := s } info := by
  have stored : Avoids .ramOverrun (commitDsts arch.state info) := by
    simp only [commitDsts, avoids_bind]
    exact ⟨commitDst_avoids (by decide) _ _, fun _ _ =>
      ⟨commitDst_avoids (by decide) _ _, fun _ _ => commitDst_avoids (by decide) _ _⟩⟩
  simp only [commit, avoids_bind, avoids_pure, returns_true, and_true,
    commitMemory_avoids_iff, stored, true_and]
  rfl

/-- Only a record without an exception accesses memory in `updateEnv`. -/
theorem updateEnv_avoids_iff (P : Platform δ) (arch : RiscvArch δ) (info : DecodeInfo) :
    Avoids .ramOverrun (arch.updateEnv P info) ↔ UpdateAll P (InMap P) (InMap P) arch info := by
  unfold UpdateAll
  rcases updateEnv_cases P arch info with
    ⟨code, tval, h⟩ | ⟨code, h⟩ | ⟨code, h⟩ | ⟨code, h⟩ | ⟨unhandled, h⟩
  · rw [h]
    exact iff_of_true (avoids_ok _ _) fun none => absurd none code
  · rw [h]
    exact iff_of_true (avoids_ok _ _) fun none => absurd (code.symm.trans none) (by decide)
  · rw [h]
    exact iff_of_true (avoids_ok _ _) fun none => absurd (code.symm.trans none) (by decide)
  · rw [h, commit_avoids_iff, forall_prop_of_true code]
  · rw [h]
    refine iff_of_true (by simp) fun none => absurd ?_ unhandled
    rw [none]
    decide

/-- A call leaves the RAM in none of its accesses exactly if each of them is inside it or is a
device's. -/
theorem Machine.step_avoids_iff (P : Platform δ) (m : Machine δ) (c : Call δ) :
    Avoids .ramOverrun (m.step P c) ↔ m.CallAll P (InMap P) (InMap P) c := by
  cases c with
  | decode vaddr paddr slot =>
      simp only [step, avoids_bind, avoids_pure, returns_true, and_true, decode_avoids_iff]
      rfl
  | handleException exception paddr slot =>
      refine iff_of_true ?_ trivial
      simp only [step]
      split <;> exact avoids_ok _ _
  | translateAddr vaddr type =>
      simp only [step, avoids_bind, avoids_pure, returns_true, and_true,
        translateAddr_avoids_iff]
      rfl
  | updateEnv =>
      simp only [step, CallAll]
      cases m.info with
      | none => simp
      | some info =>
          simp only [avoids_bind, avoids_pure, returns_true, and_true, updateEnv_avoids_iff,
            Option.some.injEq, forall_eq']
  | environment => exact iff_of_true (avoids_ok _ _) trivial

/-- `lw t0, 0(x0)`, with RAM from 0x80000000 and no device. -/
def lowLoadProgram : Machine Unit := Machine.reset archCfg (imageOf [0x00002283])

/-- The load indexes `ram - 0x80000000`. -/
theorem lowLoadProgram_overruns :
    ¬ Avoids .ramOverrun
      (runSteps (Machine.step (ramOnly 4096)) lowLoadProgram (Machine.execAt 0x80000000)) := by
  decide +kernel

end CPUDelaySim.Riscv
