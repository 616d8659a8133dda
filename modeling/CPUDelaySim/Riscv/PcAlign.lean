import CPUDelaySim.Riscv.Run

/-!
# Alignment of the pc

Every pc that `updateEnv` returns is the next one a processor model fetches from.  Branch
and jump offsets, trap vectors and instruction lengths are even; `trans_jalr` and the two
returns take their target as it is, from a register or from a CSR that software writes with
all its bits.  `pcEven_iff` says that nothing else makes a pc odd, a rejected word that is
left with an old jump's record apart.

`EvenRows` goes through the decoding tables once, so that no instruction is looked at by itself.
`RecordAligned` travels with the record from the call that fills it to the `updateEnv` that
commits it, and `Driver` pairs the machine with the pc its model is at, as a record is filled for
one pc and used at the next call.
-/

namespace CPUDelaySim.Riscv

variable {δ : Type}

open RiscvArch

/-- Bit 0 is clear. -/
abbrev IsEven {n : Nat} (w : BitVec n) : Prop := w.getLsbD 0 = false

/-- A word is even as a number. -/
theorem isEven_iff {n : Nat} (w : BitVec n) : IsEven w ↔ w.toNat % 2 = 0 := by
  rw [IsEven, BitVec.getLsbD, Nat.testBit_zero]
  simp

/-- The sum of even words is even. -/
theorem isEven_add {v w : Word} (even : IsEven v) (even' : IsEven w) : IsEven (v + w) := by
  rw [isEven_iff] at even even' ⊢
  rw [BitVec.toNat_add]
  omega

/-! ### Offsets -/

/-- The offset of a branch or a direct jump is even. -/
def Body.EvenOffset : Body → Prop
  | .cond _ imm | .jal _ imm => IsEven imm
  | _ => True

/-- An offset that ends in a zero bit, at its width or extended. -/
theorem isEven_append {n : Nat} (w : BitVec n) :
    IsEven ((w ++ 0#1).signExtend 64) := by
  have low : (w ++ 0#1).getLsbD 0 = false := by
    rw [BitVec.getLsbD_append]
    rfl
  rw [IsEven, BitVec.getLsbD_signExtend, if_pos (Nat.succ_pos n), low, Bool.and_false]

/-- The bodies of a table have even offsets. -/
def EvenRows (rows : List Row) : Prop := ∀ r ∈ rows, ∀ i, (r.body i).EvenOffset

/-- No row, no odd offset. -/
theorem evenRows_nil : EvenRows [] := fun _ listed => nomatch listed

/-- A table is checked row by row. -/
theorem evenRows_cons {r : Row} {rows : List Row} (first : ∀ i, (r.body i).EvenOffset)
    (rest : EvenRows rows) : EvenRows (r :: rows) :=
  List.forall_mem_cons.2 ⟨first, rest⟩

/-- Two tables in a row. -/
theorem evenRows_append {rows rows' : List Row} (first : EvenRows rows)
    (rest : EvenRows rows') : EvenRows (rows ++ rows') :=
  List.forall_mem_append.2 ⟨first, rest⟩

/-- The rows that stop the simulator have no offset. -/
theorem evenRows_exits (rows : List (BitVec 32 × BitVec 32)) : EvenRows (exits rows) := by
  intro r listed i
  obtain ⟨_, -, rfl⟩ := List.mem_map.1 listed
  trivial

/-- A table that depends on a bit of the word. -/
theorem evenRows_ite {c : Prop} [Decidable c] {rows rows' : List Row} (here : EvenRows rows)
    (rest : EvenRows rows') : EvenRows (if c then rows else rows') := by
  split
  · exact here
  · exact rest

/-- The decoder of the compressed instructions builds even offsets only. -/
theorem rows16_even : EvenRows rows16 := by
  unfold rows16
  repeat' first
    | exact evenRows_exits _
    | refine evenRows_append ?_ ?_
    | exact evenRows_nil
    | refine evenRows_cons (fun _ => ?_) ?_
    | trivial
    | exact isEven_append _

/-- The decoder of the full instructions builds even offsets only. -/
theorem rows32_even (insn : BitVec 32) : EvenRows (rows32 insn) := by
  unfold rows32
  dsimp only
  repeat' refine evenRows_ite ?_ ?_
  all_goals repeat' first
    | exact evenRows_exits _
    | refine evenRows_append ?_ ?_
    | exact evenRows_nil
    | refine evenRows_cons (fun _ => ?_) ?_
    | trivial
    | exact isEven_append _

/-- Whatever word is decoded, its offset is even. -/
theorem selected_evenOffset (insn : BitVec 32) (rvc : Bool) : (selected insn rvc).EvenOffset := by
  have tried : ∀ b ∈ candidates insn rvc, b.EvenOffset := by
    intro b listed
    unfold candidates at listed
    split at listed
    · obtain ⟨r, row, here⟩ := List.mem_filterMap.1 listed
      split at here
      · cases here
        exact rows16_even r row insn
      · cases here
    · obtain ⟨r, row, here⟩ := List.mem_filterMap.1 listed
      split at here
      · cases here
        exact rows32_even insn r row insn
      · cases here
  unfold selected
  cases found : (candidates insn rvc).find? Body.accepts with
  | none => trivial
  | some b => exact tried b (List.mem_of_find?_eq_some found)

/-! ### What a body leaves for the next pc -/

/-- `updateEnv` goes to `dst_data[2]`. -/
def Taken (info : DecodeInfo) : Prop :=
  match info.type with
  | .direct | .indirect | .indCall | .indPush | .push | .pop | .popPush => True
  | .cond => info.dst1.data ≠ 0
  | _ => False

/-- The body that `decode` selected for the word of a record. -/
def recordBody (info : DecodeInfo) : Body := selected info.inst (info.instSize == 2)

/-- The record that `decode` reports says which body it comes from. -/
theorem recordBody_report {b : Body} {c c' : Ctx δ} {rvc : Bool} (spec : BodySpec b c c')
    (size : c.info.instSize = if rvc then 2 else 4) :
    recordBody (report c') = selected c.info.inst rvc := by
  rw [recordBody, report_eq]
  change selected c'.info.inst (c'.info.instSize == 2) = _
  rw [spec.instSize, size, spec.inst]
  cases rvc <;> rfl

/-- The bodies whose target is not an offset from pc: `jalr` takes it from a register, and a
rejected word leaves the type and the data of the record as they were. -/
def Body.FreeTarget : Body → Prop
  | .jalr _ _ _ | .unsupported => True
  | _ => False

/-- What a body that raised nothing leaves. -/
structure TargetSpec (b : Body) (c : Ctx δ) : Prop where
  target : b.FreeTarget ∨ (Taken c.info → IsEven c.info.dst2.data)
  jalr : ∀ rd rs1 imm, b = .jalr rd rs1 imm →
    c.info.dst2.data = c.arch.state.gpr rs1 + imm
  settles : b.FreeTarget → c.info.dst1.mask = 0#64 ∧ c.info.dst2.mask = 0#64 ∧
    (c.info.dst0.mask = 0#64 ∨ ∃ i v, c.info.dst0 = Dst.full (.gpr i) v)

/-- The other bodies leave a type that goes on to the next instruction. -/
theorem targetSpec_plain {b : Body} (bound : ¬ b.FreeTarget) {c : Ctx δ}
    (plain : ¬ Taken c.info) : TargetSpec b c where
  target := .inr fun taken => absurd taken plain
  jalr rd rs1 imm same := by
    subst same
    exact absurd trivial bound
  settles free := absurd free bound

/-- A plain instruction goes on behind itself. -/
theorem not_taken_plain (ctx : Ctx δ) (type : PlainType) :
    ¬ Taken (ctx.setType type.instType).info := by
  cases type <;> exact id

/-- A body that jumps leaves an even target in its record, JALR excepted: its target is the sum
of a register and the offset. -/
theorem exec_targetSpec (P : Platform δ) (b : Body) (offset : b.EvenOffset) (ctx : Ctx δ)
    (fresh : Fresh ctx.info) (pc : IsEven ctx.arch.pc) :
    Returns (b.exec P ctx) fun r => r.2.info.exception = excNone → TargetSpec b r.2 := by
  have raised (c : Ctx δ) (code : Word) (valid : code ≠ excNone) :
      (c.raise code).info.exception = excNone → TargetSpec b (c.raise code) :=
    fun silent => absurd silent valid
  cases b with
  | notImplemented => exact returns_error _ _
  | unsupported =>
      exact (returns_ok _ _).2 fun _ =>
        ⟨.inl trivial, by rintro _ _ _ ⟨⟩, fun _ => ⟨fresh.mask1, fresh.mask2, .inl fresh.mask0⟩⟩
  | compute rd value type =>
      simp only [Body.exec]
      split
      · exact returns_error _ _
      · exact (returns_ok _ _).2 fun _ => targetSpec_plain id (not_taken_plain _ type)
  | cond taken imm =>
      exact (returns_ok _ _).2 fun _ =>
        ⟨.inr fun _ => isEven_add pc offset, by rintro _ _ _ ⟨⟩, False.elim⟩
  | jal rd imm =>
      exact (returns_ok _ _).2 fun _ =>
        ⟨.inr fun _ => isEven_add pc offset, by rintro _ _ _ ⟨⟩, False.elim⟩
  | jalr rd rs1 imm =>
      -- The target of JALR is a register plus an offset, so its parity is left open.
      simp only [Body.exec]
      split
      all_goals
        refine (returns_ok _ _).2 fun _ => ⟨.inl trivial, ?_, fun _ => ⟨fresh.mask1, fresh.mask2,
          .inr ⟨rd, _, rfl⟩⟩⟩
        rintro _ _ _ ⟨⟩
        rfl
  | load | store | lr | fstore | csr =>
      simp only [Body.exec, returns_bind, returns_pure]
      intro c _ _
      exact targetSpec_plain id id
  | amo | sc =>
      simp only [Body.exec, returns_bind, returns_pure]
      intro c _ c' _ _
      exact targetSpec_plain id id
  | fload rd addr width box =>
      simp only [Body.exec]
      rw [requireFpu_returns]
      refine ⟨fun _ => raised ctx excII (by decide), fun _ => ?_⟩
      simp only [returns_bind, returns_pure]
      intro c _ _
      exact targetSpec_plain id id
  | fp dst rm c type =>
      simp only [Body.exec]
      rw [requireFpu_returns]
      refine ⟨fun _ => raised ctx excII (by decide), fun _ => ?_⟩
      simp only [returns_bind, returns_pure]
      intro c _ _
      exact targetSpec_plain id (not_taken_plain _ type)
  | simple type =>
      exact (returns_ok _ _).2 fun _ => targetSpec_plain id (not_taken_plain _ type)
  | sret | mret =>
      simp only [Body.exec]
      split <;> exact (returns_ok _ _).2 fun _ => targetSpec_plain id id
  | sfence | ebreak | ecall => exact (returns_ok _ _).2 fun _ => targetSpec_plain id id

/-! ### Records -/

/-- A record, in the machine that filled it: the pc it is for is even, and unless it traps,
so is what the next pc is computed from. -/
structure RecordAligned (arch : RiscvArch δ) (info : DecodeInfo) : Prop where
  pc : IsEven arch.pc
  plain : info.exception = excNone →
    IsEven info.instSize ∧ TargetSpec (recordBody info) ⟨arch, info⟩

/-- A record stays aligned as long as the pc and the registers do not move. -/
theorem RecordAligned.with_arch {arch arch' : RiscvArch δ} {info : DecodeInfo}
    (aligned : RecordAligned arch info) (pc : arch'.pc = arch.pc)
    (gpr : ∀ i, arch'.state.gpr i = arch.state.gpr i) : RecordAligned arch' info where
  pc := by rw [pc]; exact aligned.pc
  plain silent := by
    obtain ⟨size, target, jalr, settles⟩ := aligned.plain silent
    refine ⟨size, target, ?_, settles⟩
    intro rd rs1 imm same
    rw [jalr rd rs1 imm same]
    exact congrArg (· + imm) (gpr rs1).symm

/-- What `decode` leaves for an even pc. -/
theorem decode_recordAligned (P : Platform δ) (arch : RiscvArch δ) {vaddr : Word}
    (even : IsEven vaddr) (paddr : Word) (slot : DecodeInfo) :
    Returns (arch.decode P vaddr paddr slot) fun r => RecordAligned r.1 r.2 := by
  rw [decode_returns]
  refine (fetch_instSize P arch paddr slot).mono ?_
  rintro ⟨rvc, a, i⟩ size r executed
  have spec := exec_spec P _ _ (fresh_cleared i) r executed
  have targets := exec_targetSpec P _ (selected_evenOffset i.inst rvc) _ (fresh_cleared i) even
    r executed
  refine ⟨?_, fun silent => ?_⟩
  · rw [show r.2.arch.pc = vaddr from spec.frame.pc]
    exact even
  · have left : report r.2 = r.2.info := report_of_silent silent
    rw [left] at silent
    obtain ⟨target, jalr, settles⟩ := targets silent
    have length : r.2.info.instSize = if rvc then 2 else 4 := spec.instSize.trans size
    rw [recordBody_report spec size, left]
    refine ⟨?_, target, jalr, settles⟩
    rw [length]
    cases rvc <;> decide

/-! ### `updateEnv` -/

/-- A jump goes where its record says. -/
theorem nextPc_of_taken {info : DecodeInfo} (taken : Taken info) (pc : Word) :
    nextPc pc info = info.dst2.data := by
  unfold Taken at taken
  unfold nextPc
  cases type : info.type <;> simp only [type] at taken ⊢
  exact if_pos taken

/-- Any other instruction goes on behind itself. -/
theorem nextPc_of_not_taken {info : DecodeInfo} (plain : ¬ Taken info) (pc : Word) :
    nextPc pc info = pc + info.instSize.setWidth 64 := by
  unfold Taken at plain
  unfold nextPc
  cases type : info.type <;> simp only [type, not_true_eq_false] at plain ⊢
  exact if_neg plain

/-- The next pc is even if the target is, and the instruction has an even length. -/
theorem nextPc_even {info : DecodeInfo} {pc : Word} (even : IsEven pc)
    (size : IsEven info.instSize) (target : Taken info → IsEven info.dst2.data) :
    IsEven (nextPc pc info) := by
  by_cases taken : Taken info
  · rw [nextPc_of_taken taken]
    exact target taken
  · rw [nextPc_of_not_taken taken]
    refine isEven_add even ?_
    rw [IsEven, BitVec.getLsbD_setWidth, size, Bool.and_false]

/-- A vector is aligned to four bytes, and so are its entries. -/
theorem vectorAddr_even (irq : Bool) (tvec cause : Word) : IsEven (vectorAddr irq tvec cause) := by
  have base : IsEven (tvec &&& 0xfffffffffffffffc) := by
    rw [IsEven, BitVec.getLsbD_and, show (0xfffffffffffffffc : Word).getLsbD 0 = false from rfl,
      Bool.and_false]
  have entry : IsEven ((cause &&& 0x1f) <<< 2) := by
    rw [IsEven, BitVec.getLsbD_shiftLeft]
    rfl
  unfold vectorAddr
  dsimp only
  split
  · exact isEven_add base entry
  · exact base

/-- A trap vector is even, in both modes. -/
theorem trap_even (arch : RiscvArch δ) (info : DecodeInfo) (tval : Word) :
    IsEven (arch.trap info tval).1 := by
  unfold trap
  split <;> exact vectorAddr_even _ _ _

/-- The store of a memory operand does not move the pc. -/
theorem storeOperand_pc (P : Platform δ) (arch : RiscvArch δ) (paddr : Word) (size : BitVec 16)
    (data : Word) : Returns (storeOperand P arch paddr size data) fun a => a.pc = arch.pc := by
  unfold storeOperand
  split
  · exact returns_error _ _
  · simp only [paddrWrite, returns_bind, returns_pure]
    rintro ⟨memory, irq⟩ _
    cases irq <;> rfl

/-- Neither does the store of all of them. -/
theorem commitMemory_pc (P : Platform δ) (arch : RiscvArch δ) (info : DecodeInfo) :
    Returns (commitMemory P arch info) fun a => a.pc = arch.pc := by
  unfold commitMemory
  split
  · exact storeOperand_pc P arch _ _ _
  · exact storeOperand_pc P arch _ _ _
  · split
    · rw [returns_bind]
      refine (translateAddr_frame P arch _ .sfetch _).mono ?_
      rintro ⟨ha, exception, a⟩ frame
      refine (storeOperand_pc P a ha _ _).mono ?_
      intro a' same
      exact same.trans frame.pc
    · exact (returns_ok _ _).2 rfl
  · exact (returns_ok _ _).2 rfl

/-- A commit returns the next pc of the record. -/
theorem commit_nextPc (P : Platform δ) (arch : RiscvArch δ) (info : DecodeInfo) :
    Returns (arch.commit P info) fun r => r.1 = nextPc arch.pc info := by
  simp only [commit, returns_bind, returns_pure]
  intro s _
  refine (commitMemory_pc P _ info).mono ?_
  intro a same
  exact congrArg (nextPc · info) same

/-- A record that goes to its target commits, if its destinations are a register at most. -/
theorem commit_of_taken (P : Platform δ) (arch : RiscvArch δ) {info : DecodeInfo}
    (taken : Taken info) (mask1 : info.dst1.mask = 0#64) (mask2 : info.dst2.mask = 0#64)
    (dst0 : info.dst0.mask = 0#64 ∨ ∃ i v, info.dst0 = Dst.full (.gpr i) v) :
    ∃ a, arch.commit P info = .ok (info.dst2.data, a) := by
  obtain ⟨s, aimed⟩ : ∃ s, arch.state.commit info.dst0 = .ok s := by
    rcases dst0 with clear | ⟨i, v, full⟩
    · exact ⟨_, ArchState.commit_of_mask_zero _ clear⟩
    · rw [full]
      exact ⟨_, ArchState.commit_idx _ _ _ _⟩
  have committed : commitDsts arch.state info = .ok s := by
    rw [commitDsts, aimed]
    change (s.commit info.dst1 >>= fun s => s.commit info.dst2) = _
    rw [ArchState.commit_of_mask_zero s mask1]
    exact ArchState.commit_of_mask_zero s mask2
  have stored (a : RiscvArch δ) : commitMemory P a info = .ok a := by
    unfold Taken at taken
    unfold commitMemory
    cases type : info.type <;> simp only [type] at taken ⊢
  have ran : arch.commit P info = .ok (nextPc arch.pc info,
      ({ arch with state := s.set (.gpr 0) 0 } : RiscvArch δ).updateMMUState) := by
    rw [commit, committed]
    change (commitMemory P { arch with state := s } info >>= _) = _
    rw [stored]
    rfl
  rw [nextPc_of_taken taken] at ran
  exact ⟨_, ran⟩

/-! ### A processor model -/

/-- The machine, and the pc its processor model is at. -/
structure Driver (δ : Type) where
  machine : Machine δ
  pc : Word

/-- The calls a processor model makes: records are filled for its pc, and `updateEnv` moves
it. -/
inductive DriverCall (δ : Type)
  | decode (paddr : Word) (slot : DecodeInfo)
  | fetchFault (slot : DecodeInfo)
  | translateAddr (vaddr : Word) (type : FetchType)
  | updateEnv
  | environment (dev : δ) (irq : Option Word) (tick instret : Word)

namespace Driver

/-- A processor model after `afterLoad`. -/
def reset (config : List (StateWord × Word)) (memory : Memory δ) : Driver δ :=
  ⟨Machine.reset config memory, startPc⟩

/-- The call of the machine that a call makes, but for `updateEnv`. -/
def call (pc : Word) : DriverCall δ → Call δ
  | .decode paddr slot => .decode pc paddr slot
  | .fetchFault slot => .handleException excIPF pc slot
  | .translateAddr vaddr type => .translateAddr vaddr type
  | .updateEnv => .updateEnv
  | .environment dev irq tick instret => .environment dev irq tick instret

/-- One call.  Every model calls `updateEnv` once for a record it filled, so the record goes
with it. -/
def step (P : Platform δ) (d : Driver δ) (c : DriverCall δ) : Except Abort (Driver δ) :=
  match c with
  | .updateEnv =>
      match d.machine.info with
      | none => .error .nullPointer
      | some info => do
          let (pc, arch) ← d.machine.arch.updateEnv P info
          return ⟨⟨arch, none⟩, pc⟩
  | c => do
      let machine ← d.machine.step P (call d.pc c)
      return { d with machine := machine }

/-- The next `updateEnv` returns to an odd address in a CSR, or commits a jump whose target
is odd: a `jalr` by its register and offset, or a rejected word by what its record held. -/
def OddTarget (d : Driver δ) : Prop :=
  ∃ info, d.machine.info = some info ∧
    ((info.exception = excNone ∧ Taken info ∧
        ((∃ rd rs1 imm, recordBody info = .jalr rd rs1 imm ∧
            ¬ IsEven (d.machine.arch.state.gpr rs1 + imm)) ∨
          recordBody info = .unsupported ∧ ¬ IsEven info.dst2.data)) ∨
      (info.exception = excSRET ∧ ¬ IsEven (d.machine.arch.state.get .sepc)) ∨
      (info.exception = excMRET ∧ ¬ IsEven (d.machine.arch.state.get .mepc)))

/-- The pc and the record in hand are aligned. -/
structure Aligned (d : Driver δ) : Prop where
  pc : IsEven d.pc
  record : ∀ info, d.machine.info = some info → RecordAligned d.machine.arch info

variable {d d' : Driver δ}

/-- The calls before `updateEnv` keep what is aligned. -/
theorem Aligned.call (P : Platform δ) (aligned : d.Aligned) {c : DriverCall δ}
    (other : c ≠ .updateEnv) {m : Machine δ}
    (moved : d.machine.step P (Driver.call d.pc c) = .ok m) :
    ({ d with machine := m } : Driver δ).Aligned := by
  refine ⟨aligned.pc, ?_⟩
  cases c with
  | decode paddr slot =>
      simp only [Driver.call, Machine.step, bind_eq_ok] at moved
      obtain ⟨r, decoded, ends⟩ := moved
      cases ends
      rintro info ⟨⟩
      exact decode_recordAligned P d.machine.arch aligned.pc paddr slot r decoded
  | fetchFault slot =>
      cases moved
      rintro info ⟨⟩
      exact ⟨aligned.pc, fun silent => absurd silent (by decide : excIPF ≠ excNone)⟩
  | translateAddr vaddr type =>
      simp only [Driver.call, Machine.step, bind_eq_ok] at moved
      obtain ⟨r, translated, ends⟩ := moved
      cases ends
      have frame := translateAddr_frame P d.machine.arch vaddr type excNone r translated
      intro info record
      exact (aligned.record info record).with_arch frame.pc fun i => frame.get (by simp)
  | updateEnv => exact absurd rfl other
  | environment dev irq tick instret =>
      cases moved
      intro info record
      refine (aligned.record info record).with_arch ?_ fun i => irqListener_get _ irq (by simp)
      cases irq <;> rfl

/-- `updateEnv` returns an even pc, if it is given none that is odd. -/
theorem Aligned.updateEnv (P : Platform δ) (aligned : d.Aligned) (even : ¬ d.OddTarget)
    {info : DecodeInfo} (record : d.machine.info = some info) :
    Returns (d.machine.arch.updateEnv P info) fun r => IsEven r.1 := by
  have start := aligned.record info record
  rcases updateEnv_cases P d.machine.arch info with
    ⟨-, tval, h⟩ | ⟨code, h⟩ | ⟨code, h⟩ | ⟨code, h⟩ | ⟨-, h⟩
  · rw [h]
    exact (returns_ok _ _).2 (trap_even _ _ _)
  · rw [h]
    refine (returns_ok _ _).2 ?_
    by_contra odd
    exact even ⟨info, record, .inr (.inl ⟨code, odd⟩)⟩
  · rw [h]
    refine (returns_ok _ _).2 ?_
    by_contra odd
    exact even ⟨info, record, .inr (.inr ⟨code, odd⟩)⟩
  · rw [h]
    obtain ⟨size, target, jalr, -⟩ := start.plain code
    refine (commit_nextPc P d.machine.arch info).mono ?_
    intro r next
    rw [next]
    refine nextPc_even start.pc size fun taken => ?_
    rcases target with free | bound
    · by_contra odd
      refine even ⟨info, record, .inl ⟨code, taken, ?_⟩⟩
      cases body : recordBody info with
      | jalr rd rs1 imm =>
          refine .inl ⟨rd, rs1, imm, rfl, ?_⟩
          rwa [← jalr rd rs1 imm body]
      | unsupported => exact .inr ⟨rfl, odd⟩
      | _ =>
          rw [body] at free
          exact free.elim
    · exact bound taken
  · rw [h]
    exact returns_error _ _

/-- Given one that is odd, it returns it. -/
theorem Aligned.updateEnv_odd (P : Platform δ) (aligned : d.Aligned) (odd : d.OddTarget) :
    ∃ info pc arch, d.machine.info = some info ∧
      d.machine.arch.updateEnv P info = .ok (pc, arch) ∧ ¬ IsEven pc := by
  obtain ⟨info, record, ⟨code, taken, target⟩ | ⟨code, odd⟩ | ⟨code, odd⟩⟩ := odd
  · obtain ⟨-, -, jalr, settles⟩ := (aligned.record info record).plain code
    have free : (recordBody info).FreeTarget := by
      rcases target with ⟨rd, rs1, imm, body, -⟩ | ⟨body, -⟩ <;> rw [body] <;> trivial
    obtain ⟨mask1, mask2, dst0⟩ := settles free
    obtain ⟨arch, committed⟩ := commit_of_taken P d.machine.arch taken mask1 mask2 dst0
    refine ⟨info, _, arch, record, (updateEnv_commit P _ code).trans committed, ?_⟩
    rcases target with ⟨rd, rs1, imm, body, odd⟩ | ⟨-, odd⟩
    · rw [jalr rd rs1 imm body]
      exact odd
    · exact odd
  · exact ⟨info, _, _, record, updateEnv_sret P _ code, odd⟩
  · exact ⟨info, _, _, record, updateEnv_mret P _ code, odd⟩

/-- The reset vector is even, and so is the pc there. -/
theorem reset_aligned (config : List (StateWord × Word)) (memory : Memory δ) :
    (reset config memory).Aligned := ⟨show IsEven startPc by decide, nofun⟩

/-- What one call does to the alignment. -/
theorem step_aligned (P : Platform δ) (aligned : d.Aligned) (c : DriverCall δ)
    (even : c = .updateEnv → ¬ d.OddTarget) : Returns (d.step P c) Aligned := by
  by_cases update : c = .updateEnv
  · subst update
    simp only [step]
    cases record : d.machine.info with
    | none => exact returns_error _ _
    | some info =>
        simp only [returns_bind, returns_pure]
        refine (aligned.updateEnv P (even rfl) record).mono ?_
        intro r next
        exact ⟨next, by rintro info ⟨⟩⟩
  · have moves : d.step P c = d.machine.step P (Driver.call d.pc c) >>= fun machine =>
        pure { d with machine := machine } := by
      cases c with
      | updateEnv => exact absurd rfl update
      | _ => rfl
    rw [moves, returns_bind]
    intro m moved
    exact (returns_pure _ _).2 (aligned.call P update moved)

end Driver

/-- In every state the run reaches the pc is even. -/
def PcEven (P : Platform δ) (d : Driver δ) (calls : List (DriverCall δ)) : Prop :=
  ∀ before, before <+: calls →
    Returns (runSteps (Driver.step P) d before) fun t => IsEven t.pc

/-- From the start pc, the pc stays even exactly when no `updateEnv` of the run takes an odd
target from a `jalr`, from the CSR of a return, or from the old record of a rejected word.
Nothing clears the lowest bit of a target; the offsets of branches and jumps are even, and so
are the vectors of traps. -/
theorem pcEven_iff (P : Platform δ) (config : List (StateWord × Word)) (memory : Memory δ)
    (calls : List (DriverCall δ)) :
    PcEven P (Driver.reset config memory) calls ↔
      ∀ t, Visits (Driver.step P) (Driver.reset config memory) calls t .updateEnv →
        ¬ t.OddTarget := by
  have start := Driver.reset_aligned config memory
  have runs : PcEven P (Driver.reset config memory) calls ↔
      ∀ t c, Visits (Driver.step P) (Driver.reset config memory) calls t c →
        ¬ (c = .updateEnv ∧ t.OddTarget) := by
    refine runSteps_prefix_returns_iff Driver.Aligned ?_ ?_ start start.pc calls
    · intro d c d' aligned good moved
      have next := Driver.step_aligned P aligned c (fun update odd => good ⟨update, odd⟩) d' moved
      exact ⟨next, next.pc⟩
    · rintro d c aligned ⟨rfl, odd⟩
      obtain ⟨info, pc, arch, record, returned, lost⟩ := aligned.updateEnv_odd P odd
      refine ⟨⟨⟨arch, none⟩, pc⟩, ?_, lost⟩
      simp only [Driver.step, record, returned]
      rfl
  rw [runs]
  constructor
  · intro good t visit odd
    exact good t _ visit ⟨rfl, odd⟩
  · rintro good t c visit ⟨rfl, odd⟩
    exact good t visit odd

/-- `jr 1(t1)` at the start pc, with `t1` zero. -/
theorem not_pcEven_jr : ¬ PcEven (ramOnly 4096)
    (Driver.reset archCfg (imageOf [0x00130067])) [.decode 0x80000000 .zero, .updateEnv] := by
  intro even
  obtain ⟨d, ran, pc⟩ := exists_ok_of_toOption
    (show (runSteps (Driver.step (ramOnly 4096)) (Driver.reset archCfg (imageOf [0x00130067]))
      [.decode 0x80000000 .zero, .updateEnv]).toOption.map Driver.pc = some 1 by decide +kernel)
  have aligned : IsEven d.pc := even _ (List.prefix_refl _) d ran
  rw [pc] at aligned
  exact absurd aligned (by decide)

end CPUDelaySim.Riscv
