import CPUDelaySim.Riscv.BodySpec

/-!
# The specification of `decode`

The decoder calls one body after another until one returns true, and the only body
that returns false does nothing else.  So a word selects a single body, a rejected
word the body `unsupported`, and `decode` is a fetch, that body on a cleared record,
and the interrupt check.  `decode_eq` says so; the results about decoding start from
it and from `exec_spec`.
-/

namespace CPUDelaySim.Riscv

variable {δ : Type}

/-! ### The selected body -/

/-- The result of a body: only `return false` rejects. -/
def Body.accepts : Body → Bool
  | .unsupported => false
  | _ => true

/-- The body of a word; a rejected word has the body that does nothing. -/
def selected (insn : BitVec 32) (rvc : Bool) : Body :=
  ((candidates insn rvc).find? Body.accepts).getD .unsupported

/-- A body that needs the unit is done, whether the unit is on or not. -/
theorem requireFpu_result (ctx : Ctx δ) {k : Ctx δ → Except Abort (Bool × Ctx δ)}
    (rest : ∀ c, Returns (k c) fun r => r.1 = true) :
    Returns (requireFpu ctx k) fun r => r.1 = true :=
  (requireFpu_returns ctx k _).2 ⟨fun _ => rfl, fun _ => rest _⟩

/-- A body returns true exactly when it is not `unsupported`. -/
theorem exec_result (P : Platform δ) (b : Body) (ctx : Ctx δ) :
    Returns (b.exec P ctx) fun r => r.1 = b.accepts := by
  have done {α : Type} (x : Except Abort α) (f : α → Except Abort (Bool × Ctx δ))
      (last : ∀ a, Returns (f a) fun r => r.1 = true) :
      Returns (x >>= f) fun r => r.1 = true :=
    (returns_bind _ _ _).2 fun a _ => last a
  have ret (c : Ctx δ) : Returns (pure (true, c) : Except Abort (Bool × Ctx δ))
      fun r => r.1 = true := (returns_pure _ _).2 rfl
  cases b with
  | notImplemented => exact returns_error _ _
  | unsupported => exact (returns_ok _ _).2 rfl
  | compute rd value type =>
      simp only [Body.exec, Body.accepts]
      split
      · exact returns_error _ _
      · exact (returns_ok _ _).2 rfl
  | jalr rd rs1 imm =>
      simp only [Body.exec, Body.accepts]
      split <;> exact (returns_ok _ _).2 rfl
  | load | store | fstore | lr | csr => exact done _ _ fun _ => ret _
  | amo | sc => exact done _ _ fun _ => done _ _ fun _ => ret _
  | fload | fp =>
      simp only [Body.exec, Body.accepts]
      exact requireFpu_result _ fun c => done _ _ fun _ => ret _
  | sret | mret =>
      simp only [Body.exec, Body.accepts]
      split <;> exact (returns_ok _ _).2 rfl
  | cond | jal | simple | sfence | ebreak | ecall => exact (returns_ok _ _).2 rfl

/-- The decoder runs the first body that accepts. -/
theorem runBodies_eq (P : Platform δ) (bs : List Body) (ctx : Ctx δ) :
    runBodies P bs ctx = ((bs.find? Body.accepts).getD .unsupported).exec P ctx := by
  induction bs with
  | nil => rfl
  | cons b bs ih =>
      rw [runBodies]
      cases accepted : b.accepts with
      | false =>
          -- Only `unsupported` rejects, and it leaves the context as it is.
          have : b = .unsupported := by
            cases b <;> first | rfl | simp [Body.accepts] at accepted
          subst this
          rw [List.find?_cons_of_neg (by simp [accepted]), ← ih]
          rfl
      | true =>
          rw [List.find?_cons_of_pos accepted, Option.getD_some]
          have result := exec_result P b ctx
          rw [accepted] at result
          cases ran : b.exec P ctx with
          | error e => rfl
          | ok r =>
              obtain ⟨done, c⟩ := r
              have : done = true := result _ ran
              subst this
              rfl

namespace RiscvArch

/-- The record as `decode` clears it after the fetch. -/
def cleared (info : DecodeInfo) : DecodeInfo := { info.memset with exception := excNone }

/-- The record that `decode` clears is fresh. -/
theorem fresh_cleared (info : DecodeInfo) : Fresh (cleared info) := fresh_memset info

/-- The record `decode` leaves: an interrupt replaces the code of the body. -/
def report (ctx : Ctx δ) : DecodeInfo :=
  match irqException ctx.arch.state with
  | some code => { ctx.info with exception := code }
  | none => ctx.info

/-- The context the body of a fetched word starts in. -/
def bodyCtx (arch : RiscvArch δ) (vaddr paddr : Word) (info : DecodeInfo) : Ctx δ :=
  ⟨{ arch with pc := vaddr, paddr := paddr }, cleared info⟩

/-- `decode` is a fetch, the body of the word, and the interrupt check. -/
theorem decode_eq (P : Platform δ) (arch : RiscvArch δ) (vaddr paddr : Word)
    (slot : DecodeInfo) :
    arch.decode P vaddr paddr slot = do
      let (rvc, a, i) ← arch.fetch P paddr slot
      let r ← (selected i.inst rvc).exec P (bodyCtx a vaddr paddr i)
      return (r.2.arch, report r.2) := by
  unfold decode
  congr 1
  funext fetched
  obtain ⟨rvc, a, i⟩ := fetched
  simp only [runBodies_eq]
  change ((selected i.inst rvc).exec P (bodyCtx a vaddr paddr i) >>= _) = _
  congr 1
  funext r
  obtain ⟨done, c⟩ := r
  simp only [report]
  cases irqException c.arch.state <;> rfl

/-- What holds of all that `decode` returns is what holds of the report of all that the body
leaves. -/
theorem decode_returns (P : Platform δ) (arch : RiscvArch δ) (vaddr paddr : Word)
    (slot : DecodeInfo) (Q : RiscvArch δ × DecodeInfo → Prop) :
    Returns (arch.decode P vaddr paddr slot) Q ↔
      Returns (arch.fetch P paddr slot) fun f =>
        Returns ((selected f.2.2.inst f.1).exec P (bodyCtx f.2.1 vaddr paddr f.2.2)) fun r =>
          Q (r.2.arch, report r.2) := by
  simp only [decode_eq, returns_bind, returns_pure]

/-! ### The record after `decode` -/

/-- An interrupt that is pending takes the place of the exception. -/
theorem report_exception (ctx : Ctx δ) :
    (report ctx).exception = (irqException ctx.arch.state).getD ctx.info.exception := by
  unfold report
  cases irqException ctx.arch.state <;> rfl

/-- An interrupt changes the code of the record and nothing else. -/
theorem report_eq (ctx : Ctx δ) :
    report ctx = { ctx.info with exception := (report ctx).exception } := by
  unfold report
  cases irqException ctx.arch.state <;> rfl

/-- The report adds no destination. -/
theorem report_apart {ctx : Ctx δ} {w : StateWord} (apart : Apart ctx.info w) :
    Apart (report ctx) w := by
  rw [report_eq]
  exact ⟨apart.dst0, apart.dst1, apart.dst2⟩

/-- The report keeps the word. -/
theorem report_inst (ctx : Ctx δ) : (report ctx).inst = ctx.info.inst := by rw [report_eq]

/-- The report keeps the length. -/
theorem report_instSize (ctx : Ctx δ) : (report ctx).instSize = ctx.info.instSize := by
  rw [report_eq]

/-- The report keeps the type. -/
theorem report_type (ctx : Ctx δ) : (report ctx).type = ctx.info.type := by rw [report_eq]

/-- The report keeps the address of an access. -/
theorem report_excData (ctx : Ctx δ) : (report ctx).excData = ctx.info.excData := by
  rw [report_eq]

/-- The number of a reported interrupt is below 32, and its top bit is set. -/
theorem irqException_msb {s : ArchState} {code : Word} (h : irqException s = some code) :
    code.msb = true := by
  simp only [irqException] at h
  split_ifs at h
  cases h
  rw [BitVec.msb_or, show irqMask.msb = true from rfl, Bool.true_or]

/-- A record without an exception is the one the body left. -/
theorem report_of_silent {ctx : Ctx δ} (silent : (report ctx).exception = excNone) :
    report ctx = ctx.info := by
  unfold report at silent ⊢
  cases pending : irqException ctx.arch.state with
  | none => rfl
  | some code =>
      rw [pending] at silent
      have top := irqException_msb pending
      rw [show code = excNone from silent] at top
      cases top

/-- The codes `decode` may leave. -/
def decodeCode (priv code : Word) : Prop := code.msb = true ∨ bodyCode priv code

/-- A fetch moves what a read moves. -/
theorem fetch_frame (P : Platform δ) (arch : RiscvArch δ) (paddr : Word)
    (info : DecodeInfo) :
    Returns (arch.fetch P paddr info) fun f => ReadFrame arch f.2.1 := by
  simp only [fetch, returns_bind, returns_pure]
  exact paddrRead_frame P arch paddr 4 _

/-- A fetch notes the length of the word that it has found. -/
theorem fetch_instSize (P : Platform δ) (arch : RiscvArch δ) (paddr : Word)
    (slot : DecodeInfo) :
    Returns (arch.fetch P paddr slot) fun f => f.2.2.instSize = if f.1 then 2 else 4 := by
  simp only [fetch, returns_bind, returns_pure]
  exact fun _ _ => trivial

/-- What `decode` can change, write and raise. -/
structure DecodeSpec (arch : RiscvArch δ) (vaddr paddr : Word) (arch' : RiscvArch δ)
    (info : DecodeInfo) : Prop where
  frame : ExecFrame { arch with pc := vaddr, paddr := paddr } arch'
  apart : ∃ b : Body, ∀ w, ¬ b.targets w → Apart info w
  reported : ∃ code, bodyCode (arch.state.get .priv) code ∧
    info.exception = (irqException arch'.state).getD code

/-- The codes that `decode` can leave: that of an interrupt, or one of a body. -/
theorem DecodeSpec.code {arch arch' : RiscvArch δ} {vaddr paddr : Word} {info : DecodeInfo}
    (spec : DecodeSpec arch vaddr paddr arch' info) :
    decodeCode (arch.state.get .priv) info.exception := by
  obtain ⟨code, raised, left⟩ := spec.reported
  rw [left]
  cases reported : irqException arch'.state with
  | some irq => exact .inl (irqException_msb reported)
  | none => exact .inr raised

/-- All that `decode` can do to the machine and to its record. -/
theorem decode_spec (P : Platform δ) (arch : RiscvArch δ) (vaddr paddr : Word)
    (slot : DecodeInfo) :
    Returns (arch.decode P vaddr paddr slot) fun r =>
      DecodeSpec arch vaddr paddr r.1 r.2 := by
  rw [decode_returns]
  refine (fetch_frame P arch paddr slot).mono ?_
  rintro ⟨rvc, a, i⟩ fetched
  refine (exec_spec P _ _ (fresh_cleared i)).mono ?_
  rintro ⟨done, c⟩ spec
  obtain ⟨dev, mip, rfl⟩ := fetched
  have read : ReadFrame ({ arch with pc := vaddr, paddr := paddr } : RiscvArch δ)
      (bodyCtx (arch.withDevice dev mip) vaddr paddr i).arch := ⟨dev, mip, rfl⟩
  refine ⟨read.exec.trans spec.frame, ⟨_, fun w other => report_apart (spec.apart w other)⟩,
    c.info.exception, ?_, report_exception c⟩
  have priv : (bodyCtx (arch.withDevice dev mip) vaddr paddr i).arch.state.get .priv =
      arch.state.get .priv := read.get (by decide)
  rw [← priv]
  exact spec.code

/-- A decoded instruction has two bytes or four. -/
theorem decode_instSize (P : Platform δ) (arch : RiscvArch δ) (vaddr paddr : Word)
    (slot : DecodeInfo) :
    Returns (arch.decode P vaddr paddr slot) fun r => r.2.instSize = 2 ∨ r.2.instSize = 4 := by
  rw [decode_returns]
  refine (fetch_instSize P arch paddr slot).mono ?_
  rintro ⟨rvc, a, i⟩ size r executed
  have length := (exec_spec P _ _ (fresh_cleared i) r executed).instSize.trans size
  rw [report_instSize, length]
  cases rvc with
  | false => exact .inr rfl
  | true => exact .inl rfl

end RiscvArch

/-! ### The words of the CSR table -/

/-- The words CSR instructions write. -/
def csrWords : List StateWord :=
  [.fp, .mstatus, .mideleg, .medeleg, .mie, .mtvec, .mcounteren, .mscratch, .mepc, .mcause,
    .mtval, .mip, .menvcfg, .senvcfg, .stvec, .scounteren, .sscratch, .sepc, .scause, .stval,
    .satp]

/-- A word that holds a CSR. -/
def IsCsrWord (w : StateWord) : Prop :=
  w ∈ csrWords ∨ (∃ i, w = .pmpcfg i) ∨ ∃ i, w = .pmpaddr i

/-- The callbacks of the PMP entries write PMP words, those of the others the words of
`csrWords`. -/
theorem csrTable_targets :
    ∀ r ∈ csrTable, ∀ csrno w, (r.ops csrno).targets w → IsCsrWord w := by
  simp only [csrTable, List.forall_mem_cons, CsrRow.one, CsrOps.rw, CsrOps.ro, CsrOps.rmw]
  refine ⟨?_, ?_, ?_, ?_, ?_, ?_, ?_, ?_, ?_, ?_, ?_, ?_, ?_, ?_, ?_, ?_, ?_, ?_, ?_, ?_, ?_,
    ?_, ?_, ?_, ?_, ?_, ?_, ?_, ?_, ?_, ?_, ?_, ?_, ?_, ?_, ?_, ?_, ?_, ?_, ?_, ?_,
    fun r row => nomatch row⟩
  all_goals intro csrno w target
  case refine_37 =>
    -- `write_pmpcfg` raises at the odd numbers and writes at the even ones.
    cases odd : (csrno.extractLsb' 0 2).getLsbD 0 with
    | true => simp only [CsrOps.targets, writePmpcfg, odd, if_true] at target
    | false =>
        simp only [CsrOps.targets, writePmpcfg, odd, Bool.false_eq_true, if_false] at target
        exact .inr (.inl ⟨_, target.symm⟩)
  case refine_38 => exact .inr (.inr ⟨_, target.symm⟩)
  all_goals first
    | exact .inl (by rw [← target]; decide)
    | exact target.elim
    | exact target.elim (fun h => .inl (by rw [h]; decide)) fun h => .inl (by rw [h]; decide)

/-- A CSR instruction writes words of the CSRs only. -/
theorem csrTargets_isCsrWord {csrno : BitVec 12} {w : StateWord}
    (target : csrTargets csrno w) : IsCsrWord w := by
  obtain ⟨ops, registered, writes⟩ := target
  exact csrOps_of_table (p := fun csrno ops => ∀ w, ops.targets w → IsCsrWord w)
    (fun r row csrno _ _ w => csrTable_targets r row csrno w) registered w writes

/-- Only CSR instructions aim a destination past the registers and the reservation. -/
theorem not_targets_plain {b : Body} (plain : ∀ rd csrno access, b ≠ .csr rd csrno access)
    {w : StateWord} (gpr : ∀ i, w ≠ .gpr i) (fpr : ∀ i, w ≠ .fpr i) (val : w ≠ .loadVal)
    (res : w ≠ .loadRes) : ¬ b.targets w := by
  intro target
  cases b with
  | compute | jal | jalr | load | amo => exact gpr _ target
  | fload => exact fpr _ target
  | lr => rcases target with h | h | h <;> first | exact gpr _ h | exact val h | exact res h
  | sc => rcases target with h | h <;> first | exact gpr _ h | exact res h
  | csr rd csrno access => exact plain rd csrno access rfl
  | fp dst =>
      cases dst with
      | gpr i => exact gpr i target
      | fpr i => exact fpr i target
  | _ => exact target

/-- Every other word but the registers and the reservation is out of reach of the
destinations. -/
theorem not_targets {b : Body} {w : StateWord} (csr : ¬ IsCsrWord w)
    (gpr : ∀ i, w ≠ .gpr i) (fpr : ∀ i, w ≠ .fpr i) (val : w ≠ .loadVal)
    (res : w ≠ .loadRes) : ¬ b.targets w := by
  cases b with
  | csr =>
      rintro (h | ⟨-, h⟩)
      · exact gpr _ h
      · exact csr (csrTargets_isCsrWord h)
  | _ => exact not_targets_plain (by simp) gpr fpr val res

/-- No instruction has the mode as its destination. -/
theorem not_targets_priv (b : Body) : ¬ b.targets .priv := by
  refine not_targets ?_ ?_ ?_ ?_ ?_
  · rintro (h | ⟨i, h⟩ | ⟨i, h⟩)
    · simp [csrWords] at h
    · cases h
    · cases h
  all_goals simp

end CPUDelaySim.Riscv
