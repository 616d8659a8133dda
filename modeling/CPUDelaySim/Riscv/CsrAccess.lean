import CPUDelaySim.Riscv.Effects

/-!
# Who may access a control and status register

A CSR number says which mode it needs, and the table has a predicate for each entry,
but `riscv_csrrw_check` looks at neither: it asks that the entry exists and that a
read-only number is not written.  The callbacks refuse some accesses themselves, so an
access that should be refused is refused exactly when the check or a callback does so
(`denied_iff_refused`).

As long as user code makes no other access, it cannot move a register of the kernel
(`userRun_keeps`).

The two halves are separate.  The first is about one access: which are `Refused`, and that a
refused one leaves everything as it was.  The second is about runs of user code, and its invariant
is a frame: the words that are not the user's keep their values, and the record in hand commits to
none of them.  A device may still publish an interrupt vector between two calls, so `mip` is set
apart unless no device does.
-/

namespace CPUDelaySim.Riscv

variable {δ : Type}

open RiscvArch

/-! ### Accesses that should be refused, and accesses that are -/

/-- Bits 9 and 8 of a CSR number: the lowest mode that may access it. -/
def requiredPriv (csrno : BitVec 12) : Word := (csrno.extractLsb' 8 2).setWidth 64

/-- The mode is too low, or the predicate of the entry rejects the access. -/
def Forbidden (s : ArchState) (csrno : BitVec 12) : Prop :=
  s.get .priv < requiredPriv csrno ∨
    ∃ ops, csrOps csrno = some ops ∧ ops.predicate.rejects s csrno = true

/-- The registers whose callbacks raise `EXC_II`: those of a floating-point unit that is
off, the odd `pmpcfg` registers, and `misa` when it is written. -/
def CallbackRefuses (s : ArchState) (csrno : BitVec 12) (mask : Word) : Prop :=
  (IsFpCsr csrno ∧ s.fpEnabled = false) ∨ csrno = 0x3a1 ∨ csrno = 0x3a3 ∨
    (csrno = 0x301 ∧ mask ≠ 0)

/-- `riscv_csrrw_check` or a callback refuses the access. -/
def Refused (s : ArchState) (csrno : BitVec 12) (access : CsrAccess) : Prop :=
  csrOps csrno = none ∨ (access.isWrite = true ∧ csrno >>> 10 = 3) ∨
    CallbackRefuses s csrno (access.mask s)

/-- The rows of `csr_ops` whose callbacks raise are those of `CallbackRefuses`. -/
theorem csrTable_raises : ∀ r ∈ csrTable, ∀ csrno, r.first ≤ csrno → csrno ≤ r.last →
    ∀ mask s, (r.ops csrno).raises mask s = true ↔ CallbackRefuses s csrno mask := by
  simp only [csrTable, List.forall_mem_cons, CsrRow.one, CsrOps.rw, CsrOps.ro, CsrOps.rmw]
  refine ⟨?_, ?_, ?_, ?_, ?_, ?_, ?_, ?_, ?_, ?_, ?_, ?_, ?_, ?_, ?_, ?_, ?_, ?_, ?_, ?_, ?_,
    ?_, ?_, ?_, ?_, ?_, ?_, ?_, ?_, ?_, ?_, ?_, ?_, ?_, ?_, ?_, ?_, ?_, ?_, ?_, ?_,
    by rintro r ⟨⟩⟩
  all_goals intro csrno low high mask s
  case refine_1 | refine_2 | refine_3 =>
    cases BitVec.le_antisymm high low
    cases on : s.fpEnabled <;>
      simp [CsrOps.raises, CsrOps.readRaises, CsrOps.writeRaises, readFflags, readFrm, readFcsr,
        writeFflags, writeFrm, writeFcsr, CallbackRefuses, IsFpCsr, on]
  case refine_14 =>
    cases BitVec.le_antisymm high low
    simp [CsrOps.raises, CsrOps.readRaises, CsrOps.writeRaises, readMisa, readWord, writeMisa,
      CallbackRefuses, IsFpCsr]
  case refine_37 =>
    have listed : csrno = 0x3a0 ∨ csrno = 0x3a1 ∨ csrno = 0x3a2 ∨ csrno = 0x3a3 := by bv_omega
    rcases listed with rfl | rfl | rfl | rfl <;>
      simp [CsrOps.raises, CsrOps.readRaises, CsrOps.writeRaises, readPmpcfg, readWord,
        writePmpcfg, CallbackRefuses, IsFpCsr]
  all_goals
    -- The other callbacks raise nothing, and their numbers are none of those listed.
    refine iff_of_false (Bool.eq_false_iff.1 (by first | rfl | exact Bool.and_false _)) ?_
    rintro (⟨rfl | rfl | rfl, -⟩ | rfl | rfl | ⟨rfl, -⟩) <;>
      first | exact absurd low (by decide) | exact absurd high (by decide)

/-- A CSR body raises `EXC_II` exactly when the access is refused. -/
theorem illegal_iff_refused (s : ArchState) (rd : BitVec 5) (csrno : BitVec 12)
    (access : CsrAccess) :
    (Body.csr rd csrno access).Illegal s ↔ Refused s csrno access := by
  have raises {ops : CsrOps} (registered : csrOps csrno = some ops) :
      ops.raises (access.mask s) s = true ↔ CallbackRefuses s csrno (access.mask s) :=
    csrOps_of_table (p := fun csrno ops => ∀ mask s, ops.raises mask s = true ↔
      CallbackRefuses s csrno mask)
      (fun r row csrno low high => csrTable_raises r row csrno low high) registered _ s
  simp only [Body.Illegal, Refused, riscvCsrrwCheck_eq_some]
  cases registered : csrOps csrno with
  | none => simp
  | some ops =>
      constructor
      · intro all
        by_cases readOnly : access.isWrite = true ∧ csrno >>> 10 = 3
        · exact .inr (.inl readOnly)
        · exact .inr (.inr ((raises registered).1 (all ops ⟨rfl, readOnly⟩)))
      · rintro (missing | readOnly | refuses) ops' ⟨found, writable⟩
        · cases missing
        · exact absurd readOnly writable
        · cases found
          exact (raises registered).2 refuses

/-- The access raises `EXC_II`, and the machine is as the fetch left it. -/
structure Denied (a : RiscvArch δ) (vaddr paddr : Word) (r : RiscvArch δ × DecodeInfo) :
    Prop where
  raised : r.2.exception = excII
  unmoved : r.1 = { a with pc := vaddr, paddr := paddr }

/-- The code a body raised, when the record was cleared before it. -/
theorem raised_iff {p : Patch} {i i' : DecodeInfo} (patched : i' = p.apply (cleared i))
    {code : Word} (other : code ≠ excNone) : i'.exception = code ↔ p.exception = some code := by
  rw [patched, Patch.apply]
  cases p.exception with
  | none => exact iff_of_false (fun h => other h.symm) (by simp)
  | some c => exact Option.some_inj.symm

/-- With no interrupt pending, an access is denied exactly when it is refused. -/
theorem denied_iff_refused (P : Platform δ) {m : Machine δ} (reached : m.Reachable P)
    (vaddr paddr : Word) (slot : DecodeInfo) {rvc : Bool} {a : RiscvArch δ} {i : DecodeInfo}
    (fetched : m.arch.fetch P paddr slot = .ok (rvc, a, i)) {rd : BitVec 5}
    {csrno : BitVec 12} {access : CsrAccess}
    (csr : selected i.inst rvc = .csr rd csrno access) :
    Returns (m.arch.decode P vaddr paddr slot) fun r =>
      irqException r.1.state = none →
        (Denied a vaddr paddr r ↔ Refused a.state csrno access) := by
  rw [decode_returns, fetched, returns_ok]
  dsimp only
  rw [csr]
  intro r ran quiet
  obtain ⟨p, patched, spec⟩ := exec_patch P _ _ r ran
  have low : a.state.get .priv < 4 := by
    rw [(fetch_frame P m.arch paddr slot _ fetched).get (by decide)]
    exact reached.priv_lt
  have unmasked : report r.2 = r.2.info := by rw [report, quiet]
  have raised := raised_iff patched (by decide : excII ≠ excNone)
  rw [← illegal_iff_refused]
  constructor
  · rintro ⟨code, -⟩
    rw [unmasked, raised] at code
    exact (spec.illegal low).1 code
  · intro illegal
    refine ⟨?_, spec.still illegal⟩
    rw [unmasked, raised]
    exact (spec.illegal low).2 illegal

/-! ### What user code may write -/

/-- The words of the user: the registers, the floating-point word, the reservation. -/
def IsUserWord (w : StateWord) : Prop :=
  (∃ i, w = .gpr i) ∨ (∃ i, w = .fpr i) ∨ w = .fp ∨ w = .loadVal ∨ w = .loadRes

/-- The mode that a CSR asks for is in bits 9 and 8 of its number. -/
theorem requiredPriv_toNat (csrno : BitVec 12) :
    (requiredPriv csrno).toNat = csrno.toNat / 256 % 4 := by
  rw [requiredPriv, BitVec.toNat_setWidth, BitVec.extractLsb'_toNat, Nat.shiftRight_eq_div_pow]
  omega

/-- Of the entries that need no mode, only the floating-point registers write anything:
the floating-point word and `mstatus`. -/
theorem csrTable_user : ∀ r ∈ csrTable, ∀ csrno, r.first ≤ csrno → csrno ≤ r.last →
    requiredPriv csrno = 0 → ∀ w, (r.ops csrno).targets w →
      IsFpCsr csrno ∧ (w = .fp ∨ w = .mstatus) := by
  simp only [csrTable, List.forall_mem_cons, CsrRow.one, CsrOps.rw, CsrOps.ro, CsrOps.rmw]
  refine ⟨?_, ?_, ?_, ?_, ?_, ?_, ?_, ?_, ?_, ?_, ?_, ?_, ?_, ?_, ?_, ?_, ?_, ?_, ?_, ?_, ?_,
    ?_, ?_, ?_, ?_, ?_, ?_, ?_, ?_, ?_, ?_, ?_, ?_, ?_, ?_, ?_, ?_, ?_, ?_, ?_, ?_,
    by rintro r ⟨⟩⟩
  all_goals intro csrno low high user w target
  case refine_1 => exact ⟨.inl (BitVec.le_antisymm high low), target⟩
  case refine_2 => exact ⟨.inr (.inl (BitVec.le_antisymm high low)), target⟩
  case refine_3 => exact ⟨.inr (.inr (BitVec.le_antisymm high low)), target⟩
  all_goals first
    | exact target.elim
    | (exfalso
       have mode := requiredPriv_toNat csrno
       rw [user] at mode
       bv_omega)

/-- A CSR of the user writes the unit and its state, and nothing else. -/
theorem csrTargets_user {csrno : BitVec 12} (user : requiredPriv csrno = 0) {w : StateWord}
    (target : csrTargets csrno w) : IsFpCsr csrno ∧ (w = .fp ∨ w = .mstatus) := by
  obtain ⟨ops, registered, writes⟩ := target
  exact csrOps_of_table (p := fun csrno ops => requiredPriv csrno = 0 →
    ∀ w, ops.targets w → IsFpCsr csrno ∧ (w = .fp ∨ w = .mstatus))
    (fun r row csrno low high => csrTable_user r row csrno low high) registered user w writes

/-- The commit loop leaves a word alone in every state with the given `mstatus`. -/
def Leaves (mstatus : Word) (info : DecodeInfo) (w : StateWord) : Prop :=
  ∀ s : ArchState, s.get .mstatus = mstatus →
    Returns (commitDsts s info) fun s' => s'.get w = s.get w

/-- A word that no destination names is left. -/
theorem leaves_of_apart (mstatus : Word) {info : DecodeInfo} {w : StateWord}
    (apart : Apart info w) : Leaves mstatus info w :=
  fun _ _ _ committed => commitDsts_get committed apart

/-- Joining bits that are set changes nothing. -/
theorem mergeMask_of_contains {v m : Word} (contains : v &&& m = m) : mergeMask v m m = v := by
  apply BitVec.eq_of_getLsbD_eq
  intro i _
  have bit := congrArg (·.getLsbD i) contains
  simp only [BitVec.getLsbD_and] at bit
  rw [mergeMask_getLsbD]
  cases live : m.getLsbD i with
  | false => simp
  | true => simpa [live] using bit.symm

/-- The commit of a floating-point register finds `mstatus.FS` set. -/
theorem leaves_fpCsr {mstatus : Word} (dirty : mstatus &&& mstatusFS = mstatusFS)
    {rd : BitVec 5} {before info : DecodeInfo} (fresh : Fresh before)
    (record : FpCsrRecord rd before info) : Leaves mstatus info .mstatus := by
  obtain ⟨⟨data, dst0⟩, ⟨dst1, dst2⟩ | ⟨field, mask, data', dst1, dst2⟩⟩ := record
  · refine leaves_of_apart mstatus ⟨?_, ?_, ?_⟩
    · rw [dst0]
      exact dstApart_full (by simp) data
    · rw [dst1]
      exact .inl fresh.mask1
    · rw [dst2]
      exact .inl fresh.mask2
  · intro s found
    simp only [commitDsts, returns_bind]
    intro s₀ h₀ s₁ h₁ s₂ h₂
    have kept₀ := ArchState.commit_get_of_ne h₀ .mstatus (by
      rw [dst0]
      exact dstApart_full (by simp) data)
    have kept₁ := ArchState.commit_get_of_ne h₁ .mstatus (by
      rw [dst1]
      exact dstApart_fpField (by simp) field mask data')
    rw [dst2, ArchState.commit_idx] at h₂
    cases h₂
    rw [ArchState.get_set_self, kept₁, kept₀, found]
    exact mergeMask_of_contains dirty

/-- The accesses that decoding makes to control and status registers are allowed ones,
or refused. -/
def CsrAllowed (P : Platform δ) (arch : RiscvArch δ) (paddr : Word) (slot : DecodeInfo) :
    Prop :=
  ∀ rvc a i rd csrno access, arch.fetch P paddr slot = .ok (rvc, a, i) →
    selected i.inst rvc = .csr rd csrno access →
      ¬ Forbidden a.state csrno ∨ Refused a.state csrno access

/-- Only a CSR access has a word of the kernel as a target. -/
theorem targets_kernel {b : Body} {w : StateWord} (target : b.targets w)
    (kernel : ¬ IsUserWord w) :
    ∃ rd csrno access, b = .csr rd csrno access ∧ csrTargets csrno w := by
  cases b with
  | csr rd csrno access =>
      rcases target with gpr | ⟨-, target⟩
      · exact absurd (.inl ⟨rd, gpr⟩) kernel
      · exact ⟨rd, csrno, access, rfl, target⟩
  | fp dst =>
      cases dst with
      | gpr i => exact absurd (.inl ⟨i, target⟩) kernel
      | fpr i => exact absurd (.inr (.inl ⟨i, target⟩)) kernel
  | compute | jal | jalr | load | amo => exact absurd (.inl ⟨_, target⟩) kernel
  | fload => exact absurd (.inr (.inl ⟨_, target⟩)) kernel
  | lr =>
      rcases target with h | h | h
      · exact absurd (.inl ⟨_, h⟩) kernel
      · exact absurd (.inr (.inr (.inr (.inl h)))) kernel
      · exact absurd (.inr (.inr (.inr (.inr h)))) kernel
  | sc =>
      rcases target with h | h
      · exact absurd (.inl ⟨_, h⟩) kernel
      · exact absurd (.inr (.inr (.inr (.inr h)))) kernel
  | _ => exact target.elim

/-- A record that is to be committed comes from an access that was not refused. -/
theorem not_refused_of_commit (P : Platform δ) {a : RiscvArch δ} {vaddr paddr : Word}
    {i : DecodeInfo} (small : a.state.get .priv < 4) {rd : BitVec 5} {csrno : BitVec 12}
    {access : CsrAccess} :
    Returns ((Body.csr rd csrno access).exec P (bodyCtx a vaddr paddr i)) fun r =>
      (report r.2).exception = excNone → ¬ Refused a.state csrno access := by
  intro r ran silent refused
  obtain ⟨p, patched, spec⟩ := exec_patch P _ _ r ran
  have illegal := (illegal_iff_refused a.state rd csrno access).2 refused
  have code := (raised_iff patched (by decide : excII ≠ excNone)).2
    ((spec.illegal small).2 illegal)
  rw [report_exception, code] at silent
  cases reported : irqException r.2.arch.state with
  | none =>
      rw [reported] at silent
      exact absurd silent (by decide)
  | some irq =>
      rw [reported] at silent
      have msb := irqException_msb reported
      rw [show irq = excNone from silent] at msb
      exact absurd msb (by decide)

/-- A floating-point body of the fetched word finds `mstatus.FS` Dirty. -/
def DecodeFsClean (P : Platform δ) (arch : RiscvArch δ) (paddr : Word) (slot : DecodeInfo) :
    Prop :=
  ∀ rvc a i, arch.fetch P paddr slot = .ok (rvc, a, i) → (selected i.inst rvc).FsClean a.state

/-- In user mode, a record that is to be committed leaves every word of the kernel. -/
theorem decode_leaves (P : Platform δ) {arch : RiscvArch δ} (user : arch.state.get .priv = modeU)
    (vaddr paddr : Word) (slot : DecodeInfo) (clean : DecodeFsClean P arch paddr slot)
    (allowed : CsrAllowed P arch paddr slot) :
    Returns (arch.decode P vaddr paddr slot) fun r =>
      r.2.exception = excNone → ∀ w, ¬ IsUserWord w →
        Leaves (arch.state.get .mstatus) r.2 w := by
  rw [decode_returns]
  rintro ⟨rvc, a, i⟩ fetched r ran silent w kernel
  dsimp only at ran silent
  have frame := fetch_frame P arch paddr slot _ fetched
  have spec := exec_spec P (selected i.inst rvc) _ (fresh_cleared i) r ran
  by_cases target : (selected i.inst rvc).targets w
  swap
  · exact leaves_of_apart _ (report_apart (spec.apart w target))
  obtain ⟨rd, csrno, access, csr, target⟩ := targets_kernel target kernel
  have state := clean rvc a i fetched
  rw [csr] at ran state
  have mode : a.state.get .priv = 0 := (frame.get (by decide)).trans user
  have kept : ¬ Refused a.state csrno access :=
    not_refused_of_commit P (by rw [mode]; decide) r ran silent
  have permitted := (allowed rvc a i rd csrno access fetched csr).resolve_right kept
  -- What the access may write in user mode, it writes behind the floating-point guard.
  have required : requiredPriv csrno = 0 := by
    have high : ¬ a.state.get .priv < requiredPriv csrno := fun low => permitted (.inl low)
    rw [mode] at high
    bv_omega
  obtain ⟨fp, rfl | rfl⟩ := csrTargets_user required target
  · exact absurd (.inr (.inr (.inl rfl))) kernel
  have on : a.state.fpEnabled = true := by
    by_contra off
    exact kept (.inr (.inr (.inl ⟨fp, by simpa using off⟩)))
  have dirty : arch.state.get .mstatus &&& mstatusFS = mstatusFS := by
    rw [← show a.state.get .mstatus = _ from frame.get (by decide)]
    exact state fp on
  simp only [Body.exec, bind_eq_ok] at ran
  obtain ⟨c, accessed, result⟩ := ran
  cases result
  have record := (doCsr_fp P rd access _ fp on c accessed).2
  have filed : FpCsrRecord rd (cleared i) (report (c.setType .csrwr)) := by
    rw [report_eq]
    exact ⟨record.dst0, record.rest⟩
  exact leaves_fpCsr dirty (fresh_cleared i) filed

/-! ### Runs of user code -/

/-- The store publishes no other vector than the one in `mip`. -/
def SilentStore (P : Platform δ) (a : RiscvArch δ) (paddr : Word) (n : Nat) : Prop :=
  ∀ d, Memory.deviceAt P.map paddr = some d →
    ∀ data irq, (d.write a.memory.dev paddr n data).2 = some irq → irq = a.state.get .mip

/-- A write that no device answers leaves `mip`. -/
theorem paddrWrite_silent (P : Platform δ) {a : RiscvArch δ} {paddr : Word} {n : Nat}
    (silent : SilentStore P a paddr n) (data : Word) :
    Returns (a.paddrWrite P paddr n data) fun a' => a'.state.get .mip = a.state.get .mip := by
  simp only [paddrWrite, returns_bind, returns_pure, Memory.paddrWrite]
  cases claimed : Memory.deviceAt P.map paddr with
  | none =>
      dsimp only
      split
      · exact (returns_ok _ _).2 rfl
      · exact returns_error _ _
  | some d =>
      refine (returns_ok _ _).2 ?_
      cases published : (d.write a.memory.dev paddr n data).2 with
      | none => rfl
      | some irq =>
          rw [silent d claimed data irq published]
          exact ArchState.get_set_self _ _ _

/-- So does the store of a memory operand. -/
theorem storeOperand_silent (P : Platform δ) {arch : RiscvArch δ} {paddr : Word}
    {size : BitVec 16} (silent : size.toNat ≤ 8 → SilentStore P arch paddr size.toNat)
    (data : Word) :
    Returns (storeOperand P arch paddr size data) fun a =>
      a.state.get .mip = arch.state.get .mip := by
  unfold storeOperand
  split
  · exact returns_error _ _
  · exact paddrWrite_silent P (silent (by omega)) data

/-- So does the store of all of them. -/
theorem commitMemory_silent (P : Platform δ) {arch : RiscvArch δ} {info : DecodeInfo}
    (silent : CommitMemoryAll P (Quiet P) (SilentStore P) arch info) :
    Returns (commitMemory P arch info) fun a => a.state.get .mip = arch.state.get .mip := by
  unfold commitMemory
  unfold CommitMemoryAll at silent
  split
  · rename_i type
    rw [type] at silent
    exact storeOperand_silent P silent _
  · rename_i type
    rw [type] at silent
    exact storeOperand_silent P silent _
  · rename_i type
    rw [type] at silent
    split
    · rename_i succeeded
      obtain ⟨tables, store⟩ := silent succeeded
      rw [returns_bind]
      refine (translateAddr_quiet P tables _).and_eq.mono ?_
      rintro ⟨ha, exception, a⟩ ⟨translated, unmoved⟩
      refine (storeOperand_silent P (store ha exception a translated) _).mono ?_
      intro a' kept
      rw [kept, show a = arch from unmoved]
    · exact (returns_ok _ _).2 rfl
  · exact (returns_ok _ _).2 rfl

namespace Machine

/-- No device publishes an interrupt vector during the call. -/
def Undisturbed (P : Platform δ) (t : Machine δ) : Call δ → Prop
  | .decode vaddr paddr slot => DecodeAll P (Quiet P) (Quiet P) t.arch vaddr paddr slot
  | .translateAddr vaddr type => TranslateAll P (Quiet P) t.arch vaddr type
  | .updateEnv => ∀ info, t.info = some info → UpdateAll P (Quiet P) (SilentStore P) t.arch info
  | .environment _ irq _ _ => irq = none
  | .handleException _ _ _ => True

/-- A call of user code without a trap: what is decoded finds `mstatus.FS` Dirty if it uses the
floating-point unit and accesses no register it may not, and what is executed is committed. -/
def UserStep (P : Platform δ) (t : Machine δ) : Call δ → Prop
  | .decode _ paddr slot => DecodeFsClean P t.arch paddr slot ∧ CsrAllowed P t.arch paddr slot
  | .updateEnv => t.Executes excNone
  | _ => True

/-- The words of the kernel are those of `s`, `mip` excepted, and the record that is to
be committed leaves them all. -/
structure UserKeeps (s : ArchState) (t : Machine δ) : Prop where
  kept : ∀ w, ¬ IsUserWord w → w ≠ .mip → t.arch.state.get w = s.get w
  record : ∀ info, t.info = some info → info.exception = excNone → ∀ w, ¬ IsUserWord w →
    Leaves (s.get .mstatus) info w

/-- `mip` as well. -/
structure UserKeepsAll (s : ArchState) (t : Machine δ) : Prop extends UserKeeps s t where
  mip : t.arch.state.get .mip = s.get .mip

/-- At an instruction boundary the record is not read again. -/
def boundary (m : Machine δ) : Machine δ := { m with info := none }

section UserRun

variable {P : Platform δ} {s : ArchState} {t : Machine δ}

/-- The mode is no word of the user. -/
theorem kernel_priv : ¬ IsUserWord .priv := by simp [IsUserWord]

/-- Neither is `mstatus`. -/
theorem kernel_mstatus : ¬ IsUserWord .mstatus := by simp [IsUserWord]

/-- Neither is `mip`. -/
theorem kernel_mip : ¬ IsUserWord .mip := by simp [IsUserWord]

/-- A word that is not the user's is not `x0`. -/
theorem kernel_gpr {w : StateWord} (kernel : ¬ IsUserWord w) : w ≠ .gpr 0 := by
  rintro rfl
  exact kernel (.inl ⟨0, rfl⟩)

/-- At the boundary between two instructions everything is as it is. -/
theorem boundary_keeps (m : Machine δ) : UserKeeps m.arch.state m.boundary where
  kept _ _ _ := rfl
  record _ h := by cases h

/-- A state that has the same words of the kernel. -/
theorem UserKeeps.with_arch (inv : UserKeeps s t) {arch : RiscvArch δ}
    (same : ∀ w, ¬ IsUserWord w → w ≠ .mip → arch.state.get w = t.arch.state.get w) :
    UserKeeps s { t with arch := arch } where
  kept w kernel mip := (same w kernel mip).trans (inv.kept w kernel mip)
  record := inv.record

/-- The commit of the record leaves the words of the kernel. -/
theorem UserKeeps.commit (inv : UserKeeps s t) {info : DecodeInfo} (record : t.info = some info)
    (code : info.exception = excNone) {w : StateWord} (kernel : ¬ IsUserWord w) :
    Returns (commitDsts t.arch.state info) fun s' => s'.get w = t.arch.state.get w :=
  inv.record info record code w kernel _ (inv.kept _ kernel_mstatus (by decide))

/-- The decoding of an instruction with the unit dirty leaves `mstatus`. -/
theorem decode_mstatus (P : Platform δ) {arch : RiscvArch δ} {vaddr paddr : Word}
    {slot : DecodeInfo} (clean : DecodeFsClean P arch paddr slot) :
    Returns (arch.decode P vaddr paddr slot) fun r =>
      r.1.state.get .mstatus = arch.state.get .mstatus := by
  rw [decode_returns]
  rintro ⟨rvc, a, i⟩ fetched r ran
  have frame := fetch_frame P arch paddr slot _ fetched
  exact (exec_mstatus P (clean rvc a i fetched) r ran).trans (frame.get (by decide))

/-- A decoding that reads no device leaves `mip`. -/
theorem decode_mip (P : Platform δ) {arch : RiscvArch δ} {vaddr paddr : Word} {slot : DecodeInfo}
    (clean : DecodeFsClean P arch paddr slot)
    (quiet : DecodeAll P (Quiet P) (Quiet P) arch vaddr paddr slot) :
    Returns (arch.decode P vaddr paddr slot) fun r =>
      r.1.state.get .mip = arch.state.get .mip := by
  rw [decode_returns]
  rintro ⟨rvc, a, i⟩ fetched r ran
  have unmoved : a = arch := fetch_quiet P quiet.1 slot _ fetched
  subst unmoved
  exact exec_mip P (clean rvc a i fetched) (quiet.2 rvc a i fetched) r ran

/-- A call of user code leaves the words of the kernel. -/
theorem userStep_keeps (user : s.get .priv = modeU) (inv : UserKeeps s t) {c : Call δ}
    (allowed : UserStep P t c) : Returns (t.step P c) (UserKeeps s) := by
  cases c with
  | decode vaddr paddr slot =>
      have mode := (inv.kept _ kernel_priv (by decide)).trans user
      simp only [step, returns_bind, returns_pure]
      intro r decoded
      have spec := decode_spec P t.arch vaddr paddr slot r decoded
      have mstatus := decode_mstatus P allowed.1 r decoded
      -- What is decoded names no word of the kernel, so its commit writes none.
      have leaves := decode_leaves P mode vaddr paddr slot allowed.1 allowed.2 r decoded
      refine ⟨?_, ?_⟩
      · intro w kernel mip
        rw [← inv.kept w kernel mip]
        by_cases status : w = .mstatus
        · rw [status]
          exact mstatus
        · refine spec.frame.get w mip status ?_
          rintro rfl
          exact kernel (.inr (.inr (.inl rfl)))
      · rintro info ⟨⟩ code w kernel
        rw [← inv.kept _ kernel_mstatus (by decide)]
        exact leaves code w kernel
  | handleException exception paddr slot =>
      simp only [step]
      split
      · rename_i fault
        -- A page fault leaves a code in the record, so nothing of it is committed.
        refine (returns_ok _ _).2 ⟨?_, ?_⟩
        · intro w kernel mip
          rw [handleException, if_pos fault]
          exact inv.kept w kernel mip
        · rintro info ⟨⟩ code
          rw [handleException, if_pos fault] at code
          rw [show exception = excNone from code] at fault
          exact absurd fault (by decide)
      · exact (returns_ok _ _).2 inv
  | translateAddr vaddr type =>
      simp only [step, returns_bind, returns_pure]
      refine (translateAddr_frame P t.arch vaddr type excNone).mono ?_
      rintro ⟨paddr, exception, arch⟩ frame
      exact inv.with_arch fun w _ mip => frame.get mip
  | updateEnv =>
      obtain ⟨info, record, code⟩ := allowed
      simp only [step, record, returns_bind, returns_pure]
      rw [updateEnv_commit P t.arch code]
      intro r committed
      rw [← record]
      refine inv.with_arch fun w kernel mip => ?_
      exact commit_get_of P t.arch info (inv.commit record code kernel) mip (kernel_gpr kernel) r
        committed
  | environment dev irq tick instret =>
      exact (returns_ok _ _).2 (inv.with_arch fun w _ mip => irqListener_get _ irq mip)

/-- As long as no device publishes a vector, it leaves `mip` too. -/
theorem userStep_mip (inv : UserKeeps s t) {c : Call δ} (allowed : UserStep P t c)
    (quiet : Undisturbed P t c) :
    Returns (t.step P c) fun t' => t'.arch.state.get .mip = t.arch.state.get .mip := by
  cases c with
  | decode vaddr paddr slot =>
      simp only [step, returns_bind, returns_pure]
      exact decode_mip P allowed.1 quiet
  | handleException exception paddr slot =>
      simp only [step]
      split
      · rename_i fault
        rw [handleException, if_pos fault]
        exact (returns_ok _ _).2 rfl
      · exact (returns_ok _ _).2 rfl
  | translateAddr vaddr type =>
      simp only [step, returns_bind, returns_pure]
      refine (translateAddr_quiet P quiet excNone).mono ?_
      intro r unmoved
      rw [unmoved]
  | updateEnv =>
      obtain ⟨info, record, code⟩ := allowed
      simp only [step, record, returns_bind, returns_pure, updateEnv_commit P t.arch code, commit]
      intro s' looped
      refine (commitMemory_silent P (quiet info record code s' looped)).mono ?_
      intro a stored
      rw [updateMMUState_state, ArchState.get_set_of_ne _ _ (by decide), stored]
      exact inv.commit record code kernel_mip s' looped
  | environment dev irq tick instret =>
      rw [show irq = none from quiet]
      exact (returns_ok _ _).2 rfl

/-- User code that runs without a trap, and accesses only the registers it may, leaves
the words of the kernel; what `mip` shows is up to the devices. -/
theorem userRun_keeps (P : Platform δ) {m : Machine δ} (user : m.priv = modeU)
    (calls : List (Call δ))
    (allowed : ∀ t c, Visits (step P) m.boundary calls t c → UserStep P t c) :
    Returns (runSteps (step P) m.boundary calls) fun t =>
      (∀ w, ¬ IsUserWord w → w ≠ .mip → t.arch.state.get w = m.arch.state.get w) ∧
        ((∀ t c, Visits (step P) m.boundary calls t c → Undisturbed P t c) →
          t.arch.state.get .mip = m.arch.state.get .mip) := by
  have keeps (t : Machine δ) (c : Call δ) (visit : Visits (step P) m.boundary calls t c)
      (inv : UserKeeps m.arch.state t) : Returns (t.step P c) (UserKeeps m.arch.state) :=
    userStep_keeps user inv (allowed t c visit)
  have kept := runSteps_prefix_invariant (boundary_keeps m) keeps (List.prefix_refl calls)
  intro t ran
  refine ⟨(kept t ran).kept, fun quiet => ?_⟩
  have start : UserKeepsAll m.arch.state m.boundary := ⟨boundary_keeps m, rfl⟩
  refine (runSteps_prefix_invariant start ?_ (List.prefix_refl calls) t ran).mip
  intro u c visit inv t' stepped
  have vector := userStep_mip inv.toUserKeeps (allowed u c visit) (quiet u c visit) t' stepped
  exact ⟨keeps u c visit inv.toUserKeeps t' stepped, vector.trans inv.mip⟩

end UserRun

end Machine

/-- A forbidden access is denied, in a reachable state and with no interrupt pending, exactly
when the access is allowed after all or it is refused. User code that makes no other access
leaves the registers of the kernel. `riscv_csrrw_check` looks at the two bits of the number that
make it read-only, and not at those that name a mode; the predicates of the table are compared
with null and never called. -/
theorem csrAccess_iff (P : Platform δ) {m : Machine δ} (reached : m.Reachable P) :
    (∀ vaddr paddr slot rvc a i rd csrno access,
      m.arch.fetch P paddr slot = .ok (rvc, a, i) → selected i.inst rvc = .csr rd csrno access →
        Returns (m.arch.decode P vaddr paddr slot) fun r => irqException r.1.state = none →
          ((Forbidden a.state csrno → Denied a vaddr paddr r) ↔
            ¬ Forbidden a.state csrno ∨ Refused a.state csrno access)) ∧
    (m.priv = modeU → ∀ calls,
      (∀ t c, Visits (Machine.step P) m.boundary calls t c → t.UserStep P c) →
        Returns (runSteps (Machine.step P) m.boundary calls) fun t =>
          (∀ w, ¬ IsUserWord w → w ≠ .mip → t.arch.state.get w = m.arch.state.get w) ∧
            ((∀ t c, Visits (Machine.step P) m.boundary calls t c → t.Undisturbed P c) →
              t.arch.state.get .mip = m.arch.state.get .mip)) := by
  refine ⟨?_, fun user calls allowed => Machine.userRun_keeps P user calls allowed⟩
  intro vaddr paddr slot rvc a i rd csrno access fetched csr
  refine (denied_iff_refused P reached vaddr paddr slot fetched csr).mono ?_
  intro r denied quiet
  rw [denied quiet, imp_iff_not_or]

/-- `auipc t0, 0; addi t0, t0, 16; csrw mepc, t0; mret`, which enters user mode at
0x80000010, and there `csrw mscratch, t0`. -/
def userCsrProgram : Machine Unit :=
  Machine.reset archCfg (imageOf [0x00000297, 0x01028293, 0x34129073, 0x30200073, 0x34029073])

/-- The program up to its return to user mode. -/
def userCsrCalls : List (Call Unit) :=
  Machine.execAt 0x80000000 ++ Machine.execAt 0x80000004 ++ Machine.execAt 0x80000008 ++
    Machine.execAt 0x8000000c

/-- The user-mode machine, with what its fetch of `addi t0, t0, 16` and of nothing else gives. -/
theorem userCsrCalls_user : ∃ m : Machine Unit,
    runSteps (Machine.step (ramOnly 4096)) userCsrProgram userCsrCalls = .ok m ∧
      m.priv = modeU ∧
      (∃ a i, m.arch.fetch (ramOnly 4096) 0x80000004 .zero = .ok (false, a, i) ∧
        i.inst = 0x01028293) ∧
      ∃ t, m.boundary.step (ramOnly 4096) (.decode 0x80000004 0x80000004 .zero) = .ok t ∧
        t.Executes excNone := by
  obtain ⟨m, ran, mode⟩ := exists_ok_of_toOption
    (show (runSteps (Machine.step (ramOnly 4096)) userCsrProgram userCsrCalls).toOption.map
      Machine.priv = some modeU by decide +kernel)
  have after {α β : Type} {f : Machine Unit → Except Abort α} {g : α → β} {v : β}
      (seen :
        (runSteps (Machine.step (ramOnly 4096)) userCsrProgram userCsrCalls >>= f).toOption.map
        g = some v) : ∃ x, f m = .ok x ∧ g x = v := by
    rw [ran] at seen
    exact exists_ok_of_toOption seen
  obtain ⟨⟨rvc, a, i⟩, fetched, fetch⟩ := after
    (f := fun m => m.arch.fetch (ramOnly 4096) 0x80000004 .zero)
    (g := fun f => (f.1, f.2.2.inst))
    (show _ = some (false, 0x01028293) by decide +kernel)
  obtain ⟨t, decoded, decode⟩ := after
    (f := fun m => m.boundary.step (ramOnly 4096) (.decode 0x80000004 0x80000004 .zero))
    (g := fun t => t.info.map DecodeInfo.exception)
    (show _ = some (some excNone) by decide +kernel)
  obtain ⟨rfl, inst⟩ := Prod.mk.inj fetch
  obtain ⟨info, record, code⟩ := Option.map_eq_some_iff.1 decode
  exact ⟨m, ran, mode, ⟨a, i, fetched, inst⟩, t, decoded, info, record, code⟩

/-- In user mode, with `addi t0, t0, 16` executed there. -/
theorem csrAccess_iff_userCsrProgram : ∃ m : Machine Unit,
    runSteps (Machine.step (ramOnly 4096)) userCsrProgram userCsrCalls = .ok m ∧
      m.priv = modeU ∧
    (∀ vaddr paddr slot rvc a i rd csrno access,
      m.arch.fetch (ramOnly 4096) paddr slot = .ok (rvc, a, i) →
        selected i.inst rvc = .csr rd csrno access →
          Returns (m.arch.decode (ramOnly 4096) vaddr paddr slot) fun r =>
            irqException r.1.state = none →
              ((Forbidden a.state csrno → Denied a vaddr paddr r) ↔
                ¬ Forbidden a.state csrno ∨ Refused a.state csrno access)) ∧
    Returns (runSteps (Machine.step (ramOnly 4096)) m.boundary (Machine.execAt 0x80000004))
      fun t => ∀ w, ¬ IsUserWord w → w ≠ .mip → t.arch.state.get w = m.arch.state.get w := by
  obtain ⟨m, ran, user, ⟨a, i, fetched, inst⟩, t, decoded, executes⟩ := userCsrCalls_user
  obtain ⟨denies, keeps⟩ := csrAccess_iff (ramOnly 4096) (m := m)
    ⟨archCfg, _, userCsrCalls, by decide, ran⟩
  have body : ∃ rd value type, selected 0x01028293 false = .compute rd value type :=
    ⟨_, _, _, rfl⟩
  obtain ⟨rd, value, type, plain⟩ := body
  refine ⟨m, ran, user, denies,
    (keeps user (Machine.execAt 0x80000004) ?_).mono fun _ kept => kept.1⟩
  intro u c visit
  cases visit with
  | here =>
      refine ⟨?_, ?_⟩
      · intro rvc a' i' fetched'
        cases fetched.symm.trans fetched'
        rw [inst, plain]
        trivial
      · intro rvc a' i' rd' csrno access fetched' csr
        cases fetched.symm.trans fetched'
        rw [inst, plain] at csr
        cases csr
  | later moved next =>
      cases decoded.symm.trans moved
      cases next with
      | here => exact executes
      | later _ none => cases none

/-- In user mode, `csrw mscratch, t0` is forbidden, is not denied, and changes
`mscratch`. -/
theorem not_csrAccess_userCsrProgram :
    ∃ m : Machine Unit, m.Reachable (ramOnly 4096) ∧ m.priv = modeU ∧
      (∃ rvc a i rd csrno access,
        m.arch.fetch (ramOnly 4096) 0x80000010 .zero = .ok (rvc, a, i) ∧
          selected i.inst rvc = .csr rd csrno access ∧ Forbidden a.state csrno ∧
          ∃ r, m.arch.decode (ramOnly 4096) 0x80000010 0x80000010 .zero = .ok r ∧
            irqException r.1.state = none ∧ ¬ Denied a 0x80000010 0x80000010 r) ∧
      ∃ t, runSteps (Machine.step (ramOnly 4096)) m.boundary (Machine.execAt 0x80000010) =
          .ok t ∧ t.Executes excNone ∧
        t.arch.state.get .mscratch ≠ m.arch.state.get .mscratch := by
  obtain ⟨m, ran, mode⟩ := exists_ok_of_toOption
    (show (runSteps (Machine.step (ramOnly 4096)) userCsrProgram userCsrCalls).toOption.map
      (fun m => (m.priv, m.arch.state.get .mscratch)) = some (modeU, 0) by decide +kernel)
  have after {α β : Type} {f : Machine Unit → Except Abort α} {g : α → β} {v : β}
      (seen :
        (runSteps (Machine.step (ramOnly 4096)) userCsrProgram userCsrCalls >>= f).toOption.map
        g = some v) : ∃ x, f m = .ok x ∧ g x = v := by
    rw [ran] at seen
    exact exists_ok_of_toOption seen
  obtain ⟨⟨rvc, a, i⟩, fetched, fetch⟩ := after
    (f := fun m => m.arch.fetch (ramOnly 4096) 0x80000010 .zero)
    (g := fun f => (f.1, f.2.1.state.get .priv, f.2.2.inst))
    (show _ = some (false, modeU, 0x34029073) by decide +kernel)
  obtain ⟨r, decoded, decode⟩ := after
    (f := fun m => m.arch.decode (ramOnly 4096) 0x80000010 0x80000010 .zero)
    (g := fun r => (irqException r.1.state, r.2.exception))
    (show _ = some (none, excNone) by decide +kernel)
  obtain ⟨t, executed, run⟩ := after
    (f := fun m => runSteps (Machine.step (ramOnly 4096)) m.boundary (Machine.execAt 0x80000010))
    (g := fun t => (t.info.map DecodeInfo.exception, t.arch.state.get .mscratch))
    (show _ = some (some excNone, 0x80000010) by decide +kernel)
  simp only [Prod.mk.injEq] at mode fetch decode run
  obtain ⟨user, zero⟩ := mode
  obtain ⟨rfl, low, inst⟩ := fetch
  obtain ⟨info, record, code⟩ := Option.map_eq_some_iff.1 run.1
  have body : ∃ access, selected 0x34029073 false = .csr 0 0x340 access := ⟨_, rfl⟩
  obtain ⟨access, csr⟩ := body
  refine ⟨m, ⟨archCfg, _, userCsrCalls, by decide, ran⟩, user,
    ⟨false, a, i, 0, 0x340, access, fetched, by rw [inst, csr], ?_, r, decoded, decode.1, ?_⟩,
    t, executed, ⟨info, record, code⟩, ?_⟩
  · left
    rw [low]
    decide
  · rintro ⟨raised, -⟩
    rw [decode.2] at raised
    exact absurd raised (by decide)
  · rw [zero, run.2]
    decide

end CPUDelaySim.Riscv
