import CPUDelaySim.Riscv.CsrInstr

/-!
# The law of the control and status registers

The manual gives every register of the table a stored word, or none, and a fixed set of
bits that instructions may write.  The simulator has two mechanisms for it: `read` and
`write` callbacks around a merged value, and `op` callbacks under a mask.  Both obey one
law, and the callbacks that do not are the `assert(0)` behind `mcycle` and `minstret`
(`csrObeys_iff`).

The registers of the floating-point unit and the views `sstatus`, `sie` and `sip` of
machine registers are left to other modules.

`CsrShape` lists the ways an entry of the table implements a register, and `Aims` says in one form
what all of them do to the destination of the record; so the table is gone through once, and each
shape is compared with `csrNext` once.
-/

namespace CPUDelaySim.Riscv

variable {δ : Type}

open RiscvArch

/-! ### What a register stores -/

/-- The single registers with a stored word: the number, the word, and the bits that
instructions may write. -/
def csrStored : List (BitVec 12 × StateWord × Word) := [
    (0xf11, .mvendorid, 0), (0xf12, .marchid, 0), (0xf13, .mimpid, 0), (0xf14, .mhartid, 0),
    (0x300, .mstatus, mstatusMask), (0x301, .misa, 0), (0x302, .medeleg, delegableExcps),
    (0x303, .mideleg, delegableInts), (0x304, .mie, allInts), (0x305, .mtvec, ~~~2),
    (0x306, .mcounteren, 7), (0x30a, .menvcfg, menvcfgMask), (0x320, .mcountinhibit, 0),
    (0x340, .mscratch, fullMask), (0x341, .mepc, fullMask), (0x342, .mcause, fullMask),
    (0x343, .mtval, fullMask), (0x344, .mip, delegableInts), (0x3a0, .pmpcfg 0, fullMask),
    (0x3a2, .pmpcfg 1, fullMask), (0x105, .stvec, ~~~2), (0x106, .scounteren, 7),
    (0x10a, .senvcfg, menvcfgMask), (0x140, .sscratch, fullMask), (0x141, .sepc, fullMask),
    (0x142, .scause, fullMask), (0x143, .stval, fullMask),
    (0x180, .satp, 0x800fffffffffffff)]

/-- The stored word of a register and its writable bits. -/
def csrField (csrno : BitVec 12) : Option (StateWord × Word) :=
  if 0x3b0 ≤ csrno ∧ csrno ≤ 0x3bf then some (.pmpaddr (csrno.extractLsb' 0 4), ~~~0x3ff)
  else (csrStored.find? fun e => e.1 = csrno).map (·.2)

/-- The value of a register: its stored word, or a counter.  `mstatus` shows its summary
bit and hides what is not implemented; `mvendorid` has 32 bits. -/
def csrValue (csrno : BitVec 12) (s : ArchState) (tick instret : Word) : Word :=
  if csrno = 0x300 then
    (s.get .mstatus &&& (mstatusMask ||| mstatus64UXL ||| mstatus64SXL)) |||
      statusSd (s.get .mstatus)
  else if csrno = 0xf11 then s.get .mvendorid &&& 0xffffffff
  else if csrno = 0xb00 ∨ csrno = 0xc00 ∨ csrno = 0xc01 then tick
  else if csrno = 0xb02 ∨ csrno = 0xc02 then instret
  else
    match csrField csrno with
    | some (w, _) => s.get w
    | none => 0

/-- The modes of `satp` that are implemented. -/
def SatpMode (v : Word) : Prop := v >>> 60 = 0 ∨ v >>> 60 = 8

instance (v : Word) : Decidable (SatpMode v) := by unfold SatpMode; infer_instance

/-- A register after a write: the writable bits are those of the new value, the others
stay; `satp` stays as it is when the mode is not implemented. -/
def csrNext (csrno : BitVec 12) (s : ArchState) (new : Word) : ArchState :=
  match csrField csrno with
  | none => s
  | some (w, mask) =>
      if csrno = 0x180 ∧ ¬ SatpMode new then s
      else s.set w ((s.get w &&& ~~~mask) ||| (new &&& mask))

/-- No register is a general one. -/
theorem csrField_gpr {csrno : BitVec 12} {w : StateWord} {mask : Word}
    (field : csrField csrno = some (w, mask)) (i : BitVec 5) : w ≠ .gpr i := by
  unfold csrField at field
  split at field
  · cases field
    nofun
  · obtain ⟨e, found, same⟩ := Option.map_eq_some_iff.1 field
    have listed : ∀ e ∈ csrStored, ∀ i, e.2.1 ≠ .gpr i := by
      simp [csrStored]
    have other := listed e (List.mem_of_find?_eq_some found) i
    rwa [same] at other

/-- Writing the bits that are there changes nothing. -/
theorem mergeMask_self {old mask data : Word} (same : data &&& mask = old &&& mask) :
    mergeMask old mask data = old := by
  apply BitVec.eq_of_getLsbD_eq
  intro i _
  have bit := congrArg (·.getLsbD i) same
  simp only [BitVec.getLsbD_and] at bit
  rw [mergeMask_getLsbD]
  cases live : mask.getLsbD i with
  | false => simp
  | true => simpa [live] using bit

/-- Two writes under a mask: the second sees what the first merged. -/
theorem mergeMask_and (old mask mask' data : Word) :
    mergeMask old (mask &&& mask') data = mergeMask old mask (mergeMask old mask' data) := by
  apply BitVec.eq_of_getLsbD_eq
  intro i _
  simp only [mergeMask_getLsbD, BitVec.getLsbD_and]
  cases mask.getLsbD i <;> cases mask'.getLsbD i <;> simp

/-- The writable bits of a register are bits of its value. -/
theorem csrValue_and {csrno : BitVec 12} {w : StateWord} {mask : Word}
    (field : csrField csrno = some (w, mask)) (s : ArchState) (tick instret : Word) :
    csrValue csrno s tick instret &&& mask = s.get w &&& mask := by
  unfold csrValue
  split_ifs with status vendor cycle count
  · subst status
    cases field
    have summary : statusSd (s.get .mstatus) &&& mstatusMask = 0 := by
      unfold statusSd
      split <;> decide
    have shown : (mstatusMask ||| mstatus64UXL ||| mstatus64SXL) &&& mstatusMask =
        mstatusMask := by decide
    rw [BitVec.and_or_distrib_right, summary, BitVec.and_assoc, shown]
    exact BitVec.or_zero
  · subst vendor
    cases field
    simp
  · rcases cycle with rfl | rfl | rfl <;> cases field
  · rcases count with rfl | rfl <;> cases field
  · rw [field]

/-- A register keeps its state when its own value is written. -/
theorem csrNext_self (csrno : BitVec 12) (s : ArchState) (tick instret : Word) :
    csrNext csrno s (csrValue csrno s tick instret) = s := by
  unfold csrNext
  split
  · rfl
  · rename_i w mask field
    split_ifs
    · rfl
    · have same := mergeMask_self (csrValue_and field s tick instret)
      rw [mergeMask] at same
      rw [same, ArchState.set_get]

/-! ### The two mechanisms -/

/-- The two registers whose `write` callback is `assert(0)`. -/
def IsStuckCsr (csrno : BitVec 12) : Prop := csrno = 0xb00 ∨ csrno = 0xb02

instance (csrno : BitVec 12) : Decidable (IsStuckCsr csrno) := by
  unfold IsStuckCsr; infer_instance

/-- What the `write` callback of an entry does. -/
inductive CsrWriteShape (csrno : BitVec 12) : Option CsrWrite → Prop
  | masked {w : StateWord} {mask : Word} (field : csrField csrno = some (w, mask))
      (other : csrno ≠ 0x180) : CsrWriteShape csrno (some (.masked w mask))
  | satp (number : csrno = 0x180) : CsrWriteShape csrno (some .satp)
  | noop (field : ∀ w mask, csrField csrno = some (w, mask) → mask = 0)
      (number : ¬ IsStuckCsr csrno) : CsrWriteShape csrno (some .noop)
  | missing (readOnly : csrno >>> 10 = 3) : CsrWriteShape csrno none
  | illegal (number : csrno = 0x301) : CsrWriteShape csrno (some .illegal)
  | assertFail (number : IsStuckCsr csrno) : CsrWriteShape csrno (some .assertFail)

/-- How an entry implements its register. -/
inductive CsrShape (csrno : BitVec 12) (ops : CsrOps) : Prop
  | rmw {w : StateWord} {mask : Word} (field : csrField csrno = some (w, mask))
      (value : ∀ s tick instret, csrValue csrno s tick instret = s.get w)
      (other : csrno ≠ 0x180) (op : ops.op = some ⟨w, fun _ => mask⟩)
  | plain (op : ops.op = none) (read : ops.read = some (.plain (csrValue csrno)))
      (write : CsrWriteShape csrno ops.write)
  | odd (number : csrno = 0x3a1 ∨ csrno = 0x3a3) (op : ops.op = none)
      (read : ops.read = some .illegal)

/-- The views of machine registers, and the registers of the floating-point unit. -/
def IsCsrView (csrno : BitVec 12) : Prop :=
  IsFpCsr csrno ∨ csrno = 0x100 ∨ csrno = 0x104 ∨ csrno = 0x144

/-- The event counters store nothing and read as zero. -/
theorem csrField_hpm {csrno : BitVec 12}
    (range : (0xc03 ≤ csrno ∧ csrno ≤ 0xc1f) ∨ (0xb03 ≤ csrno ∧ csrno ≤ 0xb1f)) :
    csrField csrno = none ∧ csrValue csrno = fun _ _ _ => 0 := by
  have apart : ∀ n ∈ [0x300, 0xf11, 0xb00, 0xc00, 0xc01, 0xb02, 0xc02] ++ csrStored.map Prod.fst,
      csrno ≠ n := by
    intro n known same
    subst same
    have outside : (([0x300, 0xf11, 0xb00, 0xc00, 0xc01, 0xb02, 0xc02] ++
        csrStored.map Prod.fst).all fun n : BitVec 12 =>
          !((0xc03 ≤ n && n ≤ 0xc1f) || (0xb03 ≤ n && n ≤ 0xb1f))) = true := by decide
    have other := List.all_eq_true.1 outside _ known
    simp only [Bool.not_or, Bool.not_and, Bool.and_eq_true, Bool.or_eq_true, Bool.not_eq_true',
      decide_eq_false_iff_not] at other
    bv_omega
  have field : csrField csrno = none := by
    rw [csrField, if_neg (by bv_omega), List.find?_eq_none.2, Option.map_none]
    intro e listed
    have other := apart e.1 (List.mem_append_right _ (List.mem_map_of_mem listed))
    simpa using other.symm
  refine ⟨field, ?_⟩
  funext s tick instret
  unfold csrValue
  rw [field, if_neg (apart _ (by decide)), if_neg (apart _ (by decide)), if_neg, if_neg]
  · rintro (same | same) <;> exact apart _ (by decide) same
  · rintro (same | same | same) <;> exact apart _ (by decide) same

/-- The rows of `csr_ops` other than the views have one of the shapes. -/
theorem csrTable_shape : ∀ r ∈ csrTable, ∀ csrno, r.first ≤ csrno → csrno ≤ r.last →
    ¬ IsCsrView csrno → CsrShape csrno (r.ops csrno) := by
  simp only [csrTable, List.forall_mem_cons, CsrRow.one, CsrOps.rw, CsrOps.ro, CsrOps.rmw]
  refine ⟨?_, ?_, ?_, ?_, ?_, ?_, ?_, ?_, ?_, ?_, ?_, ?_, ?_, ?_, ?_, ?_, ?_, ?_, ?_, ?_, ?_,
    ?_, ?_, ?_, ?_, ?_, ?_, ?_, ?_, ?_, ?_, ?_, ?_, ?_, ?_, ?_, ?_, ?_, ?_, ?_, ?_,
    by rintro r ⟨⟩⟩
  all_goals intro csrno low high scope
  case refine_37 =>
    have listed : csrno = 0x3a0 ∨ csrno = 0x3a1 ∨ csrno = 0x3a2 ∨ csrno = 0x3a3 := by bv_omega
    rcases listed with rfl | rfl | rfl | rfl
    · exact .plain rfl rfl (.masked rfl (by decide))
    · exact .odd (.inl rfl) rfl rfl
    · exact .plain rfl rfl (.masked rfl (by decide))
    · exact .odd (.inr rfl) rfl rfl
  case refine_38 =>
    have field : csrField csrno = some (.pmpaddr (csrno.extractLsb' 0 4), ~~~0x3ff) :=
      if_pos ⟨low, high⟩
    have other (n : BitVec 12) (outside : n < 0x3b0 ∨ 0x3bf < n) : csrno ≠ n := by bv_omega
    have value : csrValue csrno = fun s _ _ => s.get (.pmpaddr (csrno.extractLsb' 0 4)) := by
      funext s tick instret
      unfold csrValue
      rw [if_neg (other _ (by decide)), if_neg (other _ (by decide)), if_neg, if_neg, field]
      · rintro (rfl | rfl) <;> revert low high <;> decide
      · rintro (rfl | rfl | rfl) <;> revert low high <;> decide
    refine .plain rfl ?_ ?_
    · rw [value]
      rfl
    · exact .masked field (other _ (by decide))
  case refine_40 | refine_41 =>
    obtain ⟨field, value⟩ :=
      csrField_hpm (by first | exact .inl ⟨low, high⟩ | exact .inr ⟨low, high⟩)
    refine .plain rfl ?_ (.noop (fun w mask stored => ?_) ?_)
    · rw [value]
      rfl
    · rw [field] at stored
      cases stored
    · rintro (rfl | rfl) <;> exact absurd low (by decide)
  all_goals cases BitVec.le_antisymm high low
  case refine_1 | refine_2 | refine_3 | refine_27 | refine_28 | refine_35 =>
    simp [IsCsrView, IsFpCsr] at scope
  all_goals first
    | exact .plain rfl rfl (.masked rfl (by decide))
    | exact .plain rfl rfl (.satp rfl)
    | exact .plain rfl rfl (.missing rfl)
    | exact .plain rfl rfl (.illegal rfl)
    | exact .plain rfl rfl (.assertFail (by decide))
    | exact .rmw rfl (fun _ _ _ => rfl) (by decide) rfl
    | exact .plain rfl rfl (.noop (by rintro w mask ⟨⟩; rfl) (by decide))

/-- So has any CSR that is registered and no view. -/
theorem csrOps_shape {csrno : BitVec 12} {ops : CsrOps} (registered : csrOps csrno = some ops)
    (scope : ¬ IsCsrView csrno) : CsrShape csrno ops :=
  csrOps_of_table (p := fun csrno ops => ¬ IsCsrView csrno → CsrShape csrno ops)
    (fun r row csrno low high => csrTable_shape r row csrno low high) registered scope

/-- The second destination brings a register to its next state, in every state with the
same registers. -/
def Aims (csrno : BitVec 12) (s : ArchState) (new : Word) (d : Dst) : Prop :=
  ∀ i v, (s.set (.gpr i) v).commit d = .ok (csrNext csrno (s.set (.gpr i) v) new)

/-- The destination of a CSR with a field of its own. -/
theorem aims_field {csrno : BitVec 12} {w : StateWord} {mask : Word}
    (field : csrField csrno = some (w, mask)) {s : ArchState} {new : Word}
    (mode : csrno = 0x180 → SatpMode new) : Aims csrno s new ⟨w.idx, mask, new⟩ := by
  intro i v
  rw [ArchState.commit_idx, csrNext, field]
  dsimp only
  rw [if_neg fun unsupported => unsupported.2 (mode unsupported.1), mergeMask]

/-- A write that has no destination aims at nothing, if the manual asks for no change. -/
theorem aims_none {csrno : BitVec 12} {s : ArchState} {new : Word} {d : Dst}
    (cleared : d.mask = 0#64) (same : ∀ t, csrNext csrno t new = t) : Aims csrno s new d := by
  intro i v
  rw [ArchState.commit_of_mask_zero _ cleared, same]

/-- A stuck CSR has no field. -/
theorem csrField_stuck {csrno : BitVec 12} (stuck : IsStuckCsr csrno) :
    csrField csrno = none := by
  rcases stuck with rfl | rfl <;> rfl

/-- The value of a CSR does not depend on the integer registers. -/
theorem csrValue_set_gpr (csrno : BitVec 12) (s : ArchState) (i : BitVec 5)
    (v tick instret : Word) :
    csrValue csrno (s.set (.gpr i) v) tick instret = csrValue csrno s tick instret := by
  unfold csrValue
  split_ifs
  · rw [ArchState.get_set_of_ne _ _ (by simp)]
  · rw [ArchState.get_set_of_ne _ _ (by simp)]
  · rfl
  · rfl
  · split
    · rename_i field
      rw [ArchState.get_set_of_ne _ _ (csrField_gpr field i)]
    · rfl

/-- Nothing is prepared, and the register has its own value for its next one. -/
theorem aims_self (csrno : BitVec 12) (s : ArchState) (tick instret : Word) {d : Dst}
    (cleared : d.mask = 0#64) : Aims csrno s (csrValue csrno s tick instret) d := by
  intro i v
  rw [ArchState.commit_of_mask_zero _ cleared, ← csrValue_set_gpr csrno s i v, csrNext_self]

section Access

variable {P : Platform δ} {csrno : BitVec 12} {ops : CsrOps} {ctx : Ctx δ}

/-- The `write` callback prepares the next state, or stops the simulator. -/
theorem csrWrite_shape (shape : CsrWriteShape csrno ops.write) (fresh : Fresh ctx.info)
    (writable : csrno >>> 10 ≠ 3) (misa : csrno ≠ 0x301) (new : Word) :
    if IsStuckCsr csrno then csrWrite ops new ctx = .error .assertFail
    else ∃ d, csrWrite ops new ctx = .ok (ctx.setDst1 d) ∧ Aims csrno ctx.arch.state new d := by
  have still : ctx = ctx.setDst1 ctx.info.dst1 := rfl
  unfold csrWrite
  generalize ops.write = write at shape ⊢
  cases shape with
  | masked field other =>
      rw [if_neg fun stuck => by simp [csrField_stuck stuck] at field]
      exact ⟨_, rfl, aims_field field fun number => absurd number other⟩
  | satp number =>
      subst number
      rw [if_neg (by decide)]
      dsimp only
      by_cases mode : SatpMode new
      · exact ⟨_, if_pos mode, aims_field rfl fun _ => mode⟩
      · exact ⟨_, (if_neg mode).trans (congrArg _ still),
          aims_none fresh.mask1 fun t => if_pos ⟨rfl, mode⟩⟩
  | noop field number =>
      rw [if_neg number]
      refine ⟨_, congrArg Except.ok still, aims_none fresh.mask1 fun t => ?_⟩
      unfold csrNext
      split
      · rfl
      · rename_i w mask found
        cases field w mask found
        rw [← mergeMask, show mergeMask (t.get w) 0 new = t.get w from mergeMask_zero _ _,
          ArchState.set_get, ite_self]
  | missing readOnly => exact absurd readOnly writable
  | illegal number => exact absurd number misa
  | assertFail number => rw [if_pos number]

/-- An access that changes a bit is a write. -/
theorem isWrite_of_mask {access : CsrAccess} {s : ArchState} (live : access.mask s ≠ 0) :
    access.isWrite = true := by
  cases access with
  | read => exact absurd rfl live
  | write src mask => rfl

/-- A write to `mcycle` or `minstret` stops the simulator. -/
theorem doCsr_stuck {rd : BitVec 5} {access : CsrAccess} (stuck : IsStuckCsr csrno)
    (live : access.mask ctx.arch.state ≠ 0) :
    doCsr P rd csrno access ctx = .error .assertFail := by
  rcases stuck with rfl | rfl
  · have checked : riscvCsrrwCheck 0xb00 access.isWrite =
        some (.rw .any readCycle writeMhpmcounter) := by
      rw [riscvCsrrwCheck_eq_some]
      exact ⟨rfl, fun readOnly => absurd readOnly.2 (by decide)⟩
    rw [doCsr_plain checked rfl rfl]
    exact if_neg live
  · have checked : riscvCsrrwCheck 0xb02 access.isWrite =
        some (.rw .any readInstret writeMhpmcounter) := by
      rw [riscvCsrrwCheck_eq_some]
      exact ⟨rfl, fun readOnly => absurd readOnly.2 (by decide)⟩
    rw [doCsr_plain checked rfl rfl]
    exact if_neg live

/-- A refused access leaves the machine as it is. -/
theorem doCsr_refused {rd : BitVec 5} {access : CsrAccess} (scope : ¬ IsCsrView csrno)
    (refused : Refused ctx.arch.state csrno access) :
    ∃ c, doCsr P rd csrno access ctx = .ok c ∧ c.arch = ctx.arch := by
  cases checked : riscvCsrrwCheck csrno access.isWrite with
  | none =>
      simp only [doCsr, checked]
      exact ⟨_, rfl, rfl⟩
  | some ops =>
      obtain ⟨registered, writable⟩ := (riscvCsrrwCheck_eq_some _ _ _).1 checked
      rcases refused with missing | readOnly | ⟨fp, -⟩ | rfl | rfl | ⟨rfl, live⟩
      · rw [registered] at missing
        cases missing
      · exact absurd readOnly writable
      · exact absurd (.inl fp) scope
      · cases registered
        simp only [doCsr, checked]
        exact ⟨_, rfl, rfl⟩
      · cases registered
        simp only [doCsr, checked]
        exact ⟨_, rfl, rfl⟩
      · cases registered
        rw [doCsr_plain checked rfl rfl]
        exact ⟨_, if_neg live, rfl⟩

/-- An access that is not refused reads the register and prepares its next state, unless
it writes `mcycle` or `minstret`. -/
theorem doCsr_law (c : CsrInstr) (zero : ctx.arch.state.gpr 0 = 0) (fresh : Fresh ctx.info)
    (scope : ¬ IsCsrView c.csr) (allowed : ¬ Refused ctx.arch.state c.csr c.access)
    (stays : IsStuckCsr c.csr → c.access.mask ctx.arch.state = 0) :
    let s := ctx.arch.state
    let old := csrValue c.csr s ctx.arch.tick ctx.arch.instret
    ∃ d, doCsr P c.rd c.csr c.access ctx = .ok ((ctx.setDst1 d).setDst0 (.gpr c.rd) old) ∧
      Aims c.csr s (c.op.apply old (c.operand s)) d := by
  intro s old
  simp only [Refused, CallbackRefuses, not_or] at allowed
  obtain ⟨known, writable, -, odd, odd', misa⟩ := allowed
  obtain ⟨ops, registered⟩ := Option.ne_none_iff_exists'.1 known
  have checked := (riscvCsrrwCheck_eq_some c.csr c.access.isWrite ops).2 ⟨registered, writable⟩
  rw [← c.merge_eq zero]
  cases csrOps_shape registered scope with
  | @rmw w mask field value other op =>
      have reads : old = s.get w := value _ _ _
      refine ⟨⟨w.idx, mask &&& c.access.mask s, c.access.src s⟩, ?_, ?_⟩
      · rw [reads]
        exact doCsr_rmw checked op
      · intro i v
        have same : (s.set (.gpr i) v).get w = s.get w :=
          ArchState.get_set_of_ne _ _ (csrField_gpr field i)
        rw [ArchState.commit_idx, mergeMask_and, csrNext, field]
        dsimp only
        rw [if_neg fun number => other number.1, same, reads, mergeMask]
  | plain op read write =>
      have run : doCsr P c.rd c.csr c.access ctx = _ := doCsr_plain checked op read
      by_cases dead : c.access.mask s = 0
      · refine ⟨ctx.info.dst1, run.trans (if_pos dead), ?_⟩
        rw [dead, show mergeMask old 0 (c.access.src s) = old from mergeMask_zero _ _]
        exact aims_self c.csr s _ _ fresh.mask1
      · have number : ¬ IsStuckCsr c.csr := fun stuck => dead (stays stuck)
        have prepared := csrWrite_shape write fresh
          (fun readOnly => writable ⟨isWrite_of_mask dead, readOnly⟩)
          (fun number => misa ⟨number, dead⟩) (mergeMask old (c.access.mask s) (c.access.src s))
        rw [if_neg number] at prepared
        obtain ⟨d, wrote, aims⟩ := prepared
        refine ⟨d, run.trans ?_, aims⟩
        dsimp only
        rw [if_neg dead, wrote]
        rfl
  | odd number => exact absurd number (not_or.2 ⟨odd, odd'⟩)

end Access

/-! ### The law -/

/-- The machine after a CSR instruction: `rd` holds the old value, the register its next
state. -/
def RiscvArch.afterCsr (a : RiscvArch δ) (vaddr paddr : Word) (c : CsrInstr) : RiscvArch δ :=
  let old := csrValue c.csr a.state a.tick a.instret
  let new := c.op.apply old (c.operand a.state)
  ({ a with
    pc := vaddr
    paddr := paddr
    state := (csrNext c.csr (a.state.set (.gpr c.rd) old) new).set (.gpr 0) 0 } :
      RiscvArch δ).updateMMUState

/-- A refused access raises `EXC_II` and changes nothing, any other is committed. -/
def CsrObeys (P : Platform δ) (arch a : RiscvArch δ) (vaddr paddr : Word) (slot : DecodeInfo)
    (c : CsrInstr) : Prop :=
  (Refused a.state c.csr c.access ∧
    ∃ r, arch.decode P vaddr paddr slot = .ok r ∧ Denied a vaddr paddr r) ∨
  (¬ Refused a.state c.csr c.access ∧
    Completes P arch vaddr paddr slot (vaddr + 4) (a.afterCsr vaddr paddr c))

/-- In every reachable machine, a CSR instruction on a CSR that is no view does what the manual
says, unless it writes a stuck one. The stuck ones are `mcycle` and `minstret`, whose write
callback is an assertion that fails. The law covers what is read, what is stored, and which
fields are not to be written. -/
theorem csrObeys_iff (P : Platform δ) {m : Machine δ} (reached : m.Reachable P)
    {vaddr paddr : Word} {slot : DecodeInfo} {c : CsrInstr} {a : RiscvArch δ}
    (scope : ¬ IsCsrView c.csr) (fetches : Fetches P m.arch paddr slot false c.word a)
    (quiet : irqException a.state = none) :
    CsrObeys P m.arch a vaddr paddr slot c ↔
      ¬ (IsStuckCsr c.csr ∧ (c.op = .rw ∨ c.operand a.state ≠ 0)) := by
  obtain ⟨i, fetched, word⟩ := fetches
  have frame := fetch_frame P m.arch paddr slot _ fetched
  have zero : a.state.gpr 0 = 0 := (frame.get (by decide)).trans reached.zero
  have writes : (c.op = .rw ∨ c.operand a.state ≠ 0) ↔ c.access.mask a.state ≠ 0 := by
    rw [ne_eq, ne_eq, c.mask_eq_zero zero]
    tauto
  rw [writes]
  let ctx := bodyCtx a vaddr paddr i
  constructor
  · rintro obeys ⟨stuck, live⟩
    -- A write to a register whose callback asserts stops the program.
    have stops : doCsr P c.rd c.csr c.access ctx = .error .assertFail := doCsr_stuck stuck live
    rcases obeys with ⟨refused, -⟩ | ⟨-, completes⟩
    · obtain ⟨c', ran, -⟩ : ∃ c', doCsr P c.rd c.csr c.access ctx = .ok c' ∧
          c'.arch = ctx.arch := doCsr_refused scope refused
      rw [stops] at ran
      cases ran
    · exact not_completes fetched (exec_csrInstr word stops) completes
  · intro condition
    -- A refused access leaves the machine, any other one obeys the law.
    by_cases refused : Refused a.state c.csr c.access
    · refine .inl ⟨refused, ?_⟩
      obtain ⟨c', ran, same⟩ : ∃ c', doCsr P c.rd c.csr c.access ctx = .ok c' ∧
          c'.arch = ctx.arch := doCsr_refused scope refused
      obtain ⟨r, decoded, kept⟩ : ∃ r, m.arch.decode P vaddr paddr slot = .ok r ∧
          r.1.state = a.state := by
        rw [decode_eq, fetched]
        change ∃ r, ((selected i.inst false).exec P ctx >>= _) = .ok r ∧ _
        rw [exec_csrInstr word ran]
        refine ⟨_, rfl, ?_⟩
        change c'.arch.state = a.state
        rw [same]
        rfl
      have body : selected i.inst false = .csr c.rd c.csr c.access := by
        rw [word, c.selected_eq, c.trans_eq]
      refine ⟨r, decoded, ?_⟩
      refine (denied_iff_refused P reached vaddr paddr slot fetched body r decoded ?_).2 refused
      rw [kept]
      exact quiet
    · refine .inr ⟨refused, ?_⟩
      have stays : IsStuckCsr c.csr → c.access.mask ctx.arch.state = 0 :=
        fun stuck => by_contra fun live => condition ⟨stuck, live⟩
      have fresh : Fresh ctx.info := fresh_cleared i
      obtain ⟨d, ran, aims⟩ := doCsr_law (P := P) c zero fresh scope refused stays
      have dsts := commitDsts_csr fresh
        (aims c.rd (csrValue c.csr a.state a.tick a.instret))
      exact (completes_csr_iff fetched word ran quiet fresh.exception rfl dsts).2
        ⟨rfl, rfl⟩

/-- RAM holds one instruction. -/
def csrMachine (c : CsrInstr) : Machine Unit := Machine.reset archCfg (imageOf [c.word])

/-- `csrrs x5, satp, x6`. -/
def csrrsSatp : CsrInstr := ⟨.rs, false, 0x180, 6, 5⟩

/-- `csrrw x0, mcycle, x0`. -/
def csrwMcycle : CsrInstr := ⟨.rw, false, 0xb00, 0, 0⟩

/-- A `csrrs` on `satp`, from the machine as it is reset. -/
theorem csrObeys_iff_csrrsSatp :
    CsrObeys (ramOnly 4096) (csrMachine csrrsSatp).arch (csrMachine csrrsSatp).arch 0x80000000
        0x80000000 .zero csrrsSatp ↔
      ¬ (IsStuckCsr csrrsSatp.csr ∧ (csrrsSatp.op = .rw ∨
        csrrsSatp.operand (csrMachine csrrsSatp).arch.state ≠ 0)) :=
  csrObeys_iff (ramOnly 4096) ⟨archCfg, _, [], by decide, rfl⟩
    (by simp [IsCsrView, IsFpCsr, csrrsSatp]) ⟨_, rfl, by decide +kernel⟩ (by decide +kernel)

/-- In machine mode, a write to `mcycle` reaches an `assert(0)`. -/
theorem not_csrObeys_csrwMcycle :
    (csrMachine csrwMcycle).Reachable (ramOnly 4096) ∧ (csrMachine csrwMcycle).priv = modeM ∧
      ¬ IsCsrView csrwMcycle.csr ∧
      ∃ a, Fetches (ramOnly 4096) (csrMachine csrwMcycle).arch 0x80000000 .zero false
          csrwMcycle.word a ∧ irqException a.state = none ∧
        ¬ CsrObeys (ramOnly 4096) (csrMachine csrwMcycle).arch a 0x80000000 0x80000000 .zero
          csrwMcycle := by
  refine ⟨⟨archCfg, _, [], by decide, rfl⟩, by decide,
    by simp [IsCsrView, IsFpCsr, csrwMcycle], _, ⟨_, rfl, by decide +kernel⟩,
    by decide +kernel, ?_⟩
  have stops : ((csrMachine csrwMcycle).arch.decode (ramOnly 4096) 0x80000000 0x80000000
      .zero).toOption.isNone = true := by decide +kernel
  rintro (⟨-, r, decoded, -⟩ | ⟨-, r, decoded, -⟩)
  · rw [decoded] at stops
    cases stops
  · rw [decoded] at stops
    cases stops

end CPUDelaySim.Riscv
