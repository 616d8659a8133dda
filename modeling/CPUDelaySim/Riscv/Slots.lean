import CPUDelaySim.Riscv.Patch
import CPUDelaySim.Riscv.Run

/-!
# Two records

`decode` clears the reused record only in part, so the same instruction may be decoded into two
different ones.  What `updateEnv` reads of them is `Alike` unless the body left a field stale: it
assigned no `type`, or it faulted without `exc_data` and no interrupt took the place of the fault.
`slotFree_iff` says that those are the only ways an earlier instruction shows.

`Alike` is an equivalence on records that `updateEnv` respects (`Alike.updateEnv`), and
`left_alike` says that two slots into which one word was fetched are left alike by `decode`.  The
converse needs a witness for each kind of stale field: an exception code, a destination or a trap
value that two records may differ in, so that the states after `updateEnv` differ in some word.
-/

namespace CPUDelaySim.Riscv

variable {δ : Type}

open RiscvArch

/-! ### What `updateEnv` reads -/

/-- Two destinations the commit loop treats alike. -/
def DstAlike (d e : Dst) : Prop := d = e ∨ d.mask = 0#64 ∧ e.mask = 0#64

/-- What the memory write and the next pc of a type read. -/
def CommitAlike (i j : DecodeInfo) : InstType → Prop
  | .amo | .store =>
      i.dst1.data = j.dst1.data ∧ i.dst2.idx = j.dst2.idx ∧ i.dst2.data = j.dst2.data
  | .sc => i.dst0.data = j.dst0.data ∧ (i.dst0.data = 0#64 →
      i.excData = j.excData ∧ i.dst2.idx = j.dst2.idx ∧ i.dst2.data = j.dst2.data)
  | .direct | .push | .indirect | .indCall | .indPush | .pop | .popPush =>
      i.dst2.data = j.dst2.data
  | .cond => i.dst1.data = j.dst1.data ∧ i.dst2.data = j.dst2.data
  | _ => True

/-- Two records that differ only in what `updateEnv` does not read. -/
structure Alike (i j : DecodeInfo) : Prop where
  exception : i.exception = j.exception
  type : i.type = j.type
  size : i.instSize = j.instSize
  tval : i.exception ∈ faultCodes → i.excData = j.excData
  dsts : i.exception = excNone →
    DstAlike i.dst0 j.dst0 ∧ DstAlike i.dst1 j.dst1 ∧ DstAlike i.dst2 j.dst2
  commits : i.exception = excNone → CommitAlike i j i.type

/-- Destinations that are alike are written alike. -/
theorem DstAlike.commit {d e : Dst} (alike : DstAlike d e) (s : ArchState) :
    s.commit d = s.commit e := by
  rcases alike with rfl | ⟨clear, clear'⟩
  · rfl
  · rw [s.commit_of_mask_zero clear, s.commit_of_mask_zero clear']

/-- A trap reads the code of its record only. -/
theorem trap_congr (a : RiscvArch δ) {i j : DecodeInfo} (same : i.exception = j.exception)
    (tval : Word) : a.trap i tval = a.trap j tval := by
  have irq : isIrq i = isIrq j := congrArg BitVec.msb same
  have mask : exceptionMask i = exceptionMask j := by
    rw [exceptionMask, same]
    rfl
  have delegated : edelegValid a.state i = edelegValid a.state j := by
    rw [edelegValid, irq, mask]
    rfl
  unfold trap
  rw [irq, delegated, same]

/-- A commit reads the three destinations of its record. -/
theorem commitDsts_congr (s : ArchState) {i j : DecodeInfo} (dst0 : DstAlike i.dst0 j.dst0)
    (dst1 : DstAlike i.dst1 j.dst1) (dst2 : DstAlike i.dst2 j.dst2) :
    commitDsts s i = commitDsts s j := by
  simp only [commitDsts, dst0.commit, dst1.commit, dst2.commit]

/-- The memory write reads the fields of its type. -/
theorem commitMemory_congr (P : Platform δ) (a : RiscvArch δ) {i j : DecodeInfo}
    (type : i.type = j.type) (alike : CommitAlike i j i.type) :
    commitMemory P a i = commitMemory P a j := by
  unfold commitMemory
  rw [← type]
  cases known : i.type with
  | amo | store =>
      rw [known] at alike
      obtain ⟨data, width, addr⟩ := alike
      dsimp only
      rw [data, width, addr]
  | sc =>
      rw [known] at alike
      obtain ⟨result, reads⟩ := alike
      dsimp only
      rw [← result]
      split
      next stores =>
        obtain ⟨va, width, data⟩ := reads stores
        rw [va, width, data]
      · rfl
  | _ => rfl

/-- The next pc reads the type, the length and, for a jump, the target. -/
theorem nextPc_congr (pc : Word) {i j : DecodeInfo} (type : i.type = j.type)
    (size : i.instSize = j.instSize) (alike : CommitAlike i j i.type) :
    nextPc pc i = nextPc pc j := by
  unfold nextPc
  rw [← type, size]
  cases known : i.type with
  | direct | push | indirect | indCall | indPush | pop | popPush =>
      rw [known] at alike
      exact alike
  | cond =>
      rw [known] at alike
      dsimp only
      rw [alike.1, alike.2]
  | _ => rfl

/-- `updateEnv` does the same for both. -/
theorem Alike.updateEnv {i j : DecodeInfo} (alike : Alike i j) (P : Platform δ)
    (a : RiscvArch δ) : a.updateEnv P i = a.updateEnv P j := by
  have irq : isIrq i = isIrq j := congrArg BitVec.msb alike.exception
  have trap (tval : Word) : a.trap i tval = a.trap j tval := trap_congr a alike.exception tval
  have tval := alike.tval
  have dsts := alike.dsts
  have commits := alike.commits
  rw [alike.exception] at tval dsts commits
  simp only [RiscvArch.updateEnv, irq, alike.exception, trap]
  split_ifs with _ _ fault _ _ _ code
  · rfl
  · rfl
  · rw [tval fault]
  · rfl
  · rfl
  · rfl
  · obtain ⟨dst0, dst1, dst2⟩ := dsts code
    simp only [commit, commitDsts_congr _ dst0 dst1 dst2,
      commitMemory_congr P _ alike.type (commits code),
      nextPc_congr _ alike.type alike.size (commits code)]
  · rfl

/-! ### What two patched records share -/

/-- The record `decode` leaves of a slot into which the word was fetched. -/
def left (a : RiscvArch δ) (p : Patch) (i : DecodeInfo) : DecodeInfo :=
  report ⟨a, p.apply (cleared i)⟩

/-- The code that `decode` leaves: an interrupt first, then that of the body. -/
theorem left_exception (a : RiscvArch δ) (p : Patch) (i : DecodeInfo) :
    (left a p i).exception = (irqException a.state).getD (p.exception.getD excNone) :=
  report_exception _

/-- An address that the body has noted does not depend on the record before. -/
theorem apply_excData {p : Patch} (given : p.excData.isSome = true) (i j : DecodeInfo) :
    (p.apply i).excData = (p.apply j).excData := by
  obtain ⟨data, data'⟩ := Option.isSome_iff_exists.1 given
  rw [Patch.apply, Patch.apply, data']
  rfl

/-- A destination that is cleared, or overwritten as a whole. -/
theorem getD_dstAlike {idx : Option (BitVec 16)} {mask data : Option Word}
    (aim : mask.isSome = true → idx.isSome = true ∧ data.isSome = true) (d e : Dst) :
    DstAlike ⟨idx.getD d.idx, mask.getD 0#64, data.getD d.data⟩
      ⟨idx.getD e.idx, mask.getD 0#64, data.getD e.data⟩ := by
  cases mask with
  | none => exact .inr ⟨rfl, rfl⟩
  | some mask =>
      obtain ⟨hasIdx, hasData⟩ := aim rfl
      obtain ⟨idx', rfl⟩ := Option.isSome_iff_exists.1 hasIdx
      obtain ⟨data', rfl⟩ := Option.isSome_iff_exists.1 hasData
      exact .inl rfl

/-- A commit that reads fields of the body only does not depend on the record before. -/
theorem commitAlike_of_settled {p : Patch} {type : InstType} (settled : CommitSettled p type)
    (i j : DecodeInfo) : CommitAlike (p.apply i) (p.apply j) type := by
  have given {α : Type} {o : Option α} (some : o.isSome = true) (a b : α) :
      o.getD a = o.getD b := by
    obtain ⟨v, rfl⟩ := Option.isSome_iff_exists.1 some
    rfl
  cases type with
  | amo | store => exact ⟨given settled.1 _ _, given settled.2.1 _ _, given settled.2.2 _ _⟩
  | sc =>
      obtain ⟨d, result, reads⟩ := settled
      simp only [CommitAlike, Patch.apply, result, Option.getD_some]
      refine ⟨trivial, fun stores => ?_⟩
      obtain ⟨va, width, data⟩ := reads stores
      exact ⟨given va _ _, given width _ _, given data _ _⟩
  | direct | push | indirect | indCall | indPush | pop | popPush => exact given settled _ _
  | cond => exact ⟨given settled.1 _ _, given settled.2 _ _⟩
  | _ => trivial

/-- Two slots that hold the same word are alike after a body that left no field stale. -/
theorem left_alike {P : Platform δ} {b : Body} {word : BitVec 32} {a a' : RiscvArch δ} {p : Patch}
    (spec : PatchSpec P b word a a' p) (typed : b.SetsType a.state)
    (loud : irqException a'.state = none → ¬ b.SilentFault P a) {i j : DecodeInfo}
    (size : i.instSize = j.instSize) : Alike (left a' p i) (left a' p j) := by
  obtain ⟨type, assigned⟩ := Option.isSome_iff_exists.1 (spec.type.2 typed)
  have kind (i : DecodeInfo) : (left a' p i).type = type := by
    rw [left, report_type, Patch.apply, assigned]
    rfl
  -- No interrupt is pending when the code is not that of one.
  have quiet {i : DecodeInfo} (low : (left a' p i).exception.msb = false) :
      irqException a'.state = none := by
    cases reported : irqException a'.state with
    | none => rfl
    | some code =>
        rw [left_exception, reported, Option.getD_some, irqException_msb reported] at low
        cases low
  have none {i : DecodeInfo} (code : (left a' p i).exception = excNone) :
      p.exception.getD excNone = excNone := by
    have silent := quiet (show (left a' p i).exception.msb = false by rw [code]; rfl)
    rw [left_exception, silent] at code
    exact code
  refine ⟨?_, ?_, ?_, ?_, ?_, ?_⟩
  · rw [left_exception, left_exception]
  · rw [kind, kind]
  · rw [left, left, report_eq, report_eq ⟨a', p.apply (cleared j)⟩]
    exact size
  · intro fault
    rw [left, left, report_excData, report_excData]
    refine apply_excData ?_ _ _
    have silent := quiet (faultCodes_msb fault)
    by_contra absent
    refine loud silent (spec.silent.1 ⟨_, fault, ?_, Option.not_isSome_iff_eq_none.1 absent⟩)
    rw [left_exception, silent, Option.getD_none] at fault ⊢
    cases raised : p.exception with
    | none =>
        rw [raised] at fault
        exact absurd fault (by decide)
    | some code => rfl
  · intro code
    rw [left, left, report_eq, report_eq ⟨a', p.apply (cleared j)⟩]
    refine ⟨?_, getD_dstAlike spec.aim1 _ _, getD_dstAlike spec.aim2 _ _⟩
    cases dst : p.dst0 with
    | none =>
        simp only [Patch.apply, dst]
        exact .inr ⟨rfl, rfl⟩
    | some d =>
        simp only [Patch.apply, dst]
        exact .inl rfl
  · intro code
    rw [kind, left, left, report_eq, report_eq ⟨a', p.apply (cleared j)⟩]
    have settled := commitAlike_of_settled (spec.settled (none code) type assigned) (cleared i)
      (cleared j)
    cases type <;> exact settled

/-! ### Stale fields -/

/-- A load or store ends in a fault, and no interrupt is pending then. -/
def FaultsQuietly (P : Platform δ) (width : Width) (a : RiscvArch δ) (va : Word)
    (type : FetchType) : Prop :=
  if width.misaligned va then irqException a.state = none
  else ∃ ha exception a', a.translateAddr P va type excNone = .ok (ha, exception, a') ∧
    exceptionValid exception = true ∧ irqException a'.state = none

/-- The body faults and leaves `exc_data` as it was, and no interrupt is pending then. -/
def Body.QuietFault (P : Platform δ) (a : RiscvArch δ) : Body → Prop
  | .csr rd csrno access =>
      (Body.csr rd csrno access).SilentFault P a ∧ irqException a.state = none
  | .fload _ addr width _ =>
      if a.state.fpEnabled then
        FaultsQuietly P width { a with state := a.state.dirtyFs } (addr a.state.dirtyFs) .lfetch
      else irqException a.state = none
  | .fstore addr width _ => FaultsQuietly P width a (addr a.state) .sfetch
  | .fp _ _ _ _ => a.state.fpEnabled = false ∧ irqException a.state = none
  | _ => False

/-- The body leaves a field of the record as it was that the rest of the instruction reads. -/
def Body.Stale (P : Platform δ) (a : RiscvArch δ) (b : Body) : Prop :=
  ¬ b.SetsType a.state ∨ b.QuietFault P a

/-- A fault is quiet if no interrupt is pending when it has been found: before the walk for a
misaligned address, after it otherwise. -/
theorem faultsQuietly_of_faults {P : Platform δ} {width : Width} {a : RiscvArch δ} {va : Word}
    {type : FetchType} (faults : AccessFaults P width a va type) :
    (width.misaligned va = true ∧
        (FaultsQuietly P width a va type ↔ irqException a.state = none)) ∨
      (width.misaligned va = false ∧ ∃ ha exception a',
        a.translateAddr P va type excNone = .ok (ha, exception, a') ∧
          exceptionValid exception = true ∧
          (FaultsQuietly P width a va type ↔ irqException a'.state = none)) := by
  unfold FaultsQuietly
  cases misaligned : width.misaligned va with
  | true => exact .inl ⟨rfl, by rw [if_pos rfl]⟩
  | false =>
      obtain ⟨ha, exception, a', translated, valid⟩ :=
        faults.resolve_left (by rw [misaligned]; nofun)
      refine .inr ⟨rfl, ha, exception, a', translated, valid, ?_⟩
      rw [if_neg (by nofun)]
      constructor
      · rintro ⟨ha', exception', a'', translated', -, silent⟩
        cases translated.symm.trans translated'
        exact silent
      · intro silent
        exact ⟨ha, exception, a', translated, valid, silent⟩

/-- A fault that is quiet is a fault. -/
theorem faults_of_faultsQuietly {P : Platform δ} {width : Width} {a : RiscvArch δ} {va : Word}
    {type : FetchType} (quiet : FaultsQuietly P width a va type) :
    AccessFaults P width a va type := by
  unfold FaultsQuietly at quiet
  split at quiet
  next misaligned => exact .inl misaligned
  · obtain ⟨ha, exception, a', translated, valid, -⟩ := quiet
    exact .inr ⟨ha, exception, a', translated, valid⟩

/-- A load that faults returns. -/
theorem ld_faults {P : Platform δ} {width : Width} {ctx : Ctx δ} {va : Word}
    (faults : AccessFaults P width ctx.arch va .lfetch) : ∃ r, ld P width ctx va = .ok r ∧
      (FaultsQuietly P width ctx.arch va .lfetch ↔ irqException r.2.arch.state = none) := by
  unfold ld
  rcases faultsQuietly_of_faults faults with
    ⟨misaligned, quiet⟩ | ⟨aligned, ha, exception, a', translated, valid, quiet⟩
  · rw [if_pos misaligned]
    exact ⟨_, rfl, quiet⟩
  · rw [if_neg (ne_true_of_eq_false aligned), translated]
    refine ⟨_, if_pos valid, quiet⟩

/-- A store that faults returns. -/
theorem st_faults {P : Platform δ} {width : Width} {ctx : Ctx δ} {va : Word}
    (faults : AccessFaults P width ctx.arch va .sfetch) : ∃ c, st P width ctx va = .ok c ∧
      (FaultsQuietly P width ctx.arch va .sfetch ↔ irqException c.arch.state = none) := by
  unfold st
  rcases faultsQuietly_of_faults faults with
    ⟨misaligned, quiet⟩ | ⟨aligned, ha, exception, a', translated, valid, quiet⟩
  · rw [if_pos misaligned]
    exact ⟨_, rfl, quiet⟩
  · rw [if_neg (ne_true_of_eq_false aligned), translated]
    exact ⟨_, if_pos valid, quiet⟩

/-- An entry has a read callback or an `op` callback. -/
theorem csrTable_reads :
    ∀ r ∈ csrTable, ∀ csrno, (r.ops csrno).op = none → (r.ops csrno).read.isSome = true := by
  simp only [csrTable, List.forall_mem_cons, CsrRow.one, CsrOps.rw, CsrOps.ro, CsrOps.rmw]
  refine ⟨?_, ?_, ?_, ?_, ?_, ?_, ?_, ?_, ?_, ?_, ?_, ?_, ?_, ?_, ?_, ?_, ?_, ?_, ?_, ?_, ?_,
    ?_, ?_, ?_, ?_, ?_, ?_, ?_, ?_, ?_, ?_, ?_, ?_, ?_, ?_, ?_, ?_, ?_, ?_, ?_, ?_,
    by rintro r ⟨⟩⟩
  all_goals intro csrno op
  all_goals first
    | rfl
    | cases op

/-- A read callback that raises returns nothing. -/
theorem csrRead_raises {ops : CsrOps} {ctx : Ctx δ}
    (raised : ops.readRaises ctx.arch.state = true) :
    ∃ c, csrRead ops ctx = .ok (none, c) := by
  unfold CsrOps.readRaises at raised
  unfold csrRead
  split at raised
  next value fp =>
    rw [fp]
    exact ⟨_, if_pos raised⟩
  next illegal =>
    rw [illegal]
    exact ⟨_, rfl⟩
  · cases raised

/-- A CSR with a read callback is read. -/
theorem csrRead_returns {ops : CsrOps} (present : ops.read.isSome = true) (ctx : Ctx δ) :
    ∃ r, csrRead ops ctx = .ok r := by
  obtain ⟨read, present⟩ := Option.isSome_iff_exists.1 present
  unfold csrRead
  rw [present]
  cases read with
  | plain value => exact ⟨_, rfl⟩
  | fp value =>
      dsimp only
      split <;> exact ⟨_, rfl⟩
  | illegal => exact ⟨_, rfl⟩

/-- A write callback that can raise returns. -/
theorem csrWrite_returns {ops : CsrOps} {s : ArchState} (raised : ops.writeRaises s = true)
    (val : Word) (ctx : Ctx δ) : ∃ c, csrWrite ops val ctx = .ok c := by
  unfold CsrOps.writeRaises at raised
  unfold csrWrite
  split at raised
  next fp =>
    rw [fp]
    dsimp only
    split <;> exact ⟨_, rfl⟩
  next illegal =>
    rw [illegal]
    exact ⟨_, rfl⟩
  · cases raised

/-- An access that raises `EXC_II` in a callback returns. -/
theorem riscvCsrrw_raises (P : Platform δ) {ops : CsrOps} {csrno : BitVec 12}
    (registered : csrOps csrno = some ops) (newValue mask : Word) {ctx : Ctx δ}
    (raised : ops.raises mask ctx.arch.state = true) :
    ∃ r, riscvCsrrw P ops newValue mask ctx = .ok r := by
  have reads := csrOps_of_table (p := fun _ ops => ops.op = none → ops.read.isSome = true)
    (fun r row csrno _ _ => csrTable_reads r row csrno) registered
  unfold riscvCsrrw
  cases op : ops.op with
  | some op' => exact ⟨_, rfl⟩
  | none =>
      have which : ops.readRaises ctx.arch.state = true ∨
          mask ≠ 0 ∧ ops.writeRaises ctx.arch.state = true := by
        simpa [CsrOps.raises, op] using raised
      dsimp only
      rcases which with raises | ⟨live, raises⟩
      · obtain ⟨c, read⟩ := csrRead_raises raises
        rw [read]
        exact ⟨_, rfl⟩
      · obtain ⟨⟨old, c⟩, read⟩ := csrRead_returns (reads op) ctx
        rw [read]
        cases old with
        | none => exact ⟨_, rfl⟩
        | some old =>
            obtain ⟨c', wrote⟩ := csrWrite_returns raises (mergeMask old mask newValue) c
            refine ⟨(old, c'), (if_neg live).trans ?_⟩
            rw [wrote]
            rfl

/-- A body that faults without `exc_data` returns. -/
theorem silentFault_exec {P : Platform δ} {b : Body} {ctx : Ctx δ}
    (silent : b.SilentFault P ctx.arch) : ∃ r, b.exec P ctx = .ok r ∧
      (b.QuietFault P ctx.arch ↔ irqException r.2.arch.state = none) := by
  cases b with
  | csr rd csrno access =>
      obtain ⟨ops, checked, raised⟩ := id silent
      have registered := ((riscvCsrrwCheck_eq_some _ _ _).1 checked).1
      -- A callback that raises leaves `exc_data` as it was.
      obtain ⟨⟨dest, c⟩, returned⟩ := riscvCsrrw_raises P registered
        (access.src ctx.arch.state) (access.mask ctx.arch.state) raised
      have ran : (Body.csr rd csrno access).exec P ctx =
          .ok (true, (c.setDst0 (.gpr rd) dest).setType .csrwr) := by
        simp only [Body.exec, doCsr, checked, returned]
        rfl
      refine ⟨_, ran, ?_⟩
      have unmoved := exec_patch P (.csr rd csrno access) ctx _ ran
      obtain ⟨p, -, spec⟩ := unmoved
      have illegal : (Body.csr rd csrno access).Illegal ctx.arch.state := by
        intro ops' checked'
        cases checked.symm.trans checked'
        exact raised
      rw [spec.still illegal]
      exact and_iff_right silent
  | fload rd addr width box =>
      simp only [Body.exec, requireFpu, Body.QuietFault]
      cases on : ctx.arch.state.fpEnabled with
      | false => exact ⟨_, rfl, Iff.rfl⟩
      | true =>
          have faults : AccessFaults P width (ctx.setState ctx.arch.state.dirtyFs).arch
              (addr ctx.arch.state.dirtyFs) .lfetch := silent.resolve_left (by rw [on]; rintro ⟨⟩)
          obtain ⟨⟨data, c⟩, loaded, quiet⟩ := ld_faults faults
          refine ⟨(true, (c.setDst0 (.fpr rd) (box data)).setType .load), ?_, quiet⟩
          have loaded' : ld P width (ctx.setState ctx.arch.state.dirtyFs)
              (addr (ctx.setState ctx.arch.state.dirtyFs).arch.state) = .ok (data, c) := loaded
          simp only [Bool.not_true, Bool.false_eq_true, if_false, loaded']
          rfl
  | fstore addr width data =>
      obtain ⟨c, stored, quiet⟩ := st_faults silent
      refine ⟨(true, (c.setData1 (data ctx.arch.state)).setType .store), ?_, quiet⟩
      simp only [Body.exec, stored]
      rfl
  | fp dst rm fpCalc type =>
      have off : ctx.arch.state.fpEnabled = false := silent
      simp only [Body.exec, requireFpu, off, Body.QuietFault]
      exact ⟨_, rfl, and_iff_right trivial⟩
  | _ => exact silent.elim

/-- A body with a quiet fault has a silent one. -/
theorem silent_of_quiet {P : Platform δ} {a : RiscvArch δ} {b : Body} (quiet : b.QuietFault P a) :
    b.SilentFault P a := by
  cases b with
  | csr rd csrno access => exact quiet.1
  | fload rd addr width box =>
      simp only [Body.QuietFault] at quiet
      split at quiet
      · exact .inr (faults_of_faultsQuietly quiet)
      next off => exact .inl (Bool.eq_false_iff.2 off)
  | fstore addr width data => exact faults_of_faultsQuietly quiet
  | fp dst rm fpCalc type => exact quiet.1
  | _ => exact quiet.elim

/-- A body that assigns no type returns.  It may write a register, and raise `EXC_II`. -/
theorem typeless_exec (P : Platform δ) {b : Body} {a : RiscvArch δ}
    (typeless : ¬ b.SetsType a.state) (size : Byte) :
    ∃ (done : Bool) (p : Patch),
      (∀ i : DecodeInfo, i.instSize = size → b.exec P ⟨a, i⟩ = .ok (done, ⟨a, p.apply i⟩)) ∧
        p.type = none ∧ p.mask1 = none ∧ p.mask2 = none ∧
        (p.dst0 = none ∨ ∃ w data, p.dst0 = some (Dst.full w data)) ∧
        (p.exception = none ∨ p.exception = some excII) := by
  have unitOff (k : Ctx δ → Except Abort (Bool × Ctx δ)) (off : ¬ a.state.fpEnabled = true)
      (i : DecodeInfo) :
        requireFpu ⟨a, i⟩ k = .ok (true, ⟨a, (Patch.empty.raise excII).apply i⟩) := by
    rw [requireFpu, Bool.eq_false_iff.2 off]
    rfl
  cases b with
  | unsupported =>
      exact ⟨false, .empty, fun _ _ => rfl, rfl, rfl, rfl, .inl rfl, .inl rfl⟩
  | jalr rd rs1 imm =>
      have unclassified : jalrType rd rs1 = none := Option.not_isSome_iff_eq_none.1 typeless
      refine ⟨true, (Patch.empty.setDst0 (.gpr rd) (a.pc + size.setWidth 64)).setData2
        (a.state.gpr rs1 + imm), ?_, rfl, rfl, rfl, .inr ⟨_, _, rfl⟩, .inl rfl⟩
      intro i holds
      simp only [Body.exec, unclassified, ← holds]
      rfl
  | fload rd addr width box =>
      refine ⟨true, Patch.empty.raise excII, fun i _ => ?_, rfl, rfl, rfl, .inl rfl, .inr rfl⟩
      simp only [Body.exec]
      exact unitOff _ typeless i
  | fp dst rm fpCalc type =>
      refine ⟨true, Patch.empty.raise excII, fun i _ => ?_, rfl, rfl, rfl, .inl rfl, .inr rfl⟩
      simp only [Body.exec]
      exact unitOff _ typeless i
  | _ => exact absurd trivial typeless

/-! ### One instruction -/

/-- `decode` into a slot and `updateEnv`: `ArchState`, memory, the next pc and `info->type`. -/
def decodeAndUpdate (P : Platform δ) (a : RiscvArch δ) (vaddr paddr : Word) (slot : DecodeInfo) :
    Except Abort (ArchState × Memory δ × Word × InstType) := do
  let (a, info) ← a.decode P vaddr paddr slot
  let (next, a) ← a.updateEnv P info
  return (a.state, a.memory, next, info.type)

/-- What the instruction at `vaddr` does is the same whatever the record held before. -/
def SlotFree (P : Platform δ) (a : RiscvArch δ) (vaddr paddr : Word) : Prop :=
  ∀ slot slot', decodeAndUpdate P a vaddr paddr slot = decodeAndUpdate P a vaddr paddr slot'

/-- No body of a word that the fetch may leave has a stale field. -/
def SlotSettled (P : Platform δ) (a : RiscvArch δ) (vaddr paddr : Word) : Prop :=
  ∀ slot rvc a' i, a.fetch P paddr slot = .ok (rvc, a', i) →
    ¬ (selected i.inst rvc).Stale P (bodyCtx a' vaddr paddr i).arch

/-- The word comes whole: a device that is read stores all of it over the old one. -/
def FetchWhole (P : Platform δ) (a : RiscvArch δ) (paddr : Word) : Prop :=
  ∀ d, Memory.deviceAt P.map paddr = some d → 4 ≤ (d.read a.memory.dev paddr 4).bytes.length

/-- The rest of the instruction, on a word that was fetched. -/
def afterFetch (P : Platform δ) (vaddr paddr : Word) (rvc : Bool) (a : RiscvArch δ)
    (i : DecodeInfo) : Except Abort (ArchState × Memory δ × Word × InstType) := do
  let r ← (selected i.inst rvc).exec P (bodyCtx a vaddr paddr i)
  let (next, a) ← r.2.arch.updateEnv P (report r.2)
  return (a.state, a.memory, next, (report r.2).type)

variable {P : Platform δ} {a a' : RiscvArch δ} {vaddr paddr : Word}

/-- The two calls are a fetch and what follows it. -/
theorem decodeAndUpdate_eq (P : Platform δ) (a : RiscvArch δ) (vaddr paddr : Word)
    (slot : DecodeInfo) : decodeAndUpdate P a vaddr paddr slot =
      a.fetch P paddr slot >>= fun f => afterFetch P vaddr paddr f.1 f.2.1 f.2.2 := by
  simp only [decodeAndUpdate, decode_eq, bind_assoc, afterFetch, pure_bind]

/-- The fetch reads of the slot what it may leave of the word. -/
theorem fetch_of_inst {slot slot' : DecodeInfo} {rvc : Bool} {i : DecodeInfo}
    (fetched : a.fetch P paddr slot = .ok (rvc, a', i)) (same : slot'.inst = slot.inst) :
    a.fetch P paddr slot' =
      .ok (rvc, a', { slot' with inst := i.inst, instSize := i.instSize }) := by
  unfold fetch at *
  rw [bind_eq_ok] at fetched
  obtain ⟨⟨word, plain, a''⟩, read, result⟩ := fetched
  rw [same, read]
  cases result
  rfl

/-- With the same word in the record, the fetch leaves the same instruction. -/
theorem decodeAndUpdate_of_fetch {slot slot' : DecodeInfo} {rvc : Bool} {i : DecodeInfo}
    (fetched : a.fetch P paddr slot = .ok (rvc, a', i)) (same : slot'.inst = slot.inst) :
    decodeAndUpdate P a vaddr paddr slot' =
      afterFetch P vaddr paddr rvc a' { slot' with inst := i.inst, instSize := i.instSize } := by
  rw [decodeAndUpdate_eq, fetch_of_inst fetched same]
  rfl

/-- A word that comes whole does not depend on the slot. -/
theorem overlay_whole {buf buf' : Word} {bytes : List Byte} (whole : 4 ≤ bytes.length) :
    Memory.overlay 4 buf bytes = Memory.overlay 4 buf' bytes := by
  unfold Memory.overlay
  congr 1
  refine List.map_congr_left fun k listed => ?_
  have inside : k < bytes.length := by
    have := List.mem_range.1 listed
    omega
  rw [List.getD, List.getD, List.getElem?_eq_getElem inside]
  rfl

/-- A fetch that reads all of its word does the same with any record: it stops, or it leaves the
same word and length. -/
theorem fetch_whole (whole : FetchWhole P a paddr) (slot slot' : DecodeInfo) :
    (∃ e, a.fetch P paddr slot = .error e ∧ a.fetch P paddr slot' = .error e) ∨
      ∃ rvc a' word size,
        a.fetch P paddr slot = .ok (rvc, a', { slot with inst := word, instSize := size }) ∧
          a.fetch P paddr slot' = .ok (rvc, a', { slot' with inst := word, instSize := size }) := by
  have same : Memory.paddrRead P.map a.memory paddr 4 (slot.inst.setWidth 64) =
      Memory.paddrRead P.map a.memory paddr 4 (slot'.inst.setWidth 64) := by
    unfold Memory.paddrRead
    cases claimed : Memory.deviceAt P.map paddr with
    | none => rfl
    | some d =>
        dsimp only
        rw [overlay_whole (whole d claimed)]
  have read : a.paddrRead P paddr 4 (slot.inst.setWidth 64) =
      a.paddrRead P paddr 4 (slot'.inst.setWidth 64) := by
    rw [RiscvArch.paddrRead, same]
    rfl
  unfold fetch
  rw [read]
  cases a.paddrRead P paddr 4 (slot'.inst.setWidth 64) with
  | error e => exact .inl ⟨e, rfl, rfl⟩
  | ok r => exact .inr ⟨_, _, _, _, rfl, rfl⟩

/-- What follows a fetch, when the body leaves a patch: the report and `updateEnv` of what the
patch says. -/
theorem afterFetch_of_exec {rvc : Bool} {i : DecodeInfo} {p : Patch} {done : Bool}
    (ran : (selected i.inst rvc).exec P (bodyCtx a vaddr paddr i) =
      .ok (done, ⟨a', p.apply (cleared i)⟩)) :
    afterFetch P vaddr paddr rvc a i = do
      let (next, a) ← a'.updateEnv P (left a' p i)
      return (a.state, a.memory, next, (left a' p i).type) := by
  rw [afterFetch, ran]
  rfl

/-- The word that receives the trap value. -/
def tvalWord (a : RiscvArch δ) (info : DecodeInfo) : StateWord :=
  if edelegValid a.state info then .stval else .mtval

/-- The address of a trap is in the register of its mode. -/
theorem trap_tval (a : RiscvArch δ) (info : DecodeInfo) (tval : Word) :
    (a.trap info tval).2.state.get (tvalWord a info) = tval := by
  unfold trap tvalWord
  split
  · rw [updateMMUState_state, trapS]
    iterate 4 rw [ArchState.get_set_of_ne _ _ (by decide)]
    rw [ArchState.get_set_self]
  · rw [updateMMUState_state, trapM]
    iterate 4 rw [ArchState.get_set_of_ne _ _ (by decide)]
    rw [ArchState.get_set_self]

/-- A record that at most writes a register commits. -/
theorem commit_returns (P : Platform δ) (a : RiscvArch δ) {info : DecodeInfo}
    (dst0 : info.dst0.mask = 0#64 ∨ ∃ w data, info.dst0 = Dst.full w data)
    (dst1 : info.dst1.mask = 0#64) (dst2 : info.dst2.mask = 0#64)
    (plain : info.type = .int ∨ info.type = .csrwr) : ∃ r, a.commit P info = .ok r := by
  have written : ∃ s, a.state.commit info.dst0 = .ok s := by
    rcases dst0 with clear | ⟨w, data, full⟩
    · exact ⟨_, a.state.commit_of_mask_zero clear⟩
    · rw [full]
      exact ⟨_, a.state.commit_idx w fullMask data⟩
  obtain ⟨s, written⟩ := written
  have dsts : commitDsts a.state info = .ok s := by
    rw [commitDsts, written]
    change (s.commit info.dst1 >>= fun s => s.commit info.dst2) = _
    rw [s.commit_of_mask_zero dst1]
    exact s.commit_of_mask_zero dst2
  have memory (a : RiscvArch δ) : commitMemory P a info = .ok a := by
    unfold commitMemory
    rcases plain with type | type <;> rw [type]
  rw [commit, dsts]
  change ∃ r, (commitMemory P { a with state := s } info >>= _) = .ok r
  rw [memory]
  exact ⟨_, rfl⟩

/-- A body that assigns no type leaves that of the slot. -/
theorem typeless_afterFetch {rvc : Bool} {i : DecodeInfo}
    (typeless : ¬ (selected i.inst rvc).SetsType (bodyCtx a vaddr paddr i).arch.state)
    (plain : i.type = .int ∨ i.type = .csrwr) :
    ∃ s m next, afterFetch P vaddr paddr rvc a i = .ok (s, m, next, i.type) := by
  obtain ⟨done, p, ran, type, mask1, mask2, dst0, exception⟩ :=
    typeless_exec P typeless i.instSize
  have same : (left (bodyCtx a vaddr paddr i).arch p i).type = i.type := by
    rw [left, report_type, Patch.apply, type]
    rfl
  rw [afterFetch_of_exec (ran (cleared i) rfl), same]
  have returns : ∃ r, (bodyCtx a vaddr paddr i).arch.updateEnv P
      (left (bodyCtx a vaddr paddr i).arch p i) = .ok r := by
    have code := left_exception (bodyCtx a vaddr paddr i).arch p i
    cases reported : irqException (bodyCtx a vaddr paddr i).arch.state with
    | some irq =>
        rw [reported] at code
        have pending : isIrq (left (bodyCtx a vaddr paddr i).arch p i) = true := by
          rw [isIrq, code]
          exact irqException_msb reported
        exact ⟨_, by rw [updateEnv, if_pos pending]⟩
    | none =>
        rw [reported, Option.getD_none] at code
        rcases exception with clear | raised
        · rw [clear, Option.getD_none] at code
          rw [updateEnv_commit P _ code]
          refine commit_returns P _ ?_ ?_ ?_ (same ▸ plain) <;> rw [left, report_eq]
          · rcases dst0 with absent | ⟨w, data, full⟩
            · refine .inl ?_
              simp only [Patch.apply, absent]
              rfl
            · refine .inr ⟨w, data, ?_⟩
              simp only [Patch.apply, full]
              rfl
          · simp only [Patch.apply, mask1]
            rfl
          · simp only [Patch.apply, mask2]
            rfl
        · rw [raised, Option.getD_some] at code
          exact ⟨_, updateEnv_fault P _ (by rw [code]; decide)⟩
  obtain ⟨⟨next, a''⟩, updated⟩ := returns
  rw [updated]
  exact ⟨_, _, _, rfl⟩

/-- A fault without `exc_data` delivers that of the slot. -/
theorem quietFault_afterFetch {rvc : Bool} {i j : DecodeInfo} (inst : i.inst = j.inst)
    (size : i.instSize = j.instSize)
    (quiet : (selected i.inst rvc).QuietFault P (bodyCtx a vaddr paddr i).arch) :
    ∃ s s' m m' next next' type type' w,
      afterFetch P vaddr paddr rvc a i = .ok (s, m, next, type) ∧
        afterFetch P vaddr paddr rvc a j = .ok (s', m', next', type') ∧
        s.get w = i.excData ∧ s'.get w = j.excData := by
  have silent := silent_of_quiet quiet
  obtain ⟨r, ran, pending⟩ := silentFault_exec silent
  rcases exec_uniform P (bodyCtx a vaddr paddr i).arch i.inst i.instSize
    (selected i.inst rvc) with ⟨e, stops⟩ | ⟨g, ⟨v, a', p, rfl, spec⟩, returns⟩
  · cases (stops (cleared i) ⟨rfl, rfl⟩).symm.trans ran
  · have ran' := returns (cleared i) ⟨rfl, rfl⟩
    cases ran.symm.trans ran'
    have none : irqException a'.state = none := pending.1 quiet
    obtain ⟨code, fault, raised, absent⟩ := spec.silent.2 silent
    have leaves (k : DecodeInfo) (inst : k.inst = i.inst) (size : k.instSize = i.instSize) :
        ∃ s m next type, afterFetch P vaddr paddr rvc a k = .ok (s, m, next, type) ∧
          s.get (tvalWord a' (left a' p i)) = k.excData := by
      have exception (l : DecodeInfo) : (left a' p l).exception = code := by
        rw [left_exception, none, raised]
        rfl
      have ran : (selected k.inst rvc).exec P (bodyCtx a vaddr paddr k) =
          .ok (v, ⟨a', p.apply (cleared k)⟩) := by
        rw [inst]
        exact returns (cleared k) ⟨inst, size⟩
      have tval : (left a' p k).excData = k.excData := by
        rw [left, report_excData, Patch.apply, absent]
        rfl
      rw [afterFetch_of_exec ran, updateEnv_fault P a' (by rw [exception]; exact fault), tval,
        trap_congr a' ((exception k).trans (exception i).symm)]
      exact ⟨_, _, _, _, rfl, trap_tval a' _ _⟩
    obtain ⟨s, m, next, type, left, tval⟩ := leaves i rfl rfl
    obtain ⟨s', m', next', type', left', tval'⟩ := leaves j inst.symm size.symm
    exact ⟨s, s', m, m', next, next', type, type', _, left, left', tval, tval'⟩

/-- A stale field shows. -/
theorem slotSettled_of_slotFree (free : SlotFree P a vaddr paddr) :
    SlotSettled P a vaddr paddr := by
  rintro slot rvc a' i fetched (typeless | quiet)
  · have differ := free { slot with type := .int } { slot with type := .csrwr }
    rw [decodeAndUpdate_of_fetch fetched (by rfl), decodeAndUpdate_of_fetch fetched (by rfl)]
      at differ
    obtain ⟨s, m, next, left⟩ := typeless_afterFetch (i := { slot with
      type := .int, inst := i.inst, instSize := i.instSize }) typeless (.inl rfl)
    obtain ⟨s', m', next', left'⟩ := typeless_afterFetch (i := { slot with
      type := .csrwr, inst := i.inst, instSize := i.instSize }) typeless (.inr rfl)
    rw [left, left'] at differ
    cases differ
  · have differ := free { slot with excData := 0 } { slot with excData := 1 }
    rw [decodeAndUpdate_of_fetch fetched (by rfl), decodeAndUpdate_of_fetch fetched (by rfl)]
      at differ
    obtain ⟨s, s', m, m', next, next', type, type', w, left, left', tval, tval'⟩ :=
      quietFault_afterFetch
        (i := { slot with excData := 0, inst := i.inst, instSize := i.instSize })
        (j := { slot with excData := 1, inst := i.inst, instSize := i.instSize }) rfl rfl quiet
    rw [left, left'] at differ
    cases differ
    rw [tval] at tval'
    cases tval'

/-- Nothing else does. -/
theorem slotFree_of_slotSettled (settled : SlotSettled P a vaddr paddr)
    (whole : FetchWhole P a paddr) : SlotFree P a vaddr paddr := by
  intro slot slot'
  rw [decodeAndUpdate_eq, decodeAndUpdate_eq]
  rcases fetch_whole whole slot slot' with ⟨e, stops, stops'⟩ |
    ⟨rvc, a', word, size, fetched, fetched'⟩
  · rw [stops, stops']
  · have fresh := settled slot rvc a' _ fetched
    rw [fetched, fetched']
    change afterFetch P vaddr paddr rvc a' { slot with inst := word, instSize := size } =
      afterFetch P vaddr paddr rvc a' { slot' with inst := word, instSize := size }
    rcases exec_uniform P (bodyCtx a' vaddr paddr slot).arch word size (selected word rvc) with
      ⟨e, stops⟩ | ⟨g, ⟨v, a'', p, rfl, spec⟩, returns⟩
    · have stopped (k : DecodeInfo) (inst : k.inst = word) (size : k.instSize = size) :
          afterFetch P vaddr paddr rvc a' k = .error e := by
        have halts : (selected k.inst rvc).exec P (bodyCtx a' vaddr paddr k) = .error e := by
          rw [inst]
          exact stops (cleared k) ⟨inst, size⟩
        rw [afterFetch, halts]
        rfl
      rw [stopped _ rfl rfl, stopped _ rfl rfl]
    · have ran (k : DecodeInfo) (inst : k.inst = word) (size : k.instSize = size) :
          (selected k.inst rvc).exec P (bodyCtx a' vaddr paddr k) =
            .ok (v, ⟨a'', p.apply (cleared k)⟩) := by
        rw [inst]
        exact returns (cleared k) ⟨inst, size⟩
      have typed := not_not.1 (not_or.1 fresh).1
      have loud (silent : irqException a''.state = none) :
          ¬ (selected word rvc).SilentFault P (bodyCtx a' vaddr paddr slot).arch := by
        intro faults
        have faults' : (selected word rvc).SilentFault P (bodyCtx a' vaddr paddr
            { slot with inst := word, instSize := size }).arch := faults
        obtain ⟨r, ran', pending⟩ := silentFault_exec faults'
        cases ran'.symm.trans (ran { slot with inst := word, instSize := size } rfl rfl)
        exact (not_or.1 fresh).2 (pending.2 silent)
      have alike := left_alike spec typed loud
        (i := { slot with inst := word, instSize := size })
        (j := { slot' with inst := word, instSize := size }) rfl
      rw [afterFetch_of_exec (ran _ rfl rfl), afterFetch_of_exec (ran _ rfl rfl),
        alike.updateEnv P a'', alike.type]

/-- An instruction whose word comes whole is free of the slot exactly when its body leaves no
field stale; and it never is when its body does. `decode` clears the masks and the exception of
the record and no more, so what a body does not assign is left from the instruction that used
the record before. -/
theorem slotFree_iff (P : Platform δ) (a : RiscvArch δ) (vaddr paddr : Word) :
    (SlotSettled P a vaddr paddr ∧ FetchWhole P a paddr → SlotFree P a vaddr paddr) ∧
      (SlotFree P a vaddr paddr → SlotSettled P a vaddr paddr) :=
  ⟨fun h => slotFree_of_slotSettled h.1 h.2, slotSettled_of_slotFree⟩

/-- `jalr x0, 0(x0)`, which no case of `trans_jalr` classifies. -/
def jalrProgram : Machine Unit := Machine.reset archCfg (imageOf [0x00000067])

/-- It falls through when the record was an addition's, and jumps when it was a jump's. -/
theorem not_slotFree_jalrProgram :
    ¬ SlotFree (ramOnly 4096) jalrProgram.arch 0x80000000 0x80000000 := by
  intro free
  have same := free .zero { DecodeInfo.zero with type := .indirect }
  have next (type : InstType) (pc : Word)
      (seen : (decodeAndUpdate (ramOnly 4096) jalrProgram.arch 0x80000000 0x80000000
        { DecodeInfo.zero with type := type }).toOption.map (·.2.2.1) = some pc) := seen
  have falls := next .int 0x80000004 (by decide +kernel)
  have jumps := next .indirect 0 (by decide +kernel)
  rw [← same] at jumps
  cases falls.symm.trans jumps

end CPUDelaySim.Riscv
