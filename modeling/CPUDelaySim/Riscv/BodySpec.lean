import CPUDelaySim.Riscv.Frame

/-!
# One specification for all bodies

`decode` clears the masks of the record and sets `exception` to `EXC_NONE` before it
runs a body.  From such a record, a body aims its destinations only at the words
`Body.targets` lists, raises only the codes it may raise, keeps the fetched word, and
changes the machine as `ExecFrame` allows.  `exec_spec` states this once; the results
about reachable states use it and never open a body again.
-/

namespace CPUDelaySim.Riscv

variable {δ : Type}

open RiscvArch

/-! ### Destinations -/

/-- A destination leaves a word alone: its mask is clear or it aims elsewhere. -/
def DstApart (d : Dst) (w : StateWord) : Prop :=
  d.mask = 0#64 ∨ ∀ shift, fieldAt d.idx.toNat ≠ some (w, shift)

/-- A destination aimed at a word by its offset is apart from the others. -/
theorem dstApart_idx {w w' : StateWord} (distinct : w' ≠ w) (mask data : Word) :
    DstApart ⟨w'.idx, mask, data⟩ w := by
  refine .inr ?_
  intro shift found
  rw [StateWord.idx_toNat, fieldAt_offset] at found
  cases found
  exact distinct rfl

/-- A destination that writes a whole word leaves the other words alone. -/
theorem dstApart_full {w w' : StateWord} (distinct : w' ≠ w) (data : Word) :
    DstApart (Dst.full w' data) w := dstApart_idx distinct _ _

/-- The destination for the flags writes the word of the unit only. -/
theorem dstApart_fflags {w : StateWord} (distinct : StateWord.fp ≠ w) (mask data : Word) :
    DstApart ⟨archFflags, mask, data⟩ w := by
  refine .inr ?_
  intro shift found
  rw [fieldAt_archFflags] at found
  cases found
  exact distinct rfl

/-- So does the destination for any field of that word. -/
theorem dstApart_fpField {w : StateWord} (distinct : StateWord.fp ≠ w) (field : FpField)
    (mask data : Word) : DstApart ⟨field.idx, mask, data⟩ w := by
  cases field with
  | fflags => exact dstApart_fflags distinct _ _
  | frm => exact dstApart_idx distinct _ _

/-- The three destinations of a record leave a word alone. -/
structure Apart (info : DecodeInfo) (w : StateWord) : Prop where
  dst0 : DstApart info.dst0 w
  dst1 : DstApart info.dst1 w
  dst2 : DstApart info.dst2 w

/-- The commit loop leaves alone what the destinations do. -/
theorem commitDsts_get {s s' : ArchState} {info : DecodeInfo} {w : StateWord}
    (h : commitDsts s info = .ok s') (apart : Apart info w) : s'.get w = s.get w := by
  simp only [commitDsts, bind_eq_ok] at h
  obtain ⟨s₀, h₀, s₁, h₁, h₂⟩ := h
  rw [ArchState.commit_get_of_ne h₂ w apart.dst2, ArchState.commit_get_of_ne h₁ w apart.dst1,
    ArchState.commit_get_of_ne h₀ w apart.dst0]

/-- The record as `decode` hands it to the first body. -/
structure Fresh (info : DecodeInfo) : Prop where
  mask0 : info.dst0.mask = 0#64
  mask1 : info.dst1.mask = 0#64
  mask2 : info.dst2.mask = 0#64
  exception : info.exception = excNone

/-- A record that has been cleared is fresh, whatever it was before. -/
theorem fresh_memset (info : DecodeInfo) :
    Fresh { info.memset with exception := excNone } :=
  ⟨rfl, rfl, rfl, rfl⟩

/-- A fresh record has no destination at all. -/
theorem Fresh.apart {info : DecodeInfo} (fresh : Fresh info) (w : StateWord) :
    Apart info w :=
  ⟨.inl fresh.mask0, .inl fresh.mask1, .inl fresh.mask2⟩

/-! ### What a body may write and raise -/

/-- The words a CSR entry's callbacks write. -/
def CsrOps.targets (ops : CsrOps) (w : StateWord) : Prop :=
  match ops.op, ops.write with
  | some op, _ => op.word = w
  | none, some (.masked w' _) => w' = w
  | none, some .satp => StateWord.satp = w
  | none, some (.fp _ _ _) => w = .fp ∨ w = .mstatus
  | none, _ => False

/-- The words a CSR number's callbacks write. -/
def csrTargets (csrno : BitVec 12) (w : StateWord) : Prop :=
  ∃ ops, csrOps csrno = some ops ∧ ops.targets w

/-- The words a body's record may write on commit. -/
def Body.targets : Body → StateWord → Prop
  | .compute rd _ _, w | .jal rd _, w | .jalr rd _ _, w | .load rd _ _ _, w
  | .amo rd _ _ _ _, w => w = .gpr rd
  | .fload rd _ _ _, w => w = .fpr rd
  | .lr rd _ _, w => w = .gpr rd ∨ w = .loadVal ∨ w = .loadRes
  | .sc rd _ _ _, w => w = .gpr rd ∨ w = .loadRes
  | .csr rd csrno access, w => w = .gpr rd ∨ (access.isWrite ∧ csrTargets csrno w)
  | .fp dst _ _ _, w => w = dst.word
  | _, _ => False

/-- A mode has two bits. -/
theorem eq_of_lt_four {v : Word} (small : v < 4) : v = 0 ∨ v = 1 ∨ v = 2 ∨ v = 3 := by
  have bound : v.toNat < 4 := small
  have : v.toNat = 0 ∨ v.toNat = 1 ∨ v.toNat = 2 ∨ v.toNat = 3 := by omega
  rcases this with h | h | h | h
  · exact .inl (BitVec.eq_of_toNat_eq h)
  · exact .inr (.inl (BitVec.eq_of_toNat_eq h))
  · exact .inr (.inr (.inl (BitVec.eq_of_toNat_eq h)))
  · exact .inr (.inr (.inr (BitVec.eq_of_toNat_eq h)))

/-- The codes a body may leave in a state of privilege `priv`. -/
def bodyCode (priv code : Word) : Prop :=
  code ∈ [excNone, excII, excBP, excLAM, excLPF, excSAM, excSPF, excSRET, excMRET] ∨
    code = excECU + priv

/-- The exceptions that a body can set, in a list. -/
theorem bodyCode_of_mem {priv code : Word}
    (h : code ∈ [excNone, excII, excBP, excLAM, excLPF, excSAM, excSPF, excSRET, excMRET]) :
    bodyCode priv code := .inl h

/-- What running a body from a cleared record can do. -/
structure BodySpec (b : Body) (ctx ctx' : Ctx δ) : Prop where
  frame : ExecFrame ctx.arch ctx'.arch
  apart : ∀ w, ¬ b.targets w → Apart ctx'.info w
  code : bodyCode (ctx.arch.state.get .priv) ctx'.info.exception
  inst : ctx'.info.inst = ctx.info.inst
  instSize : ctx'.info.instSize = ctx.info.instSize

/-! ### Loads and stores, from a record whose masks are clear -/

/-- The record of a load: the code is old or a load fault, the masks and the two
first destinations are untouched. -/
theorem LdInfo.keeps {width : Width} {i i' : DecodeInfo} (h : LdInfo width i i') :
    i'.dst0 = i.dst0 ∧ i'.dst1 = i.dst1 ∧ i'.dst2.mask = i.dst2.mask ∧ i'.inst = i.inst ∧
      i'.instSize = i.instSize ∧ i'.type = i.type ∧ i'.excData = i.excData ∧
      i'.exception ∈ [i.exception, excLAM, excLPF] := by
  cases h <;> simp

/-- The record of a store, likewise. -/
theorem StInfo.keeps {width : Width} {i i' : DecodeInfo} (h : StInfo width i i') :
    i'.dst0 = i.dst0 ∧ i'.dst1 = i.dst1 ∧ i'.dst2.mask = i.dst2.mask ∧ i'.inst = i.inst ∧
      i'.instSize = i.instSize ∧ i'.type = i.type ∧ i'.excData = i.excData ∧
      i'.exception ∈ [i.exception, excSAM, excSPF] := by
  cases h <;> simp

/-- What the memory bodies share: a run of loads and stores moved the machine along a
read frame and left the masks clear and a memory code. -/
structure MemStep (ctx ctx' : Ctx δ) : Prop where
  frame : ReadFrame ctx.arch ctx'.arch
  dst0 : ctx'.info.dst0 = ctx.info.dst0
  mask1 : ctx'.info.dst1.mask = ctx.info.dst1.mask
  mask2 : ctx'.info.dst2.mask = ctx.info.dst2.mask
  inst : ctx'.info.inst = ctx.info.inst
  instSize : ctx'.info.instSize = ctx.info.instSize
  code : ctx'.info.exception ∈ [ctx.info.exception, excLAM, excLPF, excSAM, excSPF]

/-- A body that accesses nothing. -/
theorem MemStep.refl (ctx : Ctx δ) : MemStep ctx ctx :=
  ⟨.refl _, rfl, rfl, rfl, rfl, rfl, by simp⟩

/-- One access after another. -/
theorem MemStep.trans {a b c : Ctx δ} (first : MemStep a b) (second : MemStep b c) :
    MemStep a c where
  frame := first.frame.trans second.frame
  dst0 := second.dst0.trans first.dst0
  mask1 := second.mask1.trans first.mask1
  mask2 := second.mask2.trans first.mask2
  inst := second.inst.trans first.inst
  instSize := second.instSize.trans first.instSize
  code := by
    have h := second.code
    have h' := first.code
    simp only [List.mem_cons, List.not_mem_nil, or_false] at h h' ⊢
    rcases h with h | h | h | h | h
    · rw [h]; exact h'
    all_goals simp [h]

/-- The address of an access is noted in the record. -/
theorem memStep_setExcData (ctx : Ctx δ) (va : Word) : MemStep ctx (ctx.setExcData va) :=
  ⟨.refl _, rfl, rfl, rfl, rfl, rfl, by simp [Ctx.setExcData]⟩

/-- A load changes what a read may change, and notes an exception of its own kind. -/
theorem ld_memStep (P : Platform δ) (width : Width) (ctx : Ctx δ) (va : Word) :
    Returns (ld P width ctx va) fun r => MemStep ctx r.2 := by
  refine (ld_spec P width ctx va).mono ?_
  rintro ⟨data, ctx'⟩ ⟨frame, info⟩
  obtain ⟨h0, h1, h2, hinst, hsize, -, -, hcode⟩ := info.keeps
  refine ⟨frame, h0, by rw [h1], h2, hinst, hsize, ?_⟩
  simp only [List.mem_cons, List.not_mem_nil, or_false] at hcode ⊢
  tauto

/-- A store is checked and translated; what it stores is for `updateEnv`. -/
theorem st_memStep (P : Platform δ) (width : Width) (ctx : Ctx δ) (va : Word) :
    Returns (st P width ctx va) fun c => MemStep ctx c := by
  refine (st_spec P width ctx va).mono ?_
  rintro ctx' ⟨frame, info⟩
  obtain ⟨h0, h1, h2, hinst, hsize, -, -, hcode⟩ := info.keeps
  refine ⟨frame, h0, by rw [h1], h2, hinst, hsize, ?_⟩
  simp only [List.mem_cons, List.not_mem_nil, or_false] at hcode ⊢
  tauto

/-- A memory code, from a cleared record, is one a body may leave. -/
theorem MemStep.bodyCode {ctx ctx' : Ctx δ} (step : MemStep ctx ctx')
    (fresh : Fresh ctx.info) (priv : Word) : bodyCode priv ctx'.info.exception := by
  have h := step.code
  rw [fresh.exception] at h
  refine bodyCode_of_mem ?_
  simp only [List.mem_cons, List.not_mem_nil, or_false] at h ⊢
  tauto

/-! ### The bodies -/

/-- A body that moves only the record, in a way that keeps the code and the word. -/
theorem bodySpec_of_info {b : Body} {ctx : Ctx δ} {i : DecodeInfo}
    (apart : ∀ w, ¬ b.targets w → Apart i w)
    (code : bodyCode (ctx.arch.state.get .priv) i.exception)
    (inst : i.inst = ctx.info.inst) (instSize : i.instSize = ctx.info.instSize) :
    BodySpec b ctx ⟨ctx.arch, i⟩ :=
  ⟨.refl _, apart, code, inst, instSize⟩

/-- A memory body: loads and stores, then the record completed. -/
theorem MemStep.bodySpec {b : Body} {ctx ctx' : Ctx δ} {i : DecodeInfo}
    (step : MemStep ctx ctx') (fresh : Fresh ctx.info)
    (apart : ∀ w, ¬ b.targets w → Apart i w)
    (code : i.exception = ctx'.info.exception) (inst : i.inst = ctx'.info.inst)
    (instSize : i.instSize = ctx'.info.instSize) : BodySpec b ctx ⟨ctx'.arch, i⟩ where
  frame := step.frame.exec
  apart := apart
  code := by rw [code]; exact step.bodyCode fresh _
  inst := inst.trans step.inst
  instSize := instSize.trans step.instSize

/-- A load: `rd` is the only destination. -/
theorem exec_load (P : Platform δ) (rd : BitVec 5) (addr : ArchState → Word) (width : Width)
    (ext : Word → Word) (ctx : Ctx δ) (fresh : Fresh ctx.info) :
    Returns ((Body.load rd addr width ext).exec P ctx) fun r =>
      BodySpec (.load rd addr width ext) ctx r.2 := by
  simp only [Body.exec, returns_bind, returns_pure]
  refine (ld_memStep P width _ _).mono ?_
  rintro ⟨data, c⟩ loaded
  have step := (memStep_setExcData ctx _).trans loaded
  refine step.bodySpec fresh ?_ rfl rfl rfl
  intro w other
  exact ⟨dstApart_full (Ne.symm other) _, .inl (step.mask1.trans fresh.mask1),
    .inl (step.mask2.trans fresh.mask2)⟩

/-- A store: no destination, one memory write. -/
theorem exec_store (P : Platform δ) (addr : ArchState → Word) (width : Width)
    (data : ArchState → Word) (ctx : Ctx δ) (fresh : Fresh ctx.info) :
    Returns ((Body.store addr width data).exec P ctx) fun r =>
      BodySpec (.store addr width data) ctx r.2 := by
  simp only [Body.exec, returns_bind, returns_pure]
  refine (st_memStep P width _ _).mono ?_
  intro c stored
  have step := (memStep_setExcData ctx _).trans stored
  refine step.bodySpec fresh ?_ rfl rfl rfl
  intro w _
  refine ⟨.inl ?_, .inl (step.mask1.trans fresh.mask1), .inl (step.mask2.trans fresh.mask2)⟩
  change c.info.dst0.mask = 0#64
  rw [step.dst0, fresh.mask0]

/-- A floating-point store, which needs the unit. -/
theorem exec_fstore (P : Platform δ) (addr : ArchState → Word) (width : Width)
    (data : ArchState → Word) (ctx : Ctx δ) (fresh : Fresh ctx.info) :
    Returns ((Body.fstore addr width data).exec P ctx) fun r =>
      BodySpec (.fstore addr width data) ctx r.2 := by
  simp only [Body.exec, returns_bind, returns_pure]
  refine (st_memStep P width _ _).mono ?_
  intro c step
  refine step.bodySpec fresh ?_ rfl rfl rfl
  intro w _
  refine ⟨.inl ?_, .inl (step.mask1.trans fresh.mask1), .inl (step.mask2.trans fresh.mask2)⟩
  change c.info.dst0.mask = 0#64
  rw [step.dst0, fresh.mask0]

/-- An atomic operation: `rd` and one memory write. -/
theorem exec_amo (P : Platform δ) (rd : BitVec 5) (addr : ArchState → Word) (width : Width)
    (data : ArchState → Word) (op : Word → Word → Word) (ctx : Ctx δ)
    (fresh : Fresh ctx.info) :
    Returns ((Body.amo rd addr width data op).exec P ctx) fun r =>
      BodySpec (.amo rd addr width data op) ctx r.2 := by
  simp only [Body.exec, returns_bind, returns_pure]
  refine (ld_memStep P width _ _).mono ?_
  rintro ⟨dest, c⟩ loaded
  refine (st_memStep P width c _).mono ?_
  intro c' stored
  have step := ((memStep_setExcData ctx _).trans loaded).trans stored
  refine step.bodySpec fresh ?_ rfl rfl rfl
  intro w other
  exact ⟨dstApart_full (Ne.symm other) _, .inl (step.mask1.trans fresh.mask1),
    .inl (step.mask2.trans fresh.mask2)⟩

/-- A load-reserved: `rd` and the reservation. -/
theorem exec_lr (P : Platform δ) (rd : BitVec 5) (addr : ArchState → Word) (width : Width)
    (ctx : Ctx δ) (fresh : Fresh ctx.info) :
    Returns ((Body.lr rd addr width).exec P ctx) fun r =>
      BodySpec (.lr rd addr width) ctx r.2 := by
  simp only [Body.exec, returns_bind, returns_pure]
  refine (ld_memStep P width _ _).mono ?_
  rintro ⟨dest, c⟩ loaded
  have step := (memStep_setExcData ctx _).trans loaded
  refine step.bodySpec fresh ?_ rfl rfl rfl
  intro w other
  simp only [Body.targets, not_or] at other
  exact ⟨dstApart_full (Ne.symm other.1) _, dstApart_full (Ne.symm other.2.1) _,
    dstApart_full (Ne.symm other.2.2) _⟩

/-- The comparison of a store-conditional, which loads only if the reservation is for its
address. -/
theorem scFails_memStep (P : Platform δ) (width : Width) (ctx : Ctx δ) (va : Word) :
    Returns (scFails P width ctx va) fun r => MemStep ctx r.2 := by
  unfold scFails
  split
  · exact (returns_ok _ _).2 (.refl ctx)
  · simpa only [returns_bind, returns_pure] using ld_memStep P width ctx va

/-- Either branch of `trans_sc_*` aims the first destination at `rd`. -/
theorem scResult_memStep (P : Platform δ) (rd : BitVec 5) (width : Width) (fail : Bool)
    (va src : Word) (ctx : Ctx δ) :
    Returns (scResult P rd width fail va src ctx) fun c =>
      MemStep ctx { c with info := { c.info with dst0 := ctx.info.dst0 } } ∧
        ∃ data, c.info.dst0 = Dst.full (.gpr rd) data := by
  unfold scResult
  split
  · exact (returns_ok _ _).2 ⟨⟨.refl _, rfl, rfl, rfl, rfl, rfl, by simp [Ctx.setDst0]⟩, 1, rfl⟩
  · simp only [returns_bind, returns_pure]
    refine (st_memStep P width ctx va).mono ?_
    intro c step
    exact ⟨⟨step.frame, rfl, step.mask1, step.mask2, step.inst, step.instSize, step.code⟩, 0, rfl⟩

/-- A store-conditional: `rd`, the reservation given up and, if it succeeds, one memory write.
-/
theorem exec_sc (P : Platform δ) (rd : BitVec 5) (addr : ArchState → Word) (width : Width)
    (src : ArchState → Word) (ctx : Ctx δ) (fresh : Fresh ctx.info) :
    Returns ((Body.sc rd addr width src).exec P ctx) fun r =>
      BodySpec (.sc rd addr width src) ctx r.2 := by
  simp only [Body.exec, returns_bind, returns_pure]
  refine (scFails_memStep P width _ _).mono ?_
  rintro ⟨fail, c⟩ compared
  refine (scResult_memStep P rd width fail _ _ c).mono ?_
  rintro c' ⟨finished, data0, aimed⟩
  have step := ((memStep_setExcData ctx _).trans compared).trans finished
  refine step.bodySpec fresh ?_ rfl rfl rfl
  intro w other
  simp only [Body.targets, not_or] at other
  refine ⟨?_, dstApart_full (Ne.symm other.2) _, .inl (step.mask2.trans fresh.mask2)⟩
  change DstApart c'.info.dst0 w
  rw [aimed]
  exact dstApart_full (Ne.symm other.1) _

/-! ### The floating-point bodies -/

/-- Setting `FS` to dirty changes `mstatus` only. -/
theorem dirtyFs_get (s : ArchState) {w : StateWord} (apart : w ≠ .mstatus) :
    s.dirtyFs.get w = s.get w := ArchState.get_set_of_ne _ _ apart

/-- Both bits of `FS` are set. -/
@[simp] theorem dirtyFs_mstatus (s : ArchState) :
    s.dirtyFs.get .mstatus = s.get .mstatus ||| mstatusFS := ArchState.get_set_self _ _ _

/-- The flags of the library are in the word of the unit. -/
theorem setFlags_get (s : ArchState) (flags : BitVec 16) {w : StateWord} (apart : w ≠ .fp) :
    (s.setFlags flags).get w = s.get w := ArchState.get_set_of_ne _ _ apart

/-- So is the rounding mode of the library. -/
theorem setrm_get (s : ArchState) (rm : BitVec 3) {w : StateWord} (apart : w ≠ .fp) :
    (s.setrm rm).get w = s.get w := ArchState.get_set_of_ne _ _ apart

/-- The choice of a rounding mode changes the word of the unit only. -/
theorem rounded_get (s : ArchState) (rm : Option (BitVec 3)) {w : StateWord} (apart : w ≠ .fp) :
    (s.rounded rm).get w = s.get w := by
  cases rm with
  | none => rfl
  | some rm => exact setrm_get s rm apart

/-- A floating-point computation writes only the floating-point word. -/
theorem FpCalc.run_get (P : Platform δ) (s : ArchState) (c : FpCalc) :
    Returns (c.run P s) fun r => ∀ w, w ≠ .fp → r.2.get w = s.get w := by
  cases c with
  | move value => exact (returns_ok _ _).2 fun _ _ => rfl
  | call op args box =>
      simp only [FpCalc.run]
      split
      · exact (returns_ok _ _).2 fun w apart => setFlags_get s _ apart
      · exact returns_error _ _

/-- A body may set `FS` to dirty. -/
theorem execFrame_dirtyFs (a : RiscvArch δ) :
    ExecFrame a { a with state := a.state.dirtyFs } :=
  ⟨fun _ _ h _ => dirtyFs_get _ h, .inr (dirtyFs_mstatus _), rfl, rfl, rfl, rfl, rfl, rfl⟩

/-- Guarded bodies: with the unit off the record carries `EXC_II`, with it on the rest
runs on the dirtied state. -/
theorem requireFpu_returns (ctx : Ctx δ) (k : Ctx δ → Except Abort (Bool × Ctx δ))
    (Q : Bool × Ctx δ → Prop) :
    Returns (requireFpu ctx k) Q ↔
      (ctx.arch.state.fpEnabled = false → Q (true, ctx.raise excII)) ∧
        (ctx.arch.state.fpEnabled = true →
          Returns (k (ctx.setState ctx.arch.state.dirtyFs)) Q) := by
  unfold requireFpu
  cases ctx.arch.state.fpEnabled <;> simp

/-- A record left with `EXC_II` and nothing else. -/
theorem bodySpec_raise (b : Body) (ctx : Ctx δ) (fresh : Fresh ctx.info) :
    BodySpec b ctx (ctx.raise excII) :=
  bodySpec_of_info
    (fun _ _ => ⟨.inl fresh.mask0, .inl fresh.mask1, .inl fresh.mask2⟩)
    (bodyCode_of_mem (by simp [excII])) rfl rfl

/-- A floating-point load, which needs the unit and makes it dirty. -/
theorem exec_fload (P : Platform δ) (rd : BitVec 5) (addr : ArchState → Word)
    (width : Width) (box : Word → Word) (ctx : Ctx δ) (fresh : Fresh ctx.info) :
    Returns ((Body.fload rd addr width box).exec P ctx) fun r =>
      BodySpec (.fload rd addr width box) ctx r.2 := by
  simp only [Body.exec]
  rw [requireFpu_returns]
  refine ⟨fun _ => bodySpec_raise _ ctx fresh, fun _ => ?_⟩
  rw [returns_bind]
  refine (ld_memStep P width _ _).mono ?_
  rintro ⟨data, c⟩ step
  have spec : BodySpec (.fload rd addr width box) (ctx.setState ctx.arch.state.dirtyFs)
      ((c.setDst0 (.fpr rd) (box data)).setType .load) := by
    refine step.bodySpec fresh ?_ rfl rfl rfl
    intro w other
    exact ⟨dstApart_full (Ne.symm other) _, .inl (step.mask1.trans fresh.mask1),
      .inl (step.mask2.trans fresh.mask2)⟩
  refine (returns_pure _ _).2
    ⟨(execFrame_dirtyFs ctx.arch).trans spec.frame, spec.apart, ?_, spec.inst, spec.instSize⟩
  have priv : ctx.arch.state.dirtyFs.get .priv = ctx.arch.state.get .priv :=
    dirtyFs_get _ (by decide)
  rw [← priv]
  exact spec.code

/-- An operation of the unit, with the flags among its destinations. -/
theorem exec_fp (P : Platform δ) (dst : DstReg) (rm : Option (BitVec 3)) (c : FpCalc)
    (type : PlainType) (ctx : Ctx δ) (fresh : Fresh ctx.info) :
    Returns ((Body.fp dst rm c type).exec P ctx) fun r =>
      BodySpec (.fp dst rm c type) ctx r.2 := by
  simp only [Body.exec]
  rw [requireFpu_returns]
  refine ⟨fun _ => bodySpec_raise _ ctx fresh, fun _ => ?_⟩
  rw [returns_bind]
  refine (FpCalc.run_get P _ c).mono ?_
  rintro ⟨dest, s⟩ kept
  have rounded (w : StateWord) (apart : w ≠ .fp) :
      s.get w = ctx.arch.state.dirtyFs.get w := by
    rw [kept w apart]
    cases rm with
    | none => rfl
    | some rm => exact setrm_get _ rm apart
  refine (returns_pure _ _).2 ⟨⟨?_, ?_, rfl, rfl, rfl, rfl, rfl, rfl⟩, ?_, ?_, rfl, rfl⟩
  · intro w _ hmstatus hfp
    exact (rounded w hfp).trans (dirtyFs_get _ hmstatus)
  · exact .inr ((rounded .mstatus (by decide)).trans (dirtyFs_mstatus _))
  · intro w other
    exact ⟨dstApart_full (Ne.symm other) _, .inl fresh.mask1, .inl fresh.mask2⟩
  · exact bodyCode_of_mem (by
      rw [show ((((ctx.setState ctx.arch.state.dirtyFs).setState s).setDst0 dst.word dest).setType
        type.instType).info.exception = ctx.info.exception from rfl, fresh.exception]
      simp)

/-! ### The CSR bodies -/

/-- What the callbacks of a CSR leave for a write mask: the machine along an execution
frame, and destinations other than the first that aim at the CSR's words. -/
structure CsrStep (ops : CsrOps) (mask : Word) (ctx ctx' : Ctx δ) : Prop where
  frame : ExecFrame ctx.arch ctx'.arch
  dst0 : ctx'.info.dst0 = ctx.info.dst0
  apart : ∀ w, (mask = 0#64 ∨ ¬ ops.targets w) →
    DstApart ctx'.info.dst1 w ∧ DstApart ctx'.info.dst2 w
  code : ctx'.info.exception ∈ [ctx.info.exception, excII]
  inst : ctx'.info.inst = ctx.info.inst
  instSize : ctx'.info.instSize = ctx.info.instSize

/-- A read callback touches the record's code only. -/
theorem csrRead_spec (ops : CsrOps) (ctx : Ctx δ) :
    Returns (csrRead ops ctx) fun r =>
      ExecFrame ctx.arch r.2.arch ∧
        ∃ code ∈ [ctx.info.exception, excII], r.2.info = { ctx.info with exception := code } := by
  unfold csrRead
  split
  · exact returns_error _ _
  · exact (returns_ok _ _).2 ⟨.refl _, ctx.info.exception, by simp, rfl⟩
  · split
    · exact (returns_ok _ _).2 ⟨.refl _, excII, by simp, rfl⟩
    · exact (returns_ok _ _).2 ⟨execFrame_dirtyFs _, ctx.info.exception, by simp, rfl⟩
  · exact (returns_ok _ _).2 ⟨.refl _, excII, by simp, rfl⟩

/-- A write callback aims the second and third destinations at the CSR's words. -/
theorem csrWrite_spec (ops : CsrOps) (noop : ops.op = none) (val : Word) (ctx : Ctx δ)
    (mask1 : ctx.info.dst1.mask = 0#64) (mask2 : ctx.info.dst2.mask = 0#64) (mask : Word)
    (live : mask ≠ 0#64) :
    Returns (csrWrite ops val ctx) fun c => CsrStep ops mask ctx c := by
  have still (w : StateWord) : DstApart ctx.info.dst1 w ∧ DstApart ctx.info.dst2 w :=
    ⟨.inl mask1, .inl mask2⟩
  unfold csrWrite
  split
  · exact returns_error _ _
  · rename_i w' m found
    refine (returns_ok _ _).2 ⟨.refl _, rfl, ?_, by simp [Ctx.setDst1], rfl, rfl⟩
    rintro w (dead | other)
    · exact absurd dead live
    · simp only [CsrOps.targets, noop, found] at other
      exact ⟨dstApart_idx other _ _, .inl mask2⟩
  · rename_i field m dest found
    split
    · exact (returns_ok _ _).2 ⟨.refl _, rfl, fun w _ => still w, by simp [Ctx.raise], rfl, rfl⟩
    · refine (returns_ok _ _).2 ⟨execFrame_dirtyFs _, rfl, ?_,
        by simp [Ctx.setDst1, Ctx.setDst2, Ctx.setState], rfl, rfl⟩
      rintro w (dead | other)
      · exact absurd dead live
      · simp only [CsrOps.targets, noop, found, not_or] at other
        exact ⟨dstApart_fpField (Ne.symm other.1) _ _ _, dstApart_idx (Ne.symm other.2) _ _⟩
  · rename_i found
    split
    · refine (returns_ok _ _).2 ⟨.refl _, rfl, ?_, by simp [Ctx.setDst1], rfl, rfl⟩
      rintro w (dead | other)
      · exact absurd dead live
      · simp only [CsrOps.targets, noop, found] at other
        exact ⟨dstApart_idx other _ _, .inl mask2⟩
    · exact (returns_ok _ _).2 ⟨.refl _, rfl, fun w _ => still w, by simp, rfl, rfl⟩
  · exact (returns_ok _ _).2 ⟨.refl _, rfl, fun w _ => still w, by simp [Ctx.raise], rfl, rfl⟩
  · exact (returns_ok _ _).2 ⟨.refl _, rfl, fun w _ => still w, by simp, rfl, rfl⟩
  · exact returns_error _ _

/-- An access to a CSR: the value read, what the callback prepares to write, or an illegal
instruction. -/
theorem riscvCsrrw_spec (P : Platform δ) (ops : CsrOps) (newValue writeMask : Word)
    (ctx : Ctx δ) (fresh : Fresh ctx.info) :
    Returns (riscvCsrrw P ops newValue writeMask ctx) fun r =>
      CsrStep ops writeMask ctx r.2 := by
  have still (w : StateWord) : DstApart ctx.info.dst1 w ∧ DstApart ctx.info.dst2 w :=
    ⟨.inl fresh.mask1, .inl fresh.mask2⟩
  unfold riscvCsrrw
  split
  · rename_i op found
    refine (returns_ok _ _).2 ⟨.refl _, rfl, ?_, by simp [Ctx.setDst1], rfl, rfl⟩
    rintro w (dead | other)
    · exact ⟨.inl (by simp [Ctx.setDst1, dead]), .inl fresh.mask2⟩
    · simp only [CsrOps.targets, found] at other
      exact ⟨dstApart_idx other _ _, .inl fresh.mask2⟩
  · rename_i noop
    rw [returns_bind]
    refine (csrRead_spec ops ctx).mono ?_
    rintro ⟨old, c⟩ ⟨frame, code, known, info⟩
    obtain ⟨arch, i⟩ := c
    simp only at frame info
    subst info
    cases old with
    | none => exact (returns_pure _ _).2 ⟨frame, rfl, fun w _ => still w, known, rfl, rfl⟩
    | some old =>
        dsimp only
        split
        · exact (returns_pure _ _).2 ⟨frame, rfl, fun w _ => still w, known, rfl, rfl⟩
        · rename_i live
          rw [returns_bind]
          refine (csrWrite_spec ops noop _ _ ?_ ?_ writeMask live).mono ?_
          · exact fresh.mask1
          · exact fresh.mask2
          intro c' step
          refine (returns_pure _ _).2
            ⟨frame.trans step.frame, step.dst0, step.apart, ?_, step.inst, step.instSize⟩
          have := step.code
          simp only [List.mem_cons, List.not_mem_nil, or_false] at known this ⊢
          rcases this with kept | illegal
          · rw [kept]
            exact known
          · exact .inr illegal

/-- A CSR instruction: `rd`, and the destination of the CSR it names if it is one that may be
accessed. -/
theorem exec_csr (P : Platform δ) (rd : BitVec 5) (csrno : BitVec 12) (access : CsrAccess)
    (ctx : Ctx δ) (fresh : Fresh ctx.info) :
    Returns ((Body.csr rd csrno access).exec P ctx) fun r =>
      BodySpec (.csr rd csrno access) ctx r.2 := by
  simp only [Body.exec, returns_bind, returns_pure, doCsr]
  cases checked : riscvCsrrwCheck csrno access.isWrite with
  | none =>
      refine (returns_ok _ _).2 (bodySpec_of_info ?_ (bodyCode_of_mem ?_) rfl rfl)
      · intro w _
        exact ⟨.inl fresh.mask0, .inl fresh.mask1, .inl fresh.mask2⟩
      · simp [Ctx.raise, Ctx.setExcData]
  | some ops =>
      have registered : csrOps csrno = some ops := by
        unfold riscvCsrrwCheck at checked
        split at checked
        · cases checked
        · split_ifs at checked
          cases checked
          assumption
      simp only [returns_bind, returns_pure]
      refine (riscvCsrrw_spec P ops _ _ ctx fresh).mono ?_
      rintro ⟨dest, c⟩ step
      refine ⟨step.frame, ?_, bodyCode_of_mem ?_, step.inst, step.instSize⟩
      · intro w other
        simp only [Body.targets, not_or] at other
        have others := step.apart w (by
          by_cases writes : access.isWrite
          · exact .inr fun target => other.2 ⟨writes, ops, registered, target⟩
          · left
            cases access with
            | read => rfl
            | write => simp [CsrAccess.isWrite] at writes)
        exact ⟨dstApart_full (Ne.symm other.1) _, others.1, others.2⟩
      · have := step.code
        rw [fresh.exception] at this
        simp only [List.mem_cons, List.not_mem_nil, or_false] at this ⊢
        rcases this with h | h <;> simp [Ctx.setDst0, Ctx.setType, h]

/-- An access to a register moves the machine by `mstatus.FS` alone: what survives that
survives the access. -/
theorem doCsr_arch {Q : RiscvArch δ → Prop}
    (dirty : ∀ a, Q a → Q { a with state := a.state.dirtyFs }) (P : Platform δ) {ctx : Ctx δ}
    (start : Q ctx.arch) (rd : BitVec 5) (csrno : BitVec 12) (access : CsrAccess) :
    Returns (doCsr P rd csrno access ctx) fun c => Q c.arch := by
  have written (ops : CsrOps) (val : Word) {c : Ctx δ} (held : Q c.arch) :
      Returns (csrWrite ops val c) fun c' => Q c'.arch := by
    unfold csrWrite
    split
    · exact returns_error _ _
    · exact (returns_ok _ _).2 held
    · split
      · exact (returns_ok _ _).2 held
      · exact (returns_ok _ _).2 (dirty _ held)
    · split <;> exact (returns_ok _ _).2 held
    · exact (returns_ok _ _).2 held
    · exact (returns_ok _ _).2 held
    · exact returns_error _ _
  have read (ops : CsrOps) : Returns (csrRead ops ctx) fun r => Q r.2.arch := by
    unfold csrRead
    split
    · exact returns_error _ _
    · exact (returns_ok _ _).2 start
    · split
      · exact (returns_ok _ _).2 start
      · exact (returns_ok _ _).2 (dirty _ start)
    · exact (returns_ok _ _).2 start
  unfold doCsr
  dsimp only
  split
  · exact (returns_ok _ _).2 start
  · simp only [returns_bind, returns_pure, riscvCsrrw]
    split
    · exact (returns_ok _ _).2 start
    · rw [returns_bind]
      refine (read _).mono ?_
      rintro ⟨old, c⟩ held
      cases old with
      | none => exact (returns_pure _ _).2 held
      | some old =>
          dsimp only
          split
          · exact (returns_pure _ _).2 held
          · rw [returns_bind]
            exact (written _ _ held).mono fun c' kept => (returns_pure _ _).2 kept

/-! ### All bodies -/

/-- What any body can do, one case for each kind of body. -/
theorem exec_spec (P : Platform δ) (b : Body) (ctx : Ctx δ) (fresh : Fresh ctx.info) :
    Returns (b.exec P ctx) fun r => BodySpec b ctx r.2 := by
  have kept (code : Word) (h : code = ctx.info.exception) :
      bodyCode (ctx.arch.state.get .priv) code :=
    bodyCode_of_mem (by rw [h, fresh.exception]; simp)
  have clear (w : StateWord) : Apart ctx.info w := fresh.apart w
  cases b with
  | notImplemented => exact returns_error _ _
  | unsupported =>
      exact (returns_ok _ _).2 (bodySpec_of_info (fun w _ => clear w) (kept _ rfl) rfl rfl)
  | compute rd value type =>
      simp only [Body.exec]
      split
      · exact returns_error _ _
      · refine (returns_ok _ _).2 (bodySpec_of_info ?_ (kept _ rfl) rfl rfl)
        intro w other
        exact ⟨dstApart_full (Ne.symm other) _, (clear w).dst1, (clear w).dst2⟩
  | cond taken imm =>
      refine (returns_ok _ _).2 (bodySpec_of_info ?_ (kept _ rfl) rfl rfl)
      intro w _
      exact ⟨(clear w).dst0, .inl fresh.mask1, .inl fresh.mask2⟩
  | jal rd imm =>
      refine (returns_ok _ _).2 (bodySpec_of_info ?_ (kept _ rfl) rfl rfl)
      intro w other
      exact ⟨dstApart_full (Ne.symm other) _, (clear w).dst1, .inl fresh.mask2⟩
  | jalr rd rs1 imm =>
      simp only [Body.exec]
      split <;> refine (returns_ok _ _).2 (bodySpec_of_info ?_ (kept _ rfl) rfl rfl) <;>
        intro w other <;>
        exact ⟨dstApart_full (Ne.symm other) _, (clear w).dst1, .inl fresh.mask2⟩
  | load rd addr width ext => exact exec_load P rd addr width ext ctx fresh
  | store addr width data => exact exec_store P addr width data ctx fresh
  | fload rd addr width box => exact exec_fload P rd addr width box ctx fresh
  | fstore addr width data => exact exec_fstore P addr width data ctx fresh
  | amo rd addr width data op => exact exec_amo P rd addr width data op ctx fresh
  | lr rd addr width => exact exec_lr P rd addr width ctx fresh
  | sc rd addr width src => exact exec_sc P rd addr width src ctx fresh
  | csr rd csrno access => exact exec_csr P rd csrno access ctx fresh
  | fp dst rm c type => exact exec_fp P dst rm c type ctx fresh
  | simple type =>
      exact (returns_ok _ _).2
        (bodySpec_of_info (fun w _ => ⟨(clear w).dst0, (clear w).dst1, (clear w).dst2⟩)
          (kept _ rfl) rfl rfl)
  | sfence src1 src2 =>
      refine (returns_ok _ _).2 (bodySpec_of_info ?_ (kept _ rfl) rfl rfl)
      intro w _
      exact ⟨(clear w).dst0, .inl fresh.mask1, .inl fresh.mask2⟩
  | sret | mret =>
      simp only [Body.exec]
      split <;> refine (returns_ok _ _).2 (bodySpec_of_info ?_ (bodyCode_of_mem ?_) rfl rfl)
      all_goals first
        | exact fun w _ => ⟨(clear w).dst0, (clear w).dst1, (clear w).dst2⟩
        | simp [Ctx.raise, Ctx.setExcData]
  | ebreak =>
      refine (returns_ok _ _).2 (bodySpec_of_info ?_ (bodyCode_of_mem ?_) rfl rfl)
      · exact fun w _ => ⟨(clear w).dst0, (clear w).dst1, (clear w).dst2⟩
      · simp [Ctx.raise, Ctx.setExcData]
  | ecall =>
      exact (returns_ok _ _).2 (bodySpec_of_info
        (fun w _ => ⟨(clear w).dst0, (clear w).dst1, (clear w).dst2⟩) (.inr rfl) rfl rfl)

end CPUDelaySim.Riscv
