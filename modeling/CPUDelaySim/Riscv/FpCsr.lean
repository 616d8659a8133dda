import CPUDelaySim.Riscv.CsrInstr

/-!
# The registers of the floating-point unit

`fflags`, `frm` and `fcsr` should be three views of two fields.  In the simulator the
fields share the word `fp`: `frm` is its lowest byte and the flags its bits 16 to 31, and
the callbacks aim at them with a byte offset and a mask.  The masks of `write_frm` and
`write_fcsr` are those of `fcsr` itself and miss both fields, and the flags of the
soft-float library have eleven bits that are no flags of the manual (`fpViews_iff`).
-/

namespace CPUDelaySim.Riscv

variable {δ : Type}

open RiscvArch

/-- The three views. -/
inductive FpView
  | fflags | frm | fcsr
  deriving DecidableEq, Repr

namespace FpView

/-- The number of the view. -/
def csrno : FpView → BitVec 12
  | fflags => 0x001
  | frm => 0x002
  | fcsr => 0x003

/-- What reading a view yields. -/
def value (v : FpView) (s : ArchState) : Word :=
  match v with
  | fflags => s.floatExceptionFlags.setWidth 64
  | frm => s.frm.setWidth 64
  | fcsr => s.floatExceptionFlags.setWidth 64 ||| (s.frm.setWidth 64 <<< 5)

/-- The bits of the word `fp` that a write changes. -/
def mask : FpView → Word
  | fflags => 0x1f0000
  | frm => 0xe0
  | fcsr => 0x1fe0

/-- The bits a write puts there. -/
def data (v : FpView) (new : Word) : Word :=
  match v with
  | fflags => (new &&& fsrAexc) <<< 16
  | frm => (new &&& fsrRd) >>> 5
  | fcsr => ((new &&& fsrAexc) <<< 8) ||| ((new &&& fsrRd) >>> 5)

/-- What writing a view does. -/
def write (v : FpView) (s : ArchState) (new : Word) : ArchState :=
  s.set .fp (mergeMask (s.get .fp) v.mask (v.data new))

/-! ### Bits of the word -/

/-- A field outside the mask keeps its bits. -/
theorem extract_mergeMask {old mask data : Word} {start len : Nat}
    (apart : mask.extractLsb' start len = BitVec.ofNat len 0) :
    (mergeMask old mask data).extractLsb' start len = old.extractLsb' start len := by
  apply BitVec.eq_of_getLsbD_eq
  intro i bound
  have out := congrArg (·.getLsbD i) apart
  simp only [BitVec.getLsbD_extractLsb', BitVec.getLsbD_zero, bound, decide_true,
    Bool.true_and] at out ⊢
  rw [mergeMask_getLsbD, out]
  rfl

/-- The mask of the flags has five bits. -/
theorem fsrAexc_getLsbD (i : Nat) : fsrAexc.getLsbD i = decide (i < 5) := by
  rw [show fsrAexc = (BitVec.allOnes 5).setWidth 64 from rfl, BitVec.getLsbD_setWidth,
    BitVec.getLsbD_allOnes]
  by_cases low : i < 5
  · simp [low]; omega
  · simp [low]

/-- The mask of the rounding mode has three bits above them. -/
theorem fsrRd_getLsbD (i : Nat) : fsrRd.getLsbD i = decide (5 ≤ i ∧ i < 8) := by
  rw [show fsrRd = (BitVec.allOnes 3).setWidth 64 <<< 5 from rfl, BitVec.getLsbD_shiftLeft,
    BitVec.getLsbD_setWidth, BitVec.getLsbD_allOnes]
  by_cases low : i < 5
  · have below : ¬ 5 ≤ i := by omega
    simp [low, below]
  · by_cases high : i < 8
    · have inside : i - 5 < 3 := by omega
      have within : 5 ≤ i := by omega
      have wide : i < 64 := by omega
      have wide' : i - 5 < 64 := by omega
      simp [low, high, inside, within, wide, wide']
    · have outside : ¬ i - 5 < 3 := by omega
      simp [high, outside]

/-- The bits of `fflags`, in the word of the unit. -/
theorem flags_getLsbD (s : ArchState) (i : Nat) :
    (value fflags s).getLsbD i = (decide (i < 16) && (s.get .fp).getLsbD (16 + i)) := by
  rw [value, ArchState.floatExceptionFlags, BitVec.getLsbD_setWidth, BitVec.getLsbD_extractLsb']
  by_cases low : i < 16
  · simp [low]; omega
  · simp [low]

/-- The bits of `frm`, in the word of the unit. -/
theorem frm_getLsbD (s : ArchState) (i : Nat) :
    (value frm s).getLsbD i = (decide (i < 8) && (s.get .fp).getLsbD i) := by
  rw [value, ArchState.frm, BitVec.getLsbD_setWidth, BitVec.getLsbD_extractLsb', Nat.zero_add]
  by_cases low : i < 8
  · simp [low]; omega
  · simp [low]

/-- What the source prepares for `frm` are bits 5 to 7 of the value. -/
theorem data_frm_getLsbD (new : Word) (i : Nat) :
    (data frm new).getLsbD i = (new.getLsbD (5 + i) && decide (i < 3)) := by
  rw [data, BitVec.getLsbD_ushiftRight, BitVec.getLsbD_and, fsrRd_getLsbD]
  congr 2
  rw [eq_iff_iff]
  omega

/-- What reaches the mask of `frm` has been shifted out of it. -/
theorem data_frm_and (new : Word) : data frm new &&& mask frm = 0#64 := by
  apply BitVec.eq_of_getLsbD_eq
  intro i _
  rw [BitVec.getLsbD_and, data_frm_getLsbD, show mask frm = fsrRd from rfl, fsrRd_getLsbD,
    BitVec.getLsbD_zero]
  by_cases low : i < 3
  · have apart : ¬ (5 ≤ i ∧ i < 8) := by omega
    simp [apart]
  · simp [low]

/-- Of what is written to `fcsr` the flags remain, in the byte above `frm`. -/
theorem data_fcsr_and (new : Word) :
    data fcsr new &&& mask fcsr = (new &&& fsrAexc) <<< 8 := by
  have byte : data fcsr new = (new &&& fsrAexc) <<< 8 ||| data frm new := rfl
  have fields : mask fcsr = fsrAexc <<< 8 ||| fsrRd := rfl
  apply BitVec.eq_of_getLsbD_eq
  intro i bound
  rw [byte, fields, BitVec.getLsbD_and, BitVec.getLsbD_or, BitVec.getLsbD_or,
    BitVec.getLsbD_shiftLeft, BitVec.getLsbD_shiftLeft, BitVec.getLsbD_and, data_frm_getLsbD,
    fsrRd_getLsbD, fsrAexc_getLsbD]
  by_cases low : i < 8
  · have apart : ¬ (i < 3 ∧ 5 ≤ i) := by omega
    by_cases here : i < 3
    · have : ¬ (5 ≤ i) := by omega
      simp [low, this]
    · simp [low, here]
  · have here : ¬ (i < 3) := by omega
    cases new.getLsbD (i - 8) <;> simp [low, here, bound]

/-- A write to `fflags` replaces the five flags of the manual. -/
theorem value_write_fflags (s : ArchState) (new : Word) :
    value fflags (write fflags s new) =
      (value fflags s &&& ~~~fsrAexc) ||| (new &&& fsrAexc) := by
  apply BitVec.eq_of_getLsbD_eq
  intro i bound
  have here : (mask fflags).getLsbD (16 + i) = decide (i < 5) := by
    rw [show mask fflags = fsrAexc <<< 16 from rfl, BitVec.getLsbD_shiftLeft, fsrAexc_getLsbD]
    by_cases low : i < 5
    · have wide : 16 + i < 64 := by omega
      simp [low, wide]
    · simp [low]
  have put : (data fflags new).getLsbD (16 + i) =
      (decide (16 + i < 64) && (new.getLsbD i && decide (i < 5))) := by
    have above : ¬ 16 + i < 16 := by omega
    rw [data, BitVec.getLsbD_shiftLeft, BitVec.getLsbD_and, fsrAexc_getLsbD]
    simp [above]
  rw [flags_getLsbD, write, ArchState.get_set_self, mergeMask_getLsbD, here, put,
    BitVec.getLsbD_or, BitVec.getLsbD_and, BitVec.getLsbD_and, BitVec.getLsbD_not,
    fsrAexc_getLsbD, flags_getLsbD]
  by_cases low : i < 5
  · have short : i < 16 := by omega
    have wide : 16 + i < 64 := by omega
    simp [low, short, wide]
  · simp [low, bound]

/-- The other two writes leave the flags alone. -/
theorem value_fflags_write {v : FpView} (other : v ≠ fflags) (s : ArchState) (new : Word) :
    value fflags (v.write s new) = value fflags s := by
  rw [value, value, ArchState.floatExceptionFlags, ArchState.floatExceptionFlags, write,
    ArchState.get_set_self, extract_mergeMask]
  cases v with
  | fflags => exact absurd rfl other
  | frm | fcsr => decide

/-- No write sets a bit of `frm`. -/
theorem frm_write (v : FpView) {s : ArchState} (clear : value frm s = 0#64) (new : Word) :
    value frm (v.write s new) = 0#64 := by
  have missed (i : Nat) (low : i < 8) : (v.data new &&& v.mask).getLsbD i = false := by
    cases v with
    | fflags =>
        rw [show mask fflags = fsrAexc <<< 16 from rfl, BitVec.getLsbD_and,
          BitVec.getLsbD_shiftLeft]
        have below : i < 16 := by omega
        simp [below]
    | frm => rw [data_frm_and, BitVec.getLsbD_zero]
    | fcsr =>
        rw [data_fcsr_and, BitVec.getLsbD_shiftLeft]
        simp [low]
  apply BitVec.eq_of_getLsbD_eq
  intro i bound
  have before := congrArg (·.getLsbD i) clear
  simp only [frm_getLsbD, BitVec.getLsbD_zero] at before
  rw [frm_getLsbD, write, ArchState.get_set_self, mergeMask_getLsbD, BitVec.getLsbD_zero]
  by_cases low : i < 8
  · have zero := missed i low
    rw [BitVec.getLsbD_and] at zero
    simp only [low, decide_true, Bool.true_and] at before ⊢
    cases here : v.mask.getLsbD i with
    | false => simpa using before
    | true => simpa [here] using zero
  · simp [low]

/-- A write through a view does not change the rounding mode of the library. -/
theorem floatRoundingMode_write (v : FpView) (s : ArchState) (new : Word) :
    (v.write s new).floatRoundingMode = s.floatRoundingMode := by
  rw [ArchState.floatRoundingMode, write, ArchState.get_set_self, extract_mergeMask,
    ArchState.floatRoundingMode]
  cases v <;> decide

/-- The rounding mode of an instruction is a field of its own. -/
theorem value_rounded (v : FpView) (s : ArchState) (rm : Option (BitVec 3)) :
    v.value (s.rounded rm) = v.value s := by
  cases rm with
  | none => rfl
  | some rm =>
      have flags : (s.setrm rm).floatExceptionFlags = s.floatExceptionFlags := by
        rw [ArchState.floatExceptionFlags, ArchState.setrm, ArchState.get_set_self,
          extract_mergeMask (by decide), ArchState.floatExceptionFlags]
      have mode : (s.setrm rm).frm = s.frm := by
        rw [ArchState.frm, ArchState.setrm, ArchState.get_set_self,
          extract_mergeMask (by decide), ArchState.frm]
      cases v <;> simp only [value, ArchState.rounded, flags, mode]

/-- The flags of the library are not in `frm`. -/
theorem value_frm_setFlags (s : ArchState) (flags : BitVec 16) :
    value frm (s.setFlags flags) = value frm s := by
  rw [value, ArchState.frm, ArchState.setFlags, ArchState.get_set_self,
    extract_mergeMask (by decide), value, ArchState.frm]

/-- The flags of the library are what `fflags` reads. -/
theorem value_fflags_setFlags (s : ArchState) (flags : BitVec 16) :
    value fflags (s.setFlags flags) = flags.setWidth 64 := by
  apply BitVec.eq_of_getLsbD_eq
  intro i bound
  have whole : (0xffff0000 : Word) = (BitVec.allOnes 16).setWidth 64 <<< 16 := rfl
  rw [flags_getLsbD, ArchState.setFlags, ArchState.get_set_self, mergeMask_getLsbD, whole,
    BitVec.getLsbD_shiftLeft, BitVec.getLsbD_shiftLeft, BitVec.getLsbD_setWidth,
    BitVec.getLsbD_setWidth, BitVec.getLsbD_allOnes]
  by_cases low : i < 16
  · have wide : 16 + i < 64 := by omega
    have above : ¬ 16 + i < 16 := by omega
    simp [low, wide, above, bound]
  · have beyond : flags.getLsbD i = false := BitVec.getLsbD_of_ge flags i (by omega)
    simp [low, beyond]

/-! ### Consistent views -/

/-- `fcsr` is made of the other two, and they have five and three bits. -/
structure Consistent (s : ArchState) : Prop where
  joined : value fcsr s = (value frm s <<< 5) ||| value fflags s
  flags : value fflags s < 32
  mode : value frm s < 8

/-- With `frm` clear and no flag above the five, the views are consistent. -/
theorem consistent_of_frm {s : ArchState} (clear : value frm s = 0#64)
    (flags : value fflags s < 32) : Consistent s where
  joined := BitVec.or_comm _ _
  flags := flags
  mode := by
    rw [clear]
    decide

/-- What a write of `new` through a view should do. -/
def Wrote (v : FpView) (new : Word) (s s' : ArchState) : Prop :=
  match v with
  | fflags => value fflags s' = new &&& 0x1f ∧ value frm s' = value frm s
  | frm => value frm s' = new &&& 7 ∧ value fflags s' = value fflags s
  | fcsr => value frm s' = (new >>> 5) &&& 7 ∧ value fflags s' = new &&& 0x1f

/-- When it does. -/
def Fits (v : FpView) (new : Word) (s : ArchState) : Prop :=
  match v with
  | fflags => value fflags s < 32
  | frm => new &&& 7 = 0 ∧ value fflags s < 32
  | fcsr => (new >>> 5) &&& 7 = 0 ∧ value fflags s = new &&& 0x1f

/-- Under the mask of the flags nothing above them is left. -/
theorem and_fsrAexc_lt (new : Word) : new &&& fsrAexc < 32 := by
  rw [BitVec.lt_def, BitVec.toNat_and]
  exact Nat.lt_of_le_of_lt Nat.and_le_right (by decide)

/-- The bits above the five flags are clear. -/
theorem and_not_fsrAexc_eq_zero (x : Word) : x &&& ~~~fsrAexc = 0#64 ↔ x < 32 := by
  have bits (i : Nat) (bound : i < 64) :
      (x &&& ~~~fsrAexc).getLsbD i = (x.getLsbD i && decide (5 ≤ i)) := by
    rw [BitVec.getLsbD_and, BitVec.getLsbD_not, fsrAexc_getLsbD]
    by_cases low : i < 5
    · have out : ¬ 5 ≤ i := by omega
      simp [low, out]
    · have high : 5 ≤ i := by omega
      simp [low, high, bound]
  rw [BitVec.lt_def]
  constructor
  · intro clear
    refine Nat.lt_pow_two_of_testBit (n := 5) _ fun i high => ?_
    rw [BitVec.testBit_toNat]
    by_cases bound : i < 64
    · have bit := bits i bound
      rw [clear, BitVec.getLsbD_zero] at bit
      simpa [high] using bit.symm
    · exact BitVec.getLsbD_of_ge x i (by omega)
  · intro small
    apply BitVec.eq_of_getLsbD_eq
    intro i bound
    rw [bits i bound, BitVec.getLsbD_zero]
    by_cases high : 5 ≤ i
    · have zero : x.getLsbD i = false := by
        rw [← BitVec.testBit_toNat]
        exact Nat.testBit_lt_two_pow
          (Nat.lt_of_lt_of_le small (Nat.pow_le_pow_right (show 2 > 0 by decide) high))
      simp [zero]
    · simp [high]

/-- A view is a function of the word. -/
theorem value_congr {s s' : ArchState} (same : s.get .fp = s'.get .fp) (v : FpView) :
    v.value s = v.value s' := by
  cases v <;>
    simp only [value, ArchState.floatExceptionFlags, ArchState.frm, same]

/-- As `frm` is never set, a write is right when it sets nothing there, and when no other
flag stands in the way. -/
theorem wrote_iff {v : FpView} {s s' : ArchState} {new : Word} (clear : value frm s = 0#64)
    (word : s'.get .fp = (v.write s new).get .fp) :
    v.Wrote new s s' ∧ Consistent s' ↔ v.Fits new s := by
  have mode : value frm s' = 0#64 := (value_congr word frm).trans (frm_write v clear new)
  have flags := value_congr word fflags
  cases v with
  | fflags =>
      rw [value_write_fflags] at flags
      -- The flags are those written when no bit above them was set.
      have exact_iff : value fflags s' = new &&& 0x1f ↔ value fflags s < 32 := by
        rw [flags, ← and_not_fsrAexc_eq_zero, show (0x1f : Word) = fsrAexc from rfl]
        constructor
        · intro same
          apply BitVec.eq_of_getLsbD_eq
          intro i _
          have bit := congrArg (·.getLsbD i) same
          simp only [BitVec.getLsbD_or, BitVec.getLsbD_and, BitVec.getLsbD_not] at bit
          rw [BitVec.getLsbD_and, BitVec.getLsbD_not, BitVec.getLsbD_zero]
          revert bit
          cases (value fflags s).getLsbD i <;> cases fsrAexc.getLsbD i <;> simp
        · intro none
          rw [none, BitVec.zero_or]
      constructor
      · rintro ⟨⟨wrote, -⟩, -⟩
        exact exact_iff.1 wrote
      · intro fits
        have wrote := exact_iff.2 fits
        refine ⟨⟨wrote, mode.trans clear.symm⟩, consistent_of_frm mode ?_⟩
        rw [wrote]
        exact and_fsrAexc_lt new
  | frm =>
      have kept := flags.trans (value_fflags_write (by decide) s new)
      constructor
      · rintro ⟨⟨wrote, -⟩, consistent⟩
        exact ⟨wrote.symm.trans mode, kept ▸ consistent.flags⟩
      · rintro ⟨none, small⟩
        exact ⟨⟨mode.trans none.symm, kept⟩, consistent_of_frm mode (kept ▸ small)⟩
  | fcsr =>
      have kept := flags.trans (value_fflags_write (by decide) s new)
      constructor
      · rintro ⟨⟨wrote, raised⟩, -⟩
        exact ⟨wrote.symm.trans mode, kept.symm.trans raised⟩
      · rintro ⟨none, same⟩
        have raised := kept.trans same
        refine ⟨⟨mode.trans none.symm, raised⟩, consistent_of_frm mode ?_⟩
        rw [raised]
        exact and_fsrAexc_lt new

/-! ### Through the callbacks -/

/-- `mstatus.FS` is no part of an interrupt. -/
theorem irqException_dirtyFs (s : ArchState) : irqException s.dirtyFs = irqException s := by
  have bit (m : Word) (apart : mstatusFS &&& m = 0#64) :
      s.dirtyFs.get .mstatus &&& m = s.get .mstatus &&& m := by
    rw [dirtyFs_mstatus, BitVec.and_or_distrib_right, apart, BitVec.or_zero]
  have enable : irqEnable s.dirtyFs = irqEnable s := by
    rw [irqEnable, irqEnable, dirtyFs_get s (by decide), bit mstatusSIE (by decide),
      bit mstatusMIE (by decide)]
  rw [irqException, irqException, irqValids, irqValids, enable, dirtyFs_get s (by decide),
    dirtyFs_get s (by decide)]

/-- The commit of the field that a write aims at. -/
theorem commit_write (v : FpView) :
    ∃ (field : FpField) (mask : Word) (dest : Word → Word), csrOps v.csrno =
        some ⟨.fs, some (.fp v.value), some (.fp field mask dest), none⟩ ∧
      ∀ (s : ArchState) (new : Word), s.commit ⟨field.idx, mask, dest new⟩ =
        .ok (v.write s new) := by
  cases v with
  | fflags =>
      refine ⟨_, _, _, rfl, fun s new => ?_⟩
      have live : fsrAexc ≠ 0#64 := by decide
      have shifted : fsrAexc <<< 16 = mask fflags := by decide
      rw [ArchState.commit, if_neg live, show FpField.fflags.idx = archFflags from rfl,
        fieldAt_archFflags]
      dsimp only
      rw [shifted, write, data]
  | frm =>
      refine ⟨_, _, _, rfl, fun s new => ?_⟩
      rw [show FpField.frm.idx = StateWord.fp.idx from rfl, ArchState.commit_idx, write, data]
      rfl
  | fcsr =>
      refine ⟨_, _, _, rfl, fun s new => ?_⟩
      have fields : fsrAexc <<< 8 ||| fsrRd = mask fcsr := by decide
      rw [show FpField.frm.idx = StateWord.fp.idx from rfl, ArchState.commit_idx, fields, write,
        data]

/-- The state after an instruction on a view: with nothing to write, the view is read
only. -/
def next (v : FpView) (c : CsrInstr) (s : ArchState) : ArchState :=
  if c.access.mask s = 0 then s else v.write s (c.op.apply (v.value s) (c.operand s))

/-- A dirty unit does not become dirtier. -/
theorem dirtyFs_dirtyFs (s : ArchState) : s.dirtyFs.dirtyFs = s.dirtyFs := by
  refine dirtyFs_of_fsDirty ?_
  rw [ArchState.FsDirty, dirtyFs_mstatus]
  exact (or_eq_left_iff _ _).1 (by rw [BitVec.or_assoc, BitVec.or_self])

/-- The words a write touches are three different ones. -/
theorem write_dirtyFs (v : FpView) (s : ArchState) (rd : BitVec 5) (old new : Word) :
    v.write (s.dirtyFs.set (.gpr rd) old) new = (v.write s new).dirtyFs.set (.gpr rd) old := by
  rw [write, ArchState.get_set_of_ne _ _ (by simp), dirtyFs_get s (by decide), ArchState.dirtyFs,
    ArchState.dirtyFs, write, ArchState.get_set_of_ne _ _ (by simp),
    ArchState.set_comm _ _ _ (show StateWord.gpr rd ≠ .fp by simp),
    ArchState.set_comm _ _ _ (show StateWord.mstatus ≠ .fp by simp)]

section Access

variable {P : Platform δ} {v : FpView}

/-- With the unit on, an access through a view dirties it, reads the view, and prepares a
write if there is one. -/
theorem doCsr_view (v : FpView) (rd : BitVec 5) (access : CsrAccess) {ctx : Ctx δ}
    (on : ctx.arch.state.fpEnabled = true) :
    let s := ctx.arch.state
    let new := mergeMask (v.value s) (access.mask s) (access.src s)
    ∃ (field : FpField) (mask : Word) (dest : Word → Word), (∀ (t : ArchState) (x : Word),
        t.commit ⟨field.idx, mask, dest x⟩ = .ok (v.write t x)) ∧
      doCsr P rd v.csrno access ctx = .ok (
        if access.mask s = 0 then (ctx.setState s.dirtyFs).setDst0 (.gpr rd) (v.value s)
        else (((ctx.setState s.dirtyFs).setDst1 ⟨field.idx, mask, dest new⟩).setDst2
          ⟨StateWord.mstatus.idx, mstatusFS, mstatusFS⟩).setDst0 (.gpr rd) (v.value s)) := by
  intro s new
  obtain ⟨field, mask, dest, registered, aimed⟩ := v.commit_write
  have fp : IsFpCsr v.csrno := by cases v <;> simp [IsFpCsr, csrno]
  have checked := (riscvCsrrwCheck_of_isFpCsr fp access.isWrite).trans registered
  have dirty := dirtyFs_fpEnabled ctx.arch.state
  have again : ctx.arch.state.dirtyFs.dirtyFs = ctx.arch.state.dirtyFs := dirtyFs_dirtyFs s
  have reads : v.value ctx.arch.state.dirtyFs = v.value s :=
    value_congr (dirtyFs_get s (by decide)) v
  refine ⟨field, mask, dest, aimed, ?_⟩
  by_cases dead : access.mask ctx.arch.state = 0
  · simp only [doCsr, checked, riscvCsrrw, csrRead, on, Ctx.setState, Bool.not_true,
      Bool.false_eq_true, if_false, bind, Except.bind, if_pos dead, reads]
    rw [if_pos dead]
    rfl
  · simp only [doCsr, checked, riscvCsrrw, csrRead, on, Ctx.setState, Bool.not_true,
      Bool.false_eq_true, if_false, bind, Except.bind, if_neg dead, csrWrite, dirty, again, reads]
    rw [if_neg dead]
    rfl

variable {arch a : RiscvArch δ} {vaddr paddr : Word} {slot : DecodeInfo} {c : CsrInstr}

/-- An instruction on a view of the unit that is on completes. -/
theorem completes_view_iff (number : c.csr = v.csrno)
    (fetches : Fetches P arch paddr slot false c.word a) (quiet : irqException a.state = none)
    (zero : a.state.gpr 0 = 0) (on : a.state.fpEnabled = true) {pc : Word}
    {arch' : RiscvArch δ} :
    Completes P arch vaddr paddr slot pc arch' ↔ pc = vaddr + 4 ∧
      arch' = ({ a with
        pc := vaddr
        paddr := paddr
        state := ((v.next c a.state).dirtyFs.set (.gpr c.rd) (v.value a.state)).set (.gpr 0) 0 } :
          RiscvArch δ).updateMMUState := by
  obtain ⟨i, fetched, word⟩ := fetches
  let ctx := bodyCtx a vaddr paddr i
  let s := a.state
  have enabled : ctx.arch.state.fpEnabled = true := on
  obtain ⟨field, mask, dest, aimed, ran⟩ := v.doCsr_view (P := P) c.rd c.access enabled
  rw [← number] at ran
  have fresh : Fresh (ctx.setState s.dirtyFs).info := fresh_cleared i
  have silent : irqException s.dirtyFs = none := (irqException_dirtyFs s).trans quiet
  have dst0 : s.dirtyFs.commit (Dst.full (.gpr c.rd) (v.value s)) =
      .ok (s.dirtyFs.set (.gpr c.rd) (v.value s)) := by
    refine (ArchState.commit_idx _ _ _ _).trans ?_
    exact congrArg (fun x => Except.ok (s.dirtyFs.set (.gpr c.rd) x)) (mergeMask_full _ _)
  by_cases dead : c.access.mask s = 0
  · rw [if_pos (show c.access.mask ctx.arch.state = 0 from dead)] at ran
    have dsts : commitDsts s.dirtyFs
        ((ctx.setState s.dirtyFs).setDst0 (.gpr c.rd) (v.value s)).info =
          .ok ((v.next c s).dirtyFs.set (.gpr c.rd) (v.value s)) := by
      simp only [commitDsts, bind_eq_ok]
      rw [next, if_pos dead]
      exact ⟨_, dst0, _, ArchState.commit_of_mask_zero _ fresh.mask1,
        ArchState.commit_of_mask_zero _ fresh.mask2⟩
    exact completes_csr_iff fetched word ran silent fresh.exception rfl dsts
  · rw [if_neg (show ¬ c.access.mask ctx.arch.state = 0 from dead)] at ran
    let new := mergeMask (v.value s) (c.access.mask s) (c.access.src s)
    let filed := (((ctx.setState s.dirtyFs).setDst1 ⟨field.idx, mask, dest new⟩).setDst2
      ⟨StateWord.mstatus.idx, mstatusFS, mstatusFS⟩).setDst0 (.gpr c.rd) (v.value s)
    have dsts : commitDsts s.dirtyFs filed.info =
        .ok ((v.next c s).dirtyFs.set (.gpr c.rd) (v.value s)) := by
      simp only [commitDsts, bind_eq_ok]
      refine ⟨_, dst0, _, aimed _ new, ?_⟩
      rw [next, if_neg dead, ← c.merge_eq zero, ← write_dirtyFs]
      -- The third destination sets bits that are set.
      let t := v.write (s.dirtyFs.set (.gpr c.rd) (v.value s)) new
      have status : t.get .mstatus = s.dirtyFs.get .mstatus := by
        rw [show t.get .mstatus = _ from ArchState.get_set_of_ne _ _ (by decide),
          ArchState.get_set_of_ne _ _ (by simp)]
      have contains : t.get .mstatus &&& mstatusFS = mstatusFS := by
        rw [status, dirtyFs_mstatus]
        exact (or_eq_left_iff _ _).1 (by rw [BitVec.or_assoc, BitVec.or_self])
      refine (ArchState.commit_idx t .mstatus _ _).trans ?_
      rw [mergeMask_of_contains contains, ArchState.set_get]
    exact completes_csr_iff fetched word ran silent fresh.exception rfl dsts

end Access

/-- What an instruction on a view should leave: `rd` holds the value of the view, and
nothing else has changed but `mstatus.FS` and the fields of the unit. -/
structure Leaves (v : FpView) (rd : BitVec 5) (s s' : ArchState) : Prop where
  reads : rd ≠ 0 → s'.gpr rd = v.value s
  status : s'.get .mstatus &&& ~~~mstatusFS = s.get .mstatus &&& ~~~mstatusFS
  rounding : s'.floatRoundingMode = s.floatRoundingMode
  others : ∀ w, w ≠ .fp → w ≠ .mstatus → w ≠ .gpr rd → s'.get w = s.get w

/-- The state of an instruction, from the closed form. -/
theorem leaves_next (v : FpView) (c : CsrInstr) {s : ArchState} (zero : s.gpr 0 = 0) :
    v.Leaves c.rd s (((v.next c s).dirtyFs.set (.gpr c.rd) (v.value s)).set (.gpr 0) 0) := by
  have others (w : StateWord) (fp : w ≠ .fp) : (v.next c s).get w = s.get w := by
    unfold next
    split
    · rfl
    · exact ArchState.get_set_of_ne _ _ fp
  refine ⟨?_, ?_, ?_, ?_⟩
  · intro named
    have other : StateWord.gpr c.rd ≠ .gpr 0 := fun same => named (StateWord.gpr.inj same)
    rw [ArchState.gpr, ArchState.get_set_of_ne _ _ other, ArchState.get_set_self]
  · have clear : mstatusFS &&& ~~~mstatusFS = 0#64 := by decide
    rw [ArchState.get_set_of_ne _ _ (by simp), ArchState.get_set_of_ne _ _ (by simp),
      dirtyFs_mstatus, BitVec.and_or_distrib_right, clear, BitVec.or_zero, others _ (by decide)]
  · rw [ArchState.floatRoundingMode, ArchState.get_set_of_ne _ _ (by simp),
      ArchState.get_set_of_ne _ _ (by simp), dirtyFs_get _ (by decide)]
    unfold next
    split
    · rfl
    · exact floatRoundingMode_write v s _
  · intro w fp status rd
    by_cases first : w = .gpr 0
    · subst first
      rw [ArchState.get_set_self]
      exact zero.symm
    · rw [ArchState.get_set_of_ne _ _ first, ArchState.get_set_of_ne _ _ rd, dirtyFs_get _ status,
        others w fp]

end FpView

end CPUDelaySim.Riscv
