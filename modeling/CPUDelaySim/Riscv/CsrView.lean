import CPUDelaySim.Riscv.CsrLaw

/-!
# The supervisor's views of machine registers

`sstatus`, `sie` and `sip` show and change some bits of `mstatus`, `mie` and `mip`.  What a
view should be is `CsrView.Lens`: the bits it writes are bits it shows, none of them
belongs to machine mode alone, and what is written is read back.  The simulator writes
through all three as it should, but only `sstatus` is also read so: `rmw_sie` and `rmw_sip`
hand on the mask of a write and not that of a read (`viewObeys_iff`).
-/

namespace CPUDelaySim.Riscv

variable {δ : Type}

open RiscvArch

/-- The three views. -/
inductive CsrView
  | sstatus | sie | sip
  deriving DecidableEq, Repr

namespace CsrView

/-- The number of the view. -/
def csrno : CsrView → BitVec 12
  | sstatus => 0x100
  | sie => 0x104
  | sip => 0x144

/-- The machine register behind a view. -/
def word : CsrView → StateWord
  | sstatus => .mstatus
  | sie => .mie
  | sip => .mip

/-- The bits a view shows: of the interrupts, the delegated ones. -/
def visible (v : CsrView) (s : ArchState) : Word :=
  match v with
  | sstatus => sstatusMask ||| mstatus64UXL
  | sie | sip => s.get .mideleg &&& (sModeInterrupts ||| localInterrupts)

/-- The bits a view writes; `mip` shows the local interrupts and does not let them be
written. -/
def writable (v : CsrView) (s : ArchState) : Word :=
  match v with
  | sstatus => sstatusMask
  | sie => s.get .mideleg &&& (sModeInterrupts ||| localInterrupts)
  | sip => s.get .mideleg &&& sModeInterrupts

/-- The bits of machine mode alone: `MIE`, `MPIE`, `MPP`, `MPRV`, `TVM`, `TW` and `TSR` of
`mstatus`, the machine interrupts of the other two. -/
def machineOnly : CsrView → Word
  | sstatus => mstatusMIE ||| mstatusMPIE ||| mstatusMPP ||| mstatusMPRV ||| mstatusTVM |||
      mstatusTW ||| mstatusTSR
  | sie | sip => mModeInterrupts

/-- What reading a view should yield; `sstatus` has a summary bit of its own. -/
def value (v : CsrView) (s : ArchState) : Word :=
  match v with
  | sstatus => (s.get .mstatus &&& visible sstatus s) ||| statusSd (s.get .mstatus)
  | sie => s.get .mie &&& visible sie s
  | sip => s.get .mip &&& visible sip s

/-- What writing a view should do. -/
def write (v : CsrView) (s : ArchState) (new : Word) : ArchState :=
  s.set v.word ((s.get v.word &&& ~~~v.writable s) ||| (new &&& v.writable s))

/-- A view shows and changes some bits, none of them of machine mode alone, and shows what
it has changed. -/
structure Lens (v : CsrView) (s : ArchState) : Prop where
  within : v.writable s &&& v.visible s = v.writable s
  guarded : v.value s &&& v.machineOnly = 0 ∧ v.writable s &&& v.machineOnly = 0
  outside : ∀ new, (v.write s new).get v.word &&& ~~~v.writable s =
    s.get v.word &&& ~~~v.writable s
  others : ∀ new w, w ≠ v.word → (v.write s new).get w = s.get w
  readBack : ∀ new, v.value (v.write s new) &&& v.writable s = new &&& v.writable s

variable {v : CsrView} {s : ArchState}

/-- What may be written may be seen. -/
theorem writable_and_visible (v : CsrView) (s : ArchState) :
    v.writable s &&& v.visible s = v.writable s := by
  cases v with
  | sstatus => exact (by decide : sstatusMask &&& (sstatusMask ||| mstatus64UXL) = sstatusMask)
  | sie => exact BitVec.and_self
  | sip =>
      have inner : sModeInterrupts &&& (sModeInterrupts ||| localInterrupts) =
          sModeInterrupts := by decide
      calc (s.get .mideleg &&& sModeInterrupts) &&&
            (s.get .mideleg &&& (sModeInterrupts ||| localInterrupts))
          = (s.get .mideleg &&& s.get .mideleg) &&&
              (sModeInterrupts &&& (sModeInterrupts ||| localInterrupts)) := by ac_rfl
        _ = s.get .mideleg &&& sModeInterrupts := by rw [BitVec.and_self, inner]

/-- The bits a view writes are bits of its value. -/
theorem value_and_writable (v : CsrView) (s : ArchState) :
    v.value s &&& v.writable s = s.get v.word &&& v.writable s := by
  have within := writable_and_visible v s
  cases v with
  | sstatus =>
      have summary : statusSd (s.get .mstatus) &&& sstatusMask = 0 := by
        unfold statusSd
        split <;> decide
      have shown : (sstatusMask ||| mstatus64UXL) &&& sstatusMask = sstatusMask := by decide
      simp only [value, writable, visible, word]
      rw [BitVec.and_or_distrib_right, summary, BitVec.and_assoc, shown]
      exact BitVec.or_zero
  | sie =>
      simp only [value, word]
      rw [BitVec.and_assoc, BitVec.and_comm (visible _ _), within]
  | sip =>
      simp only [value, word]
      rw [BitVec.and_assoc, BitVec.and_comm (visible _ _), within]

/-- No machine-only bit is shown. -/
theorem value_and_machineOnly (v : CsrView) (s : ArchState) :
    v.value s &&& v.machineOnly = 0 := by
  have interrupts : (sModeInterrupts ||| localInterrupts) &&& mModeInterrupts = 0 := by decide
  cases v with
  | sstatus =>
      have summary : statusSd (s.get .mstatus) &&& machineOnly sstatus = 0 := by
        unfold statusSd
        split <;> decide
      have hidden : (sstatusMask ||| mstatus64UXL) &&& machineOnly sstatus = 0 := by decide
      simp only [value, visible]
      rw [BitVec.and_or_distrib_right, summary, BitVec.and_assoc, hidden]
      simp
  | sie =>
      simp only [value, visible, machineOnly]
      rw [BitVec.and_assoc, BitVec.and_assoc, interrupts]
      simp
  | sip =>
      simp only [value, visible, machineOnly]
      rw [BitVec.and_assoc, BitVec.and_assoc, interrupts]
      simp

/-- No machine-only bit is written. -/
theorem writable_and_machineOnly (v : CsrView) (s : ArchState) :
    v.writable s &&& v.machineOnly = 0 := by
  have interrupts : (sModeInterrupts ||| localInterrupts) &&& mModeInterrupts = 0 := by decide
  have delegable : sModeInterrupts &&& mModeInterrupts = 0 := by decide
  cases v with
  | sstatus => exact (by decide : sstatusMask &&& machineOnly sstatus = 0)
  | sie =>
      simp only [writable, machineOnly]
      rw [BitVec.and_assoc, interrupts]
      simp
  | sip =>
      simp only [writable, machineOnly]
      rw [BitVec.and_assoc, delegable]
      simp

/-- The delegation is in another word than the interrupts. -/
theorem word_ne_mideleg (v : CsrView) : .mideleg ≠ v.word := by
  cases v <;> decide

/-- A write does not change what may be written. -/
theorem writable_write (v : CsrView) (s : ArchState) (new : Word) :
    v.writable (v.write s new) = v.writable s := by
  have same : (v.write s new).get .mideleg = s.get .mideleg :=
    ArchState.get_set_of_ne _ _ (word_ne_mideleg v)
  cases v with
  | sstatus => rfl
  | sie => simp only [writable, same]
  | sip => simp only [writable, same]

/-- What has been written is read back, and writing what has been read changes nothing. -/
theorem lens (v : CsrView) (s : ArchState) : v.Lens s where
  within := writable_and_visible v s
  guarded := ⟨value_and_machineOnly v s, writable_and_machineOnly v s⟩
  outside new := by
    rw [write, ArchState.get_set_self]
    apply BitVec.eq_of_getLsbD_eq
    intro i bound
    simp only [BitVec.getLsbD_and, BitVec.getLsbD_or, BitVec.getLsbD_not]
    cases (v.writable s).getLsbD i <;> simp
  others new w other := ArchState.get_set_of_ne _ _ other
  readBack new := by
    have back := value_and_writable v (v.write s new)
    rw [writable_write] at back
    rw [back, write, ArchState.get_set_self]
    apply BitVec.eq_of_getLsbD_eq
    intro i bound
    simp only [BitVec.getLsbD_and, BitVec.getLsbD_or, BitVec.getLsbD_not]
    cases (v.writable s).getLsbD i <;> simp

/-! ### Through the callbacks -/

/-- What the simulator reads: `rmw_sie` and `rmw_sip` return the whole register. -/
def reads (v : CsrView) (s : ArchState) : Word :=
  match v with
  | sstatus => v.value s
  | sie | sip => s.get v.word

/-- Of what may be written, the source reads what the view is. -/
theorem reads_and_writable (v : CsrView) (s : ArchState) :
    v.reads s &&& v.writable s = s.get v.word &&& v.writable s := by
  cases v with
  | sstatus => exact value_and_writable sstatus s
  | sie | sip => rfl

/-- What is read is the value of the view when nothing else is set. -/
theorem reads_eq_value (v : CsrView) (s : ArchState) :
    v.reads s = v.value s ↔ v = .sstatus ∨ s.get v.word &&& ~~~v.visible s = 0 := by
  have whole (w m : Word) : w = w &&& m ↔ w &&& ~~~m = 0 := by
    simp only [BitVec.eq_of_getLsbD_eq_iff, BitVec.getLsbD_and, BitVec.getLsbD_not]
    refine forall₂_congr fun i bound => ?_
    cases w.getLsbD i <;> cases m.getLsbD i <;> simp [bound]
  cases v with
  | sstatus => exact iff_of_true rfl (.inl rfl)
  | sie => exact (whole _ _).trans (or_iff_right (by decide)).symm
  | sip => exact (whole _ _).trans (or_iff_right (by decide)).symm

/-- Merged values agree under a mask when the old ones do. -/
theorem mergeMask_and_congr {old old' m : Word} (same : old &&& m = old' &&& m)
    (mask data : Word) : mergeMask old mask data &&& m = mergeMask old' mask data &&& m := by
  apply BitVec.eq_of_getLsbD_eq
  intro i _
  have bit := congrArg (·.getLsbD i) same
  simp only [BitVec.getLsbD_and] at bit
  rw [BitVec.getLsbD_and, BitVec.getLsbD_and, mergeMask_getLsbD, mergeMask_getLsbD]
  cases mask.getLsbD i <;> simp [bit]

/-- A view does not depend on the integer registers. -/
theorem write_set_gpr (v : CsrView) (s : ArchState) (i : BitVec 5) (x new : Word) :
    (s.set (.gpr i) x).set v.word (mergeMask ((s.set (.gpr i) x).get v.word) (v.writable s) new) =
      (v.write s new).set (.gpr i) x := by
  have other : v.word ≠ .gpr i := by cases v <;> simp [word]
  rw [ArchState.get_set_of_ne _ _ other, ArchState.set_comm _ _ _ other.symm, mergeMask, write]

section Access

variable {P : Platform δ} {c : CsrInstr} {ctx : Ctx δ}

/-- An access through a view reads `reads` and prepares what it should write. -/
theorem doCsr_view (v : CsrView) (zero : ctx.arch.state.gpr 0 = 0) (fresh : Fresh ctx.info)
    (number : c.csr = v.csrno) :
    let s := ctx.arch.state
    ∃ d, doCsr P c.rd c.csr c.access ctx =
        .ok ((ctx.setDst1 d).setDst0 (.gpr c.rd) (v.reads s)) ∧
      ∀ x, (s.set (.gpr c.rd) x).commit d =
        .ok ((v.write s (c.op.apply (v.value s) (c.operand s))).set (.gpr c.rd) x) := by
  intro s
  -- The merged values differ outside the mask of the write only.
  have agree (x : Word) (mask data : Word) :
      mergeMask x (v.writable s) (mergeMask (v.reads s) mask data) =
        mergeMask x (v.writable s) (mergeMask (v.value s) mask data) := by
    have same := (reads_and_writable v s).trans (value_and_writable v s).symm
    rw [mergeMask, mergeMask_and_congr same, ← mergeMask]
  have checked {ops : CsrOps} (registered : csrOps v.csrno = some ops) :
      riscvCsrrwCheck c.csr c.access.isWrite = some ops := by
    rw [number, riscvCsrrwCheck_eq_some]
    exact ⟨registered, fun readOnly => by cases v <;> exact absurd readOnly.2 (by decide)⟩
  -- An `op` callback writes under the mask of the view and that of the access.
  have rmw (op : CsrRmw) {predicate : CsrPredicate}
      (registered : csrOps v.csrno = some (.rmw predicate op)) (word : op.word = v.word)
      (mask : op.mask s = v.writable s) (whole : v.reads s = s.get v.word) :
      ∃ d, doCsr P c.rd c.csr c.access ctx =
          .ok ((ctx.setDst1 d).setDst0 (.gpr c.rd) (v.reads s)) ∧
        ∀ x, (s.set (.gpr c.rd) x).commit d =
          .ok ((v.write s (c.op.apply (v.value s) (c.operand s))).set (.gpr c.rd) x) := by
    refine ⟨⟨op.word.idx, op.mask s &&& c.access.mask s, c.access.src s⟩, ?_, fun x => ?_⟩
    · rw [whole, ← word]
      exact doCsr_rmw (checked registered) rfl
    · have other : v.word ≠ .gpr c.rd := by cases v <;> simp [CsrView.word]
      rw [word, mask, ArchState.commit_idx, mergeMask_and, ← write_set_gpr, ← c.merge_eq zero,
        ← agree, whole, ArchState.get_set_of_ne _ _ other]
  cases v with
  | sstatus =>
      have run : doCsr P c.rd c.csr c.access ctx = _ :=
        doCsr_plain (checked (show csrOps 0x100 = some _ from rfl)) rfl rfl
      by_cases dead : c.access.mask s = 0
      · -- A zero mask writes nothing, and the merged value is the one read.
        refine ⟨ctx.info.dst1, run.trans (if_pos dead), fun x => ?_⟩
        have still : mergeMask (value sstatus s) 0 (c.access.src s) = value sstatus s :=
          mergeMask_zero _ _
        have kept := mergeMask_self (value_and_writable sstatus s)
        rw [mergeMask] at kept
        rw [ArchState.commit_of_mask_zero _ fresh.mask1, ← c.merge_eq zero, dead, still, write,
          kept, ArchState.set_get]
      · refine ⟨⟨StateWord.mstatus.idx, sstatusMask,
          mergeMask (value sstatus s) (c.access.mask s) (c.access.src s)⟩, ?_, fun x => ?_⟩
        · rw [run]
          exact if_neg dead
        · rw [← c.merge_eq zero, ArchState.commit_idx, ← write_set_gpr]
          rfl
  | sie =>
      refine rmw rmwSie rfl rfl ?_ rfl
      -- The mask of `rmw_sie` is that of the view, in another order.
      have all : allInts &&& (sModeInterrupts ||| localInterrupts) =
          sModeInterrupts ||| localInterrupts := by decide
      calc allInts &&& (s.get .mideleg &&& (sModeInterrupts ||| localInterrupts))
          = s.get .mideleg &&& (allInts &&& (sModeInterrupts ||| localInterrupts)) := by ac_rfl
        _ = writable sie s := by rw [all, writable]
  | sip =>
      refine rmw rmwSip rfl rfl ?_ rfl
      have supervisor : delegableInts &&& (localInterrupts ||| sModeInterrupts) =
          sModeInterrupts := by decide
      calc delegableInts &&& (s.get .mideleg &&& (localInterrupts ||| sModeInterrupts))
          = s.get .mideleg &&& (delegableInts &&& (localInterrupts ||| sModeInterrupts)) := by
            ac_rfl
        _ = writable sip s := by rw [supervisor, writable]

end Access

/-- The machine after an instruction on a view. -/
def after (v : CsrView) (a : RiscvArch δ) (vaddr paddr : Word) (c : CsrInstr) : RiscvArch δ :=
  let new := c.op.apply (v.value a.state) (c.operand a.state)
  ({ a with
    pc := vaddr
    paddr := paddr
    state := ((v.write a.state new).set (.gpr c.rd) (v.value a.state)).set (.gpr 0) 0 } :
      RiscvArch δ).updateMMUState

/-- An instruction on a view completes with the value of the view in `rd`, and writes what
the view lets it write. -/
def Obeys (v : CsrView) (P : Platform δ) (arch a : RiscvArch δ) (vaddr paddr : Word)
    (slot : DecodeInfo) (c : CsrInstr) : Prop :=
  Completes P arch vaddr paddr slot (vaddr + 4) (v.after a vaddr paddr c)

section Obeys

variable {P : Platform δ} {m : Machine δ} {vaddr paddr : Word} {slot : DecodeInfo}
variable {c : CsrInstr} {a : RiscvArch δ} {v : CsrView}

/-- All that can go wrong is the value read. -/
theorem obeys_iff_reads (reached : m.Reachable P) (number : c.csr = v.csrno)
    (fetches : Fetches P m.arch paddr slot false c.word a)
    (quiet : irqException a.state = none) :
    v.Obeys P m.arch a vaddr paddr slot c ↔
      c.rd = 0 ∨ v.reads a.state = v.value a.state := by
  obtain ⟨i, fetched, word⟩ := fetches
  have frame := fetch_frame P m.arch paddr slot _ fetched
  have zero : a.state.gpr 0 = 0 := (frame.get (by decide)).trans reached.zero
  let ctx := bodyCtx a vaddr paddr i
  have fresh : Fresh ctx.info := fresh_cleared i
  obtain ⟨d, ran, aimed⟩ := doCsr_view (P := P) v zero fresh number
  have dsts := commitDsts_csr fresh (aimed (v.reads a.state))
  rw [Obeys, completes_csr_iff fetched word ran quiet fresh.exception rfl dsts,
    ← writes_eq_iff (v.write a.state (c.op.apply (v.value a.state) (c.operand a.state)))]
  constructor
  · rintro ⟨-, same⟩
    exact (congrArg RiscvArch.state same).symm
  · intro same
    refine ⟨rfl, ?_⟩
    rw [after, ← same]
    rfl

end Obeys

/-- Every view is a lens. An instruction on it obeys it, in a reachable state and with no
interrupt pending, exactly when the view is `sstatus`, the value is dropped, or the machine
register has nothing to hide. `rmw_sie` and `rmw_sip` mask what they write and return the
machine's register whole. -/
theorem viewObeys_iff (P : Platform δ) {m : Machine δ} (reached : m.Reachable P)
    {vaddr paddr : Word} {slot : DecodeInfo} {c : CsrInstr} {a : RiscvArch δ} {v : CsrView}
    (number : c.csr = v.csrno) (fetches : Fetches P m.arch paddr slot false c.word a)
    (quiet : irqException a.state = none) :
    v.Lens a.state ∧
      (v.Obeys P m.arch a vaddr paddr slot c ↔
        v = .sstatus ∨ c.rd = 0 ∨ a.state.get v.word &&& ~~~v.visible a.state = 0) := by
  refine ⟨v.lens a.state, ?_⟩
  rw [obeys_iff_reads reached number fetches quiet, v.reads_eq_value]
  tauto

/-- `csrrs x5, sie, x0`, from the machine as it is reset. -/
theorem viewObeys_iff_readSie :
    CsrView.sie.Lens (csrMachine ⟨.rs, false, 0x104, 0, 5⟩).arch.state ∧
      (CsrView.sie.Obeys (ramOnly 4096) (csrMachine ⟨.rs, false, 0x104, 0, 5⟩).arch
          (csrMachine ⟨.rs, false, 0x104, 0, 5⟩).arch 0x80000000 0x80000000 .zero
          ⟨.rs, false, 0x104, 0, 5⟩ ↔
        CsrView.sie = .sstatus ∨ (5 : BitVec 5) = 0 ∨
          (csrMachine ⟨.rs, false, 0x104, 0, 5⟩).arch.state.get .mie &&&
            ~~~sie.visible (csrMachine ⟨.rs, false, 0x104, 0, 5⟩).arch.state = 0) :=
  viewObeys_iff (ramOnly 4096) ⟨archCfg, _, [], by decide, rfl⟩ rfl ⟨_, rfl, by decide +kernel⟩
    (by decide +kernel)

/-- `addi x1, x0, 128; csrrw x0, mie, x1; csrrs x2, sie, x0`. -/
def sieProgram : Machine Unit :=
  Machine.reset archCfg (imageOf [0x08000093, 0x30409073, 0x10402173])

/-- `MTIE` is set, and is read through `sie`. -/
theorem not_viewObeys_sieProgram :
    ∃ m : Machine Unit, m.Reachable (ramOnly 4096) ∧
      ∃ a, Fetches (ramOnly 4096) m.arch 0x80000008 .zero false
          (CsrInstr.mk .rs false 0x104 0 2).word a ∧ irqException a.state = none ∧
        ¬ sie.Obeys (ramOnly 4096) m.arch a 0x80000008 0x80000008 .zero
          ⟨.rs, false, 0x104, 0, 2⟩ := by
  let calls : List (Call Unit) := Machine.execAt 0x80000000 ++ Machine.execAt 0x80000004
  obtain ⟨m, ran, -⟩ := exists_ok_of_toOption
    (show (runSteps (Machine.step (ramOnly 4096)) sieProgram calls).toOption.map (fun _ => ()) =
      some () by decide +kernel)
  have fetch : (runSteps (Machine.step (ramOnly 4096)) sieProgram calls >>= fun m =>
      m.arch.fetch (ramOnly 4096) 0x80000008 .zero).toOption.map (fun f =>
        (f.1, f.2.2.inst, irqException f.2.1.state, reads sie f.2.1.state,
          value sie f.2.1.state)) =
      some (false, (CsrInstr.mk .rs false 0x104 0 2).word, none, 128, 0) := by decide +kernel
  rw [ran] at fetch
  obtain ⟨⟨rvc, a, i⟩, fetched, seen⟩ := exists_ok_of_toOption fetch
  simp only [Prod.mk.injEq] at seen
  obtain ⟨rfl, inst, quiet, reads, value⟩ := seen
  have reached : m.Reachable (ramOnly 4096) := ⟨archCfg, _, calls, by decide, ran⟩
  have fetches : Fetches (ramOnly 4096) m.arch 0x80000008 .zero false
      (CsrInstr.mk .rs false 0x104 0 2).word a := ⟨i, fetched, inst⟩
  refine ⟨m, reached, a, fetches, quiet, ?_⟩
  rw [obeys_iff_reads reached (show _ = csrno sie from rfl) fetches quiet, reads, value]
  decide

end CsrView

end CPUDelaySim.Riscv
