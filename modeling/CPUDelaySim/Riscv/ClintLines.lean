import CPUDelaySim.Riscv.BoardRun

/-!
# The lines of the CLINT

The level of the timer line is kept three times: in `irqValid`, which says when a tick has
to drive it, in the handler's vector, and in `mip`.  The software line follows MSIP.  Other
devices broadcast the whole vector and guest code may write `mip`, but the first leave the
CLINT's lines and the second is masked, so all copies agree (`LinesAgree`), and a tick
brings `irqValid` up to date (`clintMirrored_tick`).

The value last written to MSIP is followed beside the machine, from the stores it commits.

`ClintKept` is the invariant of a run, in three links: the lines of the vector and what the CLINT
keeps, `mip` and the vector, and the record in hand, which never writes the two bits of `mip`.  The
comparison of `mtime` with `mtimecmp` is no part of it, since a store to `mtimecmp` moves nothing
else; the tick makes it, and drives the line if it has changed.  The other devices are constrained
by one assumption, that they drive lines other than these two.
-/

namespace CPUDelaySim.Riscv

variable {σ : Type}

open RiscvArch Mmio

/-! ### Stores to MSIP -/

/-- The address and the operand of the store that `commitMemory` performs. -/
def commitStore (P : Platform (Devices σ)) (arch : RiscvArch (Devices σ)) (info : DecodeInfo) :
    Option (Word × Word) :=
  match info.type with
  | .amo | .store => some (info.dst2.data, info.dst1.data)
  | .sc =>
      if info.dst0.data = 0 then
        (arch.translateAddr P info.excData .sfetch excNone).toOption.map fun r =>
          (r.1, info.dst2.data)
      else none
  | _ => none

/-- The store of `updateEnv`. -/
def updateStore (P : Platform (Devices σ)) (arch : RiscvArch (Devices σ)) (info : DecodeInfo) :
    Option (Word × Word) :=
  if info.exception = excNone then do
    let s ← (commitDsts arch.state info).toOption
    commitStore P { arch with state := s } info
  else none

/-- No device before the CLINT claims the address, and the CLINT does. -/
def clintClaims (B : Board σ) (paddr : Word) : Bool :=
  B.before.all (fun p => !p.inRange paddr) && B.clintRange paddr

/-- The address is that of MSIP. -/
def IsMsip (B : Board σ) (paddr : Word) : Prop :=
  clintClaims B paddr = true ∧ paddr - B.clintBase = msipOffset

instance (B : Board σ) (paddr : Word) : Decidable (IsMsip B paddr) :=
  inferInstanceAs (Decidable (_ ∧ _))

/-- The bit that a call writes to MSIP, if it writes there. -/
def msipWritten (B : Board σ) (P : Platform (Devices σ)) (m : Machine (Devices σ)) :
    BoardCall σ → Option Bool
  | .updateEnv => do
      let info ← m.info
      let (paddr, data) ← updateStore P m.arch info
      if IsMsip B paddr then some (data.getLsbD 0) else none
  | _ => none

/-- The CLINT after a store. -/
def clintAfter (B : Board σ) (c : Mmio.Clint) : Option (Word × Word) → Mmio.Clint
  | some (paddr, data) =>
      if clintClaims B paddr then (c.write (paddr - B.clintBase) data).1 else c
  | none => c

/-- MSIP after a store. -/
def msipAfter (B : Board σ) (msip : Word) : Option (Word × Word) → Word
  | some (paddr, data) => if IsMsip B paddr then data &&& 1 else msip
  | none => msip

/-- The bus gives the addresses of the CLINT to the CLINT. -/
theorem deviceAt_clint {B : Board σ} {paddr : Word} (claims : clintClaims B paddr = true)
    (size : Nat) (float : SoftFloat) (junk : Word) :
    Memory.deviceAt (onBoard B size float junk).map paddr = some B.clint := by
  simp only [clintClaims, Bool.and_eq_true, List.all_eq_true, Bool.not_eq_true'] at claims
  obtain ⟨before, range⟩ := claims
  have passed : (B.before.map Board.onBus).find? (fun d => d.inRange paddr) = none := by
    rw [List.find?_eq_none]
    intro d listed
    obtain ⟨p, known, rfl⟩ := List.mem_map.1 listed
    simpa [Board.onBus] using before p known
  simp only [Memory.deviceAt, onBoard, Board.devices, List.find?_append, passed, Option.none_or,
    List.find?_cons]
  rw [show B.clint.inRange paddr = true from range]

/-- The bus gives the other ones to the peripherals. -/
theorem deviceAt_other {B : Board σ} {paddr : Word} (passes : clintClaims B paddr = false)
    (size : Nat) (float : SoftFloat) (junk : Word) {d : Device (Devices σ)}
    (claimed : Memory.deviceAt (onBoard B size float junk).map paddr = some d) :
    ∃ p, d = Board.onBus p := by
  simp only [Memory.deviceAt, onBoard, Board.devices, List.find?_append] at claimed
  have onBus {ps : List (Peripheral σ)} {d : Device (Devices σ)}
      (found : (ps.map Board.onBus).find? (fun d => d.inRange paddr) = some d) :
      ∃ p, d = Board.onBus p := by
    obtain ⟨p, -, rfl⟩ := List.mem_map.1 (List.mem_of_find?_eq_some found)
    exact ⟨p, rfl⟩
  cases first : (B.before.map Board.onBus).find? (fun d => d.inRange paddr) with
  | some d' =>
      rw [first, Option.some_or] at claimed
      cases claimed
      exact onBus first
  | none =>
      rw [first, Option.none_or, List.find?_cons] at claimed
      cases range : B.clint.inRange paddr with
      | false =>
          rw [range] at claimed
          exact onBus claimed
      | true =>
          -- then no device before the CLINT had claimed the address
          rw [List.find?_eq_none] at first
          have claims : clintClaims B paddr = true := by
            simp only [clintClaims, Bool.and_eq_true, List.all_eq_true, Bool.not_eq_true']
            refine ⟨?_, range⟩
            intro p known
            simpa [Board.onBus] using first (Board.onBus p) (List.mem_map.2 ⟨p, known, rfl⟩)
          rw [claims] at passes
          cases passes

/-- The software interrupt after a store. -/
theorem clintAfter_msip (B : Board σ) (c : Mmio.Clint) (store : Option (Word × Word)) :
    (clintAfter B c store).msip = msipAfter B c.msip store := by
  cases store with
  | none => rfl
  | some s =>
      simp only [clintAfter, msipAfter]
      by_cases claims : clintClaims B s.1 = true
      · have same : s.1 - B.clintBase = msipOffset ↔ IsMsip B s.1 := (and_iff_right claims).symm
        rw [if_pos claims, Mmio.Clint.write_msip]
        simp only [same]
      · rw [if_neg claims, if_neg fun both : IsMsip B s.1 => claims both.1]

section Registers

variable (B : Board σ) (size : Nat) (float : SoftFloat) (junk : Word)

/-- A store of the core changes the CLINT as `clintAfter` says. -/
theorem paddrWrite_clint (a : RiscvArch (Devices σ)) (paddr : Word) (n : Nat) (data : Word) :
    Returns (a.paddrWrite (onBoard B size float junk) paddr n data) fun a' =>
      a'.memory.dev.clint = clintAfter B a.memory.dev.clint (some (paddr, data)) := by
  have memory (m : Memory (Devices σ)) (irq : Option Word) :
      (a.afterAccess m irq).memory = m := by
    cases irq <;> rfl
  simp only [paddrWrite, returns_bind, returns_pure, memory, clintAfter]
  cases claims : clintClaims B paddr with
  | true =>
      rw [Memory.paddrWrite_device (deviceAt_clint claims size float junk), returns_ok]
      rfl
  | false =>
      rw [if_neg (Bool.false_ne_true)]
      cases claimed : Memory.deviceAt (onBoard B size float junk).map paddr with
      | some d =>
          obtain ⟨p, rfl⟩ := deviceAt_other claims size float junk claimed
          rw [Memory.paddrWrite_device claimed, returns_ok]
          rfl
      | none =>
          intro r written
          rw [(Memory.paddrWrite_dev claimed written).1]

/-- A read leaves the registers of the CLINT. -/
theorem readClosed_clint (c : Mmio.Clint) :
    ReadClosed (onBoard B size float junk).map fun d _ => d.clint = c :=
  readClosed_onBoard (boardDrives_any B) (fun _ _ _ _ _ held => held) size float junk

/-- So does the commit of a record. -/
theorem commitMemory_clint (a : RiscvArch (Devices σ)) (info : DecodeInfo) :
    Returns (commitMemory (onBoard B size float junk) a info) fun a' =>
      a'.memory.dev.clint = clintAfter B a.memory.dev.clint
        (commitStore (onBoard B size float junk) a info) := by
  have stored (a : RiscvArch (Devices σ)) (paddr : Word) (n : BitVec 16) (data : Word) :
      Returns (storeOperand (onBoard B size float junk) a paddr n data) fun a' =>
        a'.memory.dev.clint = clintAfter B a.memory.dev.clint (some (paddr, data)) := by
    unfold storeOperand
    split
    · exact returns_error _ _
    · exact paddrWrite_clint B size float junk a paddr _ data
  unfold commitMemory commitStore
  cases info.type with
  | amo | store => exact stored a _ _ _
  | sc =>
      dsimp only
      split
      · rw [returns_bind]
        rintro ⟨ha, exception, a'⟩ translated
        have clint := translateAddr_wired (readClosed_clint B size float junk a.memory.dev.clint)
          (show Wired _ a from rfl) info.excData .sfetch excNone _ translated
        rw [translated]
        refine (stored a' ha _ _).mono ?_
        intro a'' h
        rw [h, show a'.memory.dev.clint = a.memory.dev.clint from clint]
        rfl
      · exact (returns_ok _ _).2 rfl
  | _ => exact (returns_ok _ _).2 rfl

/-- `updateEnv` moves the CLINT by the store it commits. -/
theorem updateEnv_clint (a : RiscvArch (Devices σ)) (info : DecodeInfo) :
    Returns (a.updateEnv (onBoard B size float junk) info) fun r =>
      r.2.memory.dev.clint = clintAfter B a.memory.dev.clint
        (updateStore (onBoard B size float junk) a info) := by
  rcases updateEnv_cases (onBoard B size float junk) a info with
    ⟨other, tval, h⟩ | ⟨code, h⟩ | ⟨code, h⟩ | ⟨code, h⟩ | ⟨-, h⟩
  · rw [h, returns_ok, trap_memory, updateStore, if_neg other]
    rfl
  · rw [h, returns_ok, updateStore, if_neg (by rw [code]; decide)]
    rfl
  · rw [h, returns_ok, updateStore, if_neg (by rw [code]; decide)]
    rfl
  · rw [h, updateStore, if_pos code]
    simp only [commit, returns_bind, returns_pure]
    intro s committed
    rw [committed]
    exact commitMemory_clint B size float junk { a with state := s } info
  · rw [h]
    exact returns_error _ _

/-- `updateEnv` changes the software interrupt by the store of its record only. -/
theorem updateEnv_msip (a : RiscvArch (Devices σ)) (info : DecodeInfo) :
    Returns (a.updateEnv (onBoard B size float junk) info) fun r =>
      r.2.memory.dev.clint.msip = msipAfter B a.memory.dev.clint.msip
        (updateStore (onBoard B size float junk) a info) := by
  refine (updateEnv_clint B size float junk a info).mono ?_
  intro r moved
  rw [moved, clintAfter_msip]

end Registers

/-! ### The copies of the levels agree -/

/-- A line other than the two of the CLINT. -/
def OtherLine (n : Mmio.Line) : Prop := n ≠ exciMsi ∧ n ≠ exciMtimer

instance (n : Mmio.Line) : Decidable (OtherLine n) := inferInstanceAs (Decidable (_ ∧ _))

/-- The handler's vector has the levels that the CLINT keeps, and `mip` has the vector's. -/
structure LinesAgree (d : Devices σ) (mip : Word) : Prop where
  timer : d.handler.irq.getLsbD 7 = d.clint.irqValid
  software : d.handler.irq.getLsbD 3 = (d.clint.msip != 0)
  mipTimer : mip.getLsbD 7 = d.handler.irq.getLsbD 7
  mipSoftware : mip.getLsbD 3 = d.handler.irq.getLsbD 3

/-- What the listener is left with has a bit of the vector, if `mip` had it before. -/
theorem published_getLsbD (h : IrqHandler) (levels : List (Mmio.Line × Bool)) {mip : Word} {k : Nat}
    (held : mip.getLsbD k = h.irq.getLsbD k) :
    ((h.published levels).getD mip).getLsbD k = (h.drive levels).irq.getLsbD k := by
  unfold IrqHandler.published
  split
  · rename_i quiet
    rw [quiet]
    exact held
  · rfl

/-- A peripheral drives its own line and no other. -/
theorem linesAgree_other : OtherClosed OtherLine (LinesAgree (σ := σ)) := by
  intro d mip state levels allowed held
  have timer := d.handler.drive_getLsbD (k := 7) (by decide) fun l listed same =>
    (allowed l listed).2 (Fin.ext same)
  have software := d.handler.drive_getLsbD (k := 3) (by decide) fun l listed same =>
    (allowed l listed).1 (Fin.ext same)
  exact ⟨timer.trans held.timer, software.trans held.software,
    published_getLsbD _ _ held.mipTimer, published_getLsbD _ _ held.mipSoftware⟩

/-- The CLINT drives its two lines as it publishes them. -/
theorem linesAgree_clint : ClintClosed (LinesAgree (σ := σ)) := by
  intro d mip offset data held
  simp only [Devices.drive, Mmio.Clint.write_levels]
  by_cases msip : offset = msipOffset
  · rw [if_pos msip]
    have bit (k : Nat) (low : k < 31) := d.handler.setIrqState_getLsbD exciMsi (data &&& 1 != 0) low
    refine ⟨?_, ?_, published_getLsbD _ _ held.mipTimer, published_getLsbD _ _ held.mipSoftware⟩
    · exact ((bit 7 (by decide)).trans held.timer).trans
        (Mmio.Clint.write_irqValid d.clint offset data).symm
    · rw [Mmio.Clint.write_msip, if_pos msip]
      exact bit 3 (by decide)
  · rw [if_neg msip]
    refine ⟨?_, ?_, held.mipTimer, held.mipSoftware⟩
    · exact held.timer.trans (Mmio.Clint.write_irqValid d.clint offset data).symm
    · rw [Mmio.Clint.write_msip, if_neg msip]
      exact held.software

/-- A tick drives the timer line only when its level changes, and the other copies follow. -/
theorem linesAgree_tick {d : Devices σ} {mip : Word} (held : LinesAgree d mip) :
    LinesAgree d.clintTick.1 (d.clintTick.2.getD mip) := by
  simp only [Devices.clintTick, Devices.drive, Mmio.Clint.tick_levels]
  have software (c : Mmio.Clint) (same : c.msip = d.clint.msip) :
      d.handler.irq.getLsbD 3 = (c.msip != 0) := by
    rw [same]
    exact held.software
  split
  · rename_i same
    exact ⟨held.timer.trans same.symm, software _ d.clint.tick_msip, held.mipTimer,
      held.mipSoftware⟩
  · have bit (k : Nat) (low : k < 31) :=
      d.handler.setIrqState_getLsbD exciMtimer d.clint.tick.1.irqValid low
    exact ⟨bit 7 (by decide), (bit 3 (by decide)).trans (software _ d.clint.tick_msip),
      published_getLsbD _ _ held.mipTimer, published_getLsbD _ _ held.mipSoftware⟩

/-! ### Runs -/

/-- A call on the board, with the bit last written to MSIP beside the machine. -/
def clintStep (B : Board σ) (P : Platform (Devices σ)) (w : Machine (Devices σ) × Bool)
    (c : BoardCall σ) : Except Abort (Machine (Devices σ) × Bool) := do
  let m ← c.step P w.1
  return (m, (msipWritten B P w.1 c).getD w.2)

/-- The lines mirror the CLINT: `mtime >= mtimecmp`, and the bit last written to MSIP. -/
structure Mirrored (w : Machine (Devices σ) × Bool) : Prop where
  timer : w.1.arch.memory.dev.handler.irq.getLsbD 7 =
    decide (w.1.arch.memory.dev.clint.mtimecmp ≤ w.1.arch.memory.dev.clint.mtime)
  mipTimer : (w.1.arch.state.get .mip).getLsbD 7 =
    decide (w.1.arch.memory.dev.clint.mtimecmp ≤ w.1.arch.memory.dev.clint.mtime)
  software : w.1.arch.memory.dev.handler.irq.getLsbD 3 = w.2
  mipSoftware : (w.1.arch.state.get .mip).getLsbD 3 = w.2

/-- What every call keeps. -/
structure ClintKept (w : Machine (Devices σ) × Bool) : Prop where
  lines : Wired LinesAgree w.1.arch
  last : (w.1.arch.memory.dev.clint.msip != 0) = w.2
  masked : ∀ info, w.1.info = some info → info.exception = excNone → MaskedMip info

/-- A record never has bits 3 and 7 of `mip` among what it writes. -/
theorem step_maskedMip {m : Machine (Devices σ)} (P : Platform (Devices σ))
    (masked : ∀ info, m.info = some info → info.exception = excNone → MaskedMip info)
    (c : BoardCall σ) :
    Returns (c.step P m) fun m' =>
      ∀ info, m'.info = some info → info.exception = excNone → MaskedMip info := by
  cases c with
  | decode vaddr paddr slot =>
      simp only [BoardCall.step, BoardCall.call, Machine.step, returns_bind, returns_pure]
      refine (decode_maskedMip P m.arch vaddr paddr slot).mono ?_
      rintro r held _ ⟨⟩ -
      exact held
  | handleException exception paddr slot =>
      simp only [BoardCall.step, BoardCall.call, Machine.step]
      split
      · rename_i fault
        simp only [handleException, if_pos fault, returns_ok]
        rintro _ ⟨⟩ code
        exact absurd (fault.symm.trans code) (by decide)
      · exact (returns_ok _ _).2 masked
  | translateAddr vaddr type =>
      simp only [BoardCall.step, BoardCall.call, Machine.step, returns_bind, returns_pure]
      exact fun _ _ => masked
  | updateEnv =>
      simp only [BoardCall.step, BoardCall.call, Machine.step]
      cases record : m.info with
      | none => exact returns_error _ _
      | some info =>
          simp only [returns_bind, returns_pure]
          intro r _ info' same code
          exact masked info' (record.trans same) code
  | clintTick | other | clock => exact (returns_ok _ _).2 masked

/-- So that a commit leaves the lines as they are in `mip`. -/
theorem commitDsts_linesAgree {d : Devices σ} {s : ArchState} {info : DecodeInfo}
    (masked : MaskedMip info) (held : LinesAgree d (s.get .mip)) :
    Returns (commitDsts s info) fun s' => LinesAgree d (s'.get .mip) := by
  have bit (k : Nat) (outside : delegableInts.getLsbD k = false) :
      Returns (commitDsts s info) fun s' =>
        (s'.get .mip).getLsbD k = (s.get .mip).getLsbD k := by
    have written := commitDsts_mip s info k
    rwa [masked k outside] at written
  intro s' committed
  exact ⟨held.timer, held.software, (bit 7 (by decide) s' committed).trans held.mipTimer,
    (bit 3 (by decide) s' committed).trans held.mipSoftware⟩

section Runs

variable {B : Board σ} (size : Nat) (float : SoftFloat) (junk : Word)

/-- A call moves MSIP as it writes it. -/
theorem step_msip {m : Machine (Devices σ)} {last : Bool}
    (held : (m.arch.memory.dev.clint.msip != 0) = last) (c : BoardCall σ) :
    Returns (c.step (onBoard B size float junk) m) fun m' =>
      (m'.arch.memory.dev.clint.msip != 0) =
        (msipWritten B (onBoard B size float junk) m c).getD last := by
  by_cases update : c = .updateEnv
  · subst update
    have low (data : Word) : (data &&& 1 != 0) = data.getLsbD 0 := by
      change (data &&& 1#64 != 0) = _
      rw [BitVec.and_one_eq_setWidth_ofBool_getLsbD]
      cases data.getLsbD 0 <;> rfl
    simp only [BoardCall.step, BoardCall.call, Machine.step, msipWritten]
    cases record : m.info with
    | none => exact returns_error _ _
    | some info =>
        simp only [returns_bind, returns_pure, Option.bind_eq_bind, Option.bind_some]
        refine (updateEnv_msip B size float junk m.arch info).mono ?_
        intro r written
        rw [written]
        cases updateStore (onBoard B size float junk) m.arch info with
        | none => exact held
        | some store =>
            simp only [msipAfter, Option.bind_some]
            split
            · exact low store.2
            · exact held
  · have silent : msipWritten B (onBoard B size float junk) m c = none := by
      cases c with
      | updateEnv => exact absurd rfl update
      | _ => rfl
    rw [silent]
    refine step_wired_of_ne (J := fun d _ => (d.clint.msip != 0) = last) (boardDrives_any B)
      (fun _ _ _ _ _ same => same) size float junk held (drives_any c) update ?_
    intro _ d mip same
    rw [← same]
    exact congrArg (· != 0) d.clint.tick_msip

variable (drives : BoardDrives B OtherLine)

include drives

/-- Every step of the board keeps the lines in agreement with the devices. -/
theorem clintStep_kept {w : Machine (Devices σ) × Bool} (kept : ClintKept w) {c : BoardCall σ}
    (allowed : c.Drives OtherLine) :
    Returns (clintStep B (onBoard B size float junk) w c) ClintKept := by
  simp only [clintStep, returns_bind, returns_pure]
  intro m moved
  refine ⟨?_, step_msip size float junk kept.last c m moved,
    step_maskedMip _ kept.masked c m moved⟩
  refine step_wired drives linesAgree_other linesAgree_clint size float junk kept.lines allowed
    (fun _ d mip held => linesAgree_tick held) ?_ m moved
  intro _ info record code
  exact commitDsts_linesAgree (kept.masked info record code) kept.lines

omit drives in
/-- After a tick `irqValid` is the comparison, and so are its copies. -/
theorem mirrored_of_tick {w : Machine (Devices σ) × Bool} (kept : ClintKept w) :
    Returns (clintStep B (onBoard B size float junk) w .clintTick) Mirrored := by
  have lines := linesAgree_tick kept.lines
  have level := w.1.arch.memory.dev.clint.tick_irqValid
  have last : (w.1.arch.memory.dev.clint.tick.1.msip != 0) = w.2 := by
    rw [Mmio.Clint.tick_msip]
    exact kept.last
  simp only [clintStep, returns_bind, returns_pure]
  refine (environment_wired _ (J := fun d mip => LinesAgree d mip ∧
    d.clint.irqValid = decide (d.clint.mtimecmp ≤ d.clint.mtime) ∧ (d.clint.msip != 0) = w.2)
    _ _ _ ⟨lines, level, last⟩).mono ?_
  rintro m ⟨lines, level, last⟩
  exact ⟨lines.timer.trans level, (lines.mipTimer.trans lines.timer).trans level,
    lines.software.trans last, (lines.mipSoftware.trans lines.software).trans last⟩

omit drives in
/-- At first all lines are low. -/
theorem reset_kept (config : List (StateWord × Word)) (ram : Nat → Byte) (other : σ) :
    ClintKept (boardReset config ram other, false) := by
  have mip := initConfig_get ArchState.zero config (by decide : StateWord.mip ∉ configWords)
  have low : ((0 : Word) != 0) = false := by decide
  have zero (k : Nat) : (0 : Word).getLsbD k = false := BitVec.getLsbD_zero
  refine ⟨⟨zero 7, (zero 3).trans low.symm, ?_, ?_⟩, low, nofun⟩
  · exact congrArg (fun v : Word => v.getLsbD 7) mip
  · exact congrArg (fun v : Word => v.getLsbD 3) mip

/-- Right after a tick of the CLINT, in every run, the lines mirror it: bits 7 and 3 of the
handler's vector, and of `mip`, are up exactly while `mtime` has reached `mtimecmp` and while
MSIP is set. Between two ticks the registers may be ahead of the lines. -/
theorem clintMirrored_tick (config : List (StateWord × Word)) (ram : Nat → Byte) (other : σ)
    (calls : List (BoardCall σ)) (allowed : ∀ c ∈ calls, c.Drives OtherLine) :
    Returns (runSteps (clintStep B (onBoard B size float junk))
      (boardReset config ram other, false) (calls ++ [.clintTick])) Mirrored := by
  rw [runSteps_append, returns_bind]
  have kept := runSteps_prefix_invariant (reset_kept config ram other)
    (fun w c visit kept => by
      obtain ⟨before, after, rfl, -⟩ := (visits_iff _ _ _ _ _).1 visit
      exact clintStep_kept size float junk drives kept
        (allowed c (List.mem_append_right _ List.mem_cons_self)))
    (List.prefix_refl calls)
  refine kept.mono ?_
  intro w held
  rw [runSteps_cons, returns_bind]
  refine (mirrored_of_tick size float junk held).mono ?_
  intro w' mirrored
  exact (returns_ok _ _).2 mirrored

end Runs

/-- A board with a UART on line 1 before its CLINT.  With its interrupts disabled, the chip
lowers the line twice for a byte to send. -/
def uartBoard : Board (List Byte) where
  clintBase := 0x2000000
  before := [(Mmio.Uart.mk 0x10000000 1
    ⟨fun sent _ _ => (0, sent, []),
      fun sent _ byte _ => (byte :: sent, [false, false])⟩).peripheral]
  after := []

/-- `lui ra, 0x10000; li sp, 1; sb sp, 0(ra); lui ra, 0x2000; sd sp, 0(ra)`: a byte to the
UART, then MSIP. -/
def msipProgram : Machine (Devices (List Byte)) :=
  boardReset archCfg
    (imageOf [0x100000b7, 0x00100113, 0x00208023, 0x020000b7, 0x0020b023]).ram []

/-- The program up to the store. -/
def msipCalls : List (BoardCall (List Byte)) :=
  BoardCall.execAt 0x80000000 ++ BoardCall.execAt 0x80000004 ++ BoardCall.execAt 0x80000008 ++
    BoardCall.execAt 0x8000000c ++ [.decode 0x80000010 0x80000010 .zero, .updateEnv]

/-- A program that raises its own software interrupt, after the next tick of the CLINT. -/
theorem clintMirrored_tick_msipProgram :
    ∃ w, runSteps (clintStep uartBoard (onBoard uartBoard 4096 ⟨fun _ _ _ _ => none⟩ 0))
        (msipProgram, false) (msipCalls ++ [.clintTick]) = .ok w ∧
      w.2 = true ∧ w.1.arch.memory.dev.other = [1] ∧ Mirrored w := by
  obtain ⟨w, ran, seen⟩ := exists_ok_of_toOption
    (show (runSteps (clintStep uartBoard (onBoard uartBoard 4096 ⟨fun _ _ _ _ => none⟩ 0))
        (msipProgram, false) (msipCalls ++ [.clintTick])).toOption.map (fun w =>
          (w.2, w.1.arch.memory.dev.other)) = some (true, [1]) by decide +kernel)
  simp only [Prod.mk.injEq] at seen
  refine ⟨w, ran, seen.1, seen.2, ?_⟩
  refine clintMirrored_tick 4096 _ 0 ?_ archCfg _ [] msipCalls ?_ w ran
  · rintro p (first | last) s addr size
    · simp only [uartBoard, List.mem_cons, List.not_mem_nil, or_false] at first
      subst first
      refine ⟨fun l listed => absurd listed (by simp [Mmio.Uart.peripheral]), ?_⟩
      intro data l listed
      simp only [Mmio.Uart.peripheral, List.map_cons, List.map_nil, List.mem_cons, List.not_mem_nil,
        or_false, or_self] at listed
      subst listed
      decide
    · cases last
  · simp only [msipCalls, BoardCall.execAt, List.cons_append, List.nil_append,
      List.forall_mem_cons, BoardCall.Drives, true_and]
    intro c listed
    cases listed

end CPUDelaySim.Riscv
