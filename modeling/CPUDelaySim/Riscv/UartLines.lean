import CPUDelaySim.Device.UartChip
import CPUDelaySim.Riscv.ClintLines

/-!
# The line of the UART

On a board the serial chip answers the loads and stores of the program. Its interrupt goes
through `cpu_irq_handler` and `Uart::setIrq` to the handler's vector, and from there to `mip`.
Every other device drives other lines, so in every state of every run the bit of the vector is up
exactly while an interrupt of the chip's port pends. `mip` has the bit too, unless the program
may write it.
-/

namespace CPUDelaySim.Riscv

open RiscvArch Mmio

/-- A UART with its chip. -/
def uartOf (base : Word) (n : Mmio.Line) : Mmio.Uart UartChip := ⟨base, n, UartChip.serial⟩

/-- A device that leaves the chip alone, and its line. -/
structure Passive (n : Mmio.Line) (p : Peripheral UartChip) : Prop where
  readChip : ∀ u addr size, (p.read u addr size).2.1 = u
  readLine : ∀ u addr size, ∀ l ∈ (p.read u addr size).2.2, l.1 ≠ n
  writeChip : ∀ u addr size data, (p.write u addr size data).1 = u
  writeLine : ∀ u addr size data, ∀ l ∈ (p.write u addr size data).2, l.1 ≠ n

/-- A board with the UART on line `n`. -/
structure UartBoard (B : Board UartChip) (base : Word) (n : Mmio.Line) : Prop where
  low : n.val < 31
  other : OtherLine n
  devices : ∀ p, p ∈ B.before ∨ p ∈ B.after → p = (uartOf base n).peripheral ∨ Passive n p

/-- The vector has the line of the port, and `mip` has it where the program cannot write. -/
structure UartLine (n : Mmio.Line) (d : Devices UartChip) (mip : Word) : Prop where
  vector : d.handler.irq.getLsbD n = d.other.pends
  mip : delegableInts.getLsbD n = false → mip.getLsbD n = d.other.pends

/-- The chip moves only when the program reaches it. -/
def BoardCall.Bus {σ : Type} : BoardCall σ → Prop
  | .other _ _ => False
  | _ => True

instance {σ : Type} (c : BoardCall σ) : Decidable c.Bus := by
  unfold BoardCall.Bus
  split <;> infer_instance

/-- What every call keeps. -/
structure UartKept (n : Mmio.Line) (m : Machine (Devices UartChip)) : Prop where
  line : Wired (UartLine n) m.arch
  masked : ∀ info, m.info = some info → info.exception = excNone → MaskedMip info

/-- The commit loop leaves the bits that the program may not write. -/
theorem commitDsts_uartLine {n : Mmio.Line} {d : Devices UartChip} {s : ArchState}
    {info : DecodeInfo} (masked : MaskedMip info) (held : UartLine n d (s.get .mip)) :
    Returns (commitDsts s info) fun s' => UartLine n d (s'.get .mip) := by
  refine (commitDsts_mip s info n).mono ?_
  intro s' written
  refine ⟨held.vector, ?_⟩
  intro fixed
  rw [written, masked n fixed]
  exact held.mip fixed

section Closed

variable {B : Board UartChip} {base : Word} {n : Mmio.Line}

/-- Levels that leave the line where the chip wants it. -/
theorem UartLine.drive {d : Devices UartChip} {mip : Word} (held : UartLine n d mip)
    {after : Devices UartChip} (same : after.handler = d.handler) (levels : List (Mmio.Line × Bool))
    (line : (d.handler.drive levels).irq.getLsbD n = after.other.pends) :
    UartLine n (after.drive levels).1 ((after.drive levels).2.getD mip) := by
  refine ⟨?_, ?_⟩
  · change (after.handler.drive levels).irq.getLsbD n = after.other.pends
    rw [same]
    exact line
  · intro fixed
    change ((after.handler.published levels).getD mip).getLsbD n = after.other.pends
    rw [same, published_getLsbD d.handler levels ((held.mip fixed).trans held.vector.symm)]
    exact line

/-- Other lines. -/
theorem UartLine.aside (low : n.val < 31) {d : Devices UartChip} {mip : Word}
    (held : UartLine n d mip) (after : Devices UartChip) (same : after.handler = d.handler)
    (chip : after.other = d.other) {levels : List (Mmio.Line × Bool)}
    (others : ∀ l ∈ levels, l.1 ≠ n) :
    UartLine n (after.drive levels).1 ((after.drive levels).2.getD mip) := by
  refine held.drive same levels ?_
  rw [chip, d.handler.drive_getLsbD low fun l listed eq => others l listed (Fin.ext eq)]
  exact held.vector

/-- The levels of a call on the chip. -/
theorem UartLine.called (low : n.val < 31) {d : Devices UartChip} {mip : Word}
    (held : UartLine n d mip) {u : UartChip} {levels : List Bool}
    (line : levels.getLast?.getD d.other.pends = u.pends) :
    UartLine n (({ d with other := u } : Devices UartChip).drive
        (levels.map fun level => (n, level))).1
      ((({ d with other := u } : Devices UartChip).drive
        (levels.map fun level => (n, level))).2.getD mip) := by
  have handler : ({ d with other := u } : Devices UartChip).handler = d.handler := rfl
  refine held.drive handler _ ?_
  rw [d.handler.drive_line n low levels, held.vector]
  exact line

variable (board : UartBoard B base n)

include board

/-- The CLINT drives its own lines only. -/
theorem uartLine_clint (d : Devices UartChip) (mip : Word) (c : Mmio.Clint)
    (levels : List (Mmio.Line × Bool))
    (clint : ∀ l ∈ levels, l.1 = exciMsi ∨ l.1 = exciMtimer) (held : UartLine n d mip) :
    UartLine n (({ d with clint := c } : Devices UartChip).drive levels).1
      ((({ d with clint := c } : Devices UartChip).drive levels).2.getD mip) := by
  refine held.aside board.low { d with clint := c } rfl rfl ?_
  intro l listed eq
  rcases clint l listed with msi | timer
  · exact board.other.1 (eq.symm.trans msi)
  · exact board.other.2 (eq.symm.trans timer)

variable (size : Nat) (float : SoftFloat) (junk : Word)

/-- A read by the core keeps the line of the chip at its bit. -/
theorem readClosed_uart : ReadClosed (onBoard B size float junk).map (UartLine n) where
  read d listed dev mip addr m held := by
    rcases mem_devices listed with rfl | ⟨p, known, rfl⟩
    · exact held
    · rcases board.devices p known with rfl | passive
      · exact held.called board.low (dev.other.read_spec addr).2.2
      · exact held.aside board.low { dev with other := (p.read dev.other addr m).2.1 } rfl
          (passive.readChip _ _ _) (passive.readLine _ _ _)

/-- So does any access. -/
theorem accessClosed_uart : AccessClosed (onBoard B size float junk).map (UartLine n) where
  toReadClosed := readClosed_uart board size float junk
  write d listed dev mip addr m data held := by
    rcases mem_devices listed with rfl | ⟨p, known, rfl⟩
    · refine uartLine_clint board dev mip _ _ ?_ held
      rw [Mmio.Clint.write_levels]
      intro l listed
      split_ifs at listed
      · rw [List.mem_singleton] at listed
        exact .inl (congrArg Prod.fst listed)
      · cases listed
    · rcases board.devices p known with rfl | passive
      · exact held.called board.low (dev.other.write_spec addr _ m).2
      · exact held.aside board.low { dev with other := (p.write dev.other addr m data).1 } rfl
          (passive.writeChip _ _ _ _) (passive.writeLine _ _ _ _)

/-- So does every call of the board. -/
theorem step_uartLine {m : Machine (Devices UartChip)} (kept : UartKept n m)
    {c : BoardCall UartChip} (bus : c.Bus) :
    Returns (c.step (onBoard B size float junk) m) fun m' => Wired (UartLine n) m'.arch := by
  have closed := readClosed_uart board size float junk
  cases c with
  | decode vaddr paddr slot =>
      simp only [BoardCall.step, BoardCall.call, Machine.step, returns_bind, returns_pure]
      exact decode_wired closed kept.line vaddr paddr slot
  | handleException exception paddr slot =>
      simp only [BoardCall.step, BoardCall.call, Machine.step]
      split
      · rename_i fault
        simp only [handleException, if_pos fault, returns_ok]
        exact kept.line
      · exact (returns_ok _ _).2 kept.line
  | translateAddr vaddr type =>
      simp only [BoardCall.step, BoardCall.call, Machine.step, returns_bind, returns_pure]
      exact translateAddr_wired closed kept.line vaddr type excNone
  | updateEnv =>
      simp only [BoardCall.step, BoardCall.call, Machine.step]
      cases record : m.info with
      | none => exact returns_error _ _
      | some info =>
          simp only [returns_bind, returns_pure]
          exact updateEnv_wired (accessClosed_uart board size float junk) kept.line
            fun code => commitDsts_uartLine (kept.masked info record code) kept.line
  | clintTick =>
      refine environment_wired _ _ _ _ (uartLine_clint board _ _ _ _ ?_ kept.line)
      rw [Mmio.Clint.tick_levels]
      intro l listed
      split_ifs at listed
      · cases listed
      · rw [List.mem_singleton] at listed
        exact .inr (congrArg Prod.fst listed)
  | other state levels => exact bus.elim
  | clock now instret =>
      exact environment_wired _ (m.arch.memory.dev, none) now instret kept.line

/-- The line of the UART in every run: up exactly while the port of the chip has an interrupt
that pends. `mip` has the same bit in machines whose program does not write it. What the chip
sends in one call grows a history, from which the levels of the call are read. -/
theorem uartLine_run (config : List (StateWord × Word)) (ram : Nat → Byte) (memory : SerialState)
    (recv xmit : Nat → Byte) (flags : Nat → BitVec 32) (calls : List (BoardCall UartChip))
    (bus : ∀ c ∈ calls, c.Bus) :
    Returns (runSteps (BoardCall.step (onBoard B size float junk))
        (boardReset config ram (.init memory recv xmit flags)) calls) fun m =>
      UartLine n m.arch.memory.dev (m.arch.state.get .mip) := by
  have start : UartKept n (boardReset config ram (UartChip.init memory recv xmit flags)) := by
    have mip := initConfig_get ArchState.zero config (by decide : StateWord.mip ∉ configWords)
    have zero : (0 : Word).getLsbD n = (UartChip.init memory recv xmit flags).pends := by
      rw [UartChip.init_pends]
      exact BitVec.getLsbD_zero
    refine ⟨⟨zero, fun _ => (congrArg (fun v : Word => v.getLsbD n) mip).trans zero⟩, ?_⟩
    rintro _ ⟨⟩
  refine (runSteps_prefix_invariant start ?_ (List.prefix_refl calls)).mono fun m kept => kept.line
  intro m c visit kept m' ran
  obtain ⟨before, after, rfl, -⟩ := (visits_iff _ _ _ _ _).1 visit
  exact ⟨step_uartLine board size float junk kept
      (bus c (List.mem_append_right _ List.mem_cons_self)) m' ran,
    step_maskedMip _ kept.masked c m' ran⟩

end Closed

/-- The UART on line 11, which no program writes, and a device that does nothing after the CLINT. -/
def chipBoard : Board UartChip where
  clintBase := 0x2000000
  before := [(uartOf 0x10000000 11).peripheral]
  after := [⟨fun addr => addr = 0x20000000, fun u _ _ => ([], u, []), fun u _ _ _ => (u, [])⟩]

/-- Memory that happens to hold nothing but zeros. -/
def zeroChip : SerialState where
  divider := 0
  rbr := 0
  thr := 0
  tsr := 0
  ier := 0
  iir := 0
  lcr := 0
  mcr := 0
  lsr := 0
  msr := 0
  scr := 0
  fcr := 0
  thrIpending := false
  lastBreakEnable := false
  tsrRetry := 0
  recvFifo := .create (fun _ => 0) 0
  xmitFifo := .create (fun _ => 0) 0
  recvFifoItl := 0
  timeoutIpending := false
  pollMsl := 0
  levels := []
  sent := []

/-- `lui ra, 0x10000; li sp, 2; sb sp, 1(ra)`: the transmitter interrupt is enabled, and pends. -/
def thriProgram : Machine (Devices UartChip) :=
  boardReset archCfg (imageOf [0x100000b7, 0x00200113, 0x002080a3]).ram
    (.init zeroChip (fun _ => 0) (fun _ => 0) fun _ => 0)

/-- The whole program. -/
def thriCalls : List (BoardCall UartChip) :=
  BoardCall.execAt 0x80000000 ++ BoardCall.execAt 0x80000004 ++ BoardCall.execAt 0x80000008

/-- A program that enables the transmitter interrupt, with the line up in the end. -/
theorem uartLine_run_thri :
    ∃ m, runSteps (BoardCall.step (onBoard chipBoard 4096 ⟨fun _ _ _ _ => none⟩ 0)) thriProgram
        thriCalls = .ok m ∧
      m.arch.memory.dev.other.pends = true ∧
        UartLine 11 m.arch.memory.dev (m.arch.state.get .mip) := by
  obtain ⟨m, ran, seen⟩ := exists_ok_of_toOption
    (show (runSteps (BoardCall.step (onBoard chipBoard 4096 ⟨fun _ _ _ _ => none⟩ 0)) thriProgram
        thriCalls).toOption.map (fun m => m.arch.memory.dev.other.pends) = some true by
      decide +kernel)
  have board : UartBoard chipBoard 0x10000000 11 := by
    refine ⟨by decide, by decide, ?_⟩
    rintro p (first | last)
    · exact .inl (List.mem_singleton.1 first)
    · cases List.mem_singleton.1 last
      refine .inr ⟨fun _ _ _ => rfl, ?_, fun _ _ _ _ => rfl, ?_⟩
      · intro _ _ _ l none
        cases none
      · intro _ _ _ _ l none
        cases none
  exact ⟨m, ran, seen, uartLine_run board 4096 _ 0 archCfg _ zeroChip _ _ _ thriCalls (by decide) m
    ran⟩

end CPUDelaySim.Riscv
