import CPUDelaySim.Device.Board
import CPUDelaySim.Device.SerialRefine

/-!
# The serial chip on its board

The chip of a `Uart` never stops, so on a board it is a state with its port and with the proof
that it plays it. What the board sees of a call are the levels that it drives: the chip appends
them to a history, so they are what the history has more after the call.
-/

namespace CPUDelaySim

/-! ### The levels of a call -/

namespace SerialState

variable {s after : SerialState}

/-- The history of levels goes on. -/
def Grows (s after : SerialState) : Prop := s.levels <+: after.levels

/-- No level has been sent. -/
theorem grows_refl (s : SerialState) : s.Grows s := List.prefix_refl _

/-- The levels of a later call come after those of an earlier one. -/
theorem Grows.trans {last : SerialState} (first : s.Grows after) (rest : after.Grows last) :
    s.Grows last := List.IsPrefix.trans first rest

/-- A call that ends with `serial_update_irq`. -/
theorem Grows.updateIrq {changed : SerialState} (grown : s.Grows after)
    (same : changed.levels = after.levels) : s.Grows changed.updateIrq := by
  refine grown.trans ?_
  unfold Grows
  rw [← same]
  exact List.prefix_append _ _

/-- New modem lines send a level at most. -/
theorem updateMsl_grows (s : SerialState) (flags : BitVec 32) : s.Grows (s.updateMsl flags) := by
  unfold updateMsl
  dsimp only
  split_ifs
  · exact (grows_refl s).updateIrq rfl
  · exact grows_refl s

/-- A byte that is put into the FIFO sends no level. -/
theorem recvFifoPut_grows (s : SerialState) (chr : Byte) : Returns (s.recvFifoPut chr) s.Grows := by
  unfold recvFifoPut
  split_ifs
  · rw [returns_bind]
    intro fifo _
    exact (returns_pure _ _).2 (grows_refl s)
  · exact (returns_pure _ _).2 (grows_refl s)

/-- A byte that is received sends a level. -/
theorem receive1_grows (s : SerialState) (chr : Byte) : Returns (s.receive1 chr) s.Grows := by
  unfold receive1
  split_ifs
  · rw [returns_bind]
    refine (recvFifoPut_grows s chr).mono ?_
    intro put grown
    exact (returns_pure _ _).2 (grown.updateIrq rfl)
  · exact (returns_pure _ _).2 ((grows_refl s).updateIrq rfl)
  · exact (returns_pure _ _).2 ((grows_refl s).updateIrq rfl)

/-! ### Transmission -/

/-- Fetching the byte to transmit sends no level. -/
theorem fetchTsr_grows (s : SerialState) : Returns s.fetchTsr s.Grows := by
  unfold fetchTsr
  split_ifs
  · simp only [returns_bind]
    intro _ _ popped _
    exact (returns_pure _ _).2 (grows_refl s)
  · exact (returns_pure _ _).2 (grows_refl s)

/-- Loading the shift register takes no level back. -/
theorem loadTsr_grows (s : SerialState) : Returns s.loadTsr s.Grows := by
  unfold loadTsr
  simp only [returns_bind]
  intro _ _
  refine (fetchTsr_grows s).mono ?_
  intro fetched grown
  split_ifs
  · exact (returns_pure _ _).2 (grown.updateIrq rfl)
  · exact (returns_pure _ _).2 grown

/-- A turn of the transmitter takes no level back, and in loopback mode it receives its byte. -/
theorem xmitTurn_grows (s : SerialState) : Returns s.xmitTurn s.Grows := by
  have left (loaded : SerialState) (grown : s.Grows loaded) :
      Returns (if anyBit loaded.mcr uartMcrLoop then do
          let t ← loaded.receive1 loaded.tsr
          pure { t with tsrRetry := 0 }
        else do
          let t ← pure { loaded with sent := loaded.sent ++ [loaded.tsr] }
          pure { t with tsrRetry := 0 } : Except SerialStop SerialState) s.Grows := by
    split_ifs
    · rw [returns_bind]
      refine (receive1_grows loaded loaded.tsr).mono ?_
      intro received more
      exact (returns_pure _ _).2 (grown.trans more)
    · exact (returns_pure _ _).2 grown
  unfold xmitTurn
  rw [returns_bind]
  intro _ _
  split_ifs
  · rw [returns_bind]
    exact (loadTsr_grows s).mono left
  · exact left s (grows_refl s)

/-- Neither does any number of turns. -/
theorem xmitLoop_grows (s : SerialState) (turns : Nat) : Returns (s.xmitLoop turns) s.Grows := by
  induction turns generalizing s with
  | zero => exact returns_error _ _
  | succ turns ih =>
      unfold xmitLoop
      rw [returns_bind]
      refine (xmitTurn_grows s).mono ?_
      intro turned grown
      split_ifs
      · refine (ih turned).mono ?_
        intro after more
        exact grown.trans more
      · exact (returns_pure _ _).2 grown

/-! ### Accesses -/

/-- A byte that is queued sends no level. -/
theorem queueThr_grows (s : SerialState) : Returns s.queueThr s.Grows := by
  unfold queueThr
  split_ifs
  · simp only [returns_bind]
    intro _ _ fifo _
    exact (returns_pure _ _).2 (grows_refl s)
  · simp only [returns_bind]
    intro _ _ fifo _
    exact (returns_pure _ _).2 (grows_refl s)
  · exact (returns_pure _ _).2 (grows_refl s)

/-- A write at offset 0 takes no level back. -/
theorem writeData_grows (s : SerialState) (val : Word) (size : Nat) :
    Returns (s.writeData val size) s.Grows := by
  unfold writeData
  split_ifs
  · exact (returns_pure _ _).2 (grows_refl s)
  · exact (returns_pure _ _).2 (grows_refl s)
  · rw [returns_bind]
    refine (queueThr_grows { s with thr := val.setWidth 8 }).mono ?_
    intro queued grown
    have cleared : s.Grows { queued with
        thrIpending := false
        lsr := (queued.lsr &&& ~~~uartLsrThre) &&& ~~~uartLsrTemt }.updateIrq :=
      Grows.updateIrq grown rfl
    dsimp only
    split_ifs
    · refine (xmitLoop_grows _ _).mono ?_
      intro after more
      exact cleared.trans more
    · exact (returns_pure _ _).2 cleared

/-- A write at offset 1 sends a level if it changes what is enabled. -/
theorem writeIer_grows (s : SerialState) (val : Word) (flags : BitVec 32) :
    s.Grows (s.writeIer val flags) := by
  have polled (s : SerialState) (changed : Byte) : s.Grows (s.pollOnIer changed flags) := by
    unfold pollOnIer
    split_ifs
    · exact updateMsl_grows { s with pollMsl := 1 } flags
    · exact grows_refl s
    · exact grows_refl s
  have armed (s : SerialState) (changed : Byte) : (s.armOnIer changed).levels = s.levels := by
    unfold armOnIer
    split_ifs <;> rfl
  unfold writeIer
  dsimp only
  split_ifs
  · exact grows_refl s
  · exact (polled { s with ier := val.setWidth 8 &&& 0x0f } _).updateIrq (armed _ _)
  · have grown :=
      polled { s with ier := val.setWidth 8 &&& 0x0f } ((s.ier ^^^ val.setWidth 8) &&& 0x0f)
    unfold Grows at grown ⊢
    rw [armed]
    exact grown

/-- A write of FCR sends a level. -/
theorem writeFifoControl_grows (s : SerialState) (val : Word) :
    s.Grows (s.writeFifoControl val) := by
  unfold writeFifoControl
  dsimp only
  refine (grows_refl s).updateIrq ?_
  unfold writeFcr clearXmit clearRecv
  split_ifs <;> rfl

/-- Whatever is written, the history of levels goes on. -/
theorem ioportWrite_grows (s : SerialState) (addr val : Word) (size : Nat) (flags : BitVec 32) :
    Returns (s.ioportWrite addr val size flags) s.Grows := by
  unfold ioportWrite
  generalize (addr &&& 7).toNat = reg
  rcases reg with _ | _ | _ | _ | _ | _ | _ | _ | reg
  · exact writeData_grows s val size
  · exact (returns_pure _ _).2 (writeIer_grows s val flags)
  · exact (returns_pure _ _).2 (writeFifoControl_grows s val)
  · refine (returns_pure _ _).2 ?_
    unfold writeLcr
    dsimp only
    split_ifs
    · exact grows_refl s
    · exact grows_refl s
  · exact (returns_pure _ _).2 (grows_refl s)
  · exact (returns_pure _ _).2 (grows_refl s)
  · exact (returns_pure _ _).2 (grows_refl s)
  · exact (returns_pure _ _).2 (grows_refl s)
  · exact writeData_grows s val size

/-- A read at offset 0 takes no level back. -/
theorem readData_grows (s : SerialState) : Returns s.readData fun r => s.Grows r.2 := by
  have taken : Returns s.takeRbr fun r => r.2.levels = s.levels := by
    unfold takeRbr
    split_ifs
    · simp only [returns_bind]
      intro _ _
      exact (returns_pure _ _).2 rfl
    · simp only [returns_bind]
      intro _ _
      exact (returns_pure _ _).2 rfl
    · exact (returns_pure _ _).2 rfl
  unfold readData
  split_ifs
  · exact (returns_pure _ _).2 (grows_refl s)
  · rw [returns_bind]
    refine taken.mono ?_
    intro r same
    exact (returns_pure _ _).2 ((grows_refl s).updateIrq same)

/-- A read of MSR takes no level back. -/
theorem readMsr_grows (s : SerialState) (flags : BitVec 32) : s.Grows (s.readMsr flags).2 := by
  have polled : s.Grows (if 0 ≤ s.pollMsl then s.updateMsl flags else s) := by
    split_ifs
    · exact updateMsl_grows s flags
    · exact grows_refl s
  unfold readMsr
  dsimp only
  generalize (if 0 ≤ s.pollMsl then s.updateMsl flags else s) = polledS at polled
  split_ifs
  · exact grows_refl s
  · exact polled.updateIrq rfl
  · exact polled

/-- Whatever is read, the history of levels goes on. -/
theorem ioportRead_grows (s : SerialState) (addr : Word) (flags : BitVec 32) :
    Returns (s.ioportRead addr flags) fun r => s.Grows r.2 := by
  unfold ioportRead
  generalize (addr &&& 7).toNat = reg
  rcases reg with _ | _ | _ | _ | _ | _ | _ | _ | reg
  · exact readData_grows s
  · exact (returns_pure _ _).2 (grows_refl s)
  · refine (returns_pure _ _).2 ?_
    unfold readIir
    split_ifs
    · exact (grows_refl s).updateIrq rfl
    · exact grows_refl s
  · exact (returns_pure _ _).2 (grows_refl s)
  · exact (returns_pure _ _).2 (grows_refl s)
  · refine (returns_pure _ _).2 ?_
    unfold readLsr
    split_ifs
    · exact (grows_refl s).updateIrq rfl
    · exact grows_refl s
  · exact (returns_pure _ _).2 (readMsr_grows s flags)
  · exact (returns_pure _ _).2 (grows_refl s)
  · exact readData_grows s

/-- What a call drives takes the level from the port before it to the port after it. -/
theorem Grows.line {p p' : SerialPort} (grown : s.Grows after) (before : Settled s p)
    (settled : Settled after p') :
    (after.levels.drop s.levels.length).getLast?.getD (p.interrupt != uartIirNoInt) =
      (p'.interrupt != uartIirNoInt) := by
  obtain ⟨more, is⟩ := grown
  have last := settled.line
  rw [← is, List.getLast?_append, before.line] at last
  rw [← is, List.drop_left]
  cases found : more.getLast? with
  | none =>
      rw [found, Option.none_or, Option.some_inj] at last
      exact last
  | some level =>
      rw [found, Option.some_or, Option.some_inj] at last
      exact last

end SerialState

/-! ### The chip of a `Uart` -/

/-- A chip that plays its port, and what its next calls find in the local of
`serial_update_msl`. -/
structure UartChip where
  chip : SerialState
  port : SerialPort
  plays : Plays chip port
  flags : Nat → BitVec 32

namespace UartChip

/-- An interrupt of the port pends. -/
def pends (u : UartChip) : Bool := u.port.interrupt != uartIirNoInt

/-- `simple_serial_init`. -/
def init (memory : SerialState) (recv xmit : Nat → Byte) (flags : Nat → BitVec 32) : UartChip where
  chip := .init memory recv xmit (flags 0)
  port := .init memory.fcr memory.recvFifoItl (SerialPort.linesOf (flags 0))
  plays := SerialState.init_plays memory recv xmit (flags 0)
  flags n := flags (n + 1)

/-- A chip that has been reset requests no interrupt. -/
theorem init_pends (memory : SerialState) (recv xmit : Nat → Byte) (flags : Nat → BitVec 32) :
    (init memory recv xmit flags).pends = false := by
  rw [pends, SerialState.interrupt_none rfl, bne_self_eq_false]

/-- The chip after a call that returned, and the levels of the call. -/
def moved (u : UartChip) (chip : SerialState) (port : SerialPort) (plays : Plays chip port) :
    UartChip × List Bool :=
  (⟨chip, port, plays, fun n => u.flags (n + 1)⟩, chip.levels.drop u.chip.levels.length)

/-- After a read the chip plays the port that has been read. -/
theorem read_plays {u : UartChip} {addr : Word} {r : Byte × SerialState}
    (ran : u.chip.ioportRead addr (u.flags 0) = .ok r) :
    Plays r.2 (u.port.read addr (u.flags 0)).2 := by
  obtain ⟨after, returned, plays⟩ := SerialState.ioportRead_spec u.plays addr (u.flags 0)
  cases ran.symm.trans returned
  exact plays

/-- After a write the chip plays the port that has been written. -/
theorem write_plays {u : UartChip} {addr val : Word} {size : Nat} {after : SerialState}
    (ran : u.chip.ioportWrite addr val size (u.flags 0) = .ok after) :
    Plays after (u.port.write addr val size (u.flags 0)) := by
  obtain ⟨after', returned, plays⟩ := SerialState.ioportWrite_spec u.plays addr val size (u.flags 0)
  cases ran.symm.trans returned
  exact plays

/-- `serial_ioport_read`, which returns. -/
def read (u : UartChip) (addr : Word) : Byte × UartChip × List Bool :=
  match ran : u.chip.ioportRead addr (u.flags 0) with
  | .ok r => (r.1, u.moved r.2 _ (read_plays ran))
  | .error e => absurd ran (by
      obtain ⟨after, returned, _⟩ := SerialState.ioportRead_spec u.plays addr (u.flags 0)
      rw [returned]
      rintro ⟨⟩)

/-- `serial_ioport_write`, which returns. -/
def write (u : UartChip) (addr val : Word) (size : Nat) : UartChip × List Bool :=
  match ran : u.chip.ioportWrite addr val size (u.flags 0) with
  | .ok after => u.moved after _ (write_plays ran)
  | .error e => absurd ran (by
      obtain ⟨after, returned, _⟩ := SerialState.ioportWrite_spec u.plays addr val size (u.flags 0)
      rw [returned]
      rintro ⟨⟩)

/-- The chip as a `Uart` sees it. -/
def serial : Mmio.Serial UartChip where
  ioportRead u addr _ := u.read addr
  ioportWrite u addr byte size := u.write addr (byte.setWidth 64) size

/-- A read answers as the port does, and moves the line with it. -/
theorem read_spec (u : UartChip) (addr : Word) :
    (u.read addr).1 = (u.port.read addr (u.flags 0)).1 ∧
      (u.read addr).2.1.port = (u.port.read addr (u.flags 0)).2 ∧
      (u.read addr).2.2.getLast?.getD u.pends = (u.read addr).2.1.pends := by
  obtain ⟨after, returned, plays⟩ := SerialState.ioportRead_spec u.plays addr (u.flags 0)
  have grown := SerialState.ioportRead_grows u.chip addr (u.flags 0) _ returned
  unfold read
  split
  next r ran =>
    cases ran.symm.trans returned
    exact ⟨rfl, rfl, grown.line u.plays.settled plays.settled⟩
  next e ran => exact absurd (ran.symm.trans returned) (by rintro ⟨⟩)

/-- A write moves the port, and the line with it. -/
theorem write_spec (u : UartChip) (addr val : Word) (size : Nat) :
    (u.write addr val size).1.port = u.port.write addr val size (u.flags 0) ∧
      (u.write addr val size).2.getLast?.getD u.pends = (u.write addr val size).1.pends := by
  obtain ⟨after, returned, plays⟩ := SerialState.ioportWrite_spec u.plays addr val size (u.flags 0)
  have grown := SerialState.ioportWrite_grows u.chip addr val size (u.flags 0) _ returned
  unfold write
  split
  next after' ran =>
    cases ran.symm.trans returned
    exact ⟨rfl, grown.line u.plays.settled plays.settled⟩
  next e ran => exact absurd (ran.symm.trans returned) (by rintro ⟨⟩)

end UartChip

/-! ### The handler -/

/-- The calls of one device leave its bit at their last level. -/
theorem Mmio.IrqHandler.drive_line (h : Mmio.IrqHandler) (n : Mmio.Line) (low : n.val < 31)
    (levels : List Bool) :
    (h.drive (levels.map fun level => (n, level))).irq.getLsbD n =
      levels.getLast?.getD (h.irq.getLsbD n) := by
  induction levels generalizing h with
  | nil => rfl
  | cons level rest ih =>
      rw [List.map_cons, drive_cons, ih, setIrqState_getLsbD h n level low, if_pos rfl,
        List.getLast?_cons]
      rfl

end CPUDelaySim
