import CPUDelaySim.Device.SerialPort

/-!
# The serial chip is a serial port

`Mirrors` says how the registers hold a port, in the middle of a transmission too; `Settled` says
that the interrupt register and the line are those of the port.  Every function of the chip has one
lemma about the two, and `run_refine` puts the calls together.

`Mirrors` has one field for each register of the chip, so a lemma about a function proves the few
that it touches and passes the others on.  It may hold where `Settled` does not: a function
changes the sources of the interrupt first and calls `updateIrq` when it is done, which leaves the
port as it is and settles the line (`updateIrq_mirrors`, `updateIrq_settled`).

Two parts are loops of the source: the transmitter, which sends until its queue is empty
(`xmit_spec`), and the bytes that arrive, each with an interrupt of its own (`checkIo_agrees`).
-/

namespace CPUDelaySim

open SerialPort (lsrOf linesOf)

/-! ### The line status -/

section LineStatus

variable {temt thre oe dr : Bool}

@[simp] theorem lsrOf_temt : anyBit (lsrOf temt thre oe dr) uartLsrTemt = temt := by
  revert temt thre oe dr
  decide

@[simp] theorem lsrOf_thre : anyBit (lsrOf temt thre oe dr) uartLsrThre = thre := by
  revert temt thre oe dr
  decide

@[simp] theorem lsrOf_dr : anyBit (lsrOf temt thre oe dr) uartLsrDr = dr := by
  revert temt thre oe dr
  decide

/-- Of the bits that interrupt, the chip only sets the overrun. -/
@[simp] theorem lsrOf_intAny : anyBit (lsrOf temt thre oe dr) uartLsrIntAny = oe := by
  revert temt thre oe dr
  decide

@[simp] theorem lsrOf_breakOverrun :
    anyBit (lsrOf temt thre oe dr) (uartLsrBi ||| uartLsrOe) = oe := by
  revert temt thre oe dr
  decide

@[simp] theorem lsrOf_setTemt : lsrOf temt thre oe dr ||| uartLsrTemt = lsrOf true thre oe dr := by
  revert temt thre oe dr
  decide

@[simp] theorem lsrOf_setThre : lsrOf temt thre oe dr ||| uartLsrThre = lsrOf temt true oe dr := by
  revert temt thre oe dr
  decide

@[simp] theorem lsrOf_setOe : lsrOf temt thre oe dr ||| uartLsrOe = lsrOf temt thre true dr := by
  revert temt thre oe dr
  decide

@[simp] theorem lsrOf_setDr : lsrOf temt thre oe dr ||| uartLsrDr = lsrOf temt thre oe true := by
  revert temt thre oe dr
  decide

@[simp] theorem lsrOf_clearTransmitter :
    (lsrOf temt thre oe dr &&& ~~~uartLsrThre) &&& ~~~uartLsrTemt = lsrOf false false oe dr := by
  revert temt thre oe dr
  decide

@[simp] theorem lsrOf_clearData :
    lsrOf temt thre oe dr &&& ~~~(uartLsrDr ||| uartLsrBi) = lsrOf temt thre oe false := by
  revert temt thre oe dr
  decide

@[simp] theorem lsrOf_clearOverrun :
    lsrOf temt thre oe dr &&& ~~~(uartLsrBi ||| uartLsrOe) = lsrOf temt thre false dr := by
  revert temt thre oe dr
  decide

end LineStatus

/-! ### What the registers hold -/

/-- The chip holds the port.  `temt` and `thre` are the two transmitter bits and `waiting` is the
transmit queue: outside a transmission the bits are set and the queue is empty. -/
structure Mirrors (temt thre : Bool) (waiting : List Byte) (s : SerialState) (p : SerialPort) :
    Prop where
  divider : s.divider = p.dlm ++ p.dll
  ier : s.ier = p.ier
  ierLow : p.ier &&& 0x0f = p.ier
  lcr : s.lcr = p.lcr
  mcr : s.mcr = p.mcr
  scr : s.scr = p.scr
  fcr : s.fcr = p.fcr
  trigger : s.recvFifoItl = p.trigger
  shown : s.iir &&& 0xF0 = if p.fifosShown then uartIirFe else 0
  msr : s.msr = p.lines ++ p.deltas
  poll : 0 ≤ s.pollMsl
  lsr : s.lsr = lsrOf temt thre p.overrun !p.rx.isEmpty
  rbr : s.rbr = p.rbr
  thri : s.thrIpending = p.thri
  timeout : s.timeoutIpending = p.timeout
  retry : s.tsrRetry = 0
  recv : s.recvFifo.toList = if p.fifos then p.rx else []
  recvValid : s.recvFifo.Valid
  recvSize : s.recvFifo.capacity = uartFifoLength
  single : p.fifos = false → p.rx.length ≤ 1
  xmit : s.xmitFifo.toList = waiting
  xmitValid : s.xmitFifo.Valid
  xmitSize : s.xmitFifo.capacity = uartFifoLength
  sent : s.sent = p.sent

/-- The interrupt register and the line are up to date. -/
structure Settled (s : SerialState) (p : SerialPort) : Prop where
  iir : s.iir = p.iir
  line : s.levels.getLast? = some (p.interrupt != uartIirNoInt)

/-- A step that neither meets. -/
theorem Settled.of_interrupt {s s' : SerialState} {p p' : SerialPort} (settled : Settled s p)
    (iir : s'.iir = s.iir) (levels : s'.levels = s.levels) (shown : p'.fifosShown = p.fifosShown)
    (interrupt : p'.interrupt = p.interrupt) : Settled s' p' where
  iir := by rw [iir, settled.iir, SerialPort.iir, SerialPort.iir, interrupt, shown]
  line := by rw [levels, settled.line, interrupt]

namespace SerialState

variable {temt thre : Bool} {waiting : List Byte} {s : SerialState} {p : SerialPort}

/-- With queues, what the receiver holds is counted by its queue. -/
theorem recv_count (holds : Mirrors temt thre waiting s p) (fifos : p.fifos = true) :
    s.recvFifo.num.toNat = p.rx.length := by
  have recv := holds.recv
  rw [if_pos fifos] at recv
  rw [← Fifo8.toList_length, recv]

/-- The FIFO of the receiver has at most the 16 bytes of its buffer. -/
theorem recv_le (holds : Mirrors temt thre waiting s p) (fifos : p.fifos = true) :
    p.rx.length ≤ 16 := by
  rw [← recv_count holds fifos]
  have num := holds.recvValid.num
  rw [holds.recvSize] at num
  exact num

/-- The low half of the modem status are the deltas. -/
theorem msr_deltas (lines deltas : BitVec 4) :
    anyBit (lines ++ deltas) uartMsrAnyDelta = (deltas != 0) := by
  revert lines deltas
  decide

/-- The bits of the interrupt register that `serial_update_irq` finds and leaves. -/
theorem iir_kept (tmp old : Byte) (low : tmp &&& 0xF0 = 0) :
    (tmp ||| (old &&& 0xF0)) &&& 0xF0 = old &&& 0xF0 := by
  rw [BitVec.and_or_distrib_right, low, BitVec.and_assoc, BitVec.and_self]
  exact BitVec.zero_or

/-- The code of an interrupt does not reach the upper half of the IIR, where the FIFO bits are.
-/
theorem interrupt_low (p : SerialPort) : p.interrupt &&& 0xF0 = 0 := by
  unfold SerialPort.interrupt
  split_ifs <;> rfl

/-- `serial_update_irq` looks for the sources in the order of their priority, as the chip does.
-/
theorem tmpIir_eq (holds : Mirrors temt thre waiting s p) : s.tmpIir = p.interrupt := by
  have full : (!anyBit s.fcr uartFcrFe ||
      decide (s.recvFifoItl.setWidth 32 ≤ s.recvFifo.num)) =
        (!p.fifos || decide (p.trigger.toNat ≤ p.rx.length)) := by
    rw [holds.fcr, show anyBit p.fcr uartFcrFe = p.fifos from rfl]
    cases fifos : p.fifos with
    | false => rfl
    | true =>
        have width : (p.trigger.setWidth 32).toNat = p.trigger.toNat := by
          rw [BitVec.toNat_setWidth]
          exact Nat.mod_eq_of_lt (Nat.lt_trans p.trigger.isLt (by decide))
        refine congrArg (!true || ·) (decide_eq_decide.2 ?_)
        rw [holds.trigger, BitVec.le_def, recv_count holds fifos, width]
  unfold tmpIir SerialPort.interrupt
  rw [full, holds.ier, holds.lsr, holds.msr, holds.timeout, holds.thri, lsrOf_intAny, lsrOf_dr,
    msr_deltas]

/-- Only the interrupt register and the line move. -/
theorem updateIrq_mirrors (holds : Mirrors temt thre waiting s p) :
    Mirrors temt thre waiting s.updateIrq p := by
  have shown : s.updateIrq.iir &&& 0xF0 = if p.fifosShown then uartIirFe else 0 := by
    rw [← holds.shown]
    refine iir_kept _ _ ?_
    rw [tmpIir_eq holds]
    exact interrupt_low p
  exact { holds with shown := shown }

/-- After `serial_update_irq` the IIR is that of the chip, whatever it was before. -/
theorem updateIrq_settled (holds : Mirrors temt thre waiting s p) : Settled s.updateIrq p where
  iir := by
    change s.tmpIir ||| (s.iir &&& 0xF0) = _
    rw [tmpIir_eq holds, holds.shown]
    rfl
  line := by
    change (s.levels ++ [s.tmpIir != uartIirNoInt]).getLast? = _
    rw [tmpIir_eq holds, List.getLast?_concat]

/-! ### The modem lines -/

/-- One line after the other gives all four. -/
theorem modemLines_eq (flags : BitVec 32) (lines deltas : BitVec 4) :
    modemLines flags (lines ++ deltas) = linesOf flags ++ deltas := by
  unfold modemLines modemLine linesOf
  generalize (flags &&& chrTiocmCts != 0) = cts
  generalize (flags &&& chrTiocmDsr != 0) = dsr
  generalize (flags &&& chrTiocmCar != 0) = dcd
  generalize (flags &&& chrTiocmRi != 0) = ri
  revert cts dsr dcd ri lines deltas
  decide +kernel

/-- A change of the modem lines sets the deltas of the lines that changed; the ring indicator
sets its delta at the trailing edge only. -/
theorem modemDeltas_eq (old new deltas : BitVec 4) :
    modemDeltas (old ++ deltas) (new ++ deltas) =
      new ++ (if old &&& 4 = 0 then (deltas ||| (new ^^^ old)) &&& 11
        else deltas ||| (new ^^^ old)) := by
  revert old new deltas
  decide +kernel

/-- Reading the modem status clears the deltas and leaves the lines. -/
theorem clear_deltas (lines deltas : BitVec 4) :
    (lines ++ deltas : Byte) &&& 0xF0 = lines ++ (0 : BitVec 4) := by
  revert lines deltas
  decide

/-- Two levels of the modem lines differ exactly if the registers that hold them do. -/
theorem lines_inj {a b c : BitVec 4} : a ++ c = b ++ c ↔ a = b := by
  revert a b c
  decide +kernel

/-- New levels of the modem lines set the same deltas in the registers and in the chip. -/
theorem updateMsl_mirrors (holds : Mirrors temt thre waiting s p) (flags : BitVec 32) :
    Mirrors temt thre waiting (s.updateMsl flags) (p.modem flags) := by
  unfold updateMsl SerialPort.modem
  dsimp only
  rw [holds.msr, modemLines_eq]
  by_cases same : linesOf flags = p.lines
  · rw [if_pos same, same, if_neg (by rw [bne_self_eq_false]; exact Bool.false_ne_true)]
    exact { holds with msr := rfl }
  · rw [if_neg same, if_pos (bne_iff_ne.2 fun eq => same (lines_inj.1 eq))]
    exact updateIrq_mirrors { holds with msr := modemDeltas_eq _ _ _ }

/-- The interrupt line follows the modem lines. -/
theorem updateMsl_settled (holds : Mirrors temt thre waiting s p) (settled : Settled s p)
    (flags : BitVec 32) : Settled (s.updateMsl flags) (p.modem flags) := by
  unfold updateMsl SerialPort.modem
  dsimp only
  rw [holds.msr, modemLines_eq]
  by_cases same : linesOf flags = p.lines
  · rw [if_pos same, same, if_neg (by rw [bne_self_eq_false]; exact Bool.false_ne_true)]
    exact ⟨settled.iir, settled.line⟩
  · rw [if_neg same, if_pos (bne_iff_ne.2 fun eq => same (lines_inj.1 eq))]
    exact @updateIrq_settled temt thre waiting _ _ { holds with msr := modemDeltas_eq _ _ _ }

/-! ### What the functions test -/

/-- The bit of FCR that turns the FIFOs on. -/
theorem fifos_eq (holds : Mirrors temt thre waiting s p) : anyBit s.fcr uartFcrFe = p.fifos := by
  rw [holds.fcr, SerialPort.fifos]

/-- The bit of LCR that selects the divisor. -/
theorem dlab_eq (holds : Mirrors temt thre waiting s p) : anyBit s.lcr uartLcrDlab = p.dlab := by
  rw [holds.lcr, SerialPort.dlab]

/-- The bit of MCR that turns the loopback on. -/
theorem loop_eq (holds : Mirrors temt thre waiting s p) : anyBit s.mcr uartMcrLoop = p.loop := by
  rw [holds.mcr, SerialPort.loop]

/-- The bit of LSR that says that the holding register is empty. -/
theorem thre_eq (holds : Mirrors temt thre waiting s p) : anyBit s.lsr uartLsrThre = thre := by
  rw [holds.lsr, lsrOf_thre]

/-- The bit of LSR that says that the transmitter is empty. -/
theorem temt_eq (holds : Mirrors temt thre waiting s p) : anyBit s.lsr uartLsrTemt = temt := by
  rw [holds.lsr, lsrOf_temt]

/-- The bit of LSR that says that there is data, which is the queue of the chip not being empty.
-/
theorem dr_eq (holds : Mirrors temt thre waiting s p) :
    anyBit s.lsr uartLsrDr = !p.rx.isEmpty := by
  rw [holds.lsr, lsrOf_dr]

/-! ### Reception -/

/-- A byte that comes in, in the middle of a transmission or outside. -/
theorem receive1_spec (holds : Mirrors temt thre waiting s p) (chr : Byte) :
    ∃ after, s.receive1 chr = .ok after ∧ Mirrors temt thre waiting after (p.receive chr) ∧
      Settled after (p.receive chr) := by
  have recv := holds.recv
  unfold receive1 SerialPort.receive
  rw [fifos_eq holds]
  by_cases fifos : p.fifos = true
  · have size : s.recvFifo.capacity.toNat = 16 := by rw [holds.recvSize]; rfl
    rw [if_pos fifos] at recv
    rw [if_pos fifos, if_pos fifos]
    unfold recvFifoPut
    by_cases room : p.rx.length < 16
    · obtain ⟨fifo, ran, valid, items, -, capacity⟩ :=
        Fifo8.push_spec holds.recvValid (by rw [recv, size]; exact room) chr
      have notFull : s.recvFifo.isFull = false := by
        rw [← Bool.not_eq_true, Fifo8.isFull_iff, recv, size]
        omega
      have mirrors : Mirrors temt thre waiting
          { s with recvFifo := fifo, lsr := s.lsr ||| uartLsrDr }
          { p with rx := p.rx ++ [chr] } :=
        { holds with
          lsr := by
            rw [holds.lsr, lsrOf_setDr]
            cases p.rx <;> rfl
          recv := by
            rw [items, recv]
            exact (if_pos fifos).symm
          recvValid := valid
          recvSize := capacity.trans holds.recvSize
          single := fun off => absurd off (ne_false_of_eq_true fifos) }
      rw [if_pos room, notFull, ran]
      exact ⟨_, rfl, updateIrq_mirrors mirrors, updateIrq_settled mirrors⟩
    · -- a full queue has a byte to read, so data ready is up already
      have full : s.recvFifo.isFull = true := by
        have le := recv_le holds fifos
        rw [Fifo8.isFull_iff, recv, size]
        omega
      have mirrors : Mirrors temt thre waiting
          { s with lsr := s.lsr ||| uartLsrOe ||| uartLsrDr } { p with overrun := true } :=
        { holds with
          lsr := by
            rw [holds.lsr, lsrOf_setOe, lsrOf_setDr]
            cases held : p.rx with
            | nil => exact absurd (by rw [held]; exact Nat.zero_lt_succ 15) room
            | cons _ _ => rfl }
      rw [if_neg room, full]
      exact ⟨_, rfl, updateIrq_mirrors mirrors, updateIrq_settled mirrors⟩
  · -- Without the FIFOs the byte takes the place of the one in the buffer register.
    rw [if_neg fifos] at recv
    rw [if_neg fifos, if_neg fifos, dr_eq holds]
    have mirrors : Mirrors temt thre waiting
        { s with
          rbr := chr
          lsr := (if (!p.rx.isEmpty) = true then s.lsr ||| uartLsrOe else s.lsr) ||| uartLsrDr }
        { p with rx := [chr], rbr := chr, overrun := p.overrun || !p.rx.isEmpty } :=
      { holds with
        lsr := by
          dsimp only
          rw [holds.lsr]
          cases p.rx with
          | nil =>
              rw [List.isEmpty_nil, Bool.not_true, if_neg Bool.false_ne_true, lsrOf_setDr,
                Bool.or_false]
              rfl
          | cons _ _ =>
              rw [List.isEmpty_cons, Bool.not_false, if_pos rfl, lsrOf_setOe, lsrOf_setDr,
                Bool.or_true]
              rfl
        rbr := rfl
        recv := recv.trans (if_neg fifos).symm
        single := fun _ => Nat.le_refl 1 }
    exact ⟨_, rfl, updateIrq_mirrors mirrors, updateIrq_settled mirrors⟩

/-! ### Transmission -/

/-- The transmitter takes its byte from the FIFO or from the holding register, according to the
mode, and finds the one byte that waits there. -/
theorem fetchTsr_spec {chr : Byte}
    (holds : Mirrors false false (if p.fifos then [chr] else []) s p) (thr : s.thr = chr) :
    ∃ after, s.fetchTsr = .ok after ∧ after.tsr = chr ∧ Mirrors false true [] after p := by
  have xmit := holds.xmit
  unfold fetchTsr
  rw [fifos_eq holds]
  by_cases fifos : p.fifos = true
  · rw [if_pos fifos] at xmit
    obtain ⟨fifo, ran, valid, items, -, capacity⟩ := Fifo8.pop_spec holds.xmitValid xmit
    have filled : s.xmitFifo.isEmpty = false := by
      rw [← Bool.not_eq_true, Fifo8.isEmpty_iff, xmit]
      exact List.cons_ne_nil chr []
    have last : (fifo.num == 0) = true := Fifo8.isEmpty_iff.2 items
    rw [if_pos fifos, filled, ran]
    refine ⟨_, rfl, rfl, { holds with
      xmit := items, xmitValid := valid, lsr := ?_, xmitSize := capacity.trans holds.xmitSize }⟩
    dsimp only
    rw [if_pos last, holds.lsr, lsrOf_setThre]
  · rw [if_neg fifos] at xmit
    rw [if_neg fifos]
    refine ⟨_, rfl, thr, { holds with xmit := xmit, lsr := ?_ }⟩
    dsimp only
    rw [holds.lsr, lsrOf_setThre]

/-- The byte is in the shift register, and the transmitter interrupt pends. -/
theorem loadTsr_spec {chr : Byte}
    (holds : Mirrors false false (if p.fifos then [chr] else []) s p) (thr : s.thr = chr)
    (quiet : p.thri = false) :
    ∃ after, s.loadTsr = .ok after ∧ after.tsr = chr ∧
      Mirrors false true [] after { p with thri := true } ∧
      Settled after { p with thri := true } := by
  obtain ⟨loaded, ran, tsr, mirrors⟩ := fetchTsr_spec holds thr
  have raised : Mirrors false true [] { loaded with thrIpending := true } { p with thri := true } :=
    { mirrors with thri := rfl }
  refine ⟨{ loaded with thrIpending := true }.updateIrq, ?_, tsr, updateIrq_mirrors raised,
    updateIrq_settled raised⟩
  have pending : (anyBit loaded.lsr uartLsrThre && !loaded.thrIpending) = true := by
    rw [thre_eq mirrors, mirrors.thri, quiet]
    rfl
  unfold loadTsr
  rw [thre_eq holds, ran]
  exact if_pos pending

/-- One turn sends the byte, or receives it. -/
theorem xmitTurn_spec {chr : Byte}
    (holds : Mirrors false false (if p.fifos then [chr] else []) s p) (thr : s.thr = chr)
    (quiet : p.thri = false) :
    ∃ after, s.xmitTurn = .ok after ∧ Mirrors false true [] after (p.transmit chr) ∧
      Settled after (p.transmit chr) := by
  obtain ⟨loaded, ran, rfl, mirrors, settled⟩ := loadTsr_spec holds thr quiet
  have loop : anyBit loaded.mcr uartMcrLoop = p.loop := by
    rw [mirrors.mcr, SerialPort.loop]
  unfold xmitTurn SerialPort.transmit
  rw [temt_eq holds, holds.retry]
  change ∃ after, (s.loadTsr >>= _) = _ ∧ _
  rw [ran]
  dsimp only [bind, Except.bind]
  rw [loop]
  by_cases loops : p.loop = true
  · obtain ⟨after, received, holds, settled⟩ := receive1_spec mirrors loaded.tsr
    rw [if_pos loops, if_pos loops, received]
    exact ⟨_, rfl, { holds with retry := rfl }, settled.of_interrupt rfl rfl rfl rfl⟩
  · rw [if_neg loops, if_neg loops]
    refine ⟨_, rfl, { mirrors with retry := rfl, sent := ?_ }, settled.of_interrupt rfl rfl rfl rfl⟩
    dsimp only
    rw [mirrors.sent]

/-- The loop is left after its first turn. -/
theorem xmit_spec {chr : Byte}
    (holds : Mirrors false false (if p.fifos then [chr] else []) s p) (thr : s.thr = chr)
    (quiet : p.thri = false) :
    ∃ after, s.xmit = .ok after ∧ Mirrors true true [] after (p.transmit chr) ∧
      Settled after (p.transmit chr) := by
  obtain ⟨turned, ran, mirrors, settled⟩ := xmitTurn_spec holds thr quiet
  refine ⟨{ turned with lsr := turned.lsr ||| uartLsrTemt }, ?_, { mirrors with lsr := ?_ },
    settled.of_interrupt rfl rfl rfl rfl⟩
  · unfold xmit xmitLoop
    rw [ran]
    change (if _ then _ else _) = _
    rw [thre_eq mirrors]
    rfl
  · dsimp only
    rw [mirrors.lsr, lsrOf_setTemt]

/-! ### Between the calls -/

end SerialState

/-- The chip is the port. -/
structure Plays (s : SerialState) (p : SerialPort) : Prop where
  mirrors : Mirrors true true [] s p
  settled : Settled s p

namespace SerialState

variable {s : SerialState} {p : SerialPort}

/-- What moved is shown. -/
theorem updateIrq_plays (holds : Mirrors true true [] s p) : Plays s.updateIrq p :=
  ⟨updateIrq_mirrors holds, updateIrq_settled holds⟩

/-! ### The divisor -/

/-- The divisor after a write of its two bytes at once. -/
theorem divider_low (v : Word) : v.extractLsb' 8 8 ++ v.setWidth 8 = v.setWidth 16 := by
  ext i bound
  simp only [BitVec.getElem_setWidth, BitVec.getElem_append, BitVec.getElem_extractLsb']
  split
  next low => rfl
  next high => rw [show 8 + (i - 8) = i by omega]

/-- A write of the low byte of the divisor leaves the high byte. -/
theorem divider_keepHigh (high high' low low' : Byte) :
    ((high ++ low) &&& (0xff00 : BitVec 16)) ||| (high' ++ low') = (high ||| high') ++ low' := by
  have mask : ∀ i (bound : i < 16), (0xff00 : BitVec 16)[i] = decide (8 ≤ i) := by decide
  ext i bound
  simp only [BitVec.getElem_or, BitVec.getElem_and, BitVec.getElem_append, mask i bound]
  split
  next below => simp [Nat.not_le.2 below]
  next above => simp [Nat.not_lt.1 above]

/-- A write of the high byte of the divisor leaves the low byte. -/
theorem divider_keepLow (high low : Byte) (v : Word) :
    ((high ++ low) &&& (0x00ff : BitVec 16)) ||| (v.setWidth 16 <<< 8) = v.setWidth 8 ++ low := by
  have mask : ∀ i (bound : i < 16), (0x00ff : BitVec 16)[i] = decide (i < 8) := by decide
  ext i bound
  simp only [BitVec.getElem_or, BitVec.getElem_and, BitVec.getElem_append, mask i bound,
    BitVec.getElem_shiftLeft]
  split
  next below => simp [below]
  next above => simp [above]

/-- The low byte reads back. -/
theorem divider_readLow (high low : Byte) :
    ((high ++ low) &&& (0xff : BitVec 16)).setWidth 8 = low := by
  have mask : ∀ i (bound : i < 16), (0xff : BitVec 16).getLsbD i = decide (i < 8) := by decide
  ext i bound
  rw [BitVec.getElem_setWidth, BitVec.getLsbD_and, BitVec.getLsbD_append, if_pos bound,
    mask i (by omega), decide_eq_true bound, Bool.and_true]
  rfl

/-- The high byte reads back. -/
theorem divider_readHigh (high low : Byte) :
    (((high ++ low) >>> 8) &&& (0xff : BitVec 16)).setWidth 8 = high := by
  have mask : ∀ i (bound : i < 16), (0xff : BitVec 16).getLsbD i = decide (i < 8) := by decide
  ext i bound
  rw [BitVec.getElem_setWidth, BitVec.getLsbD_and, BitVec.getLsbD_ushiftRight,
    BitVec.getLsbD_append, if_neg (by omega), mask i (by omega), decide_eq_true bound,
    Bool.and_true, Nat.add_sub_cancel_left]
  rfl

/-! ### Writes -/

/-- A mask distributes over the difference of two bytes. -/
theorem xor_masked (a b mask : Byte) : (a ^^^ b) &&& mask = (a &&& mask) ^^^ (b &&& mask) := by
  ext i bound
  simp only [BitVec.getElem_and, BitVec.getElem_xor]
  exact Bool.and_xor_distrib_right _ _ _

/-- A bit that two bytes do not differ in is the same in both. -/
theorem anyBit_same {a b mask : Byte} (same : anyBit (a ^^^ b) mask = false) :
    anyBit a mask = anyBit b mask := by
  unfold anyBit at same ⊢
  rw [bne_eq_false_iff_eq, xor_masked] at same
  rw [BitVec.xor_eq_zero_iff.1 same]

/-- A register that keeps the bits of the mask. -/
theorem anyBit_kept (a : Byte) {kept mask : Byte} (le : kept &&& mask = mask) :
    anyBit (a &&& kept) mask = anyBit a mask := by
  unfold anyBit
  rw [BitVec.and_assoc, le]

/-- The byte to transmit is put into the FIFO if the FIFOs are on; it is empty, so that there is
room. -/
theorem queueThr_spec (holds : Mirrors true true [] s p) :
    ∃ after, s.queueThr = .ok after ∧ after.thr = s.thr ∧
      Mirrors true true (if p.fifos then [s.thr] else []) after p := by
  unfold queueThr
  rw [fifos_eq holds]
  by_cases fifos : p.fifos = true
  · have size : s.xmitFifo.capacity.toNat = 16 := by rw [holds.xmitSize]; rfl
    obtain ⟨fifo, ran, valid, items, -, capacity⟩ :=
      Fifo8.push_spec holds.xmitValid (by rw [holds.xmit, size]; exact Nat.zero_lt_succ 15) s.thr
    have notFull : s.xmitFifo.isFull = false := by
      rw [← Bool.not_eq_true, Fifo8.isFull_iff, holds.xmit, size]
      exact (Nat.succ_ne_zero 15).symm
    rw [if_pos fifos, if_pos fifos, notFull]
    change ∃ after, (onFifo (s.xmitFifo.push s.thr) >>= _) = _ ∧ _
    rw [ran]
    refine ⟨_, rfl, rfl, { holds with
      xmit := ?_, xmitValid := valid, xmitSize := capacity.trans holds.xmitSize }⟩
    rw [items, holds.xmit]
    rfl
  · rw [if_neg fifos, if_neg fifos]
    exact ⟨s, rfl, rfl, holds⟩

/-- A write at offset 0: the divisor with `DLAB` set, a byte transmitted at once otherwise,
looped back or sent to the back end. -/
theorem writeData_spec (plays : Plays s p) (val : Word) (size : Nat) :
    ∃ after, s.writeData val size = .ok after ∧ Plays after (p.writeData val size) := by
  obtain ⟨holds, settled⟩ := plays
  unfold writeData SerialPort.writeData
  rw [dlab_eq holds]
  by_cases dlab : p.dlab = true
  · rw [if_pos dlab, if_pos dlab]
    refine ⟨_, rfl, { holds with divider := ?_ }, settled.of_interrupt rfl rfl rfl rfl⟩
    dsimp only
    rw [holds.divider, ← divider_low]
    by_cases one : size = 1
    · rw [if_pos one, if_pos one, divider_keepHigh]
    · rw [if_neg one, if_neg one, show (0 : Byte) ||| val.extractLsb' 8 8 = _ from BitVec.zero_or]
  · rw [if_neg dlab, if_neg dlab]
    have written : Mirrors true true [] { s with thr := val.setWidth 8 } p := { holds with }
    obtain ⟨queued, ran, thr, mirrors⟩ := queueThr_spec written
    -- the byte waits, and both transmitter bits are down
    have started : Mirrors false false (if p.fifos then [val.setWidth 8] else [])
        { queued with
          thrIpending := false
          lsr := (queued.lsr &&& ~~~uartLsrThre) &&& ~~~uartLsrTemt } { p with thri := false } :=
      { mirrors with
        thri := rfl
        lsr := by
          dsimp only
          rw [mirrors.lsr, lsrOf_clearTransmitter] }
    obtain ⟨after, sent, holds, settled⟩ :=
      xmit_spec (p := { p with thri := false }) (updateIrq_mirrors started) thr rfl
    refine ⟨after, ?_, holds, settled⟩
    rw [ran]
    exact (if_pos (beq_iff_eq.2 mirrors.retry)).trans sent

/-- The modem lines are polled when their interrupt is turned on. -/
theorem pollOnIer_mirrors (holds : Mirrors true true [] s p) (changed : Byte) (flags : BitVec 32) :
    Mirrors true true [] (s.pollOnIer changed flags)
      (p.pollOn changed flags) := by
  have on : anyBit s.ier uartIerMsi = anyBit p.ier uartIerMsi := by rw [holds.ier]
  unfold pollOnIer SerialPort.pollOn
  rw [on, decide_eq_true holds.poll, Bool.and_true]
  cases anyBit changed uartIerMsi with
  | false => exact holds
  | true =>
      cases anyBit p.ier uartIerMsi with
      | false => exact { holds with poll := Int.le_refl 0 }
      | true =>
          have polls : Mirrors true true [] { s with pollMsl := 1 } p :=
            { holds with poll := Int.zero_le_ofNat 1 }
          exact updateMsl_mirrors polls flags

/-- To turn the transmitter interrupt on makes it pend. -/
theorem armOnIer_mirrors (holds : Mirrors true true [] s p) (changed : Byte) :
    Mirrors true true [] (s.armOnIer changed) (p.armOn changed) := by
  have on : anyBit s.ier uartIerThri = anyBit p.ier uartIerThri := by rw [holds.ier]
  unfold armOnIer SerialPort.armOn
  rw [on, thre_eq holds, Bool.and_true]
  cases anyBit changed uartIerThri with
  | false => exact { holds with }
  | true => exact { holds with thri := rfl }

/-- A write that changes no enabled interrupt changes nothing. -/
theorem ier_same {ier val : Byte} (low : ier &&& 0x0f = ier) (same : (ier ^^^ val) &&& 0x0f = 0) :
    val &&& 0x0f = ier := by
  rw [xor_masked, low] at same
  exact (BitVec.xor_eq_zero_iff.1 same).symm

/-- A write at offset 1. Only the low four bits of IER are kept, and one that enables the
transmitter interrupt may raise it. -/
theorem writeIer_spec (plays : Plays s p) (val : Word) (flags : BitVec 32) :
    Plays (s.writeIer val flags)
      (if p.dlab then { p with dlm := val.setWidth 8 } else p.writeIer (val.setWidth 8) flags) := by
  obtain ⟨holds, settled⟩ := plays
  unfold writeIer
  rw [dlab_eq holds]
  by_cases dlab : p.dlab = true
  · rw [if_pos dlab, if_pos dlab]
    refine ⟨{ holds with divider := ?_ }, settled.of_interrupt rfl rfl rfl rfl⟩
    dsimp only
    rw [holds.divider, divider_keepLow]
  · rw [if_neg dlab, if_neg dlab]
    unfold SerialPort.writeIer
    dsimp only
    generalize val.setWidth 8 = byte
    have ier : s.ier ^^^ byte = p.ier ^^^ byte := by rw [holds.ier]
    have low : (byte &&& 0x0f) &&& 0x0f = byte &&& 0x0f := by rw [BitVec.and_assoc, BitVec.and_self]
    have written : Mirrors true true [] { s with ier := byte &&& 0x0f }
        { p with ier := byte &&& 0x0f } := { holds with ier := rfl, ierLow := low }
    rw [ier]
    have armed := armOnIer_mirrors
      (pollOnIer_mirrors written ((p.ier ^^^ byte) &&& 0x0f) flags) ((p.ier ^^^ byte) &&& 0x0f)
    by_cases same : (p.ier ^^^ byte) &&& 0x0f = 0
    · rw [same] at armed ⊢
      refine ⟨armed, settled.of_interrupt rfl rfl rfl ?_⟩
      change SerialPort.interrupt { p with ier := byte &&& 0x0f } = _
      rw [ier_same holds.ierLow same]
    · rw [if_pos (bne_iff_ne.2 same)]
      exact updateIrq_plays armed

/-- FCR clears the FIFO of the receiver. -/
theorem clearRecv_mirrors (holds : Mirrors true true [] s p) (val : Byte) :
    Mirrors true true [] (s.clearRecv val) { p with
      rx := if anyBit val uartFcrRfr then [] else p.rx
      timeout := p.timeout && !anyBit val uartFcrRfr } := by
  unfold clearRecv
  cases anyBit val uartFcrRfr with
  | false => exact { holds with timeout := holds.timeout.trans (Bool.and_true _).symm }
  | true =>
      rw [if_pos rfl]
      exact { holds with
        lsr := by
          dsimp only
          rw [holds.lsr, lsrOf_clearData]
          rfl
        timeout := (Bool.and_false _).symm
        recv := (Fifo8.reset_toList _).trans (ite_self _).symm
        recvValid := Fifo8.reset_valid holds.recvValid
        single := fun _ => Nat.zero_le 1 }

/-- FCR clears the FIFO of the transmitter, which is empty between the calls. -/
theorem clearXmit_mirrors (holds : Mirrors true true [] s p) (val : Byte) :
    Mirrors true true [] (s.clearXmit val)
      { p with thri := p.thri || anyBit val uartFcrXfr } := by
  unfold clearXmit
  cases anyBit val uartFcrXfr with
  | false => exact { holds with thri := holds.thri.trans (Bool.or_false _).symm }
  | true =>
      rw [if_pos rfl]
      exact { holds with
        lsr := by
          dsimp only
          rw [holds.lsr, lsrOf_setThre]
        thri := (Bool.or_true _).symm
        xmit := Fifo8.reset_toList _
        xmitValid := Fifo8.reset_valid holds.xmitValid }

/-- The table of the trigger levels, as the source picks from it. -/
theorem trigger_eq : ∀ val : Byte,
    (if val &&& 0xC0 = 0x00 then (1 : Byte) else if val &&& 0xC0 = 0x40 then 4
      else if val &&& 0xC0 = 0x80 then 8 else 14) =
        ([1, 4, 8, 14] : List Byte).getD (val >>> 6).toNat 0 := by
  decide

/-- Queues that are switched hold nothing. -/
theorem writeFcr_mirrors (holds : Mirrors true true [] s p) (val : Byte)
    (kept : anyBit val uartFcrFe = p.fifos ∨ p.rx = []) :
    Mirrors true true [] (s.writeFcr val) { p with
      fcr := val
      fifosShown := anyBit val uartFcrFe
      trigger :=
        if anyBit val uartFcrFe then [1, 4, 8, 14].getD (val >>> 6).toNat 0 else p.trigger } := by
  have recv : s.recvFifo.toList = if anyBit val uartFcrFe then p.rx else [] := by
    rw [holds.recv]
    rcases kept with same | empty
    · rw [same]
    · rw [empty, ite_self, ite_self]
  have single : anyBit val uartFcrFe = false → p.rx.length ≤ 1 := by
    intro off
    rcases kept with same | empty
    · exact holds.single (same ▸ off)
    · rw [empty]
      exact Nat.zero_le 1
  have shown := holds.shown
  unfold writeFcr
  by_cases fe : anyBit val uartFcrFe = true
  · rw [if_pos fe] at recv
    rw [if_pos fe, if_pos fe]
    refine { holds with
      fcr := rfl, recv := recv.trans (if_pos fe).symm, shown := ?_, trigger := trigger_eq val
      single := fun off => absurd (off.symm.trans fe) Bool.false_ne_true }
    dsimp only
    rw [if_pos fe, BitVec.and_or_distrib_right, shown]
    cases p.fifosShown <;> rfl
  · rw [if_neg fe] at recv
    rw [if_neg fe, if_neg fe]
    refine { holds with
      fcr := rfl, recv := recv.trans (if_neg fe).symm, shown := ?_
      single := fun off => single off }
    dsimp only
    rw [if_neg fe, BitVec.and_assoc, BitVec.and_comm (~~~uartIirFe), ← BitVec.and_assoc, shown]
    cases p.fifosShown <;> rfl

/-- To switch the queues clears both. -/
theorem switched_val (switched : Bool) : ∀ val : Byte,
    let val' := if switched then val ||| (uartFcrXfr ||| uartFcrRfr) else val
    anyBit val' uartFcrRfr = (switched || anyBit val uartFcrRfr) ∧
      anyBit val' uartFcrXfr = (switched || anyBit val uartFcrXfr) ∧
      val' &&& 0xC9 = val &&& 0xC9 := by
  revert switched
  decide

/-- A write of FCR: a change of the enable bit clears both FIFOs, and so do the bits for it. -/
theorem writeFifoControl_spec (plays : Plays s p) (val : Word) :
    Plays (s.writeFifoControl val) (p.writeFifoControl (val.setWidth 8)) := by
  have holds := plays.mirrors
  unfold writeFifoControl SerialPort.writeFifoControl
  dsimp only
  generalize val.setWidth 8 = byte
  rw [holds.fcr]
  generalize switchedIs : anyBit (byte ^^^ p.fcr) uartFcrFe = switched
  obtain ⟨rfr, xfr, stick⟩ := switched_val switched byte
  have cleared := clearXmit_mirrors (clearRecv_mirrors holds
    (if switched then byte ||| (uartFcrXfr ||| uartFcrRfr) else byte))
    (if switched then byte ||| (uartFcrXfr ||| uartFcrRfr) else byte)
  rw [rfr, xfr] at cleared
  rw [stick]
  refine updateIrq_plays (writeFcr_mirrors cleared (byte &&& 0xC9) ?_)
  cases switched with
  | true => exact .inr rfl
  | false =>
      -- the bit of the register and the bit of the byte are one
      left
      rw [anyBit_kept byte (show (0xC9 : Byte) &&& uartFcrFe = _ from rfl)]
      exact anyBit_same switchedIs

/-- A write of LCR. The break and the timing go to the back end, which has no effect on the
registers. -/
theorem writeLcr_plays (plays : Plays s p) (val : Word) :
    Plays (s.writeLcr val) { p with lcr := val.setWidth 8 } := by
  obtain ⟨holds, settled⟩ := plays
  unfold writeLcr
  dsimp only
  split_ifs
  · exact ⟨{ holds with lcr := rfl }, settled.of_interrupt rfl rfl rfl rfl⟩
  · exact ⟨{ holds with lcr := rfl }, settled.of_interrupt rfl rfl rfl rfl⟩

/-- Every write of a register does to the port what the chip says that it does. -/
theorem ioportWrite_spec (plays : Plays s p) (addr val : Word) (size : Nat) (flags : BitVec 32) :
    ∃ after, s.ioportWrite addr val size flags = .ok after ∧
      Plays after (p.write addr val size flags) := by
  unfold ioportWrite SerialPort.write
  generalize (addr &&& 7).toNat = reg
  rcases reg with _ | _ | _ | _ | _ | _ | _ | _ | reg
  · exact writeData_spec plays val size
  · exact ⟨_, rfl, writeIer_spec plays val flags⟩
  · exact ⟨_, rfl, writeFifoControl_spec plays val⟩
  · exact ⟨_, rfl, writeLcr_plays plays val⟩
  · obtain ⟨holds, settled⟩ := plays
    have mcr : s.mcr = p.mcr := holds.mcr
    exact ⟨_, rfl, { holds with mcr := rfl }, settled.of_interrupt rfl rfl rfl rfl⟩
  · exact ⟨s, rfl, plays⟩
  · exact ⟨s, rfl, plays⟩
  · obtain ⟨holds, settled⟩ := plays
    exact ⟨_, rfl, { holds with scr := rfl }, settled.of_interrupt rfl rfl rfl rfl⟩
  · exact writeData_spec plays val size

/-! ### Reads -/

/-- A read of the receive buffer takes the oldest byte from the FIFO or the holding register. -/
theorem takeRbr_spec (holds : Mirrors true true [] s p) :
    ∃ after, s.takeRbr = .ok (p.readData.1, after) ∧ Mirrors true true [] after p.readData.2 := by
  have recv := holds.recv
  unfold takeRbr SerialPort.readData
  rw [fifos_eq holds]
  by_cases fifos : p.fifos = true
  · rw [if_pos fifos] at recv
    rw [if_pos fifos, if_pos fifos]
    cases held : p.rx with
    | nil =>
        rw [held] at recv
        have none : s.recvFifo.num == 0 := Fifo8.isEmpty_iff.2 recv
        rw [Fifo8.isEmpty_iff.2 recv]
        refine ⟨_, rfl, { holds with
          lsr := ?_, timeout := rfl, recv := ?_, single := fun _ => Nat.zero_le 1 }⟩
        · dsimp only
          rw [if_pos none, holds.lsr, lsrOf_clearData]
          rfl
        · exact recv.trans (ite_self _).symm
    | cons chr rest =>
        rw [held] at recv
        obtain ⟨fifo, ran, valid, items, -, capacity⟩ := Fifo8.pop_spec holds.recvValid recv
        have filled : s.recvFifo.isEmpty = false := by
          rw [← Bool.not_eq_true, Fifo8.isEmpty_iff, recv]
          exact List.cons_ne_nil chr rest
        -- data ready goes down with the last byte
        have last : (fifo.num == 0) = rest.isEmpty := by
          rw [Bool.eq_iff_iff, List.isEmpty_iff, ← items]
          exact Fifo8.isEmpty_iff
        rw [filled]
        change ∃ after, (onFifo s.recvFifo.pop >>= _) = _ ∧ _
        rw [ran]
        refine ⟨_, rfl, { holds with
          lsr := ?_, timeout := rfl, recv := items.trans (if_pos fifos).symm, recvValid := valid
          recvSize := capacity.trans holds.recvSize
          single := fun off => absurd off (ne_false_of_eq_true fifos) }⟩
        dsimp only
        rw [holds.lsr, held, lsrOf_clearData, last]
        cases rest <;> rfl
  · rw [if_neg fifos] at recv
    rw [if_neg fifos, if_neg fifos, ← holds.rbr]
    refine ⟨_, rfl, { holds with
      lsr := ?_, rbr := rfl, recv := recv.trans (ite_self _).symm
      single := fun _ => Nat.zero_le 1 }⟩
    dsimp only
    rw [holds.lsr, lsrOf_clearData]
    rfl

/-- A read at offset 0: the divisor with `DLAB` set, else the oldest byte received. -/
theorem readData_spec (plays : Plays s p) :
    ∃ after, s.readData = .ok ((if p.dlab then (p.dll, p) else p.readData).1, after) ∧
      Plays after (if p.dlab then (p.dll, p) else p.readData).2 := by
  have holds := plays.mirrors
  unfold readData
  rw [dlab_eq holds]
  by_cases dlab : p.dlab = true
  · rw [if_pos dlab, if_pos dlab, holds.divider, divider_readLow]
    exact ⟨s, rfl, plays⟩
  · obtain ⟨after, ran, mirrors⟩ := takeRbr_spec holds
    rw [if_neg dlab, if_neg dlab, ran]
    exact ⟨_, rfl, updateIrq_plays mirrors⟩

/-- A read at offset 1. -/
theorem readIer_eq (holds : Mirrors true true [] s p) :
    s.readIer = if p.dlab then p.dlm else p.ier := by
  unfold readIer
  rw [dlab_eq holds, holds.divider, divider_readHigh, holds.ier]

/-- The transmitter interrupt is the only one with its two bits. -/
theorem iir_thri (p : SerialPort) :
    p.iir &&& uartIirId = uartIirThri ↔ p.interrupt = uartIirThri := by
  have low : p.iir &&& uartIirId = p.interrupt &&& uartIirId := by
    unfold SerialPort.iir
    rw [BitVec.and_or_distrib_right]
    cases p.fifosShown <;> exact BitVec.or_zero
  rw [low]
  unfold SerialPort.interrupt
  split_ifs <;> decide

/-- A read of IIR reports the interrupt, and takes back the one of the transmitter if that is
it. -/
theorem readIir_spec (plays : Plays s p) :
    s.readIir.1 = p.iir ∧
      Plays s.readIir.2 (if p.interrupt = uartIirThri then { p with thri := false } else p) := by
  obtain ⟨holds, settled⟩ := plays
  have test : s.iir &&& uartIirId = uartIirThri ↔ p.interrupt = uartIirThri := by
    rw [settled.iir]
    exact iir_thri p
  unfold readIir
  by_cases thri : p.interrupt = uartIirThri
  · rw [if_pos (test.2 thri), if_pos thri]
    have cleared : Mirrors true true [] { s with thrIpending := false } { p with thri := false } :=
      { holds with thri := rfl }
    exact ⟨settled.iir, updateIrq_plays cleared⟩
  · rw [if_neg (mt test.1 thri), if_neg thri]
    exact ⟨settled.iir, holds, settled⟩

/-- A read of LSR reports an overrun once. -/
theorem readLsr_spec (plays : Plays s p) :
    s.readLsr.1 = lsrOf true true p.overrun !p.rx.isEmpty ∧
      Plays s.readLsr.2 { p with overrun := false } := by
  obtain ⟨holds, settled⟩ := plays
  have found : anyBit s.lsr (uartLsrBi ||| uartLsrOe) = p.overrun := by
    rw [holds.lsr, lsrOf_breakOverrun]
  unfold readLsr
  rw [found]
  cases overrun : p.overrun with
  | true =>
      have cleared : Mirrors true true [] { s with lsr := s.lsr &&& ~~~(uartLsrBi ||| uartLsrOe) }
          { p with overrun := false } :=
        { holds with
          lsr := by
            dsimp only
            rw [holds.lsr, lsrOf_clearOverrun] }
      exact ⟨holds.lsr.trans (by rw [overrun]), updateIrq_plays cleared⟩
  | false =>
      have same : { p with overrun := false } = p := by rw [← overrun]
      rw [same]
      exact ⟨holds.lsr.trans (by rw [overrun]), holds, settled⟩

/-- A read of MSR reports the lines, or in loopback mode the bits of MCR, and clears the deltas.
-/
theorem readMsr_spec (plays : Plays s p) (flags : BitVec 32) :
    (s.readMsr flags).1 = (p.readMsr flags).1 ∧
      Plays (s.readMsr flags).2 (p.readMsr flags).2 := by
  have holds := plays.mirrors
  unfold readMsr SerialPort.readMsr
  rw [loop_eq holds]
  by_cases loop : p.loop = true
  · rw [if_pos loop, if_pos loop, holds.mcr]
    exact ⟨rfl, plays⟩
  · rw [if_neg loop, if_neg loop]
    dsimp only
    rw [if_pos holds.poll]
    have polled := updateMsl_mirrors holds flags
    have settled := updateMsl_settled holds plays.settled flags
    generalize s.updateMsl flags = s at polled settled ⊢
    generalize p.modem flags = p at polled settled ⊢
    have found : anyBit s.msr uartMsrAnyDelta = (p.deltas != 0) := by
      rw [polled.msr, msr_deltas]
    rw [found]
    by_cases none : p.deltas = 0
    · have same : { p with deltas := 0 } = p := by rw [← none]
      rw [if_neg (fun moved => bne_iff_ne.1 moved none), same]
      exact ⟨polled.msr, polled, settled⟩
    · rw [if_pos (bne_iff_ne.2 none)]
      have cleared : Mirrors true true [] { s with msr := s.msr &&& 0xF0 } { p with deltas := 0 } :=
        { polled with
          msr := by
            dsimp only
            rw [polled.msr]
            exact clear_deltas _ _ }
      exact ⟨polled.msr, updateIrq_plays cleared⟩

/-- Every read of a register returns what the chip says, and leaves the port as the chip is
left. -/
theorem ioportRead_spec (plays : Plays s p) (addr : Word) (flags : BitVec 32) :
    ∃ after, s.ioportRead addr flags = .ok ((p.read addr flags).1, after) ∧
      Plays after (p.read addr flags).2 := by
  have holds := plays.mirrors
  unfold ioportRead SerialPort.read
  generalize (addr &&& 7).toNat = reg
  rcases reg with _ | _ | _ | _ | _ | _ | _ | _ | reg
  · exact readData_spec plays
  · exact ⟨s, congrArg (fun b => Except.ok (b, s)) (readIer_eq holds), plays⟩
  · obtain ⟨answer, after⟩ := readIir_spec plays
    exact ⟨_, congrArg (fun b => Except.ok (b, s.readIir.2)) answer, after⟩
  · exact ⟨s, congrArg (fun b => Except.ok (b, s)) holds.lcr, plays⟩
  · exact ⟨s, congrArg (fun b => Except.ok (b, s)) holds.mcr, plays⟩
  · obtain ⟨answer, after⟩ := readLsr_spec plays
    exact ⟨_, congrArg (fun b => Except.ok (b, s.readLsr.2)) answer, after⟩
  · obtain ⟨answer, after⟩ := readMsr_spec plays flags
    exact ⟨_, congrArg (fun b => Except.ok (b, (s.readMsr flags).2)) answer, after⟩
  · exact ⟨s, congrArg (fun b => Except.ok (b, s)) holds.scr, plays⟩
  · exact readData_spec plays

/-! ### Bytes from the descriptor -/

/-- The port takes bytes exactly while the window of the chip is open. -/
theorem canReceive_eq (holds : Mirrors true true [] s p) :
    s.canReceive = decide (0 < p.window) := by
  unfold canReceive SerialPort.window
  rw [fifos_eq holds, dr_eq holds]
  by_cases fifos : p.fifos = true
  · have num := recv_count holds fifos
    have trigger : (s.recvFifoItl.setWidth 32).toNat = p.trigger.toNat := by
      rw [holds.trigger, BitVec.toNat_setWidth]
      exact Nat.mod_eq_of_lt (Nat.lt_trans p.trigger.isLt (by decide))
    have below : s.recvFifo.num < uartFifoLength ↔ p.rx.length < 16 := by
      rw [BitVec.lt_def, num]
      rfl
    have within : s.recvFifo.num ≤ s.recvFifoItl.setWidth 32 ↔ p.rx.length ≤ p.trigger.toNat := by
      rw [BitVec.le_def, num, trigger]
    have some : (s.recvFifoItl.setWidth 32 - s.recvFifo.num != 0) = true ↔
        p.rx.length ≠ p.trigger.toNat := by
      rw [bne_iff_ne, Ne, ← BitVec.toNat_inj, BitVec.toNat_sub, num, trigger, ← num]
      have := s.recvFifo.num.isLt
      have := p.trigger.isLt
      change ¬_ % _ = 0 ↔ _
      omega
    rw [if_pos fifos, if_pos fifos, Bool.eq_iff_iff, decide_eq_true_eq]
    simp only [below, within]
    split_ifs with room few
    · rw [some]
      omega
    · exact ⟨fun _ => by omega, fun _ => rfl⟩
    · exact ⟨fun no => no.elim, fun _ => by omega⟩
    · exact ⟨fun no => no.elim, fun _ => by omega⟩
  · rw [if_neg fifos, if_neg fifos, Bool.eq_iff_iff, decide_eq_true_eq, Bool.not_not,
      List.isEmpty_iff, ← List.length_eq_zero_iff]
    omega

/-- One byte comes in where there is room for it, and a queue that holds bytes is timed out. -/
theorem receive1_taken (plays : Plays s p) (room : 0 < p.window) (chr : Byte) :
    ∃ after, s.receive1 chr = .ok after ∧ Plays after.fifoTimeoutInt (p.take [chr]) := by
  obtain ⟨after, ran, mirrors, settled⟩ := receive1_spec plays.mirrors chr
  refine ⟨after, ran, ?_⟩
  unfold SerialPort.window at room
  unfold SerialPort.take
  unfold SerialPort.receive at mirrors settled
  rw [if_neg (List.cons_ne_nil chr [])]
  by_cases fifos : p.fifos = true
  · rw [if_pos fifos] at room mirrors settled ⊢
    rw [if_pos (by split_ifs at room <;> omega)] at mirrors settled
    have count := recv_count mirrors fifos
    rw [List.length_append, List.length_singleton] at count
    have some : after.recvFifo.num ≠ 0 := by
      intro zero
      rw [zero] at count
      exact absurd count.symm (Nat.succ_ne_zero _)
    unfold fifoTimeoutInt
    rw [if_pos (bne_iff_ne.2 some)]
    have timed : Mirrors true true [] { after with timeoutIpending := true }
        { p with rx := p.rx ++ [chr], timeout := true } := { mirrors with timeout := rfl }
    exact updateIrq_plays timed
  · rw [if_neg fifos] at room mirrors settled ⊢
    have empty : p.rx = [] := List.length_eq_zero_iff.1 (by omega)
    have none : (after.recvFifo.num == 0) = true :=
      Fifo8.isEmpty_iff.2 (mirrors.recv.trans (if_neg fifos))
    unfold fifoTimeoutInt
    rw [bne, none, Bool.not_true, if_neg Bool.false_ne_true]
    rw [empty, List.isEmpty_nil, Bool.not_true, Bool.or_false] at mirrors settled
    exact ⟨mirrors, settled⟩

end SerialState

namespace SerialPort

variable {p : SerialPort}

/-- A byte that is taken makes the window smaller by one. -/
theorem window_take (room : 0 < p.window) (chr : Byte) : (p.take [chr]).window = p.window - 1 := by
  unfold window at room ⊢
  unfold take
  rw [if_neg (List.cons_ne_nil chr [])]
  by_cases fifos : p.fifos = true
  · rw [if_pos fifos] at room ⊢
    rw [if_pos fifos]
    change (if p.fifos then (if (p.rx ++ [chr]).length ≤ p.trigger.toNat then min p.trigger.toNat 16
      else 16) - (p.rx ++ [chr]).length else _) = _
    rw [if_pos fifos, List.length_append, List.length_singleton]
    split_ifs at room ⊢ <;> omega
  · rw [if_neg fifos] at room ⊢
    rw [if_neg fifos]
    change (if p.fifos then _ else 1 - [chr].length) = _
    rw [if_neg fifos, List.length_singleton]
    omega

/-- Bytes taken one after the other. -/
theorem take_cons (chr : Byte) (rest : List Byte) :
    p.take (chr :: rest.take (p.window - 1)) = (p.take [chr]).take (rest.take (p.window - 1)) := by
  by_cases fifos : p.fifos = true
  · have first : p.take [chr] = { p with rx := p.rx ++ [chr], timeout := true } := by
      unfold take
      rw [if_neg (List.cons_ne_nil chr []), if_pos fifos]
    rw [first]
    generalize rest.take (p.window - 1) = more
    unfold take
    rw [if_neg (List.cons_ne_nil chr more), if_pos fifos]
    cases more with
    | nil => rfl
    | cons next more =>
        rw [if_neg (List.cons_ne_nil next more)]
        change _ = if p.fifos then _ else _
        rw [if_pos fifos, List.append_assoc]
        rfl
  · -- without queues there is room for one byte
    have one : p.window - 1 = 0 := by
      unfold window
      rw [if_neg fifos]
      omega
    rw [one, List.take_zero]
    rfl

/-- To ask for all there is room for is to ask for one byte, and then for the others. -/
theorem checkIo_cons (room : 0 < p.window) (chr : Byte) (rest : List Byte) (closed : Bool) :
    p.checkIo (chr :: rest) closed = (p.take [chr]).checkIo rest closed := by
  obtain ⟨others, all⟩ := Nat.exists_eq_succ_of_ne_zero (Nat.pos_iff_ne_zero.1 room)
  unfold checkIo
  rw [window_take room, ← take_cons, all, Nat.succ_sub_one, List.drop_succ_cons,
    List.take_succ_cons, List.length_cons, decide_eq_decide.2 Nat.succ_lt_succ_iff]

end SerialPort

namespace SerialState

/-- A poll of the back end hands the port one byte at a time as long as it takes them, which is
what the chip takes at once. -/
theorem checkIo_agrees {s : SerialState} {p : SerialPort} (plays : Plays s p) (unread : List Byte)
    (closed : Bool) :
    Agrees (fun r t => r.1 = t.1 ∧ Plays r.2 t.2) (s.checkIo unread closed)
      (p.checkIo unread closed) := by
  induction unread generalizing s p with
  | nil =>
      unfold checkIo SerialPort.checkIo
      rw [canReceive_eq plays.mirrors, List.length_nil]
      split_ifs
      · exact .stops _
      · refine .returns ⟨List.drop_nil.symm, ?_⟩
        rw [List.take_nil]
        exact plays
  | cons chr rest ih =>
      unfold checkIo
      rw [canReceive_eq plays.mirrors]
      by_cases room : 0 < p.window
      · obtain ⟨after, ran, taken⟩ := receive1_taken plays room chr
        rw [decide_eq_true room, if_pos rfl, ran, SerialPort.checkIo_cons room]
        exact ih taken
      · have none : p.window = 0 := Nat.eq_zero_of_not_pos room
        unfold SerialPort.checkIo
        rw [decide_eq_false room, if_neg Bool.false_ne_true, none]
        exact .returns ⟨rfl, plays⟩

/-! ### Runs -/

variable {s : SerialState} {p : SerialPort}

/-- Without an enabled interrupt none pends. -/
theorem interrupt_none (off : p.ier = 0) : p.interrupt = uartIirNoInt := by
  have none (mask : Byte) : anyBit p.ier mask = false := by
    rw [off, anyBit, show (0 : Byte) &&& mask = 0 from BitVec.zero_and, bne_self_eq_false]
  unfold SerialPort.interrupt
  rw [none, none, none, none]
  rfl

/-- Before `serial_reset` asks for the modem lines, they are DCD, DSR and CTS. -/
theorem resetRegisters_mirrors (recv : s.recvFifo.Valid)
    (recvSize : s.recvFifo.capacity = uartFifoLength)
    (xmit : s.xmitFifo.Valid) (xmitSize : s.xmitFifo.capacity = uartFifoLength)
    (sent : s.sent = []) :
    Mirrors true true [] s.resetRegisters (SerialPort.init s.fcr s.recvFifoItl 11) where
  divider := show (0x0C : BitVec 16) = (0 : Byte) ++ (0x0C : Byte) by decide
  ier := rfl
  ierLow := BitVec.zero_and
  lcr := rfl
  mcr := rfl
  scr := rfl
  fcr := rfl
  trigger := rfl
  shown := show uartIirNoInt &&& 0xF0 = 0 by decide
  msr := show uartMsrDcd ||| uartMsrDsr ||| uartMsrCts = (11 ++ 0 : BitVec (4 + 4)) by decide
  poll := Int.le_refl 0
  lsr := show uartLsrTemt ||| uartLsrThre = lsrOf true true false false by decide
  rbr := rfl
  thri := rfl
  timeout := rfl
  retry := rfl
  recv := (Fifo8.reset_toList _).trans (ite_self _).symm
  recvValid := Fifo8.reset_valid recv
  recvSize := recvSize
  single := fun _ => Nat.zero_le 1
  xmit := Fifo8.reset_toList _
  xmitValid := Fifo8.reset_valid xmit
  xmitSize := xmitSize
  sent := sent

/-- A port that has been reset plays the chip that has been reset, with what was in memory as
its trigger level. -/
theorem init_plays (memory : SerialState) (recv xmit : Nat → Byte) (flags : BitVec 32) :
    Plays (init memory recv xmit flags)
      (.init memory.fcr memory.recvFifoItl (linesOf flags)) := by
  have fifo (data : Nat → Byte) : (Fifo8.create data uartFifoLength).Valid :=
    Fifo8.create_valid data (by decide) (by decide)
  unfold init reset
  dsimp only
  generalize made : { memory with
    recvFifo := Fifo8.create recv uartFifoLength
    xmitFifo := Fifo8.create xmit uartFifoLength
    levels := []
    sent := [] } = s
  have holds : Mirrors true true [] s.resetRegisters
      (.init memory.fcr memory.recvFifoItl 11) := by
    rw [← made]
    exact resetRegisters_mirrors (fifo recv) rfl (fifo xmit) rfl rfl
  have quiet : Settled s.resetRegisters (.init memory.fcr memory.recvFifoItl 11) := by
    refine ⟨?_, ?_⟩
    · rw [SerialPort.iir, interrupt_none rfl]
      exact show uartIirNoInt = uartIirNoInt ||| 0 by decide
    · rw [interrupt_none rfl]
      exact List.getLast?_concat
  have moved := updateMsl_mirrors holds flags
  have settled := updateMsl_settled holds quiet flags
  have port : SerialPort.init memory.fcr memory.recvFifoItl (linesOf flags) =
      { SerialPort.modem (.init memory.fcr memory.recvFifoItl 11) flags with deltas := 0 } := by
    unfold SerialPort.modem
    split_ifs with same
    · rw [same]
      rfl
    all_goals rfl
  have off : (SerialPort.modem (.init memory.fcr memory.recvFifoItl 11) flags).ier = 0 := by
    unfold SerialPort.modem
    split_ifs <;> rfl
  rw [port]
  refine ⟨{ moved with msr := ?_ }, settled.of_interrupt rfl rfl rfl ?_⟩
  · dsimp only
    rw [moved.msr]
    exact clear_deltas _ _
  · rw [interrupt_none off]
    exact interrupt_none off

/-- The chip and its port on one line. -/
structure OnLine (s : SerialLine SerialState) (t : SerialLine SerialPort) : Prop where
  plays : Plays s.chip t.chip
  unread : s.unread = t.unread
  answers : s.answers = t.answers

/-- Each event on the line does the same to the port and to the chip, and both see the same
bytes and the same interrupt. -/
theorem step_agrees {s : SerialLine SerialState} {t : SerialLine SerialPort} (on : OnLine s t)
    (e : SerialEvent) : Agrees OnLine (SerialState.step s e) (SerialPort.step t e) := by
  obtain ⟨plays, unread, answers⟩ := on
  cases e with
  | read addr flags =>
      obtain ⟨after, ran, plays⟩ := ioportRead_spec plays addr flags
      unfold SerialState.step
      dsimp only
      rw [ran, answers]
      exact .returns ⟨plays, unread, rfl⟩
  | write addr val size flags =>
      obtain ⟨after, ran, plays⟩ := ioportWrite_spec plays addr val size flags
      unfold SerialState.step
      dsimp only
      rw [ran]
      exact .returns ⟨plays, unread, answers⟩
  | arrive chrs => exact .returns ⟨plays, congrArg (· ++ chrs) unread, answers⟩
  | checkIo closed =>
      unfold SerialState.step SerialPort.step
      dsimp only
      rw [unread]
      refine (checkIo_agrees plays t.unread closed).bind ?_
      intro r r' left
      exact .returns ⟨left.2, left.1, answers⟩

/-- From power on, whatever the memory held: the chip answers, sends, takes bytes and drives its
line as the port does, and stops where the port stops. The port has no transmitter registers, as
`serial_xmit` sends a byte in the call that brings it; `Mirrors` is the simulation, and it holds
in the middle of a transmission too. -/
theorem run_refine (memory : SerialState) (recv xmit : Nat → Byte) (flags : BitVec 32)
    (events : List SerialEvent) :
    Agrees OnLine (runSteps SerialState.step ⟨init memory recv xmit flags, [], []⟩ events)
      (runSteps SerialPort.step
        ⟨SerialPort.init memory.fcr memory.recvFifoItl (linesOf flags), [], []⟩ events) := by
  have start : OnLine ⟨init memory recv xmit flags, [], []⟩
      ⟨SerialPort.init memory.fcr memory.recvFifoItl (linesOf flags), [], []⟩ :=
    ⟨init_plays memory recv xmit flags, rfl, rfl⟩
  refine agrees_runSteps start events ?_
  intro s t e _ on
  exact step_agrees on e

end SerialState

end CPUDelaySim
