import CPUDelaySim.Device.Fifo8

/-!
# The serial chip

`device/serial.cpp`, a 16550A.  What leaves the chip is kept in two histories: the levels it drives
its interrupt line to, and the bytes it writes to its descriptor.

`serial_update_msl` reads a local that nothing initialises, so its value is a parameter of every
call that gets there.  `simple_serial_init` leaves what `malloc` returned in the members that
`serial_reset` does not write.
-/

namespace CPUDelaySim

def uartLcrDlab : Byte := 0x80

def uartIerMsi : Byte := 0x08
def uartIerRlsi : Byte := 0x04
def uartIerThri : Byte := 0x02
def uartIerRdi : Byte := 0x01

def uartIirNoInt : Byte := 0x01
def uartIirId : Byte := 0x06
def uartIirMsi : Byte := 0x00
def uartIirThri : Byte := 0x02
def uartIirRdi : Byte := 0x04
def uartIirRlsi : Byte := 0x06
def uartIirCti : Byte := 0x0C
def uartIirFe : Byte := 0xC0

def uartMcrLoop : Byte := 0x10
def uartMcrOut2 : Byte := 0x08

def uartMsrDcd : Byte := 0x80
def uartMsrRi : Byte := 0x40
def uartMsrDsr : Byte := 0x20
def uartMsrCts : Byte := 0x10
def uartMsrTeri : Byte := 0x04
def uartMsrAnyDelta : Byte := 0x0F

def uartLsrTemt : Byte := 0x40
def uartLsrThre : Byte := 0x20
def uartLsrBi : Byte := 0x10
def uartLsrOe : Byte := 0x02
def uartLsrDr : Byte := 0x01
def uartLsrIntAny : Byte := 0x1E

def uartFcrXfr : Byte := 0x04
def uartFcrRfr : Byte := 0x02
def uartFcrFe : Byte := 0x01

def chrTiocmCts : BitVec 32 := 0x020
def chrTiocmCar : BitVec 32 := 0x040
def chrTiocmDsr : BitVec 32 := 0x100
def chrTiocmRi : BitVec 32 := 0x080

def uartFifoLength : BitVec 32 := 16

/-- `v & mask` as a condition. -/
def anyBit (v mask : Byte) : Bool := v &&& mask != 0

/-- The ways a call on the chip does not return. -/
inductive SerialStop
  /-- What stops any call of the simulator. -/
  | aborts (why : Abort)
  /-- `abort` after a read of the descriptor. -/
  | readFails
  /-- A loop of the model is out of turns. -/
  | spins

/-- `SerialState`, as far as the registers go.  `levels` and `sent` are the histories. -/
structure SerialState where
  divider : BitVec 16
  rbr : Byte
  thr : Byte
  tsr : Byte
  ier : Byte
  iir : Byte
  lcr : Byte
  mcr : Byte
  lsr : Byte
  msr : Byte
  scr : Byte
  fcr : Byte
  thrIpending : Bool
  lastBreakEnable : Bool
  tsrRetry : BitVec 32
  recvFifo : Fifo8
  xmitFifo : Fifo8
  recvFifoItl : Byte
  timeoutIpending : Bool
  pollMsl : Int
  levels : List Bool
  sent : List Byte

namespace SerialState

/-- A call on one of the queues. -/
def onFifo {α : Type} (r : Except Abort α) : Except SerialStop α := r.mapError .aborts

/-- `assert`. -/
def assert (c : Bool) : Except SerialStop Unit :=
  if c then .ok () else .error (.aborts .assertFail)

/-- `recv_fifo_put`. -/
def recvFifoPut (s : SerialState) (chr : Byte) : Except SerialStop SerialState :=
  if !s.recvFifo.isFull then do
    let fifo ← onFifo (s.recvFifo.push chr)
    return { s with recvFifo := fifo }
  else return { s with lsr := s.lsr ||| uartLsrOe }

/-- `tmp_iir` of `serial_update_irq`. -/
def tmpIir (s : SerialState) : Byte :=
  if anyBit s.ier uartIerRlsi && anyBit s.lsr uartLsrIntAny then uartIirRlsi
  else if anyBit s.ier uartIerRdi && s.timeoutIpending then uartIirCti
  else if anyBit s.ier uartIerRdi && anyBit s.lsr uartLsrDr &&
      (!anyBit s.fcr uartFcrFe || decide (s.recvFifoItl.setWidth 32 ≤ s.recvFifo.num)) then
    uartIirRdi
  else if anyBit s.ier uartIerThri && s.thrIpending then uartIirThri
  else if anyBit s.ier uartIerMsi && anyBit s.msr uartMsrAnyDelta then uartIirMsi
  else uartIirNoInt

/-- `serial_update_irq`. -/
def updateIrq (s : SerialState) : SerialState :=
  { s with
    iir := s.tmpIir ||| (s.iir &&& 0xF0)
    levels := s.levels ++ [s.tmpIir != uartIirNoInt] }

/-- `s->msr = (flags & line) ? s->msr | bit : s->msr & ~bit`. -/
def modemLine (flags line : BitVec 32) (bit msr : Byte) : Byte :=
  if flags &&& line != 0 then msr ||| bit else msr &&& ~~~bit

/-- The four lines as `serial_update_msl` writes them. -/
def modemLines (flags : BitVec 32) (msr : Byte) : Byte :=
  modemLine flags chrTiocmRi uartMsrRi
    (modemLine flags chrTiocmCar uartMsrDcd
      (modemLine flags chrTiocmDsr uartMsrDsr
        (modemLine flags chrTiocmCts uartMsrCts msr)))

/-- The delta bits as `serial_update_msl` writes them, from the lines before. -/
def modemDeltas (omsr msr : Byte) : Byte :=
  let msr := msr ||| ((msr >>> 4) ^^^ (omsr >>> 4))
  if anyBit msr uartMsrTeri && !anyBit omsr uartMsrRi then msr &&& ~~~uartMsrTeri else msr

/-- `serial_update_msl`. -/
def updateMsl (s : SerialState) (flags : BitVec 32) : SerialState :=
  let msr := modemLines flags s.msr
  if msr != s.msr then { s with msr := modemDeltas s.msr msr }.updateIrq else { s with msr := msr }

/-- `serial_receive1`; every caller hands it one byte. -/
def receive1 (s : SerialState) (chr : Byte) : Except SerialStop SerialState :=
  if anyBit s.fcr uartFcrFe then do
    let s ← s.recvFifoPut chr
    return { s with lsr := s.lsr ||| uartLsrDr }.updateIrq
  else
    let lsr := if anyBit s.lsr uartLsrDr then s.lsr ||| uartLsrOe else s.lsr
    return { s with rbr := chr, lsr := lsr ||| uartLsrDr }.updateIrq

/-- `serial_xmit`, from the queue or the holding register to the shift register. -/
def fetchTsr (s : SerialState) : Except SerialStop SerialState :=
  if anyBit s.fcr uartFcrFe then do
    assert !s.xmitFifo.isEmpty
    let r ← onFifo s.xmitFifo.pop
    return { s with
      tsr := r.1
      xmitFifo := r.2
      lsr := if r.2.num == 0 then s.lsr ||| uartLsrThre else s.lsr }
  else return { s with tsr := s.thr, lsr := s.lsr ||| uartLsrThre }

/-- `serial_xmit`, where no byte was kept for a retry. -/
def loadTsr (s : SerialState) : Except SerialStop SerialState := do
  assert !anyBit s.lsr uartLsrThre
  let s ← s.fetchTsr
  if anyBit s.lsr uartLsrThre && !s.thrIpending then return { s with thrIpending := true }.updateIrq
  else return s

/-- One turn of `serial_xmit`. -/
def xmitTurn (s : SerialState) : Except SerialStop SerialState := do
  assert !anyBit s.lsr uartLsrTemt
  let s ← if s.tsrRetry == 0 then s.loadTsr else pure s
  let s ←
    if anyBit s.mcr uartMcrLoop then s.receive1 s.tsr
    else pure { s with sent := s.sent ++ [s.tsr] }
  return { s with tsrRetry := 0 }

/-- The loop of `serial_xmit`. -/
def xmitLoop (s : SerialState) : Nat → Except SerialStop SerialState
  | 0 => .error .spins
  | turns + 1 => do
      let s ← s.xmitTurn
      if !anyBit s.lsr uartLsrThre then s.xmitLoop turns
      else return { s with lsr := s.lsr ||| uartLsrTemt }

/-- `serial_xmit`: a turn for each byte that waits, and one for a byte that was kept. -/
def xmit (s : SerialState) : Except SerialStop SerialState := s.xmitLoop (s.xmitFifo.num.toNat + 2)

/-- `serial_write_fcr`. -/
def writeFcr (s : SerialState) (val : Byte) : SerialState :=
  if anyBit val uartFcrFe then
    { s with
      fcr := val
      iir := s.iir ||| uartIirFe
      recvFifoItl :=
        if val &&& 0xC0 = 0x00 then 1
        else if val &&& 0xC0 = 0x40 then 4
        else if val &&& 0xC0 = 0x80 then 8
        else 14 }
  else { s with fcr := val, iir := s.iir &&& ~~~uartIirFe }

/-! ### `serial_ioport_write`

`val` has 64 bits, and the registers but the divider take its low byte. -/

/-- `case 0`, as far as the queue goes. -/
def queueThr (s : SerialState) : Except SerialStop SerialState :=
  if anyBit s.fcr uartFcrFe then do
    let fifo ←
      if s.xmitFifo.isFull then (fun r => r.2) <$> onFifo s.xmitFifo.pop else pure s.xmitFifo
    let fifo ← onFifo (fifo.push s.thr)
    return { s with xmitFifo := fifo }
  else return s

/-- `case 0`. -/
def writeData (s : SerialState) (val : Word) (size : Nat) : Except SerialStop SerialState :=
  if anyBit s.lcr uartLcrDlab then
    return { s with
      divider := if size = 1 then (s.divider &&& 0xff00) ||| val.setWidth 16 else val.setWidth 16 }
  else do
    let s ← { s with thr := val.setWidth 8 }.queueThr
    let s := { s with
      thrIpending := false
      lsr := (s.lsr &&& ~~~uartLsrThre) &&& ~~~uartLsrTemt }.updateIrq
    if s.tsrRetry == 0 then s.xmit else return s

/-- `case 1`, as far as the modem lines go. -/
def pollOnIer (s : SerialState) (changed : Byte) (flags : BitVec 32) : SerialState :=
  if anyBit changed uartIerMsi && decide (0 ≤ s.pollMsl) then
    if anyBit s.ier uartIerMsi then { s with pollMsl := 1 }.updateMsl flags
    else { s with pollMsl := 0 }
  else s

/-- `case 1`, as far as the transmitter goes. -/
def armOnIer (s : SerialState) (changed : Byte) : SerialState :=
  if anyBit changed uartIerThri then
    { s with thrIpending := anyBit s.ier uartIerThri && anyBit s.lsr uartLsrThre }
  else s

/-- `case 1`. -/
def writeIer (s : SerialState) (val : Word) (flags : BitVec 32) : SerialState :=
  if anyBit s.lcr uartLcrDlab then
    { s with divider := (s.divider &&& (0x00ff : BitVec 16)) ||| (val.setWidth 16 <<< 8) }
  else
    let changed := (s.ier ^^^ val.setWidth 8) &&& 0x0f
    let s := { s with ier := val.setWidth 8 &&& 0x0f }
    let s := s.pollOnIer changed flags
    let s := s.armOnIer changed
    if changed != 0 then s.updateIrq else s

/-- `case 2`, for `UART_FCR_RFR`. -/
def clearRecv (s : SerialState) (val : Byte) : SerialState :=
  if anyBit val uartFcrRfr then
    { s with
      lsr := s.lsr &&& ~~~(uartLsrDr ||| uartLsrBi)
      timeoutIpending := false
      recvFifo := s.recvFifo.reset }
  else s

/-- `case 2`, for `UART_FCR_XFR`. -/
def clearXmit (s : SerialState) (val : Byte) : SerialState :=
  if anyBit val uartFcrXfr then
    { s with lsr := s.lsr ||| uartLsrThre, thrIpending := true, xmitFifo := s.xmitFifo.reset }
  else s

/-- `case 2`. -/
def writeFifoControl (s : SerialState) (val : Word) : SerialState :=
  let val := val.setWidth 8
  let val := if anyBit (val ^^^ s.fcr) uartFcrFe then val ||| (uartFcrXfr ||| uartFcrRfr) else val
  (((s.clearRecv val).clearXmit val).writeFcr (val &&& 0xC9)).updateIrq

/-- `case 3`. -/
def writeLcr (s : SerialState) (val : Word) : SerialState :=
  let s := { s with lcr := val.setWidth 8 }
  let breakEnable := (val >>> 6) &&& 1 != 0
  if breakEnable != s.lastBreakEnable then { s with lastBreakEnable := breakEnable } else s

/-- `serial_ioport_write`.  The calls of `serial_update_tiocm` in `case 4` change nothing. -/
def ioportWrite (s : SerialState) (addr val : Word) (size : Nat) (flags : BitVec 32) :
    Except SerialStop SerialState :=
  match (addr &&& 7).toNat with
  | 1 => return s.writeIer val flags
  | 2 => return s.writeFifoControl val
  | 3 => return s.writeLcr val
  | 4 => return { s with mcr := val.setWidth 8 &&& 0x1f }
  | 5 => return s
  | 6 => return s
  | 7 => return { s with scr := val.setWidth 8 }
  | _ => s.writeData val size

/-! ### `serial_ioport_read` -/

/-- `case 0`, up to the interrupt. -/
def takeRbr (s : SerialState) : Except SerialStop (Byte × SerialState) :=
  if anyBit s.fcr uartFcrFe then do
    let r ← if s.recvFifo.isEmpty then pure (0, s.recvFifo) else onFifo s.recvFifo.pop
    return (r.1, { s with
      recvFifo := r.2
      lsr := if r.2.num == 0 then s.lsr &&& ~~~(uartLsrDr ||| uartLsrBi) else s.lsr
      timeoutIpending := false })
  else return (s.rbr, { s with lsr := s.lsr &&& ~~~(uartLsrDr ||| uartLsrBi) })

/-- `case 0`. -/
def readData (s : SerialState) : Except SerialStop (Byte × SerialState) :=
  if anyBit s.lcr uartLcrDlab then return ((s.divider &&& 0xff).setWidth 8, s)
  else do
    let r ← s.takeRbr
    return (r.1, r.2.updateIrq)

/-- `case 1`. -/
def readIer (s : SerialState) : Byte :=
  if anyBit s.lcr uartLcrDlab then ((s.divider >>> 8) &&& 0xff).setWidth 8 else s.ier

/-- `case 2`. -/
def readIir (s : SerialState) : Byte × SerialState :=
  if s.iir &&& uartIirId = uartIirThri then (s.iir, { s with thrIpending := false }.updateIrq)
  else (s.iir, s)

/-- `case 5`. -/
def readLsr (s : SerialState) : Byte × SerialState :=
  if anyBit s.lsr (uartLsrBi ||| uartLsrOe) then
    (s.lsr, { s with lsr := s.lsr &&& ~~~(uartLsrBi ||| uartLsrOe) }.updateIrq)
  else (s.lsr, s)

/-- `case 6`. -/
def readMsr (s : SerialState) (flags : BitVec 32) : Byte × SerialState :=
  if anyBit s.mcr uartMcrLoop then
    (((s.mcr &&& 0x0c) <<< 4) ||| ((s.mcr &&& 0x02) <<< 3) ||| ((s.mcr &&& 0x01) <<< 5), s)
  else
    let s := if 0 ≤ s.pollMsl then s.updateMsl flags else s
    if anyBit s.msr uartMsrAnyDelta then (s.msr, { s with msr := s.msr &&& 0xF0 }.updateIrq)
    else (s.msr, s)

/-- `serial_ioport_read`. -/
def ioportRead (s : SerialState) (addr : Word) (flags : BitVec 32) :
    Except SerialStop (Byte × SerialState) :=
  match (addr &&& 7).toNat with
  | 1 => return (s.readIer, s)
  | 2 => return s.readIir
  | 3 => return (s.lcr, s)
  | 4 => return (s.mcr, s)
  | 5 => return s.readLsr
  | 6 => return s.readMsr flags
  | 7 => return (s.scr, s)
  | _ => s.readData

/-! ### Bytes from the descriptor -/

/-- `serial_can_receive`. -/
def canReceive (s : SerialState) : Bool :=
  if anyBit s.fcr uartFcrFe then
    if s.recvFifo.num < uartFifoLength then
      if s.recvFifo.num ≤ s.recvFifoItl.setWidth 32 then
        s.recvFifoItl.setWidth 32 - s.recvFifo.num != 0
      else true
    else false
  else !anyBit s.lsr uartLsrDr

/-- `fifo_timeout_int`. -/
def fifoTimeoutInt (s : SerialState) : SerialState :=
  if s.recvFifo.num != 0 then { s with timeoutIpending := true }.updateIrq else s

/-- `serial_check_io`, where the reads find `waiting`, and after it nothing yet or an error.
Returns what it leaves. -/
def checkIo (s : SerialState) (waiting : List Byte) (closed : Bool) :
    Except SerialStop (List Byte × SerialState) :=
  match waiting with
  | [] => if s.canReceive && closed then .error .readFails else .ok ([], s)
  | chr :: waiting =>
      if s.canReceive then do
        let s ← s.receive1 chr
        s.fifoTimeoutInt.checkIo waiting closed
      else .ok (chr :: waiting, s)

/-! ### Power on -/

/-- `serial_reset`, up to `serial_update_msl`. -/
def resetRegisters (s : SerialState) : SerialState :=
  { s with
    rbr := 0
    ier := 0
    iir := uartIirNoInt
    lcr := 0
    lsr := uartLsrTemt ||| uartLsrThre
    msr := uartMsrDcd ||| uartMsrDsr ||| uartMsrCts
    divider := 0x0C
    mcr := uartMcrOut2
    scr := 0
    tsrRetry := 0
    pollMsl := 0
    timeoutIpending := false
    recvFifo := s.recvFifo.reset
    xmitFifo := s.xmitFifo.reset
    thrIpending := false
    lastBreakEnable := false
    levels := s.levels ++ [false] }

/-- `serial_reset`. -/
def reset (s : SerialState) (flags : BitVec 32) : SerialState :=
  let s := s.resetRegisters.updateMsl flags
  { s with msr := s.msr &&& ~~~uartMsrAnyDelta }

/-- `simple_serial_init`, with the memory that `malloc` returns for the state and for the queues. -/
def init (memory : SerialState) (recv xmit : Nat → Byte) (flags : BitVec 32) : SerialState :=
  { memory with
    recvFifo := .create recv uartFifoLength
    xmitFifo := .create xmit uartFifoLength
    levels := []
    sent := [] }.reset flags

end SerialState

end CPUDelaySim
