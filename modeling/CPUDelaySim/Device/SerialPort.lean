import CPUDelaySim.Device.Serial

/-!
# The serial port behind the chip

What the chip does for the program that drives its registers.  A port has no transmitter registers:
a byte written to it is sent at once, or comes back in loopback mode.  Its line status and its
interrupt are read off what it holds, and are no registers either.

`SerialState.run_refine` says that the chip is the port in every run: every read answers the same
byte, the same bytes are sent, in order, and the interrupt line is up exactly while an interrupt
pends.  No assertion of the chip fails on the way, and its loops end.
-/

namespace CPUDelaySim

/-- A serial port. -/
structure SerialPort where
  dll : Byte
  dlm : Byte
  ier : Byte
  lcr : Byte
  mcr : Byte
  scr : Byte
  fcr : Byte
  /-- How many bytes the receiver collects before it interrupts. -/
  trigger : Byte
  /-- The interrupt register says that there are queues. -/
  fifosShown : Bool
  /-- The modem lines, as DCD, RI, DSR and CTS. -/
  lines : BitVec 4
  /-- The lines that have moved since the last read of them. -/
  deltas : BitVec 4
  /-- The bytes received and not read. -/
  rx : List Byte
  /-- The byte received last without queues. -/
  rbr : Byte
  overrun : Bool
  thri : Bool
  timeout : Bool
  sent : List Byte

namespace SerialPort

/-- The FIFOs are on. -/
def fifos (p : SerialPort) : Bool := anyBit p.fcr uartFcrFe

/-- The divisor is selected. -/
def dlab (p : SerialPort) : Bool := anyBit p.lcr uartLcrDlab

/-- The loopback is on. -/
def loop (p : SerialPort) : Bool := anyBit p.mcr uartMcrLoop

/-- The interrupt that pends, by priority. -/
def interrupt (p : SerialPort) : Byte :=
  if anyBit p.ier uartIerRlsi && p.overrun then uartIirRlsi
  else if anyBit p.ier uartIerRdi && p.timeout then uartIirCti
  else if anyBit p.ier uartIerRdi && !p.rx.isEmpty &&
      (!p.fifos || decide (p.trigger.toNat ≤ p.rx.length)) then uartIirRdi
  else if anyBit p.ier uartIerThri && p.thri then uartIirThri
  else if anyBit p.ier uartIerMsi && p.deltas != 0 then uartIirMsi
  else uartIirNoInt

/-- The interrupt register. -/
def iir (p : SerialPort) : Byte := p.interrupt ||| (if p.fifosShown then uartIirFe else 0)

/-- The line status: the two transmitter bits, overrun and data ready. -/
def lsrOf (temt thre oe dr : Bool) : Byte :=
  (if temt then uartLsrTemt else 0) ||| (if thre then uartLsrThre else 0) |||
    (if oe then uartLsrOe else 0) ||| (if dr then uartLsrDr else 0)

/-- The lines that the host drives. -/
def linesOf (flags : BitVec 32) : BitVec 4 :=
  BitVec.ofBool (flags &&& chrTiocmCar != 0) ++ BitVec.ofBool (flags &&& chrTiocmRi != 0) ++
    BitVec.ofBool (flags &&& chrTiocmDsr != 0) ++ BitVec.ofBool (flags &&& chrTiocmCts != 0)

/-- The lines move.  RI counts when it goes down. -/
def modem (p : SerialPort) (flags : BitVec 32) : SerialPort :=
  if linesOf flags = p.lines then p
  else
    let moved := p.deltas ||| (linesOf flags ^^^ p.lines)
    { p with
      lines := linesOf flags
      deltas := if p.lines &&& 4 = 0 then moved &&& 11 else moved }

/-- A byte comes in.  A full queue keeps what it has, and without queues the new byte stays. -/
def receive (p : SerialPort) (chr : Byte) : SerialPort :=
  if p.fifos then
    if p.rx.length < 16 then { p with rx := p.rx ++ [chr] } else { p with overrun := true }
  else { p with rx := [chr], rbr := chr, overrun := p.overrun || !p.rx.isEmpty }

/-- A byte goes out. -/
def transmit (p : SerialPort) (chr : Byte) : SerialPort :=
  if p.loop then { p with thri := true }.receive chr
  else { p with thri := true, sent := p.sent ++ [chr] }

/-- How many bytes the port takes from the host. -/
def window (p : SerialPort) : Nat :=
  if p.fifos then
    (if p.rx.length ≤ p.trigger.toNat then min p.trigger.toNat 16 else 16) - p.rx.length
  else 1 - p.rx.length

/-- Bytes from the host, as many as there is room for. -/
def take (p : SerialPort) (chrs : List Byte) : SerialPort :=
  if chrs = [] then p
  else if p.fifos then { p with rx := p.rx ++ chrs, timeout := true }
  else { p with rx := chrs, rbr := chrs.headD p.rbr }

/-! ### The registers -/

/-- The queues are switched, cleared and given a trigger. -/
def writeFifoControl (p : SerialPort) (val : Byte) : SerialPort :=
  let switched := anyBit (val ^^^ p.fcr) uartFcrFe
  let emptied := switched || anyBit val uartFcrRfr
  let kept := val &&& 0xC9
  { p with
    fcr := kept
    fifosShown := anyBit kept uartFcrFe
    trigger :=
      if anyBit kept uartFcrFe then [1, 4, 8, 14].getD (kept >>> 6).toNat 0 else p.trigger
    rx := if emptied then [] else p.rx
    timeout := p.timeout && !emptied
    thri := p.thri || (switched || anyBit val uartFcrXfr) }

/-- The lines are polled when their interrupt is turned on. -/
def pollOn (p : SerialPort) (turned : Byte) (flags : BitVec 32) : SerialPort :=
  if anyBit turned uartIerMsi && anyBit p.ier uartIerMsi then p.modem flags else p

/-- The transmitter is always empty, so to turn its interrupt on makes it pend. -/
def armOn (p : SerialPort) (turned : Byte) : SerialPort :=
  { p with thri := if anyBit turned uartIerThri then anyBit p.ier uartIerThri else p.thri }

/-- Interrupts are enabled. -/
def writeIer (p : SerialPort) (val : Byte) (flags : BitVec 32) : SerialPort :=
  let turned := (p.ier ^^^ val) &&& 0x0f
  ({ p with ier := val &&& 0x0f }.pollOn turned flags).armOn turned

/-- A byte is written. -/
def writeData (p : SerialPort) (val : Word) (size : Nat) : SerialPort :=
  if p.dlab then
    { p with
      dll := val.setWidth 8
      dlm := (if size = 1 then p.dlm else 0) ||| val.extractLsb' 8 8 }
  else p.transmit (val.setWidth 8)

/-- A write of a register. -/
def write (p : SerialPort) (addr val : Word) (size : Nat) (flags : BitVec 32) : SerialPort :=
  let byte := val.setWidth 8
  match (addr &&& 7).toNat with
  | 1 => if p.dlab then { p with dlm := byte } else p.writeIer byte flags
  | 2 => p.writeFifoControl byte
  | 3 => { p with lcr := byte }
  | 4 => { p with mcr := byte &&& 0x1f }
  | 5 => p
  | 6 => p
  | 7 => { p with scr := byte }
  | _ => p.writeData val size

/-- A byte is read. -/
def readData (p : SerialPort) : Byte × SerialPort :=
  if p.fifos then (p.rx.headD 0, { p with rx := p.rx.tail, timeout := false })
  else (p.rbr, { p with rx := [] })

/-- A read of the modem status. -/
def readMsr (p : SerialPort) (flags : BitVec 32) : Byte × SerialPort :=
  if p.loop then
    (((p.mcr &&& 0x0c) <<< 4) ||| ((p.mcr &&& 0x02) <<< 3) ||| ((p.mcr &&& 0x01) <<< 5), p)
  else ((p.modem flags).lines ++ (p.modem flags).deltas, { p.modem flags with deltas := 0 })

/-- A read of a register. -/
def read (p : SerialPort) (addr : Word) (flags : BitVec 32) : Byte × SerialPort :=
  match (addr &&& 7).toNat with
  | 1 => (if p.dlab then p.dlm else p.ier, p)
  | 2 => (p.iir, if p.interrupt = uartIirThri then { p with thri := false } else p)
  | 3 => (p.lcr, p)
  | 4 => (p.mcr, p)
  | 5 => (lsrOf true true p.overrun !p.rx.isEmpty, { p with overrun := false })
  | 6 => p.readMsr flags
  | 7 => (p.scr, p)
  | _ => if p.dlab then (p.dll, p) else p.readData

/-- The host is asked for bytes.  It may have less than there is room for, and then it may be at its
end. -/
def checkIo (p : SerialPort) (unread : List Byte) (closed : Bool) :
    Except SerialStop (List Byte × SerialPort) :=
  if unread.length < p.window && closed then .error .readFails
  else .ok (unread.drop p.window, p.take (unread.take p.window))

/-- Power on, with the two registers that keep what they had. -/
def init (fcr trigger : Byte) (lines : BitVec 4) : SerialPort where
  dll := 0x0C
  dlm := 0
  ier := 0
  lcr := 0
  mcr := uartMcrOut2
  scr := 0
  fcr := fcr
  trigger := trigger
  fifosShown := false
  lines := lines
  deltas := 0
  rx := []
  rbr := 0
  overrun := false
  thri := false
  timeout := false
  sent := []

end SerialPort

/-! ### Runs -/

/-- A chip or a port, what its descriptor holds unread, and what the reads have answered. -/
structure SerialLine (σ : Type) where
  chip : σ
  unread : List Byte
  answers : List Byte

/-- What happens to a line.  The levels of the modem are those the call finds. -/
inductive SerialEvent
  | read (addr : Word) (flags : BitVec 32)
  | write (addr val : Word) (size : Nat) (flags : BitVec 32)
  | arrive (chrs : List Byte)
  | checkIo (closed : Bool)

/-- The event on the chip. -/
def SerialState.step (s : SerialLine SerialState) :
    SerialEvent → Except SerialStop (SerialLine SerialState)
  | .read addr flags => do
      let r ← s.chip.ioportRead addr flags
      return { s with chip := r.2, answers := s.answers ++ [r.1] }
  | .write addr val size flags => do
      let chip ← s.chip.ioportWrite addr val size flags
      return { s with chip := chip }
  | .arrive chrs => return { s with unread := s.unread ++ chrs }
  | .checkIo closed => do
      let r ← s.chip.checkIo s.unread closed
      return { s with chip := r.2, unread := r.1 }

/-- The event on the port. -/
def SerialPort.step (t : SerialLine SerialPort) :
    SerialEvent → Except SerialStop (SerialLine SerialPort)
  | .read addr flags =>
      .ok { t with
        chip := (t.chip.read addr flags).2, answers := t.answers ++ [(t.chip.read addr flags).1] }
  | .write addr val size flags => .ok { t with chip := t.chip.write addr val size flags }
  | .arrive chrs => .ok { t with unread := t.unread ++ chrs }
  | .checkIo closed => do
      let r ← t.chip.checkIo t.unread closed
      return { t with chip := r.2, unread := r.1 }

end CPUDelaySim
