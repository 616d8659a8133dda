import CPUDelaySim.Cache.Memory

/-!
# The devices of the memory map and their interrupt lines

The interrupt handler keeps one vector of lines.  A device that changes its line calls
`setIrqState`, which hands the whole vector to the listener, so a device access as
`Memory` sees it publishes a vector exactly when some line was driven.

The CLINT is modelled register by register.  The other devices share a state `σ` of
their own and are known by the bytes they exchange and the lines they drive; `Uart` is
the one that drives any, with the serial chip behind it as a parameter.  How the devices
take and answer the requests of the caches is modelled apart.
-/

namespace CPUDelaySim.Mmio

/-! ### `IrqHandler` -/

/-- A line number: `1 << irqnumber` is an `int` shift, defined below 32. -/
abbrev Line := Fin 32

instance neZeroThirtyTwo : NeZero 32 := ⟨by decide⟩

/-- `1 << irqnumber`, widened to 64 bits. -/
def irqShift (n : Line) : Word := (1#32 <<< n.val).signExtend 64

/-- The mask of a line is its bit, for the lines below 31. -/
theorem irqShift_getLsbD (n : Line) {k : Nat} (low : k < 31) :
    (irqShift n).getLsbD k = decide (k = n.val) := by
  have bound := n.isLt
  rw [irqShift, BitVec.getLsbD_signExtend, BitVec.getLsbD_shiftLeft, BitVec.getLsbD_one]
  simp only [show k < 64 by omega, show k < 32 by omega, decide_true, Bool.true_and, if_true]
  by_cases same : k = n.val
  · subst same
    simp
  · rw [decide_eq_false same]
    by_cases below : k < n.val
    · simp [below]
    · simp only [below, decide_false, Bool.not_false, Bool.true_and, Bool.and_eq_false_iff,
        decide_eq_false_iff_not]
      exact .inr (by omega)

/-- `IrqHandler`.  `levels` is a history of the calls of `setIrqState`, the latest first;
nothing reads it. -/
structure IrqHandler where
  irq : Word
  levels : List (Line × Bool)

namespace IrqHandler

/-- No line is up. -/
def init : IrqHandler := ⟨0, []⟩

/-- `setIrqState`, up to the call of the listeners. -/
def setIrqState (h : IrqHandler) (irqnumber : Line) (state : Bool) : IrqHandler where
  irq := if state then h.irq ||| irqShift irqnumber else h.irq &&& ~~~irqShift irqnumber
  levels := (irqnumber, state) :: h.levels

/-- The calls of `setIrqState` that a device makes in one go. -/
def drive (h : IrqHandler) (levels : List (Line × Bool)) : IrqHandler :=
  levels.foldl (fun h l => h.setIrqState l.1 l.2) h

/-- What the listener is left with: the last vector it was called with. -/
def published (h : IrqHandler) (levels : List (Line × Bool)) : Option Word :=
  if levels = [] then none else some (h.drive levels).irq

/-- A call moves the bit of its line, which goes to the level. -/
theorem setIrqState_getLsbD (h : IrqHandler) (n : Line) (state : Bool) {k : Nat}
    (low : k < 31) :
    (h.setIrqState n state).irq.getLsbD k = if k = n.val then state else h.irq.getLsbD k := by
  have bit := irqShift_getLsbD n low
  cases state with
  | true =>
      simp only [setIrqState, if_true, BitVec.getLsbD_or, bit]
      by_cases same : k = n.val <;> simp [same]
  | false =>
      simp only [setIrqState, Bool.false_eq_true, if_false, BitVec.getLsbD_and,
        BitVec.getLsbD_not, bit, show k < 64 by omega, decide_true, Bool.true_and]
      by_cases same : k = n.val <;> simp [same]

/-- One level after the other. -/
@[simp] theorem drive_cons (h : IrqHandler) (l : Line × Bool) (levels : List (Line × Bool)) :
    h.drive (l :: levels) = (h.setIrqState l.1 l.2).drive levels := rfl

/-- The history grows by the calls. -/
theorem drive_levels (h : IrqHandler) (levels : List (Line × Bool)) :
    (h.drive levels).levels = levels.reverse ++ h.levels := by
  induction levels generalizing h with
  | nil => rfl
  | cons l levels ih => simp [ih, setIrqState]

/-- A line that is not driven keeps its bit. -/
theorem drive_getLsbD (h : IrqHandler) {levels : List (Line × Bool)} {k : Nat} (low : k < 31)
    (other : ∀ l ∈ levels, l.1.val ≠ k) :
    (h.drive levels).irq.getLsbD k = h.irq.getLsbD k := by
  induction levels generalizing h with
  | nil => rfl
  | cons l levels ih =>
      rw [drive_cons, ih _ fun l' listed => other l' (List.mem_cons_of_mem l listed),
        setIrqState_getLsbD h l.1 l.2 low, if_neg (other l List.mem_cons_self).symm]

end IrqHandler

/-! ### `Clint` -/

/-- `EXCI_MSI` and `EXCI_MTIMER`. -/
def exciMsi : Line := 3
def exciMtimer : Line := 7

def msipOffset : Word := 0x0000
def mtimeOffset : Word := 0xbff8
def mtimecmpOffset : Word := 0x4000

/-- The registers of the CLINT, and the level it drove the timer line to last. -/
structure Clint where
  msip : Word
  mtime : Word
  mtimecmp : Word
  irqValid : Bool

namespace Clint

/-- `Clint::afterLoad`. -/
def afterLoad : Clint := ⟨0, 0, 0, false⟩

/-- `Clint::tick`, with its calls of `setIrqState`. -/
def tick (c : Clint) : Clint × List (Line × Bool) :=
  let mtime := c.mtime + 1
  if c.mtimecmp ≤ mtime then
    if !c.irqValid then ({ c with mtime := mtime, irqValid := true }, [(exciMtimer, true)])
    else ({ c with mtime := mtime }, [])
  else if c.irqValid then
    ({ c with mtime := mtime, irqValid := false }, [(exciMtimer, false)])
  else ({ c with mtime := mtime }, [])

/-- `Clint::read` at `addr - base_addr`: eight bytes, or none. -/
def read (c : Clint) (offset : Word) : List Byte :=
  let bytes (v : Word) := (List.range 8).map (byteAt v)
  if offset = msipOffset then bytes c.msip
  else if offset = mtimeOffset then bytes c.mtime
  else if offset = mtimecmpOffset then bytes c.mtimecmp
  else []

/-- `Clint::write` at `addr - base_addr`, which takes eight bytes whatever the size. -/
def write (c : Clint) (offset data : Word) : Clint × List (Line × Bool) :=
  if offset = msipOffset then
    let msip := data &&& 1
    ({ c with msip := msip }, [(exciMsi, msip != 0)])
  else if offset = mtimeOffset then ({ c with mtime := data }, [])
  else if offset = mtimecmpOffset then ({ c with mtimecmp := data }, [])
  else (c, [])

/-- After a tick, `irqValid` is the comparison. -/
theorem tick_irqValid (c : Clint) :
    c.tick.1.irqValid = decide (c.tick.1.mtimecmp ≤ c.tick.1.mtime) := by
  unfold tick
  dsimp only
  split_ifs with due up up <;> simp_all

/-- A tick drives the timer line when `irqValid` moves, and to its level. -/
theorem tick_levels (c : Clint) :
    c.tick.2 = if c.tick.1.irqValid = c.irqValid then []
      else [(exciMtimer, c.tick.1.irqValid)] := by
  unfold tick
  dsimp only
  split_ifs <;> simp_all

/-- A tick does not touch the software interrupt. -/
theorem tick_msip (c : Clint) : c.tick.1.msip = c.msip := by
  unfold tick
  dsimp only
  split_ifs <;> rfl

/-- A store does not touch the timer interrupt. -/
theorem write_irqValid (c : Clint) (offset data : Word) :
    (c.write offset data).1.irqValid = c.irqValid := by
  unfold write
  split_ifs <;> rfl

/-- A write of MSIP drives its line; no other write drives any. -/
theorem write_levels (c : Clint) (offset data : Word) :
    (c.write offset data).2 =
      if offset = msipOffset then [(exciMsi, data &&& 1 != 0)] else [] := by
  unfold write
  split_ifs <;> rfl

/-- A store to `msip` sets its lowest bit. -/
theorem write_msip (c : Clint) (offset data : Word) :
    (c.write offset data).1.msip = if offset = msipOffset then data &&& 1 else c.msip := by
  unfold write
  split_ifs <;> rfl

end Clint

/-! ### The board -/

/-- The devices' state: the handler, the CLINT, and the state of the others. -/
structure Devices (σ : Type) where
  handler : IrqHandler
  clint : Clint
  other : σ

namespace Devices

variable {σ : Type}

/-- The devices before the first access. -/
def init (other : σ) : Devices σ := ⟨.init, .afterLoad, other⟩

/-- The devices after a device drove some lines, and what the listener was told. -/
def drive (d : Devices σ) (levels : List (Line × Bool)) : Devices σ × Option Word :=
  ({ d with handler := d.handler.drive levels }, d.handler.published levels)

/-- `Clint::tick`. -/
def clintTick (d : Devices σ) : Devices σ × Option Word :=
  ({ d with clint := d.clint.tick.1 } : Devices σ).drive d.clint.tick.2

end Devices

/-- A device other than the CLINT: the bytes a read stores, the state after an access,
and the lines it drives. -/
structure Peripheral (σ : Type) where
  inRange : Word → Bool
  read : σ → Word → Nat → List Byte × σ × List (Line × Bool)
  write : σ → Word → Nat → Word → σ × List (Line × Bool)

/-- The serial chip: `serial_ioport_read` and `serial_ioport_write` of `serial.cpp`, with
the levels they hand to `cpu_irq_handler`. -/
structure Serial (σ : Type) where
  ioportRead : σ → Word → Nat → Byte × σ × List Bool
  ioportWrite : σ → Word → Byte → Nat → σ × List Bool

/-- `Uart`: its address, its line and its chip. -/
structure Uart (σ : Type) where
  baseAddr : Word
  irqNumber : Line
  serial : Serial σ

/-- `Uart::read` stores one byte, `Uart::write` takes one, and `Uart::setIrq` drives
`irq_number`. -/
def Uart.peripheral {σ : Type} (u : Uart σ) : Peripheral σ where
  inRange addr := u.baseAddr ≤ addr && addr < u.baseAddr + 0x1000
  read s addr size :=
    let r := u.serial.ioportRead s addr size
    ([r.1], r.2.1, r.2.2.map fun level => (u.irqNumber, level))
  write s addr size data :=
    let r := u.serial.ioportWrite s addr (byteAt data 0) size
    (r.1, r.2.map fun level => (u.irqNumber, level))

/-- What a machine has on its bus: a CLINT, and devices before and after it in the order
`Memory` asks them. -/
structure Board (σ : Type) where
  clintBase : Word
  before : List (Peripheral σ)
  after : List (Peripheral σ)

namespace Board

variable {σ : Type}

/-- `Clint::inRange`, with `end_addr` from `afterLoad`. -/
def clintRange (B : Board σ) (addr : Word) : Bool :=
  B.clintBase ≤ addr && addr < B.clintBase + 0x10000

/-- The CLINT on the bus. -/
def clint (B : Board σ) : Device (Devices σ) where
  inRange := B.clintRange
  read d addr _ := ⟨d.clint.read (addr - B.clintBase), d, none⟩
  write d addr _ data :=
    let r := d.clint.write (addr - B.clintBase) data
    ({ d with clint := r.1 } : Devices σ).drive r.2

/-- Another device on the bus. -/
def onBus (p : Peripheral σ) : Device (Devices σ) where
  inRange := p.inRange
  read d addr size :=
    let r := p.read d.other addr size
    let moved := ({ d with other := r.2.1 } : Devices σ).drive r.2.2
    ⟨r.1, moved.1, moved.2⟩
  write d addr size data :=
    let r := p.write d.other addr size data
    ({ d with other := r.1 } : Devices σ).drive r.2

/-- The devices in the order of the configuration. -/
def devices (B : Board σ) : List (Device (Devices σ)) :=
  B.before.map onBus ++ B.clint :: B.after.map onBus

end Board

end CPUDelaySim.Mmio
