import CPUDelaySim.Cache.Cache
import CPUDelaySim.Common.LinkList
import CPUDelaySim.Common.Outcome
import Mathlib.Data.Fintype.Basic

/-!
# Requests to the memory

`Memory::memoryRead`, `Memory::memoryWrite` and `Memory::tick` of `cache/memory.cpp`, as the
`RAMULATOR` build has them, with the request side of the four device classes.

A request for a device borrows a `DeviceReq` from `device_idle_queue` and hands it to
`Device::addRequest`; `Memory::tick` asks every device for the one it is done with, calls
back, and puts it back into the queue.  The records are named by their numbers.  Other
requests go to the memory system, which is not part of the simulator: it accepts a request
or not, and later invokes the callback of each read it accepted, in an order of its own.  The
callback takes its `DRAMMeta` from a ring.
-/

namespace CPUDelaySim

/-- The members of a request that its answer carries back. -/
structure Requester where
  callbackId : BitVec 8
  id : Ids
  deriving DecidableEq

/-- `struct DeviceReq`. -/
structure DeviceReq where
  addr : Word
  size : BitVec 32
  requester : Requester
  isWrite : Bool

/-! ### Devices -/

/-- The members of `class Uart` that requests touch. -/
structure Uart where
  baseAddr : Word
  delay : BitVec 32
  req : Nat
  reqValid : Bool
  respValid : Bool
  currentDelay : BitVec 32

namespace Uart

/-- `Uart::inRange`; `end_addr` is `base_addr + 0x1000`. -/
def inRange (d : Uart) (addr : Word) : Bool :=
  d.baseAddr.ule addr && addr.ult (d.baseAddr + 0x1000)

/-- `Uart::addRequest`. -/
def addRequest (d : Uart) (req : Nat) : Uart × Bool :=
  if d.reqValid || d.respValid then (d, false)
  else ({ d with req := req, reqValid := true, currentDelay := d.delay }, true)

/-- `Uart::tick`. -/
def tick (d : Uart) : Uart :=
  if d.reqValid then
    if d.currentDelay = 0 then { d with reqValid := false, respValid := true }
    else { d with currentDelay := d.currentDelay - 1 }
  else d

/-- `Uart::checkResponse`. -/
def checkResponse (d : Uart) : Uart × Option Nat :=
  if !d.respValid then (d, none) else ({ d with respValid := false }, some d.req)

end Uart

/-- The members of `class SimpleUart` that requests touch. -/
structure SimpleUart where
  baseAddr : Word
  req : Nat
  reqValid : Bool

namespace SimpleUart

/-- `SimpleUart::inRange`. -/
def inRange (d : SimpleUart) (addr : Word) : Bool :=
  d.baseAddr.ule addr && addr.ult (d.baseAddr + 0x1000)

/-- `SimpleUart::addRequest`, which never refuses. -/
def addRequest (d : SimpleUart) (req : Nat) : SimpleUart × Bool :=
  ({ d with req := req, reqValid := true }, true)

/-- `SimpleUart::checkResponse`. -/
def checkResponse (d : SimpleUart) : SimpleUart × Option Nat :=
  if d.reqValid then ({ d with reqValid := false }, some d.req) else (d, none)

end SimpleUart

/-- `addRequest` of a device with one pointer. -/
def slotAddRequest (slot : Option Nat) (req : Nat) : Option Nat × Bool :=
  match slot with
  | some held => (some held, false)
  | none => (some req, true)

/-- The members of `class Clint` that requests touch. -/
structure Clint where
  baseAddr : Word
  req : Option Nat

namespace Clint

/-- `Clint::inRange`; `end_addr` is `base_addr + 0x10000`. -/
def inRange (d : Clint) (addr : Word) : Bool :=
  d.baseAddr.ule addr && addr.ult (d.baseAddr + 0x10000)

/-- `Clint::addRequest`. -/
def addRequest (d : Clint) (req : Nat) : Clint × Bool :=
  let (slot, success) := slotAddRequest d.req req
  ({ d with req := slot }, success)

/-- `Clint::checkResponse`. -/
def checkResponse (d : Clint) : Clint × Option Nat := ({ d with req := none }, d.req)

end Clint

/-- The members of `class BasicIrqHandler` that requests touch. -/
structure BasicIrqHandler where
  baseAddr : Word
  range : Word
  req : Option Nat

namespace BasicIrqHandler

/-- `BasicIrqHandler::inRange`; `end_addr` is `base_addr + range`. -/
def inRange (d : BasicIrqHandler) (addr : Word) : Bool :=
  d.baseAddr.ule addr && addr.ult (d.baseAddr + d.range)

/-- `BasicIrqHandler::addRequest`. -/
def addRequest (d : BasicIrqHandler) (req : Nat) : BasicIrqHandler × Bool :=
  let (slot, success) := slotAddRequest d.req req
  ({ d with req := slot }, success)

/-- `BasicIrqHandler::checkResponse`. -/
def checkResponse (d : BasicIrqHandler) : BasicIrqHandler × Option Nat :=
  ({ d with req := none }, d.req)

end BasicIrqHandler

/-- An object of one of the device classes. -/
inductive DevicePort
  | uart (d : Uart)
  | simpleUart (d : SimpleUart)
  | clint (d : Clint)
  | basicIrqHandler (d : BasicIrqHandler)

namespace DevicePort

/-- `Device::inRange`. -/
def inRange (addr : Word) : DevicePort → Bool
  | .uart d => d.inRange addr
  | .simpleUart d => d.inRange addr
  | .clint d => d.inRange addr
  | .basicIrqHandler d => d.inRange addr

/-- `Device::addRequest`. -/
def addRequest (req : Nat) : DevicePort → DevicePort × Bool
  | .uart d => ((d.addRequest req).map .uart id)
  | .simpleUart d => ((d.addRequest req).map .simpleUart id)
  | .clint d => ((d.addRequest req).map .clint id)
  | .basicIrqHandler d => ((d.addRequest req).map .basicIrqHandler id)

/-- `Device::tick`, as far as requests go: only `Uart` counts. -/
def tick : DevicePort → DevicePort
  | .uart d => .uart d.tick
  | d => d

/-- `Device::checkResponse`. -/
def checkResponse : DevicePort → DevicePort × Option Nat
  | .uart d => (d.checkResponse.map .uart id)
  | .simpleUart d => (d.checkResponse.map .simpleUart id)
  | .clint d => (d.checkResponse.map .clint id)
  | .basicIrqHandler d => (d.checkResponse.map .basicIrqHandler id)

end DevicePort

/-- A device of a layer file, with its parameters. -/
inductive DeviceConfig
  | uart (baseAddr : Word) (delay : BitVec 32)
  | simpleUart (baseAddr : Word)
  | clint (baseAddr : Word)
  | basicIrqHandler (baseAddr range : Word)

/-- The device before its first request; the `req` of `BasicIrqHandler` is null. -/
def DeviceConfig.load : DeviceConfig → DevicePort
  | .uart baseAddr delay => .uart ⟨baseAddr, delay, 0, false, false, 0⟩
  | .simpleUart baseAddr => .simpleUart ⟨baseAddr, 0, false⟩
  | .clint baseAddr => .clint ⟨baseAddr, none⟩
  | .basicIrqHandler baseAddr range => .basicIrqHandler ⟨baseAddr, range, none⟩

/-! ### Memory -/

/-- The members of `Memory` that requests touch.  A `DRAMMeta` keeps what the answer of its
read carries; the `RAMULATOR` build leaves its other members alone. -/
structure MemoryQueues where
  devices : List DevicePort
  deviceIdleQueue : List Nat
  records : Nat → DeviceReq
  dramReadQueue : LinkList
  metas : Nat → Requester
  /-- `write_callback_id`, while `write_valid`. -/
  write : Option (BitVec 8)

/-- A call of a callback, a request accepted, or a tick. -/
inductive MemoryEvent
  | accepted (device : Nat) (requester : Requester)
  | answered (device : Nat) (requester : Requester)
  /-- A read accepted by the memory system. -/
  | sent (requester : Requester)
  /-- Its callback: who asked for the read, and who was told. -/
  | completed (own told : Requester)
  | written (callbackId : BitVec 8)
  | ticked

namespace MemoryQueues

/-- `Memory::afterLoad`. -/
def afterLoad (devices : List DeviceConfig) (dramQueueSize : Nat) : MemoryQueues where
  devices := devices.map DeviceConfig.load
  deviceIdleQueue := List.range devices.length
  records := fun _ => ⟨0, 0, ⟨0, fun _ => 0⟩, false⟩
  dramReadQueue := .pushes dramQueueSize
  metas := fun _ => ⟨0, fun _ => 0⟩
  write := none

/-- The part of `memoryRead` and `memoryWrite` for a device that claims the address. -/
def deviceRequest (isWrite : Bool) (requester : Requester) (addr : Word) (size : BitVec 32)
    (index : Nat) (device : DevicePort) (s : MemoryQueues) : MemoryQueues × Bool :=
  match s.deviceIdleQueue with
  | [] => (s, false)
  | front :: rest =>
      let s := { s with
        records := Function.update s.records front ⟨addr, size, requester, isWrite⟩ }
      let (device, success) := device.addRequest front
      let s := { s with devices := s.devices.set index device }
      if success then ({ s with deviceIdleQueue := rest }, true) else (s, false)

/-- The first device that claims the address, with its place. -/
def deviceAt (s : MemoryQueues) (addr : Word) : Option (Nat × DevicePort) :=
  (s.devices.findIdx? (DevicePort.inRange addr)).bind fun index =>
    s.devices[index]?.map fun device => (index, device)

/-- `Memory::memoryRead`; `sends` is what `ramulator_memory->send` returns. -/
def memoryRead (requester : Requester) (addr : Word) (size : BitVec 32) (sends : Bool)
    (s : MemoryQueues) : MemoryQueues × Bool :=
  match s.deviceAt addr with
  | some (index, device) => s.deviceRequest false requester addr size index device
  | none =>
      if sends then
        let (slot, ring) := s.dramReadQueue.next
        ({ s with dramReadQueue := ring, metas := Function.update s.metas slot requester }, true)
      else (s, false)

/-- `Memory::memoryWrite`. -/
def memoryWrite (requester : Requester) (addr : Word) (size : BitVec 32) (sends : Bool)
    (s : MemoryQueues) : MemoryQueues × Bool :=
  match s.deviceAt addr with
  | some (index, device) => s.deviceRequest true requester addr size index device
  | none =>
      if sends then ({ s with write := some requester.callbackId }, true) else (s, false)

/-- The callback of a read: it calls back whoever the next `DRAMMeta` names. -/
def readDone (s : MemoryQueues) : MemoryQueues × Requester :=
  let (slot, ring) := s.dramReadQueue.pop
  ({ s with dramReadQueue := ring }, s.metas slot)

/-- The loop of `Memory::tick` over the devices: the devices after it, the records they gave
back, and the calls. -/
def tickDevices (records : Nat → DeviceReq) :
    Nat → List DevicePort → List DevicePort × List Nat × List MemoryEvent
  | _, [] => ([], [], [])
  | index, device :: rest =>
      let (device, resp) := device.tick.checkResponse
      let (devices, returned, out) := tickDevices records (index + 1) rest
      match resp with
      | none => (device :: devices, returned, out)
      | some req =>
          (device :: devices, req :: returned, .answered index (records req).requester :: out)

/-- A device that does not respond in its tick. -/
theorem tickDevices_none {device device' : DevicePort}
    (quiet : device.tick.checkResponse = (device', none)) (records : Nat → DeviceReq)
    (index : Nat) (rest : List DevicePort) :
    tickDevices records index (device :: rest) =
      let later := tickDevices records (index + 1) rest
      (device' :: later.1, later.2.1, later.2.2) := by
  rw [tickDevices, quiet]

/-- A device that responds in its tick. -/
theorem tickDevices_some {device device' : DevicePort} {req : Nat}
    (responds : device.tick.checkResponse = (device', some req))
    (records : Nat → DeviceReq) (index : Nat) (rest : List DevicePort) :
    tickDevices records index (device :: rest) =
      let later := tickDevices records (index + 1) rest
      (device' :: later.1, req :: later.2.1,
        .answered index (records req).requester :: later.2.2) := by
  rw [tickDevices, responds]

/-- `Memory::tick`, after `ramulator_memory->tick()`. -/
def tick (s : MemoryQueues) : MemoryQueues × List MemoryEvent :=
  let (devices, returned, out) := tickDevices s.records 0 s.devices
  ({ s with
     devices := devices, deviceIdleQueue := s.deviceIdleQueue ++ returned, write := none },
    (s.write.map MemoryEvent.written).toList ++ out)

end MemoryQueues

/-! ### Runs -/

/-- The memory with the reads the memory system has accepted and not completed, oldest first,
and what has happened. -/
structure MemorySystem where
  memory : MemoryQueues
  reads : List Requester
  log : List MemoryEvent

/-- One step of a run.  `complete` is the callback of the read at `index` of those
outstanding, which `ramulator_memory->tick()` makes. -/
inductive MemoryStep
  | read (requester : Requester) (addr : Word) (size : BitVec 32) (sends : Bool)
  | write (requester : Requester) (addr : Word) (size : BitVec 32) (sends : Bool)
  | complete (index : Nat)
  | tick

/-- Steps the memory system does not make. -/
inductive NotMade
  /-- More than `dram_queue_size - 1` reads outstanding. -/
  | overfull
  /-- A callback without a read. -/
  | unasked

namespace MemorySystem

/-- The memory after its constructor, with the devices of the configuration. -/
def start (devices : List DeviceConfig) (dramQueueSize : Nat) : MemorySystem :=
  ⟨.afterLoad devices dramQueueSize, [], []⟩

/-- What an accepted request adds to the log; `sent`, when no device claims it. -/
def accepts (s : MemorySystem) (requester : Requester) (addr : Word) (sent : List MemoryEvent)
    (success : Bool) : List MemoryEvent :=
  if success then
    match s.memory.deviceAt addr with
    | some (index, _) => [.accepted index requester]
    | none => sent
  else []

/-- The effect of a step. -/
def step (dramQueueSize : Nat) (s : MemorySystem) : MemoryStep → Except NotMade MemorySystem
  | .read requester addr size sends =>
      let (memory, success) := s.memory.memoryRead requester addr size sends
      let toDram := (s.memory.deviceAt addr).isNone && success
      if toDram && dramQueueSize ≤ s.reads.length + 1 then .error .overfull
      else
        .ok { memory := memory
              reads := s.reads ++ if toDram then [requester] else []
              log := s.log ++ s.accepts requester addr [.sent requester] success }
  | .write requester addr size sends =>
      let (memory, success) := s.memory.memoryWrite requester addr size sends
      .ok { s with memory := memory, log := s.log ++ s.accepts requester addr [] success }
  | .complete index =>
      match s.reads[index]? with
      | none => .error .unasked
      | some own =>
          let (memory, told) := s.memory.readDone
          .ok { memory := memory, reads := s.reads.eraseIdx index
                log := s.log ++ [.completed own told] }
  | .tick =>
      let (memory, out) := s.memory.tick
      .ok { s with memory := memory, log := s.log ++ .ticked :: out }

/-- A request, of either kind. -/
def request : Bool → Requester → Word → BitVec 32 → Bool → MemoryStep
  | false => .read
  | true => .write

/-- What a step can do. -/
inductive Moves (dramQueueSize : Nat) (s : MemorySystem) : MemoryStep → MemorySystem → Prop
  /-- A request a device claims. -/
  | device (isWrite : Bool) (requester : Requester) (addr : Word) (size : BitVec 32)
      (sends : Bool) (index : Nat) (device : DevicePort)
      (claimed : s.memory.deviceAt addr = some (index, device)) :
      Moves dramQueueSize s (request isWrite requester addr size sends)
        { s with
          memory := (s.memory.deviceRequest isWrite requester addr size index device).1
          log := s.log ++
            if (s.memory.deviceRequest isWrite requester addr size index device).2 then
              [.accepted index requester]
            else [] }
  /-- A read the memory system accepts. -/
  | sent (requester : Requester) (addr : Word) (size : BitVec 32)
      (unclaimed : s.memory.deviceAt addr = none) (room : s.reads.length + 1 < dramQueueSize) :
      Moves dramQueueSize s (.read requester addr size true)
        { memory := { s.memory with
            dramReadQueue := s.memory.dramReadQueue.next.2
            metas := Function.update s.memory.metas s.memory.dramReadQueue.next.1 requester }
          reads := s.reads ++ [requester]
          log := s.log ++ [.sent requester] }
  /-- A write the memory system accepts. -/
  | wrote (requester : Requester) (addr : Word) (size : BitVec 32)
      (unclaimed : s.memory.deviceAt addr = none) :
      Moves dramQueueSize s (.write requester addr size true)
        { s with memory := { s.memory with write := some requester.callbackId } }
  /-- A request the memory system refuses. -/
  | refused (isWrite : Bool) (requester : Requester) (addr : Word) (size : BitVec 32)
      (unclaimed : s.memory.deviceAt addr = none) :
      Moves dramQueueSize s (request isWrite requester addr size false) s
  | completed (index : Nat) (own : Requester) (owed : s.reads[index]? = some own) :
      Moves dramQueueSize s (.complete index)
        { memory := s.memory.readDone.1
          reads := s.reads.eraseIdx index
          log := s.log ++ [.completed own s.memory.readDone.2] }
  | ticked :
      Moves dramQueueSize s .tick
        { s with memory := s.memory.tick.1, log := s.log ++ .ticked :: s.memory.tick.2 }

/-- What a step of the memory does, case by case. -/
theorem step_moves {dramQueueSize : Nat} {s s' : MemorySystem} {j : MemoryStep}
    (moved : step dramQueueSize s j = .ok s') : s.Moves dramQueueSize j s' := by
  cases j with
  | read requester addr size sends =>
      -- A device takes the address, or the request goes to the DRAM.
      cases claimed : s.memory.deviceAt addr with
      | some found =>
          simp only [step, MemoryQueues.memoryRead, claimed, Option.isNone_some, Bool.false_and,
            Bool.false_eq_true, if_false, List.append_nil, accepts] at moved
          cases moved
          exact .device false requester addr size sends found.1 found.2 claimed
      | none =>
          cases sends with
          | false =>
              simp only [step, MemoryQueues.memoryRead, claimed, Bool.false_eq_true, if_false,
                Bool.and_false, List.append_nil, accepts] at moved
              cases moved
              exact .refused false requester addr size claimed
          | true =>
              simp only [step, MemoryQueues.memoryRead, claimed, if_true, Option.isNone_none,
                Bool.and_self, Bool.true_and, decide_eq_true_eq, accepts] at moved
              split at moved
              · cases moved
              · rename_i room
                cases moved
                exact .sent requester addr size claimed (by omega)
  | write requester addr size sends =>
      cases claimed : s.memory.deviceAt addr with
      | some found =>
          simp only [step, MemoryQueues.memoryWrite, claimed, accepts] at moved
          cases moved
          exact .device true requester addr size sends found.1 found.2 claimed
      | none =>
          cases sends with
          | false =>
              simp only [step, MemoryQueues.memoryWrite, claimed, Bool.false_eq_true, if_false,
                List.append_nil, accepts] at moved
              cases moved
              exact .refused true requester addr size claimed
          | true =>
              simp only [step, MemoryQueues.memoryWrite, claimed, if_true, List.append_nil,
                accepts] at moved
              cases moved
              exact .wrote requester addr size claimed
  | complete index =>
      rw [step] at moved
      cases owed : s.reads[index]? with
      | none =>
          rw [owed] at moved
          cases moved
      | some own =>
          rw [owed] at moved
          cases moved
          exact .completed index own owed
  | tick =>
      rw [step] at moved
      cases moved
      exact .ticked

end MemorySystem

end CPUDelaySim
