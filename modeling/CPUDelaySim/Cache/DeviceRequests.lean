import CPUDelaySim.Cache.Requests
import CPUDelaySim.Common.Ledger

/-!
# Requests to the devices

A `DeviceReq` is in the idle queue or held by a device, and a device holds one at most.
`Uart`, `Clint` and `BasicIrqHandler` refuse a request while they hold one; `SimpleUart` takes
it, and forgets the one it held: that record never comes back and that request is never
answered.  As long as this does not happen, a device is a server whose log can be followed
(`Mark.follow`), and the open request is the one in the record it holds (`pending`).

The invariant `Sound` has two halves.  The records are counted: the idle queue and the records
held are a permutation of all of them.  The log is read: seen through `mark`, the part of it that
is about one device is one that `Mark.follow` accepts, and the request left open is `pending`.
`Conserved` follows from the two, and a refused request changes neither (`RefusalKeeps`).

`addRequest_spec` and `tick_spec` are the two places that go through the four classes; after them
a device is a record that is held, and its age.
-/

namespace CPUDelaySim

/-! ### What a device holds -/

namespace DevicePort

/-- The record a device holds. -/
def held : DevicePort → Option Nat
  | .uart d => if d.reqValid || d.respValid then some d.req else none
  | .simpleUart d => if d.reqValid then some d.req else none
  | .clint d => d.req
  | .basicIrqHandler d => d.req

/-- The number of ticks within which a device answers. -/
def latency : DevicePort → Nat
  | .uart d => d.delay.toNat + 1
  | .simpleUart _ | .clint _ | .basicIrqHandler _ => 1

/-- The number of ticks a device has held its record. -/
def age : DevicePort → Nat
  | .uart d => d.delay.toNat - d.currentDelay.toNat
  | .simpleUart _ | .clint _ | .basicIrqHandler _ => 0

/-- What holds of a device between ticks: no response is waiting, and the countdown is at most
`delay`. -/
def Resting : DevicePort → Prop
  | .uart d => d.respValid = false ∧ (d.reqValid = true → d.currentDelay.toNat ≤ d.delay.toNat)
  | .simpleUart _ | .clint _ | .basicIrqHandler _ => True

/-- `SimpleUart` would take a second request. -/
def Forgets : DevicePort → Prop
  | .simpleUart d => d.reqValid = true
  | .uart _ | .clint _ | .basicIrqHandler _ => False

instance (device : DevicePort) : Decidable device.Forgets := by
  cases device <;> unfold Forgets <;> infer_instance

/-- A device that has been loaded holds no request. -/
theorem load_held (config : DeviceConfig) : config.load.held = none := by
  cases config <;> rfl

/-- It rests. -/
theorem load_resting (config : DeviceConfig) : config.load.Resting := by
  cases config with
  | uart baseAddr delay => exact ⟨rfl, nofun⟩
  | simpleUart baseAddr => trivial
  | clint baseAddr => trivial
  | basicIrqHandler baseAddr range => trivial

/-- The age of a request is below the latency while the device rests. -/
theorem Resting.age_lt {device : DevicePort} : device.Resting → device.age < device.latency := by
  intro _
  cases device with
  | uart d =>
      rw [age, latency]
      omega
  | simpleUart d => exact Nat.one_pos
  | clint d => exact Nat.one_pos
  | basicIrqHandler d => exact Nat.one_pos

/-- What `addRequest` can do: refuse and change nothing, or take the record. -/
structure Takes (device : DevicePort) (req : Nat) (device' : DevicePort) : Prop where
  held : device'.held = some req
  age : device'.age = 0
  latency : device'.latency = device.latency
  resting : device'.Resting
  free : ¬ device.Forgets → device.held = none

/-- A resting device refuses a request, or takes it and begins to count. -/
theorem addRequest_spec {device : DevicePort} (resting : device.Resting) (req : Nat) :
    device.addRequest req = (device, false) ∨
      ∃ device', device.addRequest req = (device', true) ∧ device.Takes req device' := by
  cases device with
  | uart d =>
      rcases d with ⟨baseAddr, delay, req', _ | _, respValid, currentDelay⟩
      · obtain ⟨rfl, -⟩ := resting
        refine .inr ⟨_, rfl, rfl, ?_, rfl, ⟨rfl, fun _ => Nat.le_refl _⟩, fun _ => rfl⟩
        exact Nat.sub_self _
      · exact .inl rfl
  | simpleUart d =>
      refine .inr ⟨_, rfl, rfl, rfl, rfl, trivial, ?_⟩
      intro keeps
      exact if_neg keeps
  | clint d =>
      rcases d with ⟨baseAddr, _ | req'⟩
      · exact .inr ⟨_, rfl, rfl, rfl, rfl, trivial, fun _ => rfl⟩
      · exact .inl rfl
  | basicIrqHandler d =>
      rcases d with ⟨baseAddr, range, _ | req'⟩
      · exact .inr ⟨_, rfl, rfl, rfl, rfl, trivial, fun _ => rfl⟩
      · exact .inl rfl

/-- What a tick can do to a device. -/
inductive Serves (device device' : DevicePort) : Option Nat → Prop
  | idle (held : device.held = none) (held' : device'.held = none) :
      Serves device device' none
  | waits (req : Nat) (held : device.held = some req) (held' : device'.held = some req)
      (older : device'.age = device.age + 1) : Serves device device' none
  | answers (req : Nat) (held : device.held = some req) (held' : device'.held = none) :
      Serves device device' (some req)

/-- A tick serves the request whose time has come, and the device rests again. -/
theorem tick_spec {device : DevicePort} (resting : device.Resting) :
    device.Serves device.tick.checkResponse.1 device.tick.checkResponse.2 ∧
      device.tick.checkResponse.1.Resting ∧
      device.tick.checkResponse.1.latency = device.latency := by
  cases device with
  | uart d =>
      rcases d with ⟨baseAddr, delay, req, _ | _, respValid, currentDelay⟩
      · obtain ⟨rfl, -⟩ := resting
        exact ⟨.idle rfl rfl, ⟨rfl, nofun⟩, rfl⟩
      · obtain ⟨rfl, counts⟩ := resting
        have le : currentDelay.toNat ≤ delay.toNat := counts rfl
        by_cases due : currentDelay = 0
        · subst due
          exact ⟨.answers req rfl rfl, ⟨rfl, nofun⟩, rfl⟩
        · have pos : 0 < currentDelay.toNat := by
            refine Nat.pos_of_ne_zero fun zero => due ?_
            exact BitVec.eq_of_toNat_eq zero
          have less : (currentDelay - 1).toNat = currentDelay.toNat - 1 :=
            BitVec.toNat_sub_of_le (BitVec.le_def.2 pos)
          have ticked : (DevicePort.uart ⟨baseAddr, delay, req, true, false, currentDelay⟩).tick =
              .uart ⟨baseAddr, delay, req, true, false, currentDelay - 1⟩ := by
            change DevicePort.uart (if _ then if _ then _ else _ else _) = _
            rw [if_pos rfl, if_neg due]
          rw [ticked]
          refine ⟨.waits req rfl rfl ?_, ⟨rfl, fun _ => ?_⟩, rfl⟩
          · change delay.toNat - (currentDelay - 1).toNat = delay.toNat - currentDelay.toNat + 1
            omega
          · change (currentDelay - 1).toNat ≤ delay.toNat
            omega
  | simpleUart d =>
      rcases d with ⟨baseAddr, req, _ | _⟩
      · exact ⟨.idle rfl rfl, trivial, rfl⟩
      · exact ⟨.answers req rfl rfl, trivial, rfl⟩
  | clint d =>
      rcases d with ⟨baseAddr, _ | req⟩
      · exact ⟨.idle rfl rfl, trivial, rfl⟩
      · exact ⟨.answers req rfl rfl, trivial, rfl⟩
  | basicIrqHandler d =>
      rcases d with ⟨baseAddr, range, _ | req⟩
      · exact ⟨.idle rfl rfl, trivial, rfl⟩
      · exact ⟨.answers req rfl rfl, trivial, rfl⟩

end DevicePort

namespace MemorySystem

open DevicePort (held)

/-! ### Conservation -/

/-- What an event means for device `k`. -/
def mark (k : Nat) : MemoryEvent → Mark Requester
  | .accepted index requester => if index = k then .opened requester else .other
  | .answered index requester => if index = k then .closed requester else .other
  | .ticked => .clock
  | .sent _ | .completed _ _ | .written _ => .other

/-- The number of ticks within which device `k` answers. -/
def latency (devices : List DevicePort) (k : Nat) : Nat :=
  (devices[k]?).elim 0 DevicePort.latency

/-- No record is lost, and no request. -/
structure Conserved (s : MemorySystem) : Prop where
  /-- Every record is in the idle queue or held by a device. -/
  records : s.memory.deviceIdleQueue.length + (s.memory.devices.filterMap held).length =
    s.memory.devices.length
  /-- Every device answers each request it accepted once, with the requester's ids, within
  its latency. -/
  served : ∀ k, Mark.Served (latency s.memory.devices k) (s.log.map (mark k))

/-- What a request returns. -/
def requested (s : MemorySystem) : MemoryStep → Option (MemoryQueues × Bool)
  | .read requester addr size sends => some (s.memory.memoryRead requester addr size sends)
  | .write requester addr size sends => some (s.memory.memoryWrite requester addr size sends)
  | .complete _ | .tick => none

/-- A refused request changes no device and not the idle queue. -/
def RefusalKeeps (s : MemorySystem) (j : MemoryStep) : Prop :=
  ∀ memory, s.requested j = some (memory, false) →
    memory.devices = s.memory.devices ∧ memory.deviceIdleQueue = s.memory.deviceIdleQueue

/-- The whole run conserves device requests. -/
def ConservesRequests (devices : List DeviceConfig) (dramQueueSize : Nat)
    (steps : List MemoryStep) : Prop :=
  (∀ before, before <+: steps →
    Returns (runSteps (step dramQueueSize) (start devices dramQueueSize) before) Conserved) ∧
  ∀ s j, Visits (step dramQueueSize) (start devices dramQueueSize) steps s j → s.RefusalKeeps j

/-- A request that a busy `SimpleUart` takes. -/
def Overwrites (s : MemorySystem) : MemoryStep → Prop
  | .read _ addr _ _ | .write _ addr _ _ =>
      s.memory.deviceIdleQueue ≠ [] ∧
        ∃ found, s.memory.deviceAt addr = some found ∧ found.2.Forgets
  | .complete _ | .tick => False

/-! ### Records -/

/-- The request device `k` works on, with its age. -/
def pending (s : MemoryQueues) (k : Nat) : Option (Requester × Nat) :=
  s.devices[k]?.bind fun device =>
    device.held.map fun req => ((s.records req).requester, device.age)

/-- The state of a run in which no `SimpleUart` has forgotten a record. -/
structure Sound (s : MemorySystem) : Prop where
  records : (s.memory.deviceIdleQueue ++ s.memory.devices.filterMap held).Perm
    (List.range s.memory.devices.length)
  resting : ∀ device ∈ s.memory.devices, device.Resting
  follows : ∀ k, (s.log.map (mark k)).foldlM Mark.follow none = some (pending s.memory k)

/-- At first there is no request at all. -/
theorem start_sound (configs : List DeviceConfig) (dramQueueSize : Nat) :
    (start configs dramQueueSize).Sound := by
  have none_held : (configs.map DeviceConfig.load).filterMap held = [] := by
    rw [List.filterMap_eq_nil_iff]
    intro device loaded
    obtain ⟨config, -, rfl⟩ := List.mem_map.1 loaded
    exact DevicePort.load_held config
  refine ⟨?_, ?_, ?_⟩
  · change (List.range configs.length ++ (configs.map DeviceConfig.load).filterMap held).Perm
      (List.range (configs.map DeviceConfig.load).length)
    rw [none_held, List.append_nil, List.length_map]
  · intro device loaded
    obtain ⟨config, -, rfl⟩ := List.mem_map.1 loaded
    exact DevicePort.load_resting config
  · intro k
    change some none = some (pending (.afterLoad configs dramQueueSize) k)
    rw [pending, MemoryQueues.afterLoad, List.getElem?_map]
    cases configs[k]? with
    | none => rfl
    | some config => simp [DevicePort.load_held]

/-- The invariant says that no request is lost and none is answered twice. -/
theorem Sound.conserved {s : MemorySystem} (inv : s.Sound) : s.Conserved := by
  constructor
  · have length := inv.records.length_eq
    rwa [List.length_append, List.length_range] at length
  · intro k
    refine Mark.served_of_follow (inv.follows k) ?_
    intro request age works
    rw [pending] at works
    obtain ⟨device, at_, works⟩ := Option.bind_eq_some_iff.1 works
    obtain ⟨req, -, same⟩ := Option.map_eq_some_iff.1 works
    cases same
    rw [latency, at_]
    exact (inv.resting device (List.mem_of_getElem? at_)).age_lt

/-- The record at the front of the queue is held by no device. -/
theorem Sound.front_not_held {s : MemorySystem} (inv : s.Sound) {front : Nat} {rest : List Nat}
    (queue : s.memory.deviceIdleQueue = front :: rest) :
    front ∉ s.memory.devices.filterMap held := by
  have nodup : (front :: rest ++ s.memory.devices.filterMap held).Nodup := by
    rw [← queue]
    exact inv.records.nodup_iff.2 List.nodup_range
  rw [List.cons_append, List.nodup_cons, List.mem_append, not_or] at nodup
  exact nodup.1.2

/-- Writing into a record no device holds does not change what the devices work on. -/
theorem pending_update {s : MemoryQueues} {front : Nat}
    (free : front ∉ s.devices.filterMap held) (record : DeviceReq) (k : Nat) :
    pending { s with records := Function.update s.records front record } k = pending s k := by
  rw [pending, pending]
  refine Option.bind_congr fun device at_ => ?_
  cases holds : device.held with
  | none => rfl
  | some req =>
      have other : req ≠ front := by
        rintro rfl
        exact free (List.mem_filterMap.2 ⟨device, List.mem_of_getElem? at_, holds⟩)
      dsimp only [Option.map_some]
      rw [Function.update_of_ne other]

/-- The records of the devices, when one of them changes. -/
theorem filterMap_set_perm {devices : List DevicePort} {index : Nat} {device : DevicePort}
    (at_ : devices[index]? = some device) (device' : DevicePort) :
    (devices.filterMap held).Perm
        (device.held.toList ++ (devices.eraseIdx index).filterMap held) ∧
      ((devices.set index device').filterMap held).Perm
        (device'.held.toList ++ (devices.eraseIdx index).filterMap held) := by
  obtain ⟨inside, rfl⟩ := List.getElem?_eq_some_iff.1 at_
  have cons (d : DevicePort) : (d :: devices.eraseIdx index).filterMap held =
      d.held.toList ++ (devices.eraseIdx index).filterMap held := by
    rw [List.filterMap_cons]
    cases d.held <;> rfl
  refine ⟨?_, ?_⟩
  · rw [← cons]
    exact (List.getElem_cons_eraseIdx_perm inside).symm.filterMap held
  · rw [← cons]
    exact (List.set_perm_cons_eraseIdx inside device').filterMap held

/-! ### Requests -/

/-- The device that claims an address is where the search has found it. -/
theorem getElem?_of_deviceAt {s : MemoryQueues} {addr : Word} {index : Nat} {device : DevicePort}
    (claimed : s.deviceAt addr = some (index, device)) : s.devices[index]? = some device := by
  rw [MemoryQueues.deviceAt] at claimed
  obtain ⟨index', -, found⟩ := Option.bind_eq_some_iff.1 claimed
  obtain ⟨device', at_, same⟩ := Option.map_eq_some_iff.1 found
  cases same
  exact at_

/-- What a request to a device can do: be refused, for want of a record or by the device, or
be accepted, with the record at the front of the queue. -/
theorem deviceRequest_cases (isWrite : Bool) (requester : Requester) (addr : Word)
    (size : BitVec 32) {index : Nat} {device : DevicePort} {s : MemoryQueues}
    (at_ : s.devices[index]? = some device) (resting : device.Resting) :
    (s.deviceIdleQueue = [] ∧
      s.deviceRequest isWrite requester addr size index device = (s, false)) ∨
    ∃ front rest, s.deviceIdleQueue = front :: rest ∧
      (s.deviceRequest isWrite requester addr size index device =
        ({ s with records :=
            Function.update s.records front ⟨addr, size, requester, isWrite⟩ }, false) ∨
      ∃ device', device.Takes front device' ∧
        s.deviceRequest isWrite requester addr size index device =
          ({ s with
             records := Function.update s.records front ⟨addr, size, requester, isWrite⟩
             devices := s.devices.set index device', deviceIdleQueue := rest }, true)) := by
  by_cases queue : s.deviceIdleQueue = []
  · refine .inl ⟨queue, ?_⟩
    rw [MemoryQueues.deviceRequest, queue]
  · obtain ⟨front, rest, queue⟩ := List.exists_cons_of_ne_nil queue
    refine .inr ⟨front, rest, queue, ?_⟩
    have run : s.deviceRequest isWrite requester addr size index device =
        let taken := device.addRequest front
        let s' := { s with
          records := Function.update s.records front ⟨addr, size, requester, isWrite⟩
          devices := s.devices.set index taken.1 }
        if taken.2 then ({ s' with deviceIdleQueue := rest }, true) else (s', false) := by
      rw [MemoryQueues.deviceRequest, queue]
    rw [run]
    rcases DevicePort.addRequest_spec resting front with refused | ⟨device', taken, takes⟩
    · refine .inl ?_
      obtain ⟨inside, rfl⟩ := List.getElem?_eq_some_iff.1 at_
      dsimp only
      rw [refused, List.set_getElem_self]
      exact if_neg Bool.false_ne_true
    · refine .inr ⟨device', takes, ?_⟩
      dsimp only
      rw [taken]
      exact if_pos rfl

/-- A refused request keeps the devices and the queue, whoever asks. -/
theorem deviceRequest_refused {isWrite : Bool} {requester : Requester} {addr : Word}
    {size : BitVec 32} {index : Nat} {device : DevicePort} {s s' : MemoryQueues}
    (at_ : s.devices[index]? = some device) (resting : device.Resting)
    (refused : s.deviceRequest isWrite requester addr size index device = (s', false)) :
    s'.devices = s.devices ∧ s'.deviceIdleQueue = s.deviceIdleQueue := by
  rcases deviceRequest_cases isWrite requester addr size at_ resting with
    ⟨-, run⟩ | ⟨front, rest, -, run | ⟨device', -, run⟩⟩
  · rw [run] at refused
    cases refused
    exact ⟨rfl, rfl⟩
  · rw [run] at refused
    cases refused
    exact ⟨rfl, rfl⟩
  · rw [run] at refused
    cases refused

/-- A request that is refused changes nothing. -/
theorem Sound.refusalKeeps {s : MemorySystem} (inv : s.Sound) (j : MemoryStep) :
    s.RefusalKeeps j := by
  have claims {addr : Word} {found : Nat × DevicePort}
      (claimed : s.memory.deviceAt addr = some found) :
      s.memory.devices[found.1]? = some found.2 ∧ found.2.Resting := by
    have at_ := getElem?_of_deviceAt claimed
    exact ⟨at_, inv.resting _ (List.mem_of_getElem? at_)⟩
  intro memory refused
  cases j with
  | read requester addr size sends =>
      have refused := Option.some.inj refused
      rw [MemoryQueues.memoryRead] at refused
      cases claimed : s.memory.deviceAt addr with
      | some found =>
          rw [claimed] at refused
          obtain ⟨at_, resting⟩ := claims claimed
          exact deviceRequest_refused at_ resting refused
      | none =>
          rw [claimed] at refused
          cases sends <;> cases refused
          exact ⟨rfl, rfl⟩
  | write requester addr size sends =>
      have refused := Option.some.inj refused
      rw [MemoryQueues.memoryWrite] at refused
      cases claimed : s.memory.deviceAt addr with
      | some found =>
          rw [claimed] at refused
          obtain ⟨at_, resting⟩ := claims claimed
          exact deviceRequest_refused at_ resting refused
      | none =>
          rw [claimed] at refused
          cases sends <;> cases refused
          exact ⟨rfl, rfl⟩
  | complete index => cases refused
  | tick => cases refused

/-- A log that grows by events which are followed. -/
theorem follows_append {s : MemoryQueues} {log out : List MemoryEvent} {k : Nat}
    {held : Option (Requester × Nat)}
    (follows : (log.map (mark k)).foldlM Mark.follow none = some (pending s k))
    (next : (out.map (mark k)).foldlM Mark.follow (pending s k) = some held) :
    ((log ++ out).map (mark k)).foldlM Mark.follow none = some held := by
  rw [List.map_append, List.foldlM_append, follows]
  exact next

/-- A request to a device is refused, or it is held by that device. -/
theorem Sound.device {s : MemorySystem} (inv : s.Sound) (isWrite : Bool) (requester : Requester)
    (addr : Word) (size : BitVec 32) {index : Nat} {device : DevicePort}
    (claimed : s.memory.deviceAt addr = some (index, device))
    (keeps : s.memory.deviceIdleQueue ≠ [] → ¬ device.Forgets) :
    Sound { s with
      memory := (s.memory.deviceRequest isWrite requester addr size index device).1
      log := s.log ++
        if (s.memory.deviceRequest isWrite requester addr size index device).2 then
          [.accepted index requester]
        else [] } := by
  have at_ := getElem?_of_deviceAt claimed
  -- Nothing is in the idle queue, the device refuses, or it takes the request.
  rcases deviceRequest_cases isWrite requester addr size at_
    (inv.resting device (List.mem_of_getElem? at_)) with
    ⟨-, run⟩ | ⟨front, rest, queue, run | ⟨device', takes, run⟩⟩
  · rw [run, if_neg Bool.false_ne_true, List.append_nil]
    exact inv
  · rw [run, if_neg Bool.false_ne_true, List.append_nil]
    refine ⟨inv.records, inv.resting, fun k => ?_⟩
    rw [inv.follows k]
    exact congrArg some (pending_update (inv.front_not_held queue) _ k).symm
  · rw [run, if_pos rfl]
    have free : device.held = none := takes.free (keeps (by rw [queue]; nofun))
    obtain ⟨before, after⟩ := filterMap_set_perm at_ device'
    refine ⟨?_, ?_, ?_⟩
    · -- the record at the front of the queue is now the device's
      change (rest ++ (s.memory.devices.set index device').filterMap held).Perm
        (List.range (s.memory.devices.set index device').length)
      rw [takes.held] at after
      rw [free] at before
      rw [List.length_set]
      refine List.Perm.trans ?_ inv.records
      rw [queue, List.cons_append]
      exact (after.append_left rest).trans
        (List.perm_middle.trans ((before.symm.append_left rest).cons front))
    · intro d mem
      rcases List.mem_or_eq_of_mem_set mem with old | rfl
      · exact inv.resting d old
      · exact takes.resting
    · intro k
      refine follows_append (inv.follows k) ?_
      -- Of the pending requests only that of this device is new.
      have now : pending { s.memory with
          records := Function.update s.memory.records front ⟨addr, size, requester, isWrite⟩
          devices := s.memory.devices.set index device', deviceIdleQueue := rest } k =
          if index = k then some (requester, 0) else pending s.memory k := by
        by_cases own : index = k
        · subst own
          obtain ⟨inside, -⟩ := List.getElem?_eq_some_iff.1 at_
          rw [if_pos rfl, pending, List.getElem?_set_self inside, Option.bind_some, takes.held,
            takes.age]
          dsimp only [Option.map_some]
          rw [Function.update_self]
        · rw [if_neg own, ← pending_update (inv.front_not_held queue)
            ⟨addr, size, requester, isWrite⟩ k, pending, pending, List.getElem?_set_ne own]
      rw [now]
      by_cases own : index = k
      · subst own
        have idle : pending s.memory index = none := by
          rw [pending, at_, Option.bind_some, free, Option.map_none]
        rw [idle, List.map_singleton, mark, if_pos rfl, if_pos rfl]
        rfl
      · rw [List.map_singleton, mark, if_neg own, if_neg own]
        rfl

/-! ### Ticks -/

/-- One device after a tick. -/
def ticked (device : DevicePort) : DevicePort := device.tick.checkResponse.1

/-- The record a device gives back at a tick. -/
def responds (device : DevicePort) : Option Nat := device.tick.checkResponse.2

/-- Each device ticks for itself, and those that respond are queued in their order. -/
theorem tickDevices_devices (records : Nat → DeviceReq) (index : Nat) (devices : List DevicePort) :
    (MemoryQueues.tickDevices records index devices).1 = devices.map ticked ∧
      (MemoryQueues.tickDevices records index devices).2.1 = devices.filterMap responds := by
  induction devices generalizing index with
  | nil => exact ⟨rfl, rfl⟩
  | cons device rest ih =>
      obtain ⟨devices, returned⟩ := ih (index + 1)
      rcases answer : device.tick.checkResponse with ⟨device', _ | req⟩
      · have quiet : responds device = none := congrArg Prod.snd answer
        rw [MemoryQueues.tickDevices_none answer]
        dsimp only
        rw [List.filterMap_cons_none quiet, devices, returned, List.map_cons, ticked, answer]
        exact ⟨rfl, rfl⟩
      · have gives : responds device = some req := congrArg Prod.snd answer
        rw [MemoryQueues.tickDevices_some answer]
        dsimp only
        rw [List.filterMap_cons_some gives, devices, returned, List.map_cons, ticked, answer]
        exact ⟨rfl, rfl⟩

/-- The calls of a tick are about the devices it goes through. -/
theorem tickDevices_later (records : Nat → DeviceReq) {index k : Nat} (later : k < index)
    (devices : List DevicePort) (open_ : Option (Requester × Nat)) :
    ((MemoryQueues.tickDevices records index devices).2.2.map (mark k)).foldlM Mark.follow open_ =
      some open_ := by
  induction devices generalizing index with
  | nil => rfl
  | cons device rest ih =>
      rcases answer : device.tick.checkResponse with ⟨device', _ | req⟩
      · rw [MemoryQueues.tickDevices_none answer]
        exact ih (by omega)
      · rw [MemoryQueues.tickDevices_some answer, List.map_cons, mark, if_neg (by omega)]
        exact ih (by omega)

/-- The calls of a tick, for one of the devices it goes through. -/
theorem tickDevices_follow (records : Nat → DeviceReq) (index k : Nat) (devices : List DevicePort)
    (open_ : Option (Requester × Nat)) :
    ((MemoryQueues.tickDevices records index devices).2.2.map
        (mark (index + k))).foldlM Mark.follow open_ =
      match (devices[k]?).bind responds with
      | none => some open_
      | some req => Mark.follow open_ (.closed (records req).requester) := by
  induction devices generalizing index k with
  | nil => rfl
  | cons device rest ih =>
      have next (k : Nat) : index + (k + 1) = index + 1 + k := by omega
      rcases answer : device.tick.checkResponse with ⟨device', _ | req⟩
      · have quiet : responds device = none := congrArg Prod.snd answer
        rw [MemoryQueues.tickDevices_none answer]
        cases k with
        | zero =>
            rw [List.getElem?_cons_zero, Option.bind_some, quiet]
            exact tickDevices_later records (by omega) rest open_
        | succ k =>
            rw [List.getElem?_cons_succ, next]
            exact ih (index + 1) k
      · have gives : responds device = some req := congrArg Prod.snd answer
        rw [MemoryQueues.tickDevices_some answer]
        dsimp only
        rw [List.map_cons, List.foldlM_cons]
        cases k with
        | zero =>
            rw [List.getElem?_cons_zero, Option.bind_some, gives, Nat.add_zero, mark, if_pos rfl]
            refine Eq.trans (Option.bind_congr fun held _ => ?_) (Option.bind_fun_some _)
            exact tickDevices_later records (by omega) rest held
        | succ k =>
            rw [List.getElem?_cons_succ, next, mark, if_neg (by omega)]
            exact ih (index + 1) k

/-- A tick moves records from devices to the queue. -/
theorem ticked_perm {devices : List DevicePort} (resting : ∀ device ∈ devices, device.Resting) :
    (devices.filterMap responds ++ (devices.map ticked).filterMap held).Perm
      (devices.filterMap held) := by
  induction devices with
  | nil => exact .nil
  | cons device rest ih =>
      have rest_perm := ih fun d mem => resting d (List.mem_cons_of_mem _ mem)
      have serves : device.Serves (ticked device) (responds device) :=
        (DevicePort.tick_spec (resting device (List.mem_cons_self ..))).1
      rw [List.map_cons, List.filterMap_cons, List.filterMap_cons, List.filterMap_cons]
      generalize responds device = resp at serves
      cases serves with
      | idle free free' =>
          rw [free, free']
          exact rest_perm
      | waits req holds holds' older =>
          rw [holds, holds']
          exact List.perm_middle.trans (rest_perm.cons req)
      | answers req holds free' =>
          rw [holds, free']
          exact rest_perm.cons req

/-- So in a tick of the memory. -/
theorem tick_devices (s : MemoryQueues) :
    s.tick.1.devices = s.devices.map ticked ∧
      s.tick.1.deviceIdleQueue = s.deviceIdleQueue ++ s.devices.filterMap responds := by
  obtain ⟨devices, returned⟩ := tickDevices_devices s.records 0 s.devices
  rw [← devices, ← returned]
  exact ⟨rfl, rfl⟩

/-- A tick moves requests from the devices to the queue of the answers. -/
theorem Sound.tick {s : MemorySystem} (inv : s.Sound) :
    Sound { s with memory := s.memory.tick.1, log := s.log ++ .ticked :: s.memory.tick.2 } := by
  obtain ⟨devices, queue⟩ := tick_devices s.memory
  refine ⟨?_, ?_, ?_⟩
  · dsimp only
    rw [devices, queue, List.length_map, List.append_assoc]
    exact ((ticked_perm inv.resting).append_left _).trans inv.records
  · dsimp only
    rw [devices]
    intro d mem
    obtain ⟨device, before, rfl⟩ := List.mem_map.1 mem
    exact (DevicePort.tick_spec (inv.resting device before)).2.1
  · intro k
    refine follows_append (inv.follows k) ?_
    -- `write` calls back a cache, and devices are none the wiser
    have silent (open_ : Option (Requester × Nat)) :
        ((s.memory.tick.2).map (mark k)).foldlM Mark.follow open_ =
          ((MemoryQueues.tickDevices s.memory.records 0 s.memory.devices).2.2.map
            (mark k)).foldlM Mark.follow open_ := by
      have out : s.memory.tick.2 = (s.memory.write.map MemoryEvent.written).toList ++
          (MemoryQueues.tickDevices s.memory.records 0 s.memory.devices).2.2 := rfl
      rw [out]
      cases s.memory.write <;> rfl
    have after : pending s.memory.tick.1 k = (s.memory.devices[k]?).bind fun device =>
        (ticked device).held.map fun req =>
          ((s.memory.records req).requester, (ticked device).age) := by
      rw [pending, devices, List.getElem?_map, Option.bind_map]
      rfl
    have calls := fun open_ =>
      tickDevices_follow s.memory.records 0 k s.memory.devices open_
    rw [Nat.zero_add] at calls
    have clock (open_ : Option (Requester × Nat)) : Mark.follow open_ (mark k .ticked) =
        some (open_.map fun (requester, age) => (requester, age + 1)) := rfl
    rw [List.map_cons, List.foldlM_cons, after, pending, clock, Option.bind_eq_bind,
      Option.bind_some, silent, calls]
    cases at_ : s.memory.devices[k]? with
    | none => rfl
    | some device =>
        have serves : device.Serves (ticked device) (responds device) :=
          (DevicePort.tick_spec (inv.resting device (List.mem_of_getElem? at_))).1
        rw [Option.bind_some, Option.bind_some, Option.bind_some]
        generalize responds device = resp at serves
        cases serves with
        | idle free free' =>
            rw [free, free']
            rfl
        | waits req holds holds' older =>
            rw [holds, holds', older]
            rfl
        | answers req holds free' =>
            rw [holds, free']
            exact if_pos rfl

/-- Every step keeps the invariant, unless a device's record is overwritten. -/
theorem Sound.moves {dramQueueSize : Nat} {s s' : MemorySystem} {j : MemoryStep} (inv : s.Sound)
    (keeps : ¬ s.Overwrites j) (moved : s.Moves dramQueueSize j s') : s'.Sound := by
  cases moved with
  | device isWrite requester addr size sends index device claimed =>
      refine inv.device isWrite requester addr size claimed ?_
      intro records forgets
      cases isWrite <;> exact keeps ⟨records, _, claimed, forgets⟩
  | sent requester addr size unclaimed room =>
      exact ⟨inv.records, inv.resting, fun k => follows_append (inv.follows k) rfl⟩
  | wrote requester addr size unclaimed => exact ⟨inv.records, inv.resting, inv.follows⟩
  | refused isWrite requester addr size unclaimed => exact inv
  | completed index own owed =>
      exact ⟨inv.records, inv.resting, fun k => follows_append (inv.follows k) rfl⟩
  | ticked => exact inv.tick

/-! ### The record that is lost -/

/-- A device that forgets its record takes another one, and still holds one only. -/
theorem deviceRequest_loses (isWrite : Bool) (requester : Requester) (addr : Word)
    (size : BitVec 32) {index : Nat} {device : DevicePort} {s : MemoryQueues}
    (at_ : s.devices[index]? = some device) (forgets : device.Forgets)
    (queue : s.deviceIdleQueue ≠ []) :
    let s' := (s.deviceRequest isWrite requester addr size index device).1
    s'.deviceIdleQueue.length + 1 = s.deviceIdleQueue.length ∧
      (s'.devices.filterMap held).length = (s.devices.filterMap held).length ∧
      s'.devices.length = s.devices.length := by
  obtain ⟨front, rest, queue⟩ := List.exists_cons_of_ne_nil queue
  cases device with
  | uart d => exact forgets.elim
  | clint d => exact forgets.elim
  | basicIrqHandler d => exact forgets.elim
  | simpleUart d =>
      have holds : (DevicePort.simpleUart d).held = some d.req := if_pos forgets
      obtain ⟨before, after⟩ := filterMap_set_perm at_ (.simpleUart ⟨d.baseAddr, front, true⟩)
      have run : (s.deviceRequest isWrite requester addr size index (.simpleUart d)).1 =
          { s with
            records := Function.update s.records front ⟨addr, size, requester, isWrite⟩
            devices := s.devices.set index (.simpleUart ⟨d.baseAddr, front, true⟩)
            deviceIdleQueue := rest } := by
        rw [MemoryQueues.deviceRequest, queue]
        rfl
      rw [run, queue]
      refine ⟨rfl, ?_, List.length_set⟩
      rw [after.length_eq, before.length_eq, holds]
      rfl

/-- A request that a device claims is always made. -/
theorem step_request (dramQueueSize : Nat) {s : MemorySystem} (isWrite : Bool)
    (requester : Requester) (addr : Word) (size : BitVec 32) (sends : Bool)
    {found : Nat × DevicePort} (claimed : s.memory.deviceAt addr = some found) :
    ∃ log, step dramQueueSize s (request isWrite requester addr size sends) =
      .ok { s with
        memory := (s.memory.deviceRequest isWrite requester addr size found.1 found.2).1
        log := log } := by
  cases isWrite with
  | false =>
      simp only [request, step, MemoryQueues.memoryRead, claimed, Option.isNone_some,
        Bool.false_and, Bool.false_eq_true, if_false, List.append_nil]
      exact ⟨_, rfl⟩
  | true =>
      simp only [request, step, MemoryQueues.memoryWrite, claimed]
      exact ⟨_, rfl⟩

/-- A busy `SimpleUart` that takes a request leaves one record fewer. -/
theorem Overwrites.loses {s : MemorySystem} {j : MemoryStep} (overwrites : s.Overwrites j)
    (dramQueueSize : Nat) (conserved : s.Conserved) :
    ∃ s', step dramQueueSize s j = .ok s' ∧ ¬ s'.Conserved := by
  have loses (isWrite : Bool) (requester : Requester) (addr : Word) (size : BitVec 32)
      (sends : Bool) (queue : s.memory.deviceIdleQueue ≠ [])
      (found : Nat × DevicePort) (claimed : s.memory.deviceAt addr = some found)
      (forgets : found.2.Forgets) :
      ∃ s', step dramQueueSize s (request isWrite requester addr size sends) = .ok s' ∧
        ¬ s'.Conserved := by
    obtain ⟨log, moved⟩ :=
      step_request dramQueueSize isWrite requester addr size sends claimed
    refine ⟨_, moved, fun after => ?_⟩
    obtain ⟨idle, holds, length⟩ := deviceRequest_loses isWrite requester addr size
      (getElem?_of_deviceAt claimed) forgets queue
    have before := conserved.records
    have after := after.records
    dsimp only at after
    omega
  cases j with
  | read requester addr size sends =>
      obtain ⟨queue, found, claimed, forgets⟩ := overwrites
      exact loses false requester addr size sends queue found claimed forgets
  | write requester addr size sends =>
      obtain ⟨queue, found, claimed, forgets⟩ := overwrites
      exact loses true requester addr size sends queue found claimed forgets
  | complete index => exact overwrites.elim
  | tick => exact overwrites.elim

/-- In every run, device requests are conserved exactly as long as no busy `SimpleUart` takes
another request. Its `addRequest` does not look whether it has one already, so the first is
never answered; the other devices refuse, and the refused record goes back to the front of the
idle queue. -/
theorem conservesRequests_iff (devices : List DeviceConfig) (dramQueueSize : Nat)
    (steps : List MemoryStep) :
    ConservesRequests devices dramQueueSize steps ↔
      ∀ s j, Visits (step dramQueueSize) (start devices dramQueueSize) steps s j →
        ¬ s.Overwrites j := by
  have conserved : (∀ before, before <+: steps →
      Returns (runSteps (step dramQueueSize) (start devices dramQueueSize) before) Conserved) ↔
      ∀ s j, Visits (step dramQueueSize) (start devices dramQueueSize) steps s j →
        ¬ s.Overwrites j := by
    have sound := start_sound devices dramQueueSize
    refine runSteps_prefix_returns_iff Sound ?_ ?_ sound sound.conserved steps
    · intro s j s' inv keeps moved
      have after := inv.moves keeps (step_moves moved)
      exact ⟨after, after.conserved⟩
    · intro s j inv overwrites
      exact overwrites.loses dramQueueSize inv.conserved
  refine ⟨fun all => conserved.1 all.1, fun keeps => ⟨conserved.2 keeps, ?_⟩⟩
  intro s j visit
  refine (visit.invariant (start_sound devices dramQueueSize) ?_).refusalKeeps j
  intro s j visit inv s' moved
  exact inv.moves (keeps s j visit) (step_moves moved)

/-- The instruction cache and then the data cache write to the console before a tick. -/
def twoWritesSteps : List MemoryStep :=
  [.write ⟨0, fun _ => 0⟩ 0x10000000 1 true, .write ⟨1, fun _ => 0⟩ 0x10000000 1 true]

/-- The device holds one record and the queue is empty, of two records. -/
theorem not_conservesRequests_twoWritesSteps :
    ¬ ConservesRequests [.simpleUart 0x10000000, .clint 0x02000000] 32 twoWritesSteps := by
  rintro ⟨conserved, -⟩
  obtain ⟨s, ran, lost⟩ := exists_ok_of_toOption
    (x := runSteps (step 32) (start [.simpleUart 0x10000000, .clint 0x02000000] 32)
      twoWritesSteps)
    (f := fun s => s.memory.deviceIdleQueue.length +
      (s.memory.devices.filterMap held).length + s.memory.devices.length)
    (b := 3) (by decide +kernel)
  have all := (conserved twoWritesSteps (List.prefix_refl _) s ran).records
  omega

end MemorySystem

end CPUDelaySim
