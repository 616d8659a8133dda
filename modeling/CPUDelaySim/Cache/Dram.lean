import CPUDelaySim.Cache.Requests

/-!
# Completed reads

`memoryRead` writes who asked into the `DRAMMeta` that `LinkList::next` hands out, and the
callback of a read takes the one `LinkList::pop` returns: the oldest in use, whichever read
has completed.  So the requesters are told in the order they asked, and the scheduler of the
shipped memory system, `FRFCFS`, completes reads in another.

What is asked is only the order.  `sent` and `completed` are read off the log, and `InOrder`
compares them by requester, not by address: two reads of one cache may change places and nobody
can tell.  `Fifo` is what every step keeps: who has been told, and then who is still in the ring,
are together `sent`.
-/

namespace CPUDelaySim.MemorySystem

/-- Every read that completed called back whoever asked for it. -/
def CompletesOwn (s : MemorySystem) : Prop :=
  ∀ own told, .completed own told ∈ s.log → told = own

/-- Who asked for the reads the memory system accepted, in order. -/
def sent : List MemoryEvent → List Requester :=
  List.filterMap fun
    | .sent requester => some requester
    | _ => none

/-- Who asked for the reads that completed, and who was told, in order. -/
def completed : List MemoryEvent → List (Requester × Requester) :=
  List.filterMap fun
    | .completed own told => some (own, told)
    | _ => none

/-- The reads that completed were those accepted first, as far as who asked for them goes. -/
def InOrder (s : MemorySystem) : Prop := (completed s.log).map Prod.fst <+: sent s.log

/-- The requests sent to the DRAM, in two parts of a log. -/
@[simp] theorem sent_append (log out : List MemoryEvent) :
    sent (log ++ out) = sent log ++ sent out := List.filterMap_append ..

/-- The completions, in two parts of a log. -/
@[simp] theorem completed_append (log out : List MemoryEvent) :
    completed (log ++ out) = completed log ++ completed out := List.filterMap_append ..

/-- An event between a device and its requesters is not about reads. -/
def Silent (out : List MemoryEvent) : Prop := sent out = [] ∧ completed out = []

/-- Each completion is that of its own request exactly if the two orders are the same. -/
theorem completesOwn_iff (s : MemorySystem) :
    s.CompletesOwn ↔ (completed s.log).map Prod.snd = (completed s.log).map Prod.fst := by
  have member (own told : Requester) :
      .completed own told ∈ s.log ↔ (own, told) ∈ completed s.log := by
    rw [completed, List.mem_filterMap]
    constructor
    · exact fun found => ⟨_, found, rfl⟩
    · rintro ⟨e, found, same⟩
      cases e <;> cases same
      exact found
  simp only [CompletesOwn, member]
  rw [List.map_inj_left]
  exact ⟨fun own pair found => own pair.1 pair.2 found, fun same own told => same (own, told)⟩

/-- Requesters are told in the order they asked; those still waiting are in the ring. -/
structure Fifo (dramQueueSize : Nat) (s : MemorySystem) : Prop where
  told : sent s.log =
    (completed s.log).map Prod.snd ++ (sent s.log).drop (completed s.log).length
  ring : 0 < dramQueueSize →
    ∃ queue, s.memory.dramReadQueue.Queue dramQueueSize queue ∧
      queue.map s.memory.metas = (sent s.log).drop (completed s.log).length ∧
      queue.length = s.reads.length
  used : s.reads ≠ [] → 0 < dramQueueSize

/-- At first nothing is in the DRAM. -/
theorem start_fifo (devices : List DeviceConfig) (dramQueueSize : Nat) :
    (start devices dramQueueSize).Fifo dramQueueSize where
  told := rfl
  ring pos := ⟨[], LinkList.pushes_queue pos, rfl, rfl⟩
  used h := absurd rfl h

/-- A request for a device leaves the ring alone. -/
theorem deviceRequest_ring (isWrite : Bool) (requester : Requester) (addr : Word)
    (size : BitVec 32) (index : Nat) (device : DevicePort) (s : MemoryQueues) :
    (s.deviceRequest isWrite requester addr size index device).1.dramReadQueue =
        s.dramReadQueue ∧
      (s.deviceRequest isWrite requester addr size index device).1.metas = s.metas := by
  rw [MemoryQueues.deviceRequest]
  cases s.deviceIdleQueue with
  | nil => exact ⟨rfl, rfl⟩
  | cons front rest =>
      dsimp only
      split <;> exact ⟨rfl, rfl⟩

/-- A tick of the devices is no event of the DRAM. -/
theorem tickDevices_silent (records : Nat → DeviceReq) (index : Nat)
    (devices : List DevicePort) :
    Silent (MemoryQueues.tickDevices records index devices).2.2 := by
  induction devices generalizing index with
  | nil => exact ⟨rfl, rfl⟩
  | cons device rest ih =>
      have later := ih (index + 1)
      rcases responds : device.tick.checkResponse with ⟨device', none | req⟩
      · rw [MemoryQueues.tickDevices_none responds]
        exact later
      · rw [MemoryQueues.tickDevices_some responds]
        exact later

variable {dramQueueSize : Nat} {s s' : MemorySystem}

/-- A step that is not about reads keeps the order. -/
theorem Fifo.silent {memory : MemoryQueues} {out : List MemoryEvent}
    (inv : s.Fifo dramQueueSize) (silent : Silent out)
    (ring : memory.dramReadQueue = s.memory.dramReadQueue) (metas : memory.metas = s.memory.metas) :
    Fifo dramQueueSize { s with memory := memory, log := s.log ++ out } := by
  obtain ⟨noSent, noCompleted⟩ := silent
  refine ⟨?_, ?_, inv.used⟩
  · simpa [noSent, noCompleted] using inv.told
  · simpa [noSent, noCompleted, ring, metas] using inv.ring

/-- A read the memory system accepts. -/
theorem Fifo.sends {requester : Requester} (inv : s.Fifo dramQueueSize)
    (room : s.reads.length + 1 < dramQueueSize) :
    Fifo dramQueueSize
      { memory := { s.memory with
          dramReadQueue := s.memory.dramReadQueue.next.2
          metas := Function.update s.memory.metas s.memory.dramReadQueue.next.1 requester }
        reads := s.reads ++ [requester]
        log := s.log ++ [.sent requester] } := by
  have pos : 0 < dramQueueSize := by omega
  obtain ⟨queue, ring, waiting, length⟩ := inv.ring pos
  have all : (completed s.log).length ≤ (sent s.log).length := by
    have told := congrArg List.length inv.told
    simp at told
    omega
  have new : sent [.sent requester] = [requester] := rfl
  have none : completed [.sent requester] = [] := rfl
  have drop : (sent s.log ++ [requester]).drop (completed s.log).length =
      (sent s.log).drop (completed s.log).length ++ [requester] := List.drop_append_of_le_length all
  refine ⟨?_, fun _ => ⟨queue ++ [s.memory.dramReadQueue.next.1], ?_, ?_, ?_⟩, fun _ => pos⟩
  · rw [sent_append, completed_append, new, none, List.append_nil, drop, ← List.append_assoc,
      ← inv.told]
  · exact ring.next (by omega)
  · have fresh : ∀ node ∈ queue,
        Function.update s.memory.metas s.memory.dramReadQueue.next.1 requester node =
          s.memory.metas node := by
      intro node member
      refine Function.update_of_ne ?_ ..
      rintro rfl
      exact ring.tail_not_mem member
    rw [sent_append, completed_append, new, none, List.append_nil, drop, ← waiting,
      List.map_append, List.map_congr_left fresh]
    simp
  · simp [length]

/-- A read that completes. -/
theorem Fifo.completes {index : Nat} {own : Requester} (inv : s.Fifo dramQueueSize)
    (owed : s.reads[index]? = some own) :
    Fifo dramQueueSize
      { memory := s.memory.readDone.1
        reads := s.reads.eraseIdx index
        log := s.log ++ [.completed own s.memory.readDone.2] } := by
  have inside : index < s.reads.length := (List.getElem?_eq_some_iff.1 owed).1
  have pos : 0 < dramQueueSize := inv.used (List.ne_nil_of_length_pos (by omega))
  obtain ⟨queue, ring, waiting, length⟩ := inv.ring pos
  cases queue with
  | nil =>
      rw [List.length_nil] at length
      omega
  | cons node queue =>
      obtain ⟨popped, rest⟩ := ring.pop
      have told : s.memory.readDone.2 = s.memory.metas node := congrArg s.memory.metas popped
      have next : (sent s.log).drop ((completed s.log).length + 1) = queue.map s.memory.metas := by
        rw [← List.drop_drop, ← waiting]
        rfl
      have quiet : sent [.completed own s.memory.readDone.2] = [] := rfl
      have one : completed [.completed own s.memory.readDone.2] =
          [(own, s.memory.readDone.2)] := rfl
      refine ⟨?_, fun _ => ⟨queue, rest, ?_, ?_⟩, fun _ => pos⟩
      · have before := inv.told
        rw [← waiting] at before
        rw [sent_append, completed_append, quiet, one, List.append_nil, List.length_append,
          List.length_singleton, next, List.map_append, List.map_singleton, told]
        rw [before]
        simp
      · rw [sent_append, completed_append, quiet, one, List.append_nil, List.length_append,
          List.length_singleton, next]
        rfl
      · rw [List.length_cons] at length
        rw [List.length_eraseIdx_of_lt inside]
        omega

/-- Every step keeps the queue of the requests that are in the DRAM, in the order of their
acceptance. -/
theorem Fifo.moves {j : MemoryStep} (inv : s.Fifo dramQueueSize)
    (moved : s.Moves dramQueueSize j s') : s'.Fifo dramQueueSize := by
  cases moved with
  | device isWrite requester addr size sends index device claimed =>
      obtain ⟨ring, metas⟩ := deviceRequest_ring isWrite requester addr size index device s.memory
      refine inv.silent ?_ ring metas
      split <;> exact ⟨rfl, rfl⟩
  | sent requester addr size unclaimed room => exact inv.sends room
  | wrote requester addr size unclaimed => exact ⟨inv.told, inv.ring, inv.used⟩
  | refused isWrite requester addr size unclaimed => exact inv
  | completed index own owed => exact inv.completes owed
  | ticked =>
      refine inv.silent ?_ rfl rfl
      have devices := tickDevices_silent s.memory.records 0 s.memory.devices
      have out : s.memory.tick.2 = (s.memory.write.map MemoryEvent.written).toList ++
          (MemoryQueues.tickDevices s.memory.records 0 s.memory.devices).2.2 := rfl
      rw [out]
      cases s.memory.write with
      | none => exact devices
      | some callbackId => exact devices

/-- In every run, reads call back their own requesters exactly as long as they complete in the
order the requesters asked. The callback takes the oldest `DRAMMeta` of the list, whichever read
it is that completes; the condition speaks of the two orders alone. -/
theorem completesOwn_iff_inOrder (devices : List DeviceConfig) (dramQueueSize : Nat)
    (steps : List MemoryStep) :
    Returns (runSteps (step dramQueueSize) (start devices dramQueueSize) steps) fun s =>
      s.CompletesOwn ↔ s.InOrder := by
  have kept : Returns (runSteps (step dramQueueSize) (start devices dramQueueSize) steps)
      (Fifo dramQueueSize) :=
    runSteps_invariant (fun s j inv s' moved => inv.moves (step_moves moved)) (start_fifo ..) steps
  refine kept.mono fun s inv => ?_
  have told : (completed s.log).map Prod.snd = (sent s.log).take (completed s.log).length := by
    rw [inv.told]
    simp
  rw [completesOwn_iff, InOrder, List.prefix_iff_eq_take, told, List.length_map]
  exact eq_comm

/-- The instruction cache reads a line, then the data cache, whose read is done first. -/
def outOfOrderSteps : List MemoryStep :=
  [.read ⟨0, fun _ => 0⟩ 0x80000000 64 true, .read ⟨1, fun _ => 0⟩ 0x80010000 64 true,
    .complete 1]

/-- The instruction cache is told that its read is done. -/
theorem not_completesOwn_outOfOrderSteps :
    ¬ Returns (runSteps (step 32) (start [] 32) outOfOrderSteps) CompletesOwn := by
  intro all
  obtain ⟨s, ran, crossed⟩ := exists_ok_of_toOption
    (x := runSteps (step 32) (start [] 32) outOfOrderSteps) (f := fun s => completed s.log)
    (b := [(⟨1, fun _ => 0⟩, ⟨0, fun _ => 0⟩)]) (by decide +kernel)
  have same := (completesOwn_iff s).1 (all s ran)
  rw [crossed] at same
  exact absurd same (by decide)

end CPUDelaySim.MemorySystem
