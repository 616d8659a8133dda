import CPUDelaySim.Common.Agrees
import CPUDelaySim.Common.Buffer
import CPUDelaySim.Common.Circular
import CPUDelaySim.Common.DecodeInfo

/-!
# The byte queue of the serial chip

`device/fifo8.cpp`. A queue is a circular buffer with a capacity of its own. Its functions assert
what they need, and compute in 32 bits.

`ByteQueue` is the queue itself, with the place it begins at; `Fifo8.calls_refine` says that the
functions are its operations in any order of calls, and that an assertion fails exactly where the
queue has no such step.

`Valid` is the invariant of the members, and each function has one lemma from it
(`push_spec`, `pop_spec`, `popBuf_spec`, `pushAll_spec`), with the step of the queue and with the
assertion that fails where there is none.  `popBuf` hands out no more than lies before the end of
the buffer, so the queue it is compared with has to know where its first byte lies.
-/

namespace CPUDelaySim

/-- `Fifo8`. -/
structure Fifo8 where
  data : Nat → Byte
  capacity : BitVec 32
  head : BitVec 32
  num : BitVec 32

namespace Fifo8

/-- `fifo8_create`, with what `malloc` returns. -/
def create (data : Nat → Byte) (capacity : BitVec 32) : Fifo8 := ⟨data, capacity, 0, 0⟩

/-- `fifo8_push`. -/
def push (fifo : Fifo8) (data : Byte) : Except Abort Fifo8 :=
  if fifo.num < fifo.capacity then
    .ok { fifo with
      data := Function.update fifo.data ((fifo.head + fifo.num) % fifo.capacity).toNat data
      num := fifo.num + 1 }
  else .error .assertFail

/-- `fifo8_push_all`; `num` is the length of the array. -/
def pushAll (fifo : Fifo8) (data : List Byte) : Except Abort Fifo8 :=
  let num := BitVec.ofNat 32 data.length
  if fifo.num + num ≤ fifo.capacity then
    if fifo.capacity = 0 then .error .undefinedArith
    else
      let start := (fifo.head + fifo.num) % fifo.capacity
      let avail := (fifo.capacity - start).toNat
      .ok { fifo with
        data :=
          if start + num ≤ fifo.capacity then Buffer.store fifo.data start.toNat data
          else Buffer.store (Buffer.store fifo.data start.toNat (data.take avail)) 0
            (data.drop avail)
        num := fifo.num + num }
  else .error .assertFail

/-- `fifo8_pop`. -/
def pop (fifo : Fifo8) : Except Abort (Byte × Fifo8) :=
  if 0 < fifo.num then
    .ok (fifo.data fifo.head.toNat,
      { fifo with head := (fifo.head + 1) % fifo.capacity, num := fifo.num - 1 })
  else .error .assertFail

/-- `fifo8_pop_buf`: the bytes at the pointer it returns. -/
def popBuf (fifo : Fifo8) (max : BitVec 32) : Except Abort (List Byte × Fifo8) :=
  if 0 < max ∧ max ≤ fifo.num then
    let num := if fifo.capacity - fifo.head < max then fifo.capacity - fifo.head else max
    .ok (Buffer.load fifo.data fifo.head.toNat num.toNat,
      { fifo with head := (fifo.head + num) % fifo.capacity, num := fifo.num - num })
  else .error .assertFail

/-- `fifo8_reset`. -/
def reset (fifo : Fifo8) : Fifo8 := { fifo with num := 0, head := 0 }

/-- `fifo8_is_empty`. -/
def isEmpty (fifo : Fifo8) : Bool := fifo.num == 0

/-- `fifo8_is_full`. -/
def isFull (fifo : Fifo8) : Bool := fifo.num == fifo.capacity

/-- `fifo8_num_free`. -/
def numFree (fifo : Fifo8) : BitVec 32 := fifo.capacity - fifo.num

/-- `fifo8_num_used`. -/
def numUsed (fifo : Fifo8) : BitVec 32 := fifo.num

end Fifo8

/-! ### The queue -/

/-- A queue that knows how far its first byte is from the begin of a buffer. -/
structure ByteQueue where
  items : List Byte
  turn : Nat

namespace ByteQueue

/-- The first `n` bytes leave. -/
def leave (capacity : Nat) (q : ByteQueue) (n : Nat) : ByteQueue :=
  ⟨q.items.drop n, (q.turn + n) % capacity⟩

/-- There is room for what comes. -/
def enter (capacity : Nat) (q : ByteQueue) (data : List Byte) : Except Abort ByteQueue :=
  if q.items.length + data.length ≤ capacity then .ok { q with items := q.items ++ data }
  else .error .assertFail

end ByteQueue

/-- A call of one of the functions that change a queue. -/
inductive Fifo8Call
  | push (data : Byte)
  | pushAll (data : List Byte)
  | pop
  | popBuf (max : BitVec 32)
  | reset

/-- The call, and the bytes it returns behind those of the calls before. -/
def Fifo8.call (s : Fifo8 × List Byte) : Fifo8Call → Except Abort (Fifo8 × List Byte)
  | .push data => (s.1.push data).map fun fifo => (fifo, s.2)
  | .pushAll data => (s.1.pushAll data).map fun fifo => (fifo, s.2)
  | .pop => s.1.pop.map fun r => (r.2, s.2 ++ [r.1])
  | .popBuf max => (s.1.popBuf max).map fun r => (r.2, s.2 ++ r.1)
  | .reset => .ok (s.1.reset, s.2)

/-- The call on the queue: one byte, or what is asked for up to the end of the buffer. -/
def ByteQueue.call (capacity : Nat) (s : ByteQueue × List Byte) :
    Fifo8Call → Except Abort (ByteQueue × List Byte)
  | .push data => (s.1.enter capacity [data]).map fun q => (q, s.2)
  | .pushAll data => (s.1.enter capacity data).map fun q => (q, s.2)
  | .pop =>
      if s.1.items = [] then .error .assertFail
      else .ok (s.1.leave capacity 1, s.2 ++ s.1.items.take 1)
  | .popBuf max =>
      if max = 0 ∨ s.1.items.length < max.toNat then .error .assertFail
      else
        let n := min (capacity - s.1.turn) max.toNat
        .ok (s.1.leave capacity n, s.2 ++ s.1.items.take n)
  | .reset => .ok (⟨[], 0⟩, s.2)

namespace Fifo8

variable {fifo : Fifo8} {q : ByteQueue}

/-- The bytes in the queue. -/
def toList (fifo : Fifo8) : List Byte :=
  Circular.contents fifo.data fifo.capacity.toNat fifo.head.toNat fifo.num.toNat

/-- The members are those of a queue.  No sum of two of them leaves 32 bits. -/
structure Valid (fifo : Fifo8) : Prop where
  head : fifo.head.toNat < fifo.capacity.toNat
  num : fifo.num.toNat ≤ fifo.capacity.toNat
  small : fifo.capacity.toNat ≤ 2 ^ 31

/-- The contents are as long as `num` says. -/
@[simp] theorem toList_length (fifo : Fifo8) : fifo.toList.length = fifo.num.toNat :=
  Circular.contents_length

/-- A FIFO that has been created is valid, if it has room for a byte. -/
theorem create_valid (data : Nat → Byte) {capacity : BitVec 32} (pos : 0 < capacity.toNat)
    (small : capacity.toNat ≤ 2 ^ 31) : (create data capacity).Valid :=
  ⟨pos, Nat.zero_le _, small⟩

/-- `fifo8_is_empty`. -/
theorem isEmpty_iff : fifo.isEmpty = true ↔ fifo.toList = [] := by
  rw [isEmpty, beq_iff_eq, ← List.length_eq_zero_iff, toList_length]
  exact ⟨fun h => by rw [h]; rfl, fun h => BitVec.eq_of_toNat_eq h⟩

/-- `fifo8_is_full`. -/
theorem isFull_iff : fifo.isFull = true ↔ fifo.toList.length = fifo.capacity.toNat := by
  rw [isFull, beq_iff_eq, toList_length]
  exact ⟨fun h => by rw [h], fun h => BitVec.eq_of_toNat_eq h⟩

/-- A FIFO that has been reset is valid. -/
theorem reset_valid (valid : fifo.Valid) : fifo.reset.Valid :=
  ⟨Nat.lt_of_le_of_lt (Nat.zero_le _) valid.head, Nat.zero_le _, valid.small⟩

/-- It is empty. -/
@[simp] theorem reset_toList (fifo : Fifo8) : fifo.reset.toList = [] := rfl

/-- Sums of the members, in 32 bits. -/
theorem Valid.sum (valid : fifo.Valid) :
    (fifo.head + fifo.num).toNat = fifo.head.toNat + fifo.num.toNat := by
  have head := valid.head
  have num := valid.num
  have small := valid.small
  exact BitVec.toNat_add_of_lt (by omega)

/-- Where the queue goes on. -/
theorem Valid.stop (valid : fifo.Valid) :
    ((fifo.head + fifo.num) % fifo.capacity).toNat =
      (fifo.head.toNat + fifo.num.toNat) % fifo.capacity.toNat := by
  rw [BitVec.toNat_umod, valid.sum]

/-- `fifo8_push` puts a byte to the end, if there is room. -/
theorem push_spec (valid : fifo.Valid) (room : fifo.toList.length < fifo.capacity.toNat)
    (data : Byte) :
    ∃ after, fifo.push data = .ok after ∧ after.Valid ∧ after.toList = fifo.toList ++ [data] ∧
      after.head = fifo.head ∧ after.capacity = fifo.capacity := by
  rw [toList_length] at room
  have small := valid.small
  have num : (fifo.num + 1).toNat = fifo.num.toNat + 1 := BitVec.toNat_add_of_lt (by
    change fifo.num.toNat + 1 < _
    omega)
  unfold push
  rw [if_pos (BitVec.lt_def.2 room)]
  refine ⟨_, rfl, ⟨valid.head, ?_, small⟩, ?_, rfl, rfl⟩
  · dsimp only
    omega
  · unfold toList
    dsimp only
    rw [num, valid.stop]
    exact Circular.contents_push room data

/-- `fifo8_pop` takes the byte at the front, and the front goes round. -/
theorem pop_spec (valid : fifo.Valid) {first : Byte} {rest : List Byte}
    (held : fifo.toList = first :: rest) :
    ∃ after, fifo.pop = .ok (first, after) ∧ after.Valid ∧ after.toList = rest ∧
      after.head.toNat = (fifo.head.toNat + 1) % fifo.capacity.toNat ∧
        after.capacity = fifo.capacity := by
  have head := valid.head
  have small := valid.small
  have len : fifo.num.toNat = rest.length + 1 := by rw [← toList_length, held, List.length_cons]
  have sum : (fifo.head + 1).toNat = fifo.head.toNat + 1 := BitVec.toNat_add_of_lt (by
    change fifo.head.toNat + 1 < _
    omega)
  have left : (fifo.num - 1).toNat = rest.length := by
    rw [BitVec.toNat_sub_of_le (BitVec.le_def.2 (by change 1 ≤ _; omega)), len]
    rfl
  have split := held
  unfold toList at split
  rw [len, Circular.contents_pop head, List.cons.injEq] at split
  unfold pop
  rw [if_pos (BitVec.lt_def.2 (by change 0 < _; omega)), split.1]
  have moved : ((fifo.head + 1) % fifo.capacity).toNat =
      (fifo.head.toNat + 1) % fifo.capacity.toNat := by
    rw [BitVec.toNat_umod, sum]
  refine ⟨_, rfl, ⟨?_, ?_, small⟩, ?_, moved, rfl⟩
  · dsimp only
    rw [moved]
    exact Nat.mod_lt _ (by omega)
  · have num := valid.num
    dsimp only
    omega
  · unfold toList
    dsimp only
    rw [moved, left]
    exact split.2

/-- The first bytes, up to the end of the buffer. -/
theorem popBuf_spec (valid : fifo.Valid) {max : BitVec 32} (pos : 0 < max.toNat)
    (le : max.toNat ≤ fifo.toList.length) :
    ∃ after n, n = min (fifo.capacity.toNat - fifo.head.toNat) max.toNat ∧
      fifo.popBuf max = .ok (fifo.toList.take n, after) ∧ after.Valid ∧
      after.toList = fifo.toList.drop n ∧
      after.head.toNat = (fifo.head.toNat + n) % fifo.capacity.toNat ∧
        after.capacity = fifo.capacity := by
  rw [toList_length] at le
  have head := valid.head
  have num := valid.num
  have small := valid.small
  have space : (fifo.capacity - fifo.head).toNat = fifo.capacity.toNat - fifo.head.toNat :=
    BitVec.toNat_sub_of_le (BitVec.le_def.2 (by omega))
  unfold popBuf
  rw [if_pos ⟨BitVec.lt_def.2 pos, BitVec.le_def.2 le⟩]
  -- As many as are asked for, or as there are up to the end of the buffer.
  have taken : (if fifo.capacity - fifo.head < max then fifo.capacity - fifo.head
      else max).toNat = min (fifo.capacity.toNat - fifo.head.toNat) max.toNat := by
    split
    next less =>
      rw [BitVec.lt_def, space] at less
      rw [space]
      omega
    next more =>
      rw [BitVec.lt_def, space] at more
      omega
  generalize (if fifo.capacity - fifo.head < max then fifo.capacity - fifo.head else max) = n
    at taken
  dsimp only
  have n_le : n.toNat ≤ fifo.num.toNat := by omega
  have sum : (fifo.head + n).toNat = fifo.head.toNat + n.toNat := BitVec.toNat_add_of_lt (by omega)
  have left : (fifo.num - n).toNat = fifo.num.toNat - n.toNat :=
    BitVec.toNat_sub_of_le (BitVec.le_def.2 n_le)
  have moved : ((fifo.head + n) % fifo.capacity).toNat =
      (fifo.head.toNat + n.toNat) % fifo.capacity.toNat := by
    rw [BitVec.toNat_umod, sum]
  -- The queue falls into what is returned and what stays.
  obtain ⟨first, rest⟩ :
      Circular.contents fifo.data fifo.capacity.toNat fifo.head.toNat n.toNat = _ ∧ _ :=
    Circular.contents_split n_le
  refine ⟨{ fifo with head := (fifo.head + n) % fifo.capacity, num := fifo.num - n },
    n.toNat, taken,
    ?_, ⟨?_, ?_, small⟩, ?_, moved, rfl⟩
  · unfold toList
    rw [← first, Circular.contents_of_fits (by omega)]
    rfl
  · dsimp only
    rw [moved]
    exact Nat.mod_lt _ (by omega)
  · dsimp only
    omega
  · unfold toList
    dsimp only
    rw [moved, left]
    exact rest

/-- All bytes, in two pieces if the buffer ends between them. -/
theorem pushAll_spec (valid : fifo.Valid) {data : List Byte}
    (room : fifo.toList.length + data.length ≤ fifo.capacity.toNat) :
    ∃ after, fifo.pushAll data = .ok after ∧ after.Valid ∧ after.toList = fifo.toList ++ data ∧
      after.head = fifo.head ∧ after.capacity = fifo.capacity := by
  rw [toList_length] at room
  have head := valid.head
  have small := valid.small
  have len : (BitVec.ofNat 32 data.length).toNat = data.length := by
    rw [BitVec.toNat_ofNat]
    exact Nat.mod_eq_of_lt (by omega)
  have num : (fifo.num + BitVec.ofNat 32 data.length).toNat = fifo.num.toNat + data.length := by
    rw [BitVec.toNat_add_of_lt (by omega), len]
  have nonzero : fifo.capacity ≠ 0 := by
    intro zero
    rw [zero] at head
    exact absurd head (Nat.not_lt_zero _)
  have stop := valid.stop
  unfold pushAll
  dsimp only
  rw [if_pos (BitVec.le_def.2 (by omega)), if_neg nonzero]
  generalize (fifo.head + fifo.num) % fifo.capacity = start at stop
  have start_lt : start.toNat < fifo.capacity.toNat := by
    rw [stop]
    exact Nat.mod_lt _ (by omega)
  have space : (fifo.capacity - start).toNat = fifo.capacity.toNat - start.toNat :=
    BitVec.toNat_sub_of_le (BitVec.le_def.2 (by omega))
  have until_end : (start + BitVec.ofNat 32 data.length).toNat = start.toNat + data.length := by
    rw [BitVec.toNat_add_of_lt (by omega), len]
  have stored : (if start + BitVec.ofNat 32 data.length ≤ fifo.capacity then
        Buffer.store fifo.data start.toNat data
      else Buffer.store (Buffer.store fifo.data start.toNat
        (data.take (fifo.capacity - start).toNat)) 0 (data.drop (fifo.capacity - start).toNat)) =
      Circular.storeRound fifo.data fifo.capacity.toNat start.toNat data := by
    rw [Circular.storeRound, space]
    exact if_congr (by rw [BitVec.le_def, until_end]) rfl rfl
  refine ⟨_, rfl, ⟨head, ?_, small⟩, ?_, rfl, rfl⟩
  · dsimp only
    omega
  · unfold toList
    dsimp only
    rw [num, stored]
    exact Circular.contents_append room head stop

/-! ### Any order of calls -/

/-- The queue that a buffer holds, and the bytes that both have returned. -/
structure Holds (capacity : Nat) (s : Fifo8 × List Byte) (t : ByteQueue × List Byte) : Prop where
  valid : s.1.Valid
  capacity : s.1.capacity.toNat = capacity
  items : s.1.toList = t.1.items
  turn : s.1.head.toNat = t.1.turn
  returned : s.2 = t.2

/-- Each call does to the FIFO what it does to the queue, and both return the same. -/
theorem call_agrees {capacity : Nat} {s : Fifo8 × List Byte} {t : ByteQueue × List Byte}
    (holds : Holds capacity s t) (c : Fifo8Call) (short : ∀ data, c = .pushAll data →
      data.length < 2 ^ 31) :
    Agrees (Holds capacity) (Fifo8.call s c) (ByteQueue.call capacity t c) := by
  obtain ⟨fifo, returned⟩ := s
  obtain ⟨⟨items, turn⟩, returned'⟩ := t
  obtain ⟨valid, rfl, rfl, rfl, rfl⟩ := holds
  dsimp only at valid ⊢
  have num := valid.num
  have small := valid.small
  cases c with
  | push data =>
      unfold Fifo8.call ByteQueue.call ByteQueue.enter
      dsimp only
      by_cases room : fifo.toList.length < fifo.capacity.toNat
      · obtain ⟨after, ran, valid, items, head, capacity⟩ := push_spec valid room data
        rw [ran, if_pos (show fifo.toList.length + [data].length ≤ _ from room)]
        exact .returns ⟨valid, congrArg _ capacity, items, congrArg _ head, rfl⟩
      · rw [if_neg (show ¬fifo.toList.length + [data].length ≤ _ from room)]
        rw [toList_length] at room
        unfold push
        rw [if_neg (show ¬fifo.num < fifo.capacity from room)]
        exact .stops _
  | pushAll data =>
      have short := short data rfl
      unfold Fifo8.call ByteQueue.call ByteQueue.enter
      dsimp only
      by_cases room : fifo.toList.length + data.length ≤ fifo.capacity.toNat
      · obtain ⟨after, ran, valid, items, head, capacity⟩ := pushAll_spec valid room
        rw [ran, if_pos room]
        exact .returns ⟨valid, congrArg _ capacity, items, congrArg _ head, rfl⟩
      · rw [if_neg room]
        rw [toList_length] at room
        unfold pushAll
        dsimp only
        rw [if_neg]
        · exact .stops _
        · -- The sum of two lengths does not wrap, as both are at most 2 ^ 31.
          rw [BitVec.le_def, BitVec.toNat_add, BitVec.toNat_ofNat]
          omega
  | pop =>
      unfold Fifo8.call ByteQueue.call ByteQueue.leave
      dsimp only
      cases held : fifo.toList with
      | nil =>
          have empty : fifo.num.toNat = 0 := by rw [← toList_length, held, List.length_nil]
          unfold pop
          -- `fifo8_pop` asserts what the queue asks for: something to take.
          rw [if_neg (by rw [BitVec.lt_def]; change ¬0 < _; omega), if_pos rfl]
          exact .stops _
      | cons first rest =>
          obtain ⟨after, ran, valid, items, head, capacity⟩ := pop_spec valid held
          rw [ran, if_neg (List.cons_ne_nil first rest)]
          exact .returns ⟨valid, congrArg _ capacity, items, head, rfl⟩
  | popBuf max =>
      unfold Fifo8.call ByteQueue.call ByteQueue.leave
      dsimp only
      by_cases asks : max = 0 ∨ fifo.toList.length < max.toNat
      · rw [if_pos asks]
        unfold popBuf
        rw [if_neg]
        · exact .stops _
        · rintro ⟨pos, le⟩
          rw [BitVec.lt_def] at pos
          rw [BitVec.le_def] at le
          rcases asks with rfl | less
          · exact absurd pos (Nat.lt_irrefl _)
          · rw [toList_length] at less
            omega
      · rw [if_neg asks]
        rw [not_or, Nat.not_lt] at asks
        have pos : 0 < max.toNat :=
          Nat.pos_of_ne_zero fun zero => asks.1 (BitVec.eq_of_toNat_eq zero)
        -- What is returned ends with the buffer, so it may be less than what is asked for.
        obtain ⟨after, n, taken, ran, valid, items, head, capacity⟩ :=
          popBuf_spec valid pos asks.2
        rw [ran, ← taken]
        exact .returns ⟨valid, congrArg _ capacity, items, head, rfl⟩
  | reset => exact .returns ⟨reset_valid valid, rfl, reset_toList fifo, rfl, rfl⟩

/-- Every order of calls on a new queue returns what the queue returns, and stops where it
stops: an assertion fails exactly where there is no room or nothing to take, or where
`fifo8_pop_buf` is asked for more than there is. The bound on the capacity keeps the sums of
32-bit indices from wrapping. -/
theorem calls_refine (data : Nat → Byte) {capacity : BitVec 32} (pos : 0 < capacity.toNat)
    (small : capacity.toNat ≤ 2 ^ 31) (calls : List Fifo8Call)
    (short : ∀ data, Fifo8Call.pushAll data ∈ calls → data.length < 2 ^ 31) :
    Agrees (Holds capacity.toNat) (runSteps call (create data capacity, []) calls)
      (runSteps (ByteQueue.call capacity.toNat) (⟨[], 0⟩, []) calls) := by
  have start : Holds capacity.toNat (create data capacity, []) (⟨[], 0⟩, []) :=
    ⟨create_valid data pos small, rfl, rfl, rfl, rfl⟩
  refine agrees_runSteps start calls ?_
  intro s t c listed holds
  refine call_agrees holds c ?_
  rintro data rfl
  exact short data listed

end Fifo8

/-- Four cells, in which the queue goes round. -/
def roundCalls : List Fifo8Call :=
  [.pushAll [1, 2, 3], .pop, .popBuf 1, .pushAll [4, 5, 6], .popBuf 4, .push 7, .pop, .pop]

/-- Calls that go round the buffer. -/
theorem calls_refine_round :
    Agrees (Fifo8.Holds 4) (runSteps Fifo8.call (.create (fun _ => 0) 4, []) roundCalls)
      (runSteps (ByteQueue.call 4) (⟨[], 0⟩, []) roundCalls) := by
  refine Fifo8.calls_refine (fun _ => 0) (show 0 < (4 : BitVec 32).toNat by decide) (by decide)
    roundCalls ?_
  intro data listed
  simp only [roundCalls, List.mem_cons, Fifo8Call.pushAll.injEq, reduceCtorEq, List.not_mem_nil,
    or_false, false_or] at listed
  rcases listed with rfl | rfl <;> decide

end CPUDelaySim
