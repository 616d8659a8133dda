import CPUDelaySim.Common.Buffer
import CPUDelaySim.Common.DecodeInfo
import CPUDelaySim.Common.Outcome
import Mathlib.Logic.Function.Basic

/-!
# The log database

`LogDB` of `common/dbhandler.cpp`.  `addData` copies a record into the slice at
`process_slice`; a slice that is full is compressed by a task of the pool, and what that leaves
is written to the file by another.  One task of each kind is handed out by `checkCompress` and
`checkWriteback`, which only the producer calls.  `close` does what is left by itself.

A task is one step of a run, with the state it sets and its `notify_one`.  `inp_buffer` and
`out_buffer` are one buffer, as they lie in the object, so that a copy past the end of a slice
lands where it does.  `ZSTD_compressCCtx` is a parameter: the frame it leaves, or none if it
fails.  The header of the file is not modelled but for `origin_size`.
-/

namespace CPUDelaySim

namespace LogDB

/-- `BUFFER_SIZE`. -/
def bufferSize : Nat := 1024 * 1024 * 32

/-- `BUFFER_SLICE`. -/
def bufferSlice : Nat := 4

/-- `SLICE_SIZE`. -/
def sliceSize : Nat := bufferSize / bufferSlice

/-- `SLICE_BUFFER_SIZE`. -/
def sliceBufferSize : Nat := sliceSize + 1024

end LogDB

/-- The argument of `addData`.  Copies of at most `BUFFER_SIZE` bytes end inside the two
buffers. -/
structure Record where
  bytes : List Byte
  fits : bytes.length ≤ LogDB.bufferSize

/-- `enum BufferState`. -/
inductive BufferState
  | free
  | processReady
  | processing
  | processDone
  | done
  deriving DecidableEq

/-- `struct BufferSlice`. -/
structure BufferSlice where
  state : BufferState
  inpBufferIdx : Nat
  outBufferSize : Nat

/-- A task in the pool, with what it captures. -/
inductive Task
  /-- The task of `checkCompress`. -/
  | compress (slice size : Nat)
  /-- The task of `checkWriteback`. -/
  | write (slice size : Nat)
  deriving DecidableEq

/-- `class LogDB`, with its tasks in the pool and what has been written after the header. -/
structure LogDB where
  buffer : Nat → Byte
  bufferSliceInfo : Nat → BufferSlice
  processSlice : Nat
  compressSlice : Nat
  writebackSlice : Nat
  isWriting : Bool
  originSize : Word
  pool : List Task
  file : List (List Byte)
  /-- `meta["origin_size"]`. -/
  metaOriginSize : Word

/-- Why a run stops. -/
inductive LogStop
  /-- The producer is still in `addData`. -/
  | producerBusy
  /-- It is not in `cv.wait`. -/
  | notWaiting
  /-- The database is closed. -/
  | closed
  | noSuchTask
  /-- `pool.wait()` has not returned. -/
  | tasksPending
  | compressFailed
  deriving DecidableEq

namespace LogDB

/-- `LogDB::LogDB`. -/
def init : LogDB where
  buffer := fun _ => 0
  bufferSliceInfo := fun _ => ⟨.free, 0, 0⟩
  processSlice := 0
  compressSlice := 0
  writebackSlice := 0
  isWriting := false
  originSize := 0
  pool := []
  file := []
  metaOriginSize := 0xffffffffffffffff

/-- Where `inp_buffer[slice]` begins. -/
def inpBuffer (slice : Nat) : Nat := sliceBufferSize * slice

/-- Where `out_buffer[slice]` begins. -/
def outBuffer (slice : Nat) : Nat := sliceBufferSize * (bufferSlice + slice)

/-- The state of a slice. -/
def state (db : LogDB) (slice : Nat) : BufferState := (db.bufferSliceInfo slice).state

/-- Changes a slice. -/
def setSlice (db : LogDB) (slice : Nat) (f : BufferSlice → BufferSlice) : LogDB :=
  { db with bufferSliceInfo :=
      Function.update db.bufferSliceInfo slice (f (db.bufferSliceInfo slice)) }

/-- `LogDB::checkCompress`. -/
def checkCompress (db : LogDB) : LogDB :=
  if db.state db.compressSlice = .processReady then
    let task := .compress db.compressSlice (db.bufferSliceInfo db.compressSlice).inpBufferIdx
    { db.setSlice db.compressSlice ({ · with state := .processing }) with
      pool := db.pool ++ [task]
      compressSlice := (db.compressSlice + 1) % bufferSlice }
  else db

/-- `LogDB::checkWriteback`. -/
def checkWriteback (db : LogDB) : LogDB :=
  if db.state db.writebackSlice = .processDone ∧ db.isWriting = false then
    let task := .write db.writebackSlice (db.bufferSliceInfo db.writebackSlice).outBufferSize
    { db.setSlice db.writebackSlice ({ · with state := .done }) with
      isWriting := true
      pool := db.pool ++ [task]
      writebackSlice := (db.writebackSlice + 1) % bufferSlice }
  else db

/-- The `memcpy` of `LogDB::addData`, and the members it counts in. -/
def copyRecord (record : Record) (db : LogDB) : LogDB :=
  let idx := (db.bufferSliceInfo db.processSlice).inpBufferIdx
  { db.setSlice db.processSlice ({ · with inpBufferIdx := idx + record.bytes.length }) with
    buffer := Buffer.store db.buffer (inpBuffer db.processSlice + idx) record.bytes
    originSize := db.originSize + BitVec.ofNat 64 record.bytes.length }

/-- The slice at `process_slice` is handed on when it has reached `SLICE_BUFFER_SIZE`. -/
def finishSlice (db : LogDB) : LogDB :=
  if sliceBufferSize ≤ (db.bufferSliceInfo db.processSlice).inpBufferIdx then
    { db.setSlice db.processSlice ({ · with state := .processReady }) with
      processSlice := (db.processSlice + 1) % bufferSlice }
  else db

/-- `LogDB::addData`, after its loop. -/
def append (record : Record) (db : LogDB) : LogDB :=
  (db.copyRecord record).finishSlice.checkCompress.checkWriteback

section Compress

variable (compress : List Byte → Option (List Byte))

/-- `ZSTD_compressCCtx`, from `inp_buffer[slice]` to `out_buffer[slice]`, and the members the
result is recorded in. -/
def compressInto (slice size : Nat) (db : LogDB) : Except LogStop LogDB :=
  match compress (Buffer.load db.buffer (inpBuffer slice) size) with
  | none => .error .compressFailed
  | some frame =>
      .ok { db.setSlice slice fun info =>
              { info with outBufferSize := frame.length, state := .processDone } with
            buffer := Buffer.store db.buffer (outBuffer slice) frame }

/-- The `file->write` of `size` bytes from `out_buffer[slice]`. -/
def writeFile (slice size : Nat) (db : LogDB) : LogDB :=
  { db with file := db.file ++ [Buffer.load db.buffer (outBuffer slice) size] }

/-- What a task does. -/
def runTask (db : LogDB) : Task → Except LogStop LogDB
  | .compress slice size => db.compressInto compress slice size
  | .write slice size =>
      .ok { (db.writeFile slice size).setSlice slice fun _ => ⟨.free, 0, 0⟩ with
            isWriting := false }

/-- The first loop of `LogDB::close`.  Every turn takes a slice from `PROCESS_READY`, so there
are at most as many as slices. -/
def closeCompress : Nat → LogDB → Except LogStop LogDB
  | 0, db => .ok db
  | turns + 1, db =>
      if db.state db.compressSlice = .processReady then do
        let db' ← db.compressInto compress db.compressSlice
          (db.bufferSliceInfo db.compressSlice).inpBufferIdx
        closeCompress turns
          { db' with compressSlice := (db.compressSlice + 1) % bufferSlice }
      else .ok db

/-- The second loop of `LogDB::close`, whose turns take slices from `PROCESS_DONE`. -/
def closeWriteback : Nat → LogDB → LogDB
  | 0, db => db
  | turns + 1, db =>
      if db.state db.writebackSlice = .processDone then
        let db' := (db.writeFile db.writebackSlice
          (db.bufferSliceInfo db.writebackSlice).outBufferSize).setSlice db.writebackSlice
            ({ · with state := .free })
        closeWriteback turns
          { db' with writebackSlice := (db.writebackSlice + 1) % bufferSlice }
      else db

/-- What `LogDB::close` does to the header and to a slice that is not full. -/
def closeSlice (db : LogDB) : LogDB :=
  let db := { db with metaOriginSize := db.originSize }
  if (db.bufferSliceInfo db.processSlice).inpBufferIdx ≠ 0 then
    db.setSlice db.processSlice ({ · with state := .processReady })
  else db

/-- `LogDB::close`. -/
def close (db : LogDB) : Except LogStop LogDB := do
  let db ← db.closeSlice.closeCompress compress bufferSlice
  .ok (db.closeWriteback bufferSlice)

end Compress

end LogDB

/-! ### Runs -/

/-- The database and its producer, with the copies it has made: where in a slice each begins,
and how long it is. -/
structure LogRun where
  db : LogDB
  /-- The record of an `addData` that is in `cv.wait`. -/
  waiting : Option Record
  /-- A task has called `notify_one` since that wait began. -/
  notified : Bool
  added : List Record
  copies : List (Nat × Nat)
  closed : Bool

/-- One step of a run.  A wait may also end without being notified. -/
inductive LogStep
  | addData (record : Record)
  /-- `cv.wait` returns. -/
  | wake
  /-- A task of the pool runs. -/
  | finish (task : Task)
  /-- `DBHandler::closeDB`. -/
  | close

namespace LogRun

/-- Before the first record. -/
def start : LogRun := ⟨.init, none, false, [], [], false⟩

/-- The record is copied into the slice at `process_slice`, which is `FREE`. -/
def copied (record : Record) (s : LogRun) : LogRun :=
  { s with
    db := s.db.append record
    waiting := none
    added := s.added ++ [record]
    copies := s.copies ++
      [((s.db.bufferSliceInfo s.db.processSlice).inpBufferIdx, record.bytes.length)] }

/-- The head of the loop of `addData`. -/
def tryCopy (record : Record) (s : LogRun) : LogRun :=
  if s.db.state s.db.processSlice = .free then s.copied record
  else { s with waiting := some record, notified := false }

/-- The effect of a step. -/
def step (compress : List Byte → Option (List Byte)) (s : LogRun) :
    LogStep → Except LogStop LogRun
  | .addData record =>
      if s.closed then .error .closed
      else if s.waiting.isSome then .error .producerBusy
      else .ok (s.tryCopy record)
  | .wake =>
      match s.waiting with
      | none => .error .notWaiting
      | some record =>
          .ok (tryCopy record { s with db := s.db.checkCompress.checkWriteback })
  | .finish task =>
      if task ∈ s.db.pool then do
        let db ← s.db.runTask compress task
        .ok { s with db := { db with pool := s.db.pool.erase task }, notified := true }
      else .error .noSuchTask
  | .close =>
      if s.closed then .error .closed
      else if s.waiting.isSome then .error .producerBusy
      else if s.db.pool ≠ [] then .error .tasksPending
      else do
        let db ← s.db.close compress
        .ok { s with db := db, closed := true }

/-- What a step can do. -/
inductive Moves (compress : List Byte → Option (List Byte)) (s : LogRun) :
    LogStep → LogRun → Prop
  | added (record : Record) (idle : s.waiting = none) (opened : s.closed = false)
      (free : s.db.state s.db.processSlice = .free) :
      Moves compress s (.addData record) (s.copied record)
  | blocked (record : Record) (idle : s.waiting = none) (opened : s.closed = false)
      (held : s.db.state s.db.processSlice ≠ .free) :
      Moves compress s (.addData record) { s with waiting := some record, notified := false }
  | resumed (record : Record) (waits : s.waiting = some record) (db : LogDB)
      (checked : db = s.db.checkCompress.checkWriteback)
      (free : db.state db.processSlice = .free) :
      Moves compress s .wake (copied record { s with db := db })
  | stays (record : Record) (waits : s.waiting = some record) (db : LogDB)
      (checked : db = s.db.checkCompress.checkWriteback)
      (held : db.state db.processSlice ≠ .free) :
      Moves compress s .wake { s with db := db, waiting := some record, notified := false }
  | compressed (slice size : Nat) (mem : .compress slice size ∈ s.db.pool) (frame : List Byte)
      (ran : compress (Buffer.load s.db.buffer (LogDB.inpBuffer slice) size) = some frame) :
      Moves compress s (.finish (.compress slice size))
        { s with
          db := { s.db with
            bufferSliceInfo := Function.update s.db.bufferSliceInfo slice
              { s.db.bufferSliceInfo slice with
                outBufferSize := frame.length, state := .processDone }
            buffer := Buffer.store s.db.buffer (LogDB.outBuffer slice) frame
            pool := s.db.pool.erase (.compress slice size) }
          notified := true }
  | wrote (slice size : Nat) (mem : .write slice size ∈ s.db.pool) :
      Moves compress s (.finish (.write slice size))
        { s with
          db := { s.db with
            bufferSliceInfo := Function.update s.db.bufferSliceInfo slice ⟨.free, 0, 0⟩
            file := s.db.file ++ [Buffer.load s.db.buffer (LogDB.outBuffer slice) size]
            isWriting := false
            pool := s.db.pool.erase (.write slice size) }
          notified := true }
  | closes (idle : s.waiting = none) (opened : s.closed = false) (settled : s.db.pool = [])
      (db : LogDB) (ran : s.db.close compress = .ok db) :
      Moves compress s .close { s with db := db, closed := true }

/-- What a step of the database does, case by case. -/
theorem step_moves {compress : List Byte → Option (List Byte)} {s s' : LogRun} {j : LogStep}
    (moved : step compress s j = .ok s') : s.Moves compress j s' := by
  cases j with
  | addData record =>
      rw [step] at moved
      split at moved
      · cases moved
      rename_i opened
      split at moved
      · cases moved
      rename_i idle
      have opened := Bool.eq_false_iff.2 opened
      have idle := Option.not_isSome_iff_eq_none.1 idle
      -- `addData` copies the record, or waits for a slice that is still being written.
      rw [tryCopy] at moved
      split at moved
      · rename_i free
        cases moved
        exact .added record idle opened free
      · rename_i held
        cases moved
        exact .blocked record idle opened held
  | wake =>
      rw [step] at moved
      cases waits : s.waiting with
      | none =>
          rw [waits] at moved
          cases moved
      | some record =>
          rw [waits] at moved
          dsimp only [tryCopy] at moved
          split at moved
          · rename_i free
            cases moved
            exact .resumed record waits _ rfl free
          · rename_i held
            cases moved
            exact .stays record waits _ rfl held
  | finish task =>
      rw [step] at moved
      split at moved
      · rename_i mem
        obtain ⟨db, ran, moved⟩ := (bind_eq_ok ..).1 moved
        cases moved
        -- Only a compression can stop the program.
        cases task with
        | write slice size =>
            cases ran
            exact .wrote slice size mem
        | compress slice size =>
            rw [LogDB.runTask, LogDB.compressInto] at ran
            split at ran
            · cases ran
            · rename_i frame compressed
              cases ran
              exact .compressed slice size mem frame compressed
      · cases moved
  | close =>
      rw [step] at moved
      split at moved
      · cases moved
      rename_i opened
      split at moved
      · cases moved
      rename_i idle
      split at moved
      · cases moved
      rename_i settled
      obtain ⟨db, ran, moved⟩ := (bind_eq_ok ..).1 moved
      cases moved
      -- `close` comes after the last task has ended.
      exact .closes (Option.not_isSome_iff_eq_none.1 idle) (Bool.eq_false_iff.2 opened)
        (Decidable.not_not.1 settled) db ran

end LogRun

end CPUDelaySim
