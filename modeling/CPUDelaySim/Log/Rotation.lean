import CPUDelaySim.Log.LogDB

/-!
# The rotation of the slices

Counted from the beginning, slice `k` is at place `k % 4` of the ring.  The slices before
`written` are in the file, those before `dispatched` are in the file or on their way to it,
those before `filled` are full, and the four from `written` on are the ring.  `Rotates` says
which state that puts each of them in, where the cursors are, and which tasks are in the pool.
It holds whatever the slices contain.

The cursors only grow, and a slice is named by the count at which it is filled, so hardly any lemma
has to reason modulo four.  `Phase` is the state that the count and the cursors leave room for.
Every function of the producer and every task has one lemma that says which cursor it moves;
`Pooled` is kept next to it, as the pool is a bag of tasks and not a queue.
-/

namespace CPUDelaySim

/-- The slice a task works on. -/
def Task.slice : Task → Nat
  | compress slice _ | write slice _ => slice

/-- The task a slice is waiting for. -/
def BufferSlice.task (slice : Nat) (info : BufferSlice) : Option Task :=
  match info.state with
  | .processing => some (.compress slice info.inpBufferIdx)
  | .done => some (.write slice info.outBufferSize)
  | .free | .processReady | .processDone => none

/-- The task that a slice is waiting for is for that slice. -/
theorem BufferSlice.slice_of_task {slice : Nat} {info : BufferSlice} {task : Task}
    (owed : info.task slice = some task) : task.slice = slice := by
  rw [BufferSlice.task] at owed
  cases state : info.state <;> rw [state] at owed <;> cases owed <;> rfl

/-- A free slice waits for no task. -/
theorem BufferSlice.task_free {slice : Nat} {info : BufferSlice} (free : info.state = .free) :
    info.task slice = none := by
  rw [BufferSlice.task, free]

/-- A compressed slice waits for no task until it is its turn to be written. -/
theorem BufferSlice.task_processDone {slice : Nat} {info : BufferSlice}
    (done : info.state = .processDone) : info.task slice = none := by
  rw [BufferSlice.task, done]

namespace LogDB

variable {db : LogDB}

/-- The slice that is changed. -/
@[simp] theorem setSlice_self (db : LogDB) (slice : Nat) (f : BufferSlice → BufferSlice) :
    (db.setSlice slice f).bufferSliceInfo slice = f (db.bufferSliceInfo slice) :=
  Function.update_self ..

/-- The other slices. -/
theorem setSlice_ne (db : LogDB) {slice slice' : Nat} (f : BufferSlice → BufferSlice)
    (other : slice' ≠ slice) :
    (db.setSlice slice f).bufferSliceInfo slice' = db.bufferSliceInfo slice' :=
  Function.update_of_ne other ..

/-! ### The pool -/

/-- The pool holds one task for every slice that waits for one. -/
structure Pooled (info : Nat → BufferSlice) (pool : List Task) : Prop where
  nodup : pool.Nodup
  owed : ∀ task, task ∈ pool ↔
    task.slice < bufferSlice ∧ (info task.slice).task task.slice = some task

/-- A change to a slice that neither waited for a task nor does. -/
theorem Pooled.update {info : Nat → BufferSlice} {pool : List Task} (inv : Pooled info pool)
    {slice : Nat} {info' : BufferSlice} (before : (info slice).task slice = none)
    (after : info'.task slice = none) : Pooled (Function.update info slice info') pool := by
  refine ⟨inv.nodup, fun task => ?_⟩
  rw [inv.owed task]
  by_cases own : task.slice = slice
  · rw [own, Function.update_self, before, after]
  · rw [Function.update_of_ne own]

/-- A slice comes to wait for a task. -/
theorem Pooled.detach {info : Nat → BufferSlice} {pool : List Task} (inv : Pooled info pool)
    {slice : Nat} {info' : BufferSlice} {task : Task} (inside : slice < bufferSlice)
    (before : (info slice).task slice = none) (after : info'.task slice = some task) :
    Pooled (Function.update info slice info') (pool ++ [task]) := by
  have own := BufferSlice.slice_of_task after
  have new : task ∉ pool := by
    rw [inv.owed, own, before]
    rintro ⟨-, none⟩
    cases none
  refine ⟨?_, fun task' => ?_⟩
  · refine List.nodup_append.2 ⟨inv.nodup, List.pairwise_singleton .., ?_⟩
    rintro task' mem _ single rfl
    exact new (List.mem_singleton.1 single ▸ mem)
  · rw [List.mem_append, List.mem_singleton, inv.owed task']
    by_cases same : task'.slice = slice
    · rw [same, Function.update_self, before, after, Option.some.injEq]
      constructor
      · rintro (⟨-, none⟩ | rfl)
        · cases none
        · exact ⟨inside, rfl⟩
      · rintro ⟨-, rfl⟩
        exact .inr rfl
    · rw [Function.update_of_ne same]
      refine or_iff_left ?_
      rintro rfl
      exact same own

/-- A task is done. -/
theorem Pooled.finish {info : Nat → BufferSlice} {pool : List Task} (inv : Pooled info pool)
    {info' : BufferSlice} {task : Task} (mem : task ∈ pool)
    (after : info'.task task.slice = none) :
    Pooled (Function.update info task.slice info') (pool.erase task) := by
  refine ⟨inv.nodup.erase task, fun task' => ?_⟩
  rw [inv.nodup.mem_erase_iff, inv.owed task']
  obtain ⟨inside, waits⟩ := (inv.owed task).1 mem
  by_cases own : task'.slice = task.slice
  · rw [own, Function.update_self, after, waits, Option.some.injEq]
    constructor
    · rintro ⟨other, -, same⟩
      exact absurd same.symm other
    · rintro ⟨-, none⟩
      cases none
  · rw [Function.update_of_ne own]
    refine and_iff_right ?_
    rintro rfl
    exact own rfl

/-! ### The ring -/

/-- The state of slice `k`. -/
def Phase (dispatched filled k : Nat) : BufferState → Prop
  | .free => filled ≤ k
  | .processReady => False
  | .processing | .processDone => dispatched ≤ k ∧ k < filled
  | .done => k < dispatched

/-- The states of the slices in the ring. -/
def Phases (written dispatched filled : Nat) (info : Nat → BufferSlice) : Prop :=
  ∀ k, written ≤ k → k < written + bufferSlice →
    Phase dispatched filled k (info (k % bufferSlice)).state

/-- Between two steps of the producer, no slice is `PROCESS_READY`. -/
structure Rotates (written dispatched filled : Nat) (db : LogDB) : Prop where
  written_le : written ≤ dispatched
  le_written : dispatched ≤ written + 1
  le_filled : dispatched ≤ filled
  filled_le : filled ≤ written + bufferSlice
  slices : Phases written dispatched filled db.bufferSliceInfo
  process : db.processSlice = filled % bufferSlice
  compress : db.compressSlice = filled % bufferSlice
  writeback : db.writebackSlice = dispatched % bufferSlice
  writing : db.isWriting = true ↔ written < dispatched
  pooled : Pooled db.bufferSliceInfo db.pool

/-- At first nothing is filled. -/
theorem init_rotates : Rotates 0 0 0 init := by
  refine ⟨Nat.le_refl 0, Nat.zero_le 1, Nat.le_refl 0, Nat.zero_le 4, ?_, rfl, rfl, rfl, ?_,
    ⟨List.nodup_nil, ?_⟩⟩
  · intro k _ _
    exact Nat.zero_le k
  · exact ⟨nofun, fun less => absurd less (Nat.lt_irrefl 0)⟩
  · intro task
    refine iff_of_false List.not_mem_nil ?_
    rintro ⟨-, none⟩
    cases none

/-- A place of the ring is the place of one slice. -/
theorem exists_slice (written : Nat) {place : Nat} (inside : place < bufferSlice) :
    ∃ k, written ≤ k ∧ k < written + bufferSlice ∧ k % bufferSlice = place := by
  rw [bufferSlice] at inside ⊢
  refine ⟨written + (place + 4 - written % 4) % 4, ?_, ?_, ?_⟩ <;> omega

/-- Two slices of the ring are at two places. -/
theorem slice_injective {written k k' : Nat} (low : written ≤ k) (high : k < written + bufferSlice)
    (low' : written ≤ k') (high' : k' < written + bufferSlice)
    (same : k % bufferSlice = k' % bufferSlice) : k = k' := by
  rw [bufferSlice] at *
  omega

/-- The cursors go round inside the ring. -/
theorem mod_bufferSlice_lt (k : Nat) : k % bufferSlice < bufferSlice := Nat.mod_lt k (by decide)

/-- The slices of the ring, when one of them changes. -/
theorem Phases.update {written dispatched filled dispatched' filled' k₀ : Nat}
    {info : Nat → BufferSlice} (slices : Phases written dispatched filled info)
    (low : written ≤ k₀) (high : k₀ < written + bufferSlice) {info' : BufferSlice}
    (own : Phase dispatched' filled' k₀ info'.state)
    (others : ∀ k st, k ≠ k₀ → Phase dispatched filled k st → Phase dispatched' filled' k st) :
    Phases written dispatched' filled' (Function.update info (k₀ % bufferSlice) info') := by
  intro k low' high'
  by_cases same : k = k₀
  · rw [same, Function.update_self]
    exact own
  · have place : k % bufferSlice ≠ k₀ % bufferSlice := by
      intro equal
      exact same (slice_injective low' high' low high equal)
    rw [Function.update_of_ne place]
    exact others k _ same (slices k low' high')

/-! ### The producer -/

section

variable {written dispatched filled : Nat}

/-- The slice at `process_slice` is free, unless the ring is full. -/
theorem Rotates.free (inv : Rotates written dispatched filled db)
    (room : filled < written + bufferSlice) : db.state (filled % bufferSlice) = .free := by
  have le := inv.le_filled
  have low : written ≤ filled := Nat.le_trans inv.written_le le
  have phase : Phase dispatched filled filled (db.state (filled % bufferSlice)) :=
    inv.slices filled low room
  cases state : db.state (filled % bufferSlice) with
  | free => rfl
  | processReady =>
      rw [state] at phase
      exact phase.elim
  | processing =>
      rw [state] at phase
      exact absurd phase.2 (Nat.lt_irrefl filled)
  | processDone =>
      rw [state] at phase
      exact absurd phase.2 (Nat.lt_irrefl filled)
  | done =>
      rw [state] at phase
      exact absurd phase (Nat.not_lt.2 le)

/-- The slice at `process_slice` is not free, if the ring is full. -/
theorem Rotates.not_free (inv : Rotates written dispatched filled db)
    (full : filled = written + bufferSlice) : db.state (filled % bufferSlice) ≠ .free := by
  have phase : Phase dispatched filled written (db.state (written % bufferSlice)) :=
    inv.slices written (Nat.le_refl _) (Nat.lt_add_of_pos_right (by decide))
  have place : filled % bufferSlice = written % bufferSlice := by
    rw [full, Nat.add_mod_right]
  intro free
  rw [← place, free] at phase
  exact absurd phase (Nat.not_le.2 (full ▸ Nat.lt_add_of_pos_right (by decide)))

/-- The slice to fill is free exactly while fewer than four are filled and not written. -/
theorem Rotates.free_iff (inv : Rotates written dispatched filled db) :
    db.state db.processSlice = .free ↔ filled < written + bufferSlice := by
  rw [inv.process]
  constructor
  · intro free
    refine Nat.lt_of_le_of_ne inv.filled_le ?_
    intro full
    exact inv.not_free full free
  · exact inv.free

/-- Between the calls no slice is ready without a task. -/
theorem Rotates.not_ready (inv : Rotates written dispatched filled db) {place : Nat}
    (inside : place < bufferSlice) : db.state place ≠ .processReady := by
  obtain ⟨k, low, high, rfl⟩ := exists_slice written inside
  intro ready
  have phase : Phase dispatched filled k (db.state (k % bufferSlice)) :=
    inv.slices k low high
  rw [ready] at phase
  exact phase

/-- So that there is nothing to dispatch. -/
theorem Rotates.checkCompress (inv : Rotates written dispatched filled db) :
    db.checkCompress = db := by
  refine if_neg ?_
  rw [inv.compress]
  exact inv.not_ready (mod_bufferSlice_lt filled)

/-- A record is counted in the slice that is filled. -/
theorem copyRecord_info (record : Record) (db : LogDB) :
    (db.copyRecord record).bufferSliceInfo =
      Function.update db.bufferSliceInfo db.processSlice
        { db.bufferSliceInfo db.processSlice with
          inpBufferIdx :=
            (db.bufferSliceInfo db.processSlice).inpBufferIdx + record.bytes.length } := rfl

/-- A copy moves no cursor. -/
theorem Rotates.copyRecord (inv : Rotates written dispatched filled db)
    (room : filled < written + bufferSlice) (record : Record) :
    Rotates written dispatched filled (db.copyRecord record) := by
  have free : (db.bufferSliceInfo (filled % bufferSlice)).state = .free := inv.free room
  have low : written ≤ filled := Nat.le_trans inv.written_le inv.le_filled
  rw [← inv.process] at free
  refine ⟨inv.written_le, inv.le_written, inv.le_filled, inv.filled_le, ?_, inv.process,
    inv.compress, inv.writeback, inv.writing, ?_⟩
  · rw [copyRecord_info, inv.process]
    rw [inv.process] at free
    refine inv.slices.update low room ?_ fun k st _ phase => phase
    dsimp only
    rw [free]
    exact Nat.le_refl filled
  · rw [copyRecord_info]
    exact inv.pooled.update (BufferSlice.task_free free) (BufferSlice.task_free free)

/-- The full slice at `process_slice` goes to the pool. -/
def handOver (db : LogDB) : LogDB :=
  { db.setSlice db.processSlice ({ · with state := .processing }) with
    pool := db.pool ++
      [.compress db.processSlice (db.bufferSliceInfo db.processSlice).inpBufferIdx]
    processSlice := (db.processSlice + 1) % bufferSlice
    compressSlice := (db.processSlice + 1) % bufferSlice }

/-- A slice that is handed over is in process. -/
theorem handOver_info (db : LogDB) :
    db.handOver.bufferSliceInfo =
      Function.update db.bufferSliceInfo db.processSlice
        { db.bufferSliceInfo db.processSlice with state := .processing } := rfl

/-- A slice is handed over when it has reached `SLICE_BUFFER_SIZE`. -/
theorem Rotates.finishSlice_checkCompress (inv : Rotates written dispatched filled db) :
    db.finishSlice.checkCompress =
      if sliceBufferSize ≤ (db.bufferSliceInfo db.processSlice).inpBufferIdx then db.handOver
      else db := by
  rw [finishSlice]
  split
  · have cursor : db.compressSlice = db.processSlice := by rw [inv.compress, inv.process]
    obtain ⟨buffer, info, process, compress⟩ := db
    dsimp only at cursor
    subst cursor
    rw [LogDB.checkCompress, if_pos]
    · dsimp only [setSlice, LogDB.handOver]
      rw [Function.update_self, Function.update_idem]
    · dsimp only [state, setSlice]
      rw [Function.update_self]
  · exact inv.checkCompress

/-- One more slice is filled. -/
theorem Rotates.handOver (inv : Rotates written dispatched filled db)
    (room : filled < written + bufferSlice) :
    Rotates written dispatched (filled + 1) db.handOver := by
  have free : (db.bufferSliceInfo (filled % bufferSlice)).state = .free := inv.free room
  have low : written ≤ filled := Nat.le_trans inv.written_le inv.le_filled
  have next : (db.processSlice + 1) % bufferSlice = (filled + 1) % bufferSlice := by
    rw [inv.process, Nat.mod_add_mod]
  refine ⟨inv.written_le, inv.le_written, Nat.le_succ_of_le inv.le_filled, room, ?_, next, next,
    inv.writeback, inv.writing, ?_⟩
  · rw [handOver_info, inv.process]
    refine inv.slices.update low room ⟨inv.le_filled, Nat.lt_succ_self filled⟩ ?_
    intro k st other phase
    cases st with
    | free => exact Nat.lt_of_le_of_ne phase (Ne.symm other)
    | processReady => exact phase
    | processing => exact ⟨phase.1, Nat.lt_succ_of_lt phase.2⟩
    | processDone => exact ⟨phase.1, Nat.lt_succ_of_lt phase.2⟩
    | done => exact phase
  · refine inv.pooled.detach ?_ ?_ rfl
    · rw [inv.process]
      exact mod_bufferSlice_lt filled
    · rw [inv.process]
      exact BufferSlice.task_free free

/-- What `checkWriteback` does to the rotation: nothing, unless a compressed slice is next and
nothing is being written. -/
theorem Rotates.checkWriteback (inv : Rotates written dispatched filled db) :
    (db.checkWriteback = db ∧
        ¬ (db.state (dispatched % bufferSlice) = .processDone ∧ dispatched = written)) ∨
      (dispatched = written ∧ db.state (dispatched % bufferSlice) = .processDone ∧
        Rotates written (dispatched + 1) filled db.checkWriteback) := by
  by_cases due : db.state db.writebackSlice = .processDone ∧ db.isWriting = false
  · obtain ⟨compressed, idle⟩ := due
    rw [inv.writeback] at compressed
    -- Nothing is being written, so what was dispatched is in the file.
    have same : dispatched = written := by
      have le := inv.written_le
      have notWriting := inv.writing.not.1 (by rw [idle]; exact Bool.false_ne_true)
      omega
    have high : dispatched < written + bufferSlice := same ▸ Nat.lt_add_of_pos_right (by decide)
    have phase : Phase dispatched filled dispatched (db.state (dispatched % bufferSlice)) :=
      inv.slices dispatched inv.written_le high
    rw [compressed] at phase
    have run : db.checkWriteback =
        { db.setSlice db.writebackSlice ({ · with state := .done }) with
          isWriting := true
          pool := db.pool ++
            [.write db.writebackSlice (db.bufferSliceInfo db.writebackSlice).outBufferSize]
          writebackSlice := (db.writebackSlice + 1) % bufferSlice } := by
      refine if_pos ⟨?_, idle⟩
      rw [inv.writeback]
      exact compressed
    refine .inr ⟨same, compressed, ?_⟩
    rw [run]
    refine ⟨Nat.le_succ_of_le inv.written_le, ?_, phase.2, inv.filled_le, ?_, inv.process,
      inv.compress, ?_, ?_, ?_⟩
    · exact Nat.succ_le_succ (Nat.le_of_eq same)
    · change Phases _ _ _ (Function.update db.bufferSliceInfo db.writebackSlice _)
      rw [inv.writeback]
      refine inv.slices.update inv.written_le high (Nat.lt_succ_self dispatched) ?_
      intro k st other phase
      -- The slices ahead are where they were; only the one dispatched has moved on.
      cases st with
      | free => exact phase
      | processReady => exact phase
      | processing => exact ⟨Nat.lt_of_le_of_ne phase.1 (Ne.symm other), phase.2⟩
      | processDone => exact ⟨Nat.lt_of_le_of_ne phase.1 (Ne.symm other), phase.2⟩
      | done => exact Nat.lt_succ_of_lt phase
    · change (db.writebackSlice + 1) % bufferSlice = _
      rw [inv.writeback, Nat.mod_add_mod]
    · exact iff_of_true rfl (same ▸ Nat.lt_succ_self _)
    · change Pooled (Function.update db.bufferSliceInfo db.writebackSlice _) _
      rw [inv.writeback]
      exact inv.pooled.detach (mod_bufferSlice_lt dispatched)
        (BufferSlice.task_processDone compressed) rfl
  · refine .inl ⟨if_neg due, ?_⟩
    rintro ⟨compressed, same⟩
    refine due ⟨?_, ?_⟩
    · rw [inv.writeback]
      exact compressed
    · refine Bool.eq_false_iff.2 fun writing => ?_
      have less := inv.writing.1 writing
      omega

/-! ### The tasks -/

/-- A compression in the pool is of a full slice that is not on its way to the file. -/
theorem Rotates.compress_mem (inv : Rotates written dispatched filled db) {slice size : Nat}
    (mem : .compress slice size ∈ db.pool) :
    ∃ k, dispatched ≤ k ∧ k < filled ∧ k % bufferSlice = slice ∧
      db.state slice = .processing ∧ (db.bufferSliceInfo slice).inpBufferIdx = size := by
  obtain ⟨inside, owed⟩ := (inv.pooled.owed _).1 mem
  dsimp only [Task.slice] at inside owed
  obtain ⟨k, low, high, rfl⟩ := exists_slice written inside
  have phase : Phase dispatched filled k (db.bufferSliceInfo (k % bufferSlice)).state :=
    inv.slices k low high
  rw [BufferSlice.task] at owed
  rw [state]
  cases st : (db.bufferSliceInfo (k % bufferSlice)).state <;> rw [st] at owed phase <;>
    cases owed
  exact ⟨k, phase.1, phase.2, rfl, rfl, rfl⟩

/-- A write in the pool is of the next slice of the file. -/
theorem Rotates.write_mem (inv : Rotates written dispatched filled db) {slice size : Nat}
    (mem : .write slice size ∈ db.pool) :
    dispatched = written + 1 ∧ written % bufferSlice = slice ∧ db.state slice = .done ∧
      (db.bufferSliceInfo slice).outBufferSize = size := by
  obtain ⟨inside, owed⟩ := (inv.pooled.owed _).1 mem
  dsimp only [Task.slice] at inside owed
  obtain ⟨k, low, high, rfl⟩ := exists_slice written inside
  have phase : Phase dispatched filled k (db.bufferSliceInfo (k % bufferSlice)).state :=
    inv.slices k low high
  rw [BufferSlice.task] at owed
  rw [state]
  cases st : (db.bufferSliceInfo (k % bufferSlice)).state <;> rw [st] at owed phase <;>
    cases owed
  have first : k = written := by
    have next := inv.le_written
    have early : k < dispatched := phase
    omega
  subst first
  exact ⟨Nat.le_antisymm inv.le_written phase, rfl, rfl, rfl⟩

/-- A slice has been compressed, whatever the frame. -/
theorem Rotates.compressed (inv : Rotates written dispatched filled db) {slice size : Nat}
    (mem : .compress slice size ∈ db.pool) (info : BufferSlice) (done : info.state = .processDone)
    (buffer : Nat → Byte) :
    Rotates written dispatched filled
      { db with
        bufferSliceInfo := Function.update db.bufferSliceInfo slice info
        buffer := buffer
        pool := db.pool.erase (.compress slice size) } := by
  obtain ⟨k, low, high, rfl, -⟩ := inv.compress_mem mem
  have room : k < written + bufferSlice := Nat.lt_of_lt_of_le high inv.filled_le
  refine ⟨inv.written_le, inv.le_written, inv.le_filled, inv.filled_le, ?_, inv.process,
    inv.compress, inv.writeback, inv.writing, ?_⟩
  · refine inv.slices.update (Nat.le_trans inv.written_le low) room ?_ fun k st _ phase => phase
    rw [done]
    exact ⟨low, high⟩
  · exact inv.pooled.finish mem (BufferSlice.task_processDone done)

/-- A slice has been written. -/
theorem Rotates.wrote (inv : Rotates written dispatched filled db) {slice size : Nat}
    (mem : .write slice size ∈ db.pool) (file : List (List Byte)) :
    Rotates (written + 1) dispatched filled
      { db with
        bufferSliceInfo := Function.update db.bufferSliceInfo slice ⟨.free, 0, 0⟩
        file := file
        isWriting := false
        pool := db.pool.erase (.write slice size) } := by
  obtain ⟨next, rfl, -⟩ := inv.write_mem mem
  refine ⟨Nat.le_of_eq next.symm, Nat.le_succ_of_le (Nat.le_of_eq next), inv.le_filled, ?_, ?_,
    inv.process, inv.compress, inv.writeback, ?_, ?_⟩
  · exact Nat.le_trans inv.filled_le (Nat.add_le_add_right (Nat.le_succ _) _)
  · -- the place of the slice written is now that of the last one in the ring
    intro k low high
    by_cases last : k = written + bufferSlice
    · rw [last, Nat.add_mod_right]
      dsimp only
      rw [Function.update_self]
      exact inv.filled_le
    · have before : k < written + bufferSlice := by omega
      have place : k % bufferSlice ≠ written % bufferSlice := by
        intro equal
        have := slice_injective (Nat.le_of_succ_le low) before (Nat.le_refl written)
          (Nat.lt_add_of_pos_right (by decide)) equal
        omega
      dsimp only
      rw [Function.update_of_ne place]
      exact inv.slices k (Nat.le_of_succ_le low) before
  · rw [next]
    exact iff_of_false Bool.false_ne_true (Nat.lt_irrefl _)
  · exact inv.pooled.finish mem rfl

end

end LogDB

end CPUDelaySim
