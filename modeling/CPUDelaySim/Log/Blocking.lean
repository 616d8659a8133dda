import CPUDelaySim.Log.Rotation

/-!
# The producer in `cv.wait`

`addData` waits until the slice at `process_slice` is free, and only a task wakes it.  Inside
its loop it hands out tasks first, so it never goes back to sleep with none in the pool.  But
the first `cv.wait` comes before that: if all four slices have been compressed since the last
call, none is being written, no task is left, and nothing will ever wake it.

`Rotates.pool_ne_nil` and `Rotates.pool_eq_nil` say when the pool is empty: there is a task exactly
if some full slice is not yet compressed, or is on its way to the file.  That is all the argument
needs, as `addData` calls `checkWriteback` before it goes back to sleep, and not before its first
`cv.wait`.  `Wakeable` is about every moment of a sleep: a producer that is woken may find its
slice still busy.
-/

namespace CPUDelaySim

namespace LogDB

variable {written dispatched filled : Nat} {db : LogDB}

/-- A full slice that is not compressed has a task in the pool. -/
theorem Rotates.pool_ne_nil (inv : Rotates written dispatched filled db) {k : Nat}
    (low : written ≤ k) (full : k < filled)
    (waits : db.state (k % bufferSlice) ≠ .processDone) : db.pool ≠ [] := by
  have phase : Phase dispatched filled k (db.state (k % bufferSlice)) :=
    inv.slices k low (Nat.lt_of_lt_of_le full inv.filled_le)
  obtain ⟨task, owed⟩ :
      ∃ task, (db.bufferSliceInfo (k % bufferSlice)).task (k % bufferSlice) = some task := by
    rw [BufferSlice.task]
    rw [state] at waits phase
    cases st : (db.bufferSliceInfo (k % bufferSlice)).state with
    | free =>
        rw [st] at phase
        exact absurd full (Nat.not_lt.2 phase)
    | processReady =>
        rw [st] at phase
        exact phase.elim
    | processing => exact ⟨_, rfl⟩
    | processDone => exact absurd st waits
    | done => exact ⟨_, rfl⟩
  have slice := BufferSlice.slice_of_task owed
  refine List.ne_nil_of_mem (a := task) ((inv.pooled.owed task).2 ?_)
  rw [slice]
  exact ⟨mod_bufferSlice_lt k, owed⟩

/-- A database whose slices are all compressed has no task in the pool. -/
theorem Rotates.pool_eq_nil (inv : Rotates written dispatched filled db)
    (compressed : ∀ slice < bufferSlice, db.state slice = .processDone) : db.pool = [] := by
  refine List.eq_nil_iff_forall_not_mem.2 fun task mem => ?_
  obtain ⟨inside, owed⟩ := (inv.pooled.owed task).1 mem
  rw [BufferSlice.task_processDone (compressed task.slice inside)] at owed
  cases owed

/-- After `checkWriteback`, a full ring has a task in the pool. -/
theorem Rotates.checkWriteback_pool (inv : Rotates written dispatched filled db)
    (full : filled = written + bufferSlice) : db.checkWriteback.pool ≠ [] := by
  have first : written < filled := full ▸ Nat.lt_add_of_pos_right (by decide)
  rcases inv.checkWriteback with ⟨same, wait⟩ | ⟨same, -, next⟩
  · rw [same]
    refine inv.pool_ne_nil (Nat.le_refl written) first fun compressed => ?_
    have phase : Phase dispatched filled written (db.state (written % bufferSlice)) :=
      inv.slices written (Nat.le_refl _) (full ▸ first)
    rw [compressed] at phase
    have here : dispatched = written := Nat.le_antisymm phase.1 inv.written_le
    exact wait ⟨by rw [here]; exact compressed, here⟩
  · refine next.pool_ne_nil (Nat.le_refl written) first fun compressed => ?_
    have phase : Phase (dispatched + 1) filled written
        (db.checkWriteback.state (written % bufferSlice)) :=
      next.slices written (Nat.le_refl _) (full ▸ first)
    rw [compressed, same] at phase
    exact absurd phase.1 (Nat.not_succ_le_self written)

/-- Copying a record and handing out tasks turns the ring. -/
theorem Rotates.append (inv : Rotates written dispatched filled db)
    (room : filled < written + bufferSlice) (record : Record) :
    ∃ dispatched filled, Rotates written dispatched filled (db.append record) := by
  have copied := inv.copyRecord room record
  obtain ⟨filled', handed⟩ :
      ∃ filled', Rotates written dispatched filled'
        (db.copyRecord record).finishSlice.checkCompress := by
    rw [copied.finishSlice_checkCompress]
    split
    · exact ⟨filled + 1, copied.handOver room⟩
    · exact ⟨filled, copied⟩
  rw [LogDB.append]
  rcases handed.checkWriteback with ⟨same, -⟩ | ⟨-, -, next⟩
  · rw [same]
    exact ⟨dispatched, filled', handed⟩
  · exact ⟨dispatched + 1, filled', next⟩

/-- `close` leaves the pool alone. -/
theorem close_pool {compress : List Byte → Option (List Byte)} {db' : LogDB}
    (ran : db.close compress = .ok db') : db'.pool = db.pool := by
  have writes (turns : Nat) (db : LogDB) : (db.closeWriteback turns).pool = db.pool := by
    induction turns generalizing db with
    | zero => rfl
    | succ turns ih =>
        rw [closeWriteback]
        split
        · exact ih _
        · rfl
  have compresses (turns : Nat) {db db' : LogDB}
      (ran : db.closeCompress compress turns = .ok db') : db'.pool = db.pool := by
    induction turns generalizing db with
    | zero =>
        cases ran
        rfl
    | succ turns ih =>
        rw [closeCompress] at ran
        split at ran
        · obtain ⟨mid, into, ran⟩ := (bind_eq_ok ..).1 ran
          refine (ih ran).trans ?_
          rw [compressInto] at into
          split at into
          · cases into
          · cases into
            rfl
        · cases ran
          rfl
  have slice : db.closeSlice.pool = db.pool := by
    rw [closeSlice]
    dsimp only
    split <;> rfl
  rw [close] at ran
  obtain ⟨mid, first, ran⟩ := (bind_eq_ok ..).1 ran
  cases ran
  rw [writes, compresses _ first, slice]

end LogDB

namespace LogRun

open LogDB (Rotates bufferSlice)

/-- The producer sleeps, and no task has woken it. -/
def Blocked (s : LogRun) : Prop := s.waiting.isSome = true ∧ s.notified = false

/-- A producer that sleeps will be woken. -/
def Wakeable (s : LogRun) : Prop := s.Blocked → s.db.pool ≠ []

/-- `addData` is called when every slice has been compressed and none is being written. -/
def Starves (s : LogRun) : LogStep → Prop
  | .addData _ => s.waiting = none ∧ s.closed = false ∧
      ∀ slice < bufferSlice, s.db.state slice = .processDone
  | .wake | .finish _ | .close => False

/-- What holds of every state of a run: the slices rotate until the database is closed. -/
structure Turning (s : LogRun) : Prop where
  rotates : s.closed = false → ∃ written dispatched filled, Rotates written dispatched filled s.db
  settled : s.closed = true → s.waiting = none ∧ s.db.pool = []

/-- At first the four slices are free. -/
theorem start_turning : start.Turning := ⟨fun _ => ⟨0, 0, 0, LogDB.init_rotates⟩, nofun⟩

variable {compress : List Byte → Option (List Byte)} {s s' : LogRun} {j : LogStep}

/-- A producer that waits does so before the database is closed. -/
theorem Turning.opened (inv : s.Turning) {record : Record} (waits : s.waiting = some record) :
    s.closed = false := by
  refine Bool.eq_false_iff.2 fun closed => ?_
  rw [(inv.settled closed).1] at waits
  cases waits

/-- A task in the pool is there before the database is closed. -/
theorem Turning.opened_of_mem (inv : s.Turning) {task : Task} (mem : task ∈ s.db.pool) :
    s.closed = false := by
  refine Bool.eq_false_iff.2 fun closed => ?_
  rw [(inv.settled closed).2] at mem
  exact List.not_mem_nil mem

/-- Every step keeps the cursors and the tasks in order. -/
theorem Turning.moves (inv : s.Turning) (moved : s.Moves compress j s') : s'.Turning := by
  cases moved with
  | added record idle opened free =>
      obtain ⟨written, dispatched, filled, rotates⟩ := inv.rotates opened
      refine ⟨fun _ => ⟨written, rotates.append (rotates.free_iff.1 free) record⟩, ?_⟩
      intro closed
      rw [copied, opened] at closed
      cases closed
  | blocked record idle opened held =>
      refine ⟨inv.rotates, fun closed => ?_⟩
      rw [opened] at closed
      cases closed
  | resumed record waits db checked free =>
      have opened := inv.opened waits
      obtain ⟨written, dispatched, filled, rotates⟩ := inv.rotates opened
      refine ⟨fun _ => ?_, fun closed => ?_⟩
      · -- `checkCompress` finds nothing to do, so only `checkWriteback` may have freed a slice.
        rw [rotates.checkCompress] at checked
        subst checked
        rcases rotates.checkWriteback with ⟨same, -⟩ | ⟨-, -, next⟩
        · rw [same] at free ⊢
          exact ⟨written, rotates.append (rotates.free_iff.1 free) record⟩
        · exact ⟨written, next.append (next.free_iff.1 free) record⟩
      · rw [copied, opened] at closed
        cases closed
  | stays record waits db checked held =>
      have opened := inv.opened waits
      obtain ⟨written, dispatched, filled, rotates⟩ := inv.rotates opened
      refine ⟨fun _ => ?_, fun closed => ?_⟩
      · rw [rotates.checkCompress] at checked
        subst checked
        rcases rotates.checkWriteback with ⟨same, -⟩ | ⟨-, -, next⟩
        · rw [same]
          exact ⟨written, dispatched, filled, rotates⟩
        · exact ⟨written, dispatched + 1, filled, next⟩
      · rw [opened] at closed
        cases closed
  | compressed slice size mem frame ran =>
      have opened := inv.opened_of_mem mem
      obtain ⟨written, dispatched, filled, rotates⟩ := inv.rotates opened
      refine ⟨fun _ => ⟨written, dispatched, filled, rotates.compressed mem _ rfl _⟩, ?_⟩
      intro closed
      rw [opened] at closed
      cases closed
  | wrote slice size mem =>
      have opened := inv.opened_of_mem mem
      obtain ⟨written, dispatched, filled, rotates⟩ := inv.rotates opened
      refine ⟨fun _ => ⟨written + 1, dispatched, filled, rotates.wrote mem _⟩, ?_⟩
      intro closed
      rw [opened] at closed
      cases closed
  | closes idle opened settled db ran =>
      refine ⟨nofun, fun _ => ⟨idle, ?_⟩⟩
      rw [← settled]
      exact LogDB.close_pool ran

/-- Only a call of `addData` can put the producer to sleep for good. -/
theorem Turning.wakeable_moves (inv : s.Turning) (fed : ¬ s.Starves j)
    (moved : s.Moves compress j s') : s'.Wakeable := by
  cases moved with
  | added record idle opened free =>
      rintro ⟨waits, -⟩
      cases waits
  | blocked record idle opened held =>
      rintro -
      obtain ⟨written, dispatched, filled, rotates⟩ := inv.rotates opened
      have full : filled = written + bufferSlice := by
        have le := rotates.filled_le
        have := rotates.free_iff.not.1 held
        omega
      -- With all slices taken and no task in the pool, every slice would have to wait for more.
      by_contra empty
      refine fed ⟨idle, opened, fun place inside => ?_⟩
      obtain ⟨k, low, high, rfl⟩ := LogDB.exists_slice written inside
      by_contra waits
      exact rotates.pool_ne_nil low (full ▸ high) waits empty
  | resumed record waits db checked free =>
      rintro ⟨waits, -⟩
      cases waits
  | stays record waits db checked held =>
      rintro -
      obtain ⟨written, dispatched, filled, rotates⟩ := inv.rotates (inv.opened waits)
      rw [rotates.checkCompress] at checked
      subst checked
      refine rotates.checkWriteback_pool ?_
      have le := rotates.filled_le
      rcases rotates.checkWriteback with ⟨same, -⟩ | ⟨-, -, next⟩
      · rw [same] at held
        have := rotates.free_iff.not.1 held
        omega
      · have := next.free_iff.not.1 held
        omega
  | compressed slice size mem frame ran =>
      rintro ⟨-, quiet⟩
      cases quiet
  | wrote slice size mem =>
      rintro ⟨-, quiet⟩
      cases quiet
  | closes idle opened settled db ran =>
      rintro ⟨waits, -⟩
      dsimp only at waits
      rw [idle] at waits
      cases waits

variable (compress) in
/-- A starving call sleeps for good. -/
theorem Turning.starves (inv : s.Turning) (starves : s.Starves j) :
    ∃ s', step compress s j = .ok s' ∧ ¬ s'.Wakeable := by
  cases j with
  | wake => exact starves.elim
  | finish task => exact starves.elim
  | close => exact starves.elim
  | addData record =>
      obtain ⟨idle, opened, compressed⟩ := starves
      obtain ⟨written, dispatched, filled, rotates⟩ := inv.rotates opened
      have held : s.db.state s.db.processSlice ≠ .free := by
        rw [rotates.process, compressed _ (LogDB.mod_bufferSlice_lt filled)]
        rintro ⟨⟩
      refine ⟨{ s with waiting := some record, notified := false }, ?_, fun wakeable => ?_⟩
      · rw [step, if_neg (by rw [opened]; rintro ⟨⟩), if_neg (by rw [idle]; rintro ⟨⟩), tryCopy,
          if_neg held]
      · exact wakeable ⟨rfl, rfl⟩ (rotates.pool_eq_nil compressed)

/-- In every run, a producer that sleeps will be woken exactly as long as `addData` is not
called when every slice has been compressed and none is being written. Only a task of the pool
notifies the producer, and `addData` sleeps before it has dispatched one. -/
theorem wakeable_iff_fed (compress : List Byte → Option (List Byte)) (steps : List LogStep) :
    (∀ before, before <+: steps → Returns (runSteps (step compress) start before) Wakeable) ↔
      ∀ s j, Visits (step compress) start steps s j → ¬ s.Starves j := by
  refine runSteps_prefix_returns_iff Turning ?_ ?_ start_turning nofun steps
  · intro s j s' inv fed moved
    have moves := step_moves moved
    exact ⟨inv.moves moves, inv.wakeable_moves fed moves⟩
  · intro s j inv starves
    exact inv.starves compress starves

/-! ### A producer ahead of the tasks -/

/-- What holds while no task runs: `filled` slices are in the pool, and the next holds `idx`
bytes. -/
structure Filling (filled idx : Nat) (s : LogRun) : Prop where
  idle : s.waiting = none
  opened : s.closed = false
  rotates : Rotates 0 0 filled s.db
  pooled : ∀ k < filled, s.db.bufferSliceInfo k = ⟨.processing, LogDB.sliceBufferSize, 0⟩
  current : filled < bufferSlice → s.db.bufferSliceInfo filled = ⟨.free, idx, 0⟩
  later : ∀ k, filled < k → k < bufferSlice → s.db.bufferSliceInfo k = ⟨.free, 0, 0⟩

/-- At first nothing is filled. -/
theorem start_filling : start.Filling 0 0 :=
  ⟨rfl, rfl, LogDB.init_rotates, nofun, fun _ => rfl, fun _ _ _ => rfl⟩

/-- The slices of a filling database, when the current one changes. -/
theorem Filling.update {filled idx : Nat} (inv : s.Filling filled idx) (info : BufferSlice) :
    (∀ k < filled, Function.update s.db.bufferSliceInfo filled info k =
        ⟨.processing, LogDB.sliceBufferSize, 0⟩) ∧
      ∀ k, filled < k → k < bufferSlice →
        Function.update s.db.bufferSliceInfo filled info k = ⟨.free, 0, 0⟩ := by
  refine ⟨fun k below => ?_, fun k above inside => ?_⟩
  · rw [Function.update_of_ne (Nat.ne_of_lt below)]
    exact inv.pooled k below
  · rw [Function.update_of_ne (Nat.ne_of_gt above)]
    exact inv.later k above inside

/-- Nothing is compressed, so nothing is written. -/
theorem Filling.checkWriteback {filled filled' idx : Nat} (inv : s.Filling filled idx)
    {db : LogDB} (rotates : Rotates 0 0 filled' db) {info : BufferSlice}
    (slices : db.bufferSliceInfo = Function.update s.db.bufferSliceInfo filled info)
    (fresh : info.state ≠ .processDone) : db.checkWriteback = db := by
  have first : db.state 0 ≠ .processDone := by
    rw [LogDB.state, slices]
    by_cases zero : filled = 0
    · rw [zero, Function.update_self]
      exact fresh
    · rw [Function.update_of_ne (Ne.symm zero), inv.pooled 0 (Nat.pos_of_ne_zero zero)]
      rintro ⟨⟩
  rcases rotates.checkWriteback with ⟨same, -⟩ | ⟨-, compressed, -⟩
  · exact same
  · exact absurd compressed first

variable (compress) in
/-- A record that fits goes into the slice, and with the last byte the slice goes into the
pool. -/
theorem Filling.addData {filled idx : Nat} (inv : s.Filling filled idx)
    (room : filled < bufferSlice) (record : Record)
    (fits : idx + record.bytes.length ≤ LogDB.sliceBufferSize) :
    step compress s (.addData record) = .ok (s.copied record) ∧
      if idx + record.bytes.length = LogDB.sliceBufferSize then
        (s.copied record).Filling (filled + 1) 0
      else (s.copied record).Filling filled (idx + record.bytes.length) := by
  have place : s.db.processSlice = filled := by
    rw [inv.rotates.process, Nat.mod_eq_of_lt room]
  have space : filled < 0 + bufferSlice := by rwa [Nat.zero_add]
  refine ⟨?_, ?_⟩
  · rw [step, if_neg (by rw [inv.opened]; rintro ⟨⟩), if_neg (by rw [inv.idle]; rintro ⟨⟩), tryCopy,
      if_pos (inv.rotates.free_iff.2 space)]
  have copied := inv.rotates.copyRecord space record
  have place' : (s.db.copyRecord record).processSlice = filled := place
  have info : (s.db.copyRecord record).bufferSliceInfo =
      Function.update s.db.bufferSliceInfo filled ⟨.free, idx + record.bytes.length, 0⟩ := by
    rw [LogDB.copyRecord_info, place, inv.current room]
  have whole : (s.copied record).db =
      (if LogDB.sliceBufferSize ≤ idx + record.bytes.length then
        (s.db.copyRecord record).handOver else s.db.copyRecord record).checkWriteback := by
    change s.db.append record = _
    rw [LogDB.append, copied.finishSlice_checkCompress, info, place', Function.update_self]
  split
  · -- The last byte hands the slice to the pool.
    rename_i full
    have handed := copied.handOver space
    have info' : (s.db.copyRecord record).handOver.bufferSliceInfo =
        Function.update s.db.bufferSliceInfo filled ⟨.processing, LogDB.sliceBufferSize, 0⟩ := by
      rw [LogDB.handOver_info, info, place', Function.update_self, Function.update_idem, full]
    rw [if_pos (Nat.le_of_eq full.symm),
      inv.checkWriteback handed info' (by decide)] at whole
    obtain ⟨before, after⟩ := inv.update ⟨.processing, LogDB.sliceBufferSize, 0⟩
    refine ⟨rfl, inv.opened, ?_, ?_, ?_, ?_⟩
    · rw [whole]
      exact handed
    · rw [whole, info']
      intro k below
      rcases Nat.lt_succ_iff_lt_or_eq.1 below with old | rfl
      · exact before k old
      · exact Function.update_self ..
    · rw [whole, info']
      exact fun next => after _ (Nat.lt_succ_self filled) next
    · rw [whole, info']
      exact fun k above inside => after k (Nat.lt_of_succ_lt above) inside
  · -- The slice is still being filled.
    rename_i part
    have less : ¬ LogDB.sliceBufferSize ≤ idx + record.bytes.length := by omega
    rw [if_neg less,
      inv.checkWriteback copied info (show BufferState.free ≠ .processDone by decide)]
      at whole
    obtain ⟨before, after⟩ := inv.update ⟨.free, idx + record.bytes.length, 0⟩
    refine ⟨rfl, inv.opened, ?_, ?_, ?_, ?_⟩
    · rw [whole]
      exact copied
    · rw [whole, info]
      exact before
    · rw [whole, info]
      exact fun _ => Function.update_self ..
    · rw [whole, info]
      exact after

variable (compress) in
/-- Records of one size go into the slice as long as they leave room in it. -/
theorem Filling.addMany {filled : Nat} (inv : s.Filling filled 0) (room : filled < bufferSlice)
    (record : Record) (count : Nat)
    (less : record.bytes.length * count < LogDB.sliceBufferSize) :
    ∃ s', runSteps (step compress) s (List.replicate count (.addData record)) = .ok s' ∧
      s'.Filling filled (record.bytes.length * count) := by
  induction count with
  | zero => exact ⟨s, rfl, inv⟩
  | succ count ih =>
      rw [Nat.mul_succ] at less
      obtain ⟨s', ran, filling⟩ := ih (by omega)
      obtain ⟨moved, next⟩ :=
        filling.addData compress room record (Nat.le_of_lt less)
      rw [if_neg (Nat.ne_of_lt less)] at next
      refine ⟨_, ?_, next⟩
      rw [List.replicate_succ']
      exact runSteps_concat ran moved

/-- Records of one size fill the slice. -/
theorem Filling.addAll {filled : Nat} (inv : s.Filling filled 0) (room : filled < bufferSlice)
    (record : Record) (count : Nat) (pos : 0 < record.bytes.length)
    (full : record.bytes.length * count + record.bytes.length = LogDB.sliceBufferSize) :
    ∃ s', runSteps (step compress) s
        (List.replicate count (.addData record) ++ [.addData record]) = .ok s' ∧
      s'.Filling (filled + 1) 0 := by
  obtain ⟨s', ran, filling⟩ :=
    inv.addMany compress room record count (by omega)
  obtain ⟨moved, next⟩ :=
    filling.addData compress room record (Nat.le_of_eq full)
  rw [if_pos full] at next
  exact ⟨_, runSteps_concat ran moved, next⟩

/-- The four slices are full; the first `done` of them are compressed. -/
structure Draining (done : Nat) (s : LogRun) : Prop where
  idle : s.waiting = none
  opened : s.closed = false
  rotates : Rotates 0 0 bufferSlice s.db
  compressed : ∀ k < done, s.db.state k = .processDone
  pooled : ∀ k, done ≤ k → k < bufferSlice →
    s.db.bufferSliceInfo k = ⟨.processing, LogDB.sliceBufferSize, 0⟩

/-- With the four slices full, the pool has them to compress. -/
theorem Filling.draining {idx : Nat} (inv : s.Filling bufferSlice idx) : s.Draining 0 :=
  ⟨inv.idle, inv.opened, inv.rotates, nofun, fun k _ inside => inv.pooled k inside⟩

/-- One slice after the other is compressed, and nobody is woken for it. -/
theorem Draining.finish {done : Nat} (inv : s.Draining done) (left : done < bufferSlice) :
    ∃ s', step some s (.finish (.compress done LogDB.sliceBufferSize)) = .ok s' ∧
      s'.Draining (done + 1) := by
  have info := inv.pooled done (Nat.le_refl done) left
  have mem : .compress done LogDB.sliceBufferSize ∈ s.db.pool := by
    refine (inv.rotates.pooled.owed _).2 ⟨left, ?_⟩
    dsimp only [Task.slice]
    rw [info]
    rfl
  refine ⟨_, if_pos mem, inv.idle, inv.opened, inv.rotates.compressed mem _ rfl _, ?_, ?_⟩
  · intro k below
    dsimp only [LogDB.state, LogDB.setSlice]
    by_cases last : k = done
    · rw [last, Function.update_self]
    · rw [Function.update_of_ne last]
      exact inv.compressed k (Nat.lt_of_le_of_ne (Nat.lt_succ_iff.1 below) last)
  · intro k above inside
    dsimp only [LogDB.setSlice]
    rw [Function.update_of_ne (Nat.ne_of_gt above)]
    exact inv.pooled k (Nat.le_of_succ_le above) inside

/-- A record of 1024 bytes, of which a slice takes 8193. -/
def page : Record where
  bytes := List.replicate 1024 0
  fits := by
    rw [List.length_replicate]
    decide

/-- A slice is filled, page by page. -/
def pagesSteps : List LogStep := List.replicate 8192 (.addData page) ++ [.addData page]

/-- The pages of the example fill a slice exactly. -/
theorem page_fills : page.bytes.length * 8192 + page.bytes.length = LogDB.sliceBufferSize := by
  rw [page, List.length_replicate]
  decide

/-- The producer fills the four slices, all of them are compressed, and it has one more
record. -/
def fourSlicesSteps : List LogStep :=
  pagesSteps ++ (pagesSteps ++ (pagesSteps ++ (pagesSteps ++
    [.finish (.compress 0 LogDB.sliceBufferSize), .finish (.compress 1 LogDB.sliceBufferSize),
      .finish (.compress 2 LogDB.sliceBufferSize), .finish (.compress 3 LogDB.sliceBufferSize),
      .addData page])))

/-- The producer sleeps, and no task is left. -/
theorem not_wakeable_fourSlicesSteps :
    ¬ ∀ before, before <+: fourSlicesSteps →
      Returns (runSteps (step some) start before) Wakeable := by
  intro all
  have fill {filled : Nat} {s : LogRun} (filling : s.Filling filled 0)
      (room : filled < bufferSlice) :
      ∃ s', runSteps (step some) s pagesSteps = .ok s' ∧ s'.Filling (filled + 1) 0 := by
    refine filling.addAll room page 8192 ?_ page_fills
    rw [page, List.length_replicate]
    decide
  obtain ⟨s₁, filled₁, filling⟩ := fill start_filling (by decide)
  obtain ⟨s₂, filled₂, filling⟩ := fill filling (by decide)
  obtain ⟨s₃, filled₃, filling⟩ := fill filling (by decide)
  obtain ⟨s₄, filled₄, filling⟩ := fill filling (by decide)
  obtain ⟨t₁, done₁, draining⟩ := filling.draining.finish (by decide)
  obtain ⟨t₂, done₂, draining⟩ := draining.finish (by decide)
  obtain ⟨t₃, done₃, draining⟩ := draining.finish (by decide)
  obtain ⟨t₄, done₄, draining⟩ := draining.finish (by decide)
  have turning : t₄.Turning := by
    refine ⟨fun _ => ⟨0, 0, bufferSlice, draining.rotates⟩, fun closed => ?_⟩
    rw [draining.opened] at closed
    cases closed
  obtain ⟨t, asked, lost⟩ := turning.starves some (j := .addData page)
    ⟨draining.idle, draining.opened, draining.compressed⟩
  refine lost (all fourSlicesSteps (List.prefix_refl _) t ?_)
  rw [fourSlicesSteps, runSteps_append_of_ok filled₁, runSteps_append_of_ok filled₂,
    runSteps_append_of_ok filled₃, runSteps_append_of_ok filled₄]
  rw [runSteps_cons, done₁]
  change runSteps (step some) t₁ _ = _
  rw [runSteps_cons, done₂]
  change runSteps (step some) t₂ _ = _
  rw [runSteps_cons, done₃]
  change runSteps (step some) t₃ _ = _
  rw [runSteps_cons, done₄]
  change runSteps (step some) t₄ _ = _
  rw [runSteps_cons, asked]
  rfl

end LogRun

end CPUDelaySim
